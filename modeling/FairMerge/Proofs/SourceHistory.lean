import FairMerge.Proofs.History

/-! # The history of one source

A view changes a source by pulling and releasing it and by telling it something; that is to serve.
Besides, a source only ever changes by being acted on and by being given a notifier.
`Producer.Serves` and `Producer.Becomes` follow one source through these changes and keep the
answers that it gave and the actions that it underwent, so that what is true of a source by itself
is true of it in every network. -/

namespace FairMerge

namespace Producer

variable {σ α : Type} [Producer σ α]

/-- A source comes from one state to another by serving, and meanwhile gives the answers. -/
inductive Serves (source : σ) : List Answer → σ → Prop where
  | refl : Serves source [] source
  | pull {answers : List Answer} {state : σ} :
    Serves source answers state → Serves source (answers ++ [(pull state).1]) (pull state).2
  | release {answers : List Answer} {state : σ} :
    Serves source answers state → Serves source answers (release state).2
  | requireSegment {answers : List Answer} {state : σ} (id : SourceId) (segment : UInt32) :
    Serves source answers state → Serves source answers (requireSegment id segment state)
  | resize {answers : List Answer} {state : σ} (size : Nat) :
    Serves source answers state → Serves source answers (resize size state)

/-- A source comes from one state to another, and meanwhile gives the answers and undergoes the
actions. The notifiers that it is given meanwhile are among those that the statement allows. -/
inductive Becomes (issued : Notifier → Prop) (source : σ) : List Answer → List α → σ → Prop where
  | refl : Becomes issued source [] [] source
  | serve {answers served : List Answer} {actions : List α} {state later : σ} :
    Becomes issued source answers actions state → Serves state served later →
    Becomes issued source (answers ++ served) actions later
  | act {answers : List Answer} {actions : List α} {state : σ} (action : α) :
    Becomes issued source answers actions state →
    Becomes issued source answers (actions ++ [action]) (act action state).1
  | attach {answers : List Answer} {actions : List α} {state : σ} {notifier : Notifier} :
    issued notifier → Becomes issued source answers actions state →
    Becomes issued source answers actions (attach notifier state).1

theorem Serves.trans {first second third : σ} {answers answers' : List Answer}
    (before : Serves first answers second) (later : Serves second answers' third) :
    Serves first (answers ++ answers') third := by
  induction later with
  | refl => simpa using before
  | pull _ ih =>
    rw [← List.append_assoc]
    exact ih.pull
  | release _ ih => exact ih.release
  | requireSegment id segment _ ih => exact ih.requireSegment id segment
  | resize size _ ih => exact ih.resize size

theorem Becomes.trans {issued : Notifier → Prop} {first second third : σ}
    {answers answers' : List Answer} {actions actions' : List α}
    (before : Becomes issued first answers actions second)
    (later : Becomes issued second answers' actions' third) :
    Becomes issued first (answers ++ answers') (actions ++ actions') third := by
  induction later with
  | refl => simpa using before
  | serve _ served ih =>
    rw [← List.append_assoc]
    exact ih.serve served
  | act action _ ih =>
    rw [← List.append_assoc]
    exact ih.act action
  | attach allowed _ ih => exact ih.attach allowed

/-! ### At a place of a pool -/

/-- The relation holds between the sources at a place of two pools, if the place is in them. -/
def At (place : SourceRef) (rel : σ → σ → Prop) (sources later : List σ) : Prop :=
  sources[place]? = none ∧ later[place]? = none ∨
    ∃ source state, sources[place]? = some source ∧ later[place]? = some state ∧ rel source state

section At

omit [Producer σ α]

variable {place target : SourceRef} {rel : σ → σ → Prop} {sources later : List σ}

theorem At.refl (place : SourceRef) (sources : List σ) (same : ∀ source, rel source source) :
    At place rel sources sources := by
  cases found : sources[place]? with
  | none => exact .inl ⟨found, found⟩
  | some source => exact .inr ⟨source, source, found, found, same source⟩

theorem At.trans {rel' rel'' : σ → σ → Prop} {first second third : List σ}
    (before : At place rel first second) (later : At place rel' second third)
    (compose : ∀ {x y z}, rel x y → rel' y z → rel'' x z) : At place rel'' first third := by
  rcases before with ⟨none, none'⟩ | ⟨source, state, found, found', became⟩
  · rcases later with ⟨_, none''⟩ | ⟨_, _, some', _⟩
    · exact .inl ⟨none, none''⟩
    · rw [none'] at some'
      cases some'
  · rcases later with ⟨none', _⟩ | ⟨source', state', some', found'', became'⟩
    · rw [found'] at none'
      cases none'
    · rw [found', Option.some.injEq] at some'
      subst some'
      exact .inr ⟨source, state', found, found'', compose became became'⟩

theorem At.mono {rel' : σ → σ → Prop} (at' : At place rel sources later)
    (weaken : ∀ {x y}, rel x y → rel' x y) : At place rel' sources later :=
  at'.imp id fun ⟨source, state, found, found', became⟩ =>
    ⟨source, state, found, found', weaken became⟩

theorem At.set {old new : σ} (found : sources[target]? = some old)
    (changed : target = place → rel old new) (same : target ≠ place → ∀ source, rel source source) :
    At place rel sources (sources.set target new) := by
  by_cases here : target = place
  · subst here
    have inside : target < sources.length := (List.getElem?_eq_some_iff.mp found).1
    exact .inr ⟨old, new, found, by simp [inside], changed rfl⟩
  · rcases At.refl place sources (same here) with ⟨none, _⟩ | ⟨source, _, found, _, became⟩
    · exact .inl ⟨none, by rw [List.getElem?_set_ne here, none]⟩
    · exact .inr ⟨source, source, found, by rw [List.getElem?_set_ne here, found],
        same here source⟩

theorem At.modify {change : σ → σ} (place target : SourceRef) (sources : List σ)
    (changed : ∀ source, rel source (change source)) (same : ∀ source, rel source source) :
    At place rel sources (sources.modify target change) := by
  by_cases here : target = place
  · subst here
    cases found : sources[target]? with
    | none => exact .inl ⟨found, by simp [found]⟩
    | some source => exact .inr ⟨source, change source, found, by simp [found], changed source⟩
  · rcases At.refl place sources same with ⟨none, _⟩ | ⟨source, _, found, _, became⟩
    · exact .inl ⟨none, by rw [List.getElem?_modify_ne _ _ here, none]⟩
    · exact .inr ⟨source, source, found, by rw [List.getElem?_modify_ne _ _ here, found],
        same source⟩

/-- What stands at a place stood there before in another state. -/
theorem At.of_later {state : σ} (at' : At place rel sources later)
    (found : later[place]? = some state) :
    ∃ source, sources[place]? = some source ∧ rel source state := by
  rcases at' with ⟨_, none⟩ | ⟨source, _, found', present, became⟩
  · rw [none] at found
    cases found
  · rw [present, Option.some.injEq] at found
    subst found
    exact ⟨source, found', became⟩

/-- What stands at a place still stands there in another state. -/
theorem At.of_earlier {source : σ} (at' : At place rel sources later)
    (found : sources[place]? = some source) :
    ∃ state, later[place]? = some state ∧ rel source state := by
  rcases at' with ⟨none, _⟩ | ⟨_, state, present, found', became⟩
  · rw [none] at found
    cases found
  · rw [present, Option.some.injEq] at found
    subst found
    exact ⟨state, found', became⟩

end At

/-- The source at a place serves from one pool to the other. -/
def ServesAt (place : SourceRef) (answers : List Answer) : List σ → List σ → Prop :=
  At place fun source => Serves source answers

/-- The source at a place of the first pool becomes the one at that place of the second. -/
def BecomesAt (issued : Notifier → Prop) (place : SourceRef) (answers : List Answer)
    (actions : List α) : List σ → List σ → Prop :=
  At place fun source => Becomes issued source answers actions

theorem ServesAt.refl (place : SourceRef) (sources : List σ) : ServesAt place [] sources sources :=
  At.refl place sources fun _ => .refl

theorem ServesAt.trans {place : SourceRef} {answers answers' : List Answer}
    {first second third : List σ} (before : ServesAt place answers first second)
    (later : ServesAt place answers' second third) :
    ServesAt place (answers ++ answers') first third :=
  At.trans before later Serves.trans

theorem ServesAt.becomesAt {place : SourceRef} {answers : List Answer} {sources later : List σ}
    (served : ServesAt place answers sources later) (issued : Notifier → Prop) :
    BecomesAt issued place answers ([] : List α) sources later :=
  At.mono served fun serves => Becomes.refl.serve serves

theorem BecomesAt.refl (issued : Notifier → Prop) (place : SourceRef) (sources : List σ) :
    BecomesAt issued place [] ([] : List α) sources sources :=
  At.refl place sources fun _ => .refl

theorem BecomesAt.trans {issued : Notifier → Prop} {place : SourceRef}
    {answers answers' : List Answer} {actions actions' : List α} {first second third : List σ}
    (before : BecomesAt issued place answers actions first second)
    (later : BecomesAt issued place answers' actions' second third) :
    BecomesAt issued place (answers ++ answers') (actions ++ actions') first third :=
  At.trans before later Becomes.trans

theorem servesAt_pullAt (place : SourceRef) {target : SourceRef} {sources later : List σ}
    {answer : Answer} (pulled : pullAt sources target = (answer, later)) :
    ServesAt place (if target = place then [answer] else []) sources later := by
  unfold pullAt at pulled
  cases found : sources[target]? with
  | none =>
    simp only [found, Prod.mk.injEq] at pulled
    obtain ⟨_, rfl⟩ := pulled
    by_cases same : target = place
    · exact .inl ⟨same ▸ found, same ▸ found⟩
    · rw [if_neg same]
      exact .refl place sources
  | some state =>
    simp only [found, Prod.mk.injEq] at pulled
    obtain ⟨rfl, rfl⟩ := pulled
    apply At.set found
    · intro same
      rw [if_pos same]
      exact Serves.refl.pull
    · intro different source
      rw [if_neg different]
      exact .refl

/-- A pull leaves the other places of the pool alone. -/
theorem getElem?_of_pullAt_of_ne {place target : SourceRef} {sources later : List σ}
    {answer : Answer} (pulled : pullAt sources target = (answer, later))
    (different : target ≠ place) : later[place]? = sources[place]? := by
  unfold pullAt at pulled
  cases found : sources[target]? with
  | none =>
    simp only [found, Prod.mk.injEq] at pulled
    rw [pulled.2]
  | some state =>
    simp only [found, Prod.mk.injEq] at pulled
    rw [← pulled.2]
    exact List.getElem?_set_ne different

theorem servesAt_releaseAt (place target : SourceRef) (sources : List σ) :
    ServesAt place [] sources (releaseAt sources target).2 := by
  unfold releaseAt
  cases found : sources[target]? with
  | none => exact .refl place sources
  | some state => exact At.set found (fun _ => Serves.refl.release) fun _ _ => .refl

theorem servesAt_modify {change : σ → σ} (place target : SourceRef) (sources : List σ)
    (served : ∀ state, Serves state [] (change state)) :
    ServesAt place [] sources (sources.modify target change) :=
  At.modify place target sources served fun _ => .refl

/-- From one pool to another, every source at most serves. -/
def Served (sources later : List σ) : Prop :=
  ∀ place, ∃ answers, ServesAt place answers sources later

theorem Served.refl (sources : List σ) : Served sources sources := fun place =>
  ⟨[], .refl place sources⟩

theorem Served.trans {first second third : List σ} (before : Served first second)
    (later : Served second third) : Served first third := by
  intro place
  obtain ⟨answers, served⟩ := before place
  obtain ⟨answers', served'⟩ := later place
  exact ⟨answers ++ answers', served.trans served'⟩

theorem served_pullAt {target : SourceRef} {sources later : List σ} {answer : Answer}
    (pulled : pullAt sources target = (answer, later)) : Served sources later :=
  fun place => ⟨_, servesAt_pullAt place pulled⟩

end Producer

/-! ### Answers in the journal -/

/-- The answer that the source at a place gave, if the pull was one of it. -/
def Pull.answer? (place : SourceRef) (pull : Pull) : Option Answer :=
  if pull.source = place then some pull.answer else none

/-- The answer that the source at a place gave to the view, if it was pulled. -/
def Activity.answer? (place : SourceRef) : Activity → Option Answer
  | pulled pull => pull.answer? place
  | _ => none

/-- A release pulls nothing. -/
theorem Activity.answers_map_released (place : SourceRef)
    (released : List (Registration × Option Error)) :
    (released.map fun (entry, error?) => Activity.released entry error?).filterMap
      (answer? place) = [] := by
  rw [List.filterMap_map, List.filterMap_eq_nil_iff]
  intro pair _
  rfl

/-- The answer that the source at a place gave, to whomever. -/
def Event.answer? (place : SourceRef) : Event → Option Answer
  | view _ activity => activity.answer? place
  | drawn source answer => if source = place then some answer else none
  | signalled _ => none

/-- The answers that the source at a place gave, in order. -/
def Event.answers (place : SourceRef) (events : List Event) : List Answer :=
  events.filterMap (Event.answer? place)

theorem Event.answers_append (place : SourceRef) (first second : List Event) :
    answers place (first ++ second) = answers place first ++ answers place second :=
  List.filterMap_append

theorem Event.answers_map_view (place : SourceRef) (ref : ViewRef) (log : List Activity) :
    answers place (log.map (view ref)) = log.filterMap (Activity.answer? place) := by
  rw [answers, List.filterMap_map]
  rfl

/-- The notifiers that a command may give to a source. -/
def Command.Attaches {α : Type} (given : Notifier) : Command Notifier α → Prop
  | attach _ notifier => given = notifier
  | add ref source => given = ⟨ref, source⟩
  | _ => False

/-- The actions of a command on the source at a place. -/
def Command.actions {ν α : Type} (place : SourceRef) : Command ν α → List α
  | act source action => if source = place then [action] else []
  | _ => []

theorem Command.actions_of_resolve? {ν μ α : Type} {find? : ν → Option μ} {command : Command ν α}
    {resolved : Command μ α} (found : command.resolve? find? = some resolved) (place : SourceRef) :
    resolved.actions place = command.actions place := by
  cases command with
  | act source action =>
    simp only [resolve?, Option.some.injEq] at found
    subst found
    rfl
  | attach | ring | isAlive =>
    simp only [resolve?, Option.map_eq_some_iff] at found
    obtain ⟨_, _, rfl⟩ := found
    rfl
  | _ =>
    simp only [resolve?, Option.some.injEq] at found
    subst found
    rfl

/-- A command that names a notifier which means nothing acts on no source. -/
theorem Command.actions_of_resolve?_eq_none {ν μ α : Type} {find? : ν → Option μ}
    {command : Command ν α} (lost : command.resolve? find? = none) (place : SourceRef) :
    command.actions place = [] := by
  cases command with
  | act source action => cases lost
  | _ => rfl

/-! ### What the operations of a view do to a source -/

open Producer

variable {σ α : Type} [Producer σ α]

theorem Pass.Course.servesAt {registry : Registry} {room : Nat} {rotation : Rotation}
    {sources : List σ} {pass : Pass σ} (course : Course registry room rotation sources pass)
    (place : SourceRef) :
    ServesAt place (pass.pulls.filterMap (Pull.answer? place)) sources
      pass.sources := by
  induction course with
  | full | idle | astray => exact .refl place _
  | taken _ _ pulled _ ih | skipped _ _ _ pulled _ _ ih =>
    have both := (servesAt_pullAt place pulled).trans ih
    unfold Pull.answer? at both
    unfold after Pull.answer?
    rw [List.filterMap_cons]
    split at both <;> simp_all
  | blocked _ _ pulled _ =>
    have one := servesAt_pullAt place pulled
    unfold Pull.answer?
    simp only [List.filterMap_cons, List.filterMap_nil]
    split at one <;> simp_all

theorem Pass.Course.served {registry : Registry} {room : Nat} {rotation : Rotation}
    {sources : List σ} {pass : Pass σ} (course : Course registry room rotation sources pass) :
    Served sources pass.sources :=
  fun place => ⟨_, course.servesAt place⟩

/-- An operation lets the source at a place serve, with the answers in its journal. -/
def Effect.Touches {β : Type} (place : SourceRef) (sources : List σ) (effect : Effect σ β) : Prop :=
  ServesAt place (effect.journal.filterMap (Activity.answer? place)) sources
    effect.sources

theorem Effect.served {β : Type} {sources : List σ} {effect : Effect σ β}
    (touches : ∀ place, effect.Touches place sources) : Served sources effect.sources :=
  fun place => ⟨_, touches place⟩

namespace View

variable (view : View) (sources : List σ) (place : SourceRef)

theorem refill_touches : (view.refill sources).Touches place sources := by
  unfold Effect.Touches
  cases released : view.released with
  | true =>
    rw [refill_of_released released]
    exact .refl place sources
  | false =>
    obtain ⟨pass, course, filled⟩ := refill_of_unreleased released sources
    rw [filled, List.filterMap_map]
    exact course.servesAt place

theorem consult_touches {β : Type} (answer : View → β) :
    (view.consult sources answer).Touches place sources :=
  view.refill_touches sources place

theorem next_touches : (view.next sources).Touches place sources := by
  unfold Effect.Touches
  have first := view.refill_touches sources place
  rcases view.next_cases sources with ⟨_, result⟩ | ⟨entry, queue, _, second, rfl, result⟩
  · rw [result]
    exact first
  · rw [result]
    have second := refill_touches { (view.refill sources).view with queue }
      (view.refill sources).sources place
    have silent : ∀ delivered left,
        [Activity.delivered delivered left].filterMap (Activity.answer? place) = [] :=
      fun _ _ => rfl
    rw [List.filterMap_append, List.filterMap_append, silent, List.append_nil]
    exact first.trans second

theorem drain_touches (limit : Nat) : (view.drain sources limit).Touches place sources := by
  unfold Effect.Touches
  induction limit generalizing view sources with
  | zero => exact .refl place sources
  | succ limit ih =>
    have first := view.next_touches sources place
    unfold Effect.Touches at first
    rw [View.drain]
    cases taken : (view.next sources).value with
    | none => simpa [taken] using first
    | some entry =>
      have rest := ih (view.next sources).view (view.next sources).sources
      simpa [taken] using first.trans rest

theorem notify_touches (source : SourceRef) :
    (view.notify sources source).Touches place sources := by
  unfold Effect.Touches
  rcases view.notify_cases sources source with
    ⟨_, result⟩ | ⟨id, _, _, ⟨_, result⟩ | ⟨_, result⟩⟩
  · rw [result]
    exact .refl place sources
  · rw [result]
    exact consult_touches _ sources place _
  · rw [result]
    exact .refl place sources

theorem releaseEach_servesAt (entries : List Registration) (sources : List σ) :
    ServesAt place [] sources (releaseEach entries sources).2 := by
  induction entries generalizing sources with
  | nil => exact .refl place sources
  | cons entry entries ih => exact (servesAt_releaseAt place entry.source sources).trans (ih _)

theorem release_touches : (view.release sources).Touches place sources := by
  unfold Effect.Touches View.release
  split
  · exact .refl place sources
  · rw [Activity.answers_map_released]
    exact releaseEach_servesAt place _ sources

theorem resize_servesAt (size : Nat) :
    ServesAt place [] sources (view.resize sources size) := by
  unfold View.resize
  generalize view.registry.entries = entries
  induction entries generalizing sources with
  | nil => exact .refl place sources
  | cons entry entries ih =>
    exact (servesAt_modify place entry.source sources fun _ => .resize size .refl).trans (ih _)

end View

/-! ### What a command does to a source -/

/-- The step takes the source at a place through the answers in its events and the actions. -/
def Step.Touches (issued : Notifier → Prop) (place : SourceRef) (sources : List σ)
    (actions : List α) (step : Step σ) : Prop :=
  BecomesAt issued place (Event.answers place step.events) actions sources step.network.sources

namespace Network

variable (issued : Notifier → Prop) (network : Network σ) (place : SourceRef)

theorem still_touches (reply : Reply σ) :
    (network.still reply).Touches issued place network.sources ([] : List α) :=
  .refl issued place network.sources

theorem commit_touches {β : Type} {effect : Effect σ β} (ref : ViewRef) (reply : β → Reply σ)
    (touches : effect.Touches place network.sources) :
    (network.commit ref effect reply).Touches issued place network.sources ([] : List α) := by
  unfold Step.Touches
  rw [commit, Event.answers_map_view]
  exact touches.becomesAt issued

theorem signalling_touches {step : Step σ} {sources : List σ} {actions : List α} (ref : ViewRef)
    (touches : step.Touches issued place sources actions) :
    (signalling step ref).Touches issued place sources actions := by
  unfold signalling
  split
  · exact touches
  · have silent : Event.answers place [.signalled ref] = [] := rfl
    simpa [Step.Touches, Event.answers_append, silent, setListener] using touches

theorem notify_touches (notifier : Notifier) :
    (network.notify notifier).Touches issued place network.sources ([] : List α) := by
  unfold notify
  cases network.view? notifier.view with
  | none => exact still_touches issued network place _
  | some view =>
    have heard := commit_touches (α := α) issued network place notifier.view (fun _ => .flag true)
      (view.notify_touches network.sources place notifier.source)
    simp only
    split
    · exact signalling_touches issued place notifier.view heard
    · exact heard

theorem ringing_touches (notifier? : Option Notifier) (reply : Reply σ) :
    (network.ringing notifier? reply).Touches issued place network.sources ([] : List α) := by
  cases notifier? with
  | none => exact still_touches issued network place reply
  | some notifier => exact notify_touches issued network place notifier

/-- A change at a place is what its step does to the source, whatever is rung afterwards. -/
theorem change_touches {target : SourceRef} {step : σ → σ × Option Notifier} {actions : List α}
    (reply : Reply σ)
    (became : target = place → ∀ state, Becomes issued state [] actions (step state).1)
    (silent : target ≠ place → actions = []) :
    (network.change target step reply).Touches issued place network.sources actions := by
  unfold change
  cases found : network.sources[target]? with
  | none =>
    by_cases same : target = place
    · exact .inl ⟨same ▸ found, same ▸ found⟩
    · rw [silent same]
      exact still_touches issued network place _
  | some state =>
    have changed : BecomesAt issued place [] actions network.sources
        (network.sources.set target (step state).1) := by
      apply At.set found
      · intro same
        exact became same state
      · intro different source
        rw [silent different]
        exact .refl
    have rung := ringing_touches (α := α) issued
      { network with sources := network.sources.set target (step state).1 } place (step state).2
      reply
    simpa [Step.Touches] using changed.trans rung

theorem answer_touches {ref : ViewRef} {view : View} (request : Request) :
    (network.answer ref view request).Touches issued place network.sources ([] : List α) := by
  cases request with
  | peek => exact commit_touches issued network place ref _ (view.consult_touches _ place _)
  | next => exact commit_touches issued network place ref _ (view.next_touches _ place)
  | drain limit => exact commit_touches issued network place ref _ (view.drain_touches _ place limit)
  | availability credit =>
    exact commit_touches issued network place ref _ (view.consult_touches _ place _)
  | release => exact commit_touches issued network place ref _ (view.release_touches _ place)
  | requireSegment id segment =>
    simp only [answer, View.requireSegment]
    cases view.registry.source? id with
    | none => exact still_touches issued network place _
    | some source =>
      have told := servesAt_modify place source network.sources fun _ =>
        .requireSegment id segment .refl
      exact told.becomesAt issued
  | resize size => exact (view.resize_servesAt network.sources place size).becomesAt issued
  | _ => exact still_touches issued network place _

theorem add_touches (ref : ViewRef) (source : SourceRef) (attaches : issued ⟨ref, source⟩) :
    (network.exec (.add ref source : Command Notifier α)).Touches issued place network.sources
      ([] : List α) := by
  rcases network.exec_add_cases (α := α) ref source with
    ⟨reply, _, still⟩ | ⟨_, _, registered, _, _, accepted, performed⟩
  · rw [still]
    exact still_touches issued network place reply
  · rw [performed, ← sources_of_register network accepted]
    exact change_touches issued registered place _ (fun _ _ => .attach attaches .refl)
      fun _ => rfl

theorem act_touches (source : SourceRef) (action : α) :
    (network.exec (.act source action)).Touches issued place network.sources
      ((.act source action : Command Notifier α).actions place) := by
  apply change_touches issued network place
  · intro same state
    rw [Command.actions, if_pos same]
    exact Becomes.refl.act action
  · intro different
    exact if_neg different

theorem pull_touches (source : SourceRef) :
    (network.exec (.pull source : Command Notifier α)).Touches issued place network.sources
      ([] : List α) := by
  simp only [exec]
  cases network.sources[source]? with
  | none => exact still_touches issued network place _
  | some state =>
    have served := servesAt_pullAt place (Prod.eta (pullAt network.sources source)).symm
    have pulled : BecomesAt issued place _ ([] : List α) network.sources _ :=
      served.becomesAt issued
    unfold Step.Touches Event.answers
    by_cases same : source = place
    · simpa [Event.answer?, same] using pulled
    · simpa [Event.answer?, same] using pulled

theorem releaseSource_touches (source : SourceRef) :
    (network.exec (.releaseSource source : Command Notifier α)).Touches issued place
      network.sources ([] : List α) := by
  simp only [exec]
  cases network.sources[source]? with
  | none => exact still_touches issued network place _
  | some state => exact (servesAt_releaseAt place source network.sources).becomesAt issued

/-- A command takes each source through the answers in its events and the command's actions. -/
theorem exec_touches (command : Command Notifier α)
    (attaches : ∀ given, command.Attaches given → issued given) :
    (network.exec command).Touches issued place network.sources (command.actions place) := by
  cases command with
  | request ref request =>
    simp only [exec]
    cases network.view? ref with
    | none => exact still_touches issued network place _
    | some view => exact answer_touches issued network place request
  | register ref source id =>
    rcases network.exec_register_cases (α := α) ref source id with
      ⟨reply, _, still⟩ | ⟨registered, accepted, performed⟩
    · rw [still]
      exact still_touches issued network place reply
    · rw [performed, ← sources_of_register network accepted]
      exact still_touches issued registered place _
  | attach source notifier =>
    exact change_touches issued network place _ (fun _ _ => .attach (attaches _ rfl) .refl)
      fun _ => rfl
  | add ref source => exact add_touches issued network place ref source (attaches _ rfl)
  | ring notifier => exact notify_touches issued network place notifier
  | announce ref source =>
    simp only [exec]
    cases network.view? ref with
    | none => exact still_touches issued network place _
    | some view => exact notify_touches issued network place ⟨ref, source⟩
  | isAlive notifier => exact still_touches issued network place _
  | act source action => exact act_touches issued network place source action
  | pull source => exact pull_touches issued network place source
  | releaseSource source => exact releaseSource_touches issued network place source
  | sourceFailure source | inspect source =>
    simp only [exec]
    split <;> exact still_touches issued network place _
  | receive ref | dropReceiver ref | dropView ref =>
    simp only [exec]
    split
    · exact still_touches issued network place _
    · exact .refl issued place network.sources

end Network

end FairMerge
