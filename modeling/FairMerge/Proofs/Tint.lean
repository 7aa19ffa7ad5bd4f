import FairMerge.Proofs.FailingSources

/-! # Tinted sources

A source may carry something that its operations pass by: it is written by those who give hints and
read by those who look at the source. To change that alone is to tint the source. Whatever happens
to tinted sources happens to them as to the plain ones, and leaves them tinted. So a tint that
covers the hints tells that nothing depends on them, and one that repeats them tells that nothing
else writes them. -/

namespace FairMerge

/-- The change of each source, which may depend on its place, concerns what no operation looks at.
It covers the hints given before, and itself. -/
structure Producer.Tint {σ α : Type} [Producer σ α] (tint : SourceRef → σ → σ) : Prop where
  pull : ∀ place (state : σ),
    Producer.pull (tint place state) = (Producer.pull state).map id (tint place)
  failure : ∀ place (state : σ), Producer.failure? (tint place state) = Producer.failure? state
  release : ∀ place (state : σ),
    Producer.release (tint place state) = (Producer.release state).map id (tint place)
  ownId : ∀ place (state : σ), Producer.ownId? (tint place state) = Producer.ownId? state
  attach : ∀ place notifier (state : σ),
    Producer.attach notifier (tint place state) =
      (Producer.attach notifier state).map (tint place) id
  act : ∀ place action (state : σ),
    Producer.act action (tint place state) = (Producer.act action state).map (tint place) id
  requireSegment : ∀ place id segment (state : σ),
    tint place (Producer.requireSegment id segment state) = tint place state
  resize : ∀ place size (state : σ), tint place (Producer.resize size state) = tint place state
  again : ∀ place state, tint place (tint place state) = tint place state

/-- Whether the request is about the view itself or hands a hint on. -/
def Request.administers : Request → Bool
  | sourceIds | queued | publicCount | requireSegment _ _ | resize _ | isReleased | capacity
  | failure | stats | capabilities | supports _ | unsupported _ | describe => true
  | peek | next | drain _ | availability _ | release => false

/-- Whether the command asks a view about itself or lets it hand a hint on. -/
def Command.administers {ν α : Type} : Command ν α → Bool
  | request _ asked => asked.administers
  | _ => false

theorem Command.administers_of_resolve? {ν μ α : Type} {find? : ν → Option μ}
    {command : Command ν α} {resolved : Command μ α}
    (found : command.resolve? find? = some resolved) :
    resolved.administers = command.administers := by
  cases command with
  | attach | ring | isAlive =>
    obtain ⟨_, _, rfl⟩ := Option.map_eq_some_iff.mp found
    rfl
  | _ =>
    cases found
    rfl

/-- Whether the command looks at a source. -/
def Command.inspects {ν α : Type} : Command ν α → Bool
  | inspect _ => true
  | _ => false

section

variable {σ : Type} (tint : SourceRef → σ → σ)

/-- The pass as it goes over tinted sources. -/
def Pass.tinted (pass : Pass σ) : Pass σ := { pass with sources := pass.sources.mapIdx tint }

/-- The effect of an operation on tinted sources. -/
def Effect.tinted {β : Type} (effect : Effect σ β) : Effect σ β :=
  { effect with sources := effect.sources.mapIdx tint }

@[simp] theorem Effect.value_tinted {β : Type} (effect : Effect σ β) :
    (effect.tinted tint).value = effect.value := rfl

/-- The network over tinted sources. -/
def Network.tinted (network : Network σ) : Network σ :=
  { network with sources := network.sources.mapIdx tint }

/-- The step in a network over tinted sources. -/
def Step.tinted (step : Step σ) : Step σ := { step with network := step.network.tinted tint }

/-- The step changes sources where the tint covers it, answers, and does nothing else. -/
structure Step.Aside (network : Network σ) (step : Step σ) : Prop where
  network : step.network.tinted tint = network.tinted tint
  events : step.events = []
  call : step.call? = none
  unissued : ∀ notifier, step.reply ≠ .registered notifier

end

variable {σ α : Type} [Producer σ α] {tint : SourceRef → σ → σ}

/-! ### Views over tinted sources -/

namespace Producer.Tint

variable (tinting : Tint tint) (sources : List σ) (place : SourceRef)
include tinting

theorem pullAt : Producer.pullAt (sources.mapIdx tint) place =
    (Producer.pullAt sources place).map id (List.mapIdx tint) := by
  unfold Producer.pullAt
  rw [List.getElem?_mapIdx]
  cases sources[place]? with
  | none => rfl
  | some state => simp [tinting.pull, List.mapIdx_set]

theorem releaseAt : Producer.releaseAt (sources.mapIdx tint) place =
    (Producer.releaseAt sources place).map id (List.mapIdx tint) := by
  unfold Producer.releaseAt
  rw [List.getElem?_mapIdx]
  cases sources[place]? with
  | none => rfl
  | some state => simp [tinting.release, List.mapIdx_set]

theorem failureAt : Producer.failureAt? (sources.mapIdx tint) place =
    Producer.failureAt? sources place := by
  unfold Producer.failureAt?
  rw [List.getElem?_mapIdx]
  cases sources[place]? with
  | none => rfl
  | some state => exact tinting.failure place state

theorem ownIdAt : (sources.mapIdx tint)[place]?.bind Producer.ownId? =
    sources[place]?.bind Producer.ownId? := by
  rw [List.getElem?_mapIdx]
  cases sources[place]? with
  | none => rfl
  | some state => exact tinting.ownId place state

end Producer.Tint

theorem Pass.Course.tinted (tinting : Producer.Tint tint) {registry : Registry} {room : Nat}
    {rotation : Rotation} {sources : List σ} {pass : Pass σ}
    (course : Course registry room rotation sources pass) :
    Course registry room rotation (sources.mapIdx tint) (pass.tinted tint) := by
  have pulling {sources later : List σ} {source : SourceRef} {answer : Answer}
      (pulled : Producer.pullAt sources source = (answer, later)) :
      Producer.pullAt (sources.mapIdx tint) source = (answer, later.mapIdx tint) := by
    rw [tinting.pullAt, pulled]
    rfl
  induction course with
  | full => exact .full
  | idle unchosen => exact .idle unchosen
  | astray chosen missing => exact .astray chosen missing
  | taken chosen found pulled _ ih => exact .taken chosen found (pulling pulled) ih
  | skipped free chosen found pulled empty _ ih =>
    exact .skipped free chosen found (pulling pulled) empty ih
  | blocked held found pulled empty => exact .blocked held found (pulling pulled) empty

namespace View

variable (tinting : Producer.Tint tint) (view : View) (sources : List σ)
include tinting

theorem refill_tinted : view.refill (sources.mapIdx tint) = (view.refill sources).tinted tint := by
  unfold refill
  split
  · rfl
  · have course := (Pass.course_run view.registry view.queue.room view.rotation sources).tinted
      tinting
    rw [(Pass.course_run _ _ _ _).unique course]
    rfl

theorem consult_tinted {β : Type} (answer : View → β) :
    view.consult (sources.mapIdx tint) answer = (view.consult sources answer).tinted tint := by
  unfold consult
  rw [refill_tinted tinting]
  rfl

theorem next_tinted : view.next (sources.mapIdx tint) = (view.next sources).tinted tint := by
  unfold next
  simp only [refill_tinted tinting view]
  unfold Effect.tinted
  dsimp only
  cases (view.refill sources).view.queue.pop? with
  | none => rfl
  | some popped =>
    dsimp only
    rw [refill_tinted tinting]
    rfl

theorem drain_tinted (limit : Nat) :
    view.drain (sources.mapIdx tint) limit = (view.drain sources limit).tinted tint := by
  induction limit generalizing view sources with
  | zero => rfl
  | succ limit ih =>
    unfold drain
    rw [next_tinted tinting]
    cases taken : (view.next sources).value with
    | none => simp [Effect.tinted, taken]
    | some entry => simp [Effect.tinted, taken, ih]

theorem notify_tinted (source : SourceRef) :
    view.notify (sources.mapIdx tint) source = (view.notify sources source).tinted tint := by
  unfold notify
  split
  · rfl
  · cases view.registry.idOf? source with
    | none => rfl
    | some id =>
      dsimp only
      split
      · exact consult_tinted tinting _ sources _
      · rfl

theorem releaseEach_tinted (entries : List Registration) :
    releaseEach entries (sources.mapIdx tint) =
      (releaseEach entries sources).map id (List.mapIdx tint) := by
  induction entries generalizing sources with
  | nil => rfl
  | cons entry entries ih => simp [releaseEach, tinting.releaseAt, ih]

theorem release_tinted :
    view.release (sources.mapIdx tint) = (view.release sources).tinted tint := by
  unfold release
  split
  · rfl
  · rw [releaseEach_tinted tinting]
    rfl

theorem failure?_tinted : view.failure? (sources.mapIdx tint) = view.failure? sources := by
  have same : view.failureOf? (sources.mapIdx tint) = view.failureOf? sources := by
    funext entry
    unfold failureOf?
    rw [tinting.failureAt]
  unfold failure?
  rw [same]

end View

/-! ### Networks over tinted sources -/

namespace Network

variable (network : Network σ)

omit [Producer σ α] in
@[simp] theorem view?_tinted (ref : ViewRef) :
    (network.tinted tint).view? ref = network.view? ref :=
  rfl

omit [Producer σ α] in
theorem commit_tinted {β : Type} (ref : ViewRef) (effect : Effect σ β) (reply : β → Reply σ) :
    (network.tinted tint).commit ref (effect.tinted tint) reply =
      (network.commit ref effect reply).tinted tint :=
  rfl

omit [Producer σ α] in
theorem signalling_tinted (step : Step σ) (ref : ViewRef) :
    signalling (step.tinted tint) ref = (signalling step ref).tinted tint := by
  unfold signalling
  cases there : step.network.slots[ref]? with
  | none => simp only [Step.tinted, tinted, there]
  | some slot => simp only [Step.tinted, tinted, setListener, there]

variable (tinting : Producer.Tint tint)
include tinting

theorem notify_tinted (notifier : Notifier) :
    (network.tinted tint).notify notifier = (network.notify notifier).tinted tint := by
  unfold notify
  rw [view?_tinted]
  cases network.view? notifier.view with
  | none => rfl
  | some view =>
    have heard : view.notify (network.tinted tint).sources notifier.source =
        (view.notify network.sources notifier.source).tinted tint :=
      view.notify_tinted tinting network.sources notifier.source
    simp only [heard, commit_tinted, Effect.value_tinted]
    split
    · exact signalling_tinted _ notifier.view
    · rfl

theorem ringing_tinted (notifier? : Option Notifier) (reply : Reply σ) :
    (network.tinted tint).ringing notifier? reply =
      (network.ringing notifier? reply).tinted tint := by
  cases notifier? with
  | none => rfl
  | some notifier =>
    unfold ringing
    simp only [notify_tinted network tinting]
    rfl

/-- A change that a tint does not show to is the same on tinted sources. -/
theorem change_tinted (place : SourceRef) (step : σ → σ × Option Notifier) (reply : Reply σ)
    (blind : ∀ state, step (tint place state) = (step state).map (tint place) id) :
    (network.tinted tint).change place step reply =
      (network.change place step reply).tinted tint := by
  unfold change tinted
  simp only [List.getElem?_mapIdx]
  cases network.sources[place]? with
  | none => rfl
  | some state =>
    simp only [Option.map_some, blind, Prod.map_fst, Prod.map_snd, id, ← List.mapIdx_set]
    exact ringing_tinted { network with sources := network.sources.set place (step state).1 }
      tinting (step state).2 reply

/-- What a view is asked beside its administration it answers on tinted sources alike. -/
theorem answer_tinted (ref : ViewRef) (view : View) {request : Request}
    (merges : request.administers = false) :
    (network.tinted tint).answer ref view request =
      (network.answer ref view request).tinted tint := by
  cases request with
  | peek | availability =>
    simp only [answer, View.peek, View.availability, tinted, View.consult_tinted tinting]
    rfl
  | next =>
    simp only [answer, tinted, View.next_tinted tinting]
    rfl
  | drain limit =>
    simp only [answer, tinted, View.drain_tinted tinting]
    rfl
  | release =>
    simp only [answer, tinted, View.release_tinted tinting]
    rfl
  | _ => cases merges

omit [Producer σ α] tinting in
theorem register_tinted (ref : ViewRef) (source : SourceRef) (id : SourceId) :
    (network.tinted tint).register ref source id =
      (network.register ref source id).map (tinted tint) := by
  unfold register
  rw [view?_tinted]
  unfold tinted
  simp only [List.getElem?_mapIdx]
  cases network.view? ref with
  | none => rfl
  | some view =>
    cases network.sources[source]? with
    | none => rfl
    | some state =>
      simp only [Option.map_some]
      cases view.register id source <;> rfl

theorem add_tinted (ref : ViewRef) (source : SourceRef) :
    (network.tinted tint).exec (.add ref source : Command Notifier α) =
      (network.exec (.add ref source : Command Notifier α)).tinted tint := by
  have own : (network.tinted tint).sources[source]?.bind Producer.ownId? = _ :=
    tinting.ownIdAt network.sources source
  simp only [exec, register_tinted, own]
  cases network.sources[source]?.bind Producer.ownId? with
  | none => rfl
  | some id =>
    dsimp only
    cases network.register ref source id with
    | error reply => rfl
    | ok registered =>
      exact registered.change_tinted tinting source _ _ fun state =>
        tinting.attach source ⟨ref, source⟩ state

theorem announce_tinted (ref : ViewRef) (source : SourceRef) :
    (network.tinted tint).exec (.announce ref source : Command Notifier α) =
      (network.exec (.announce ref source : Command Notifier α)).tinted tint := by
  simp only [exec, view?_tinted]
  cases network.view? ref with
  | none => rfl
  | some view =>
    simp only [network.notify_tinted tinting]
    rfl

theorem pull_tinted (source : SourceRef) :
    (network.tinted tint).exec (.pull source : Command Notifier α) =
      (network.exec (.pull source : Command Notifier α)).tinted tint := by
  have pulled := tinting.pullAt network.sources source
  simp only [exec]
  unfold tinted
  simp only [List.getElem?_mapIdx, pulled]
  cases network.sources[source]? <;> rfl

theorem sourceFailure_tinted (source : SourceRef) :
    (network.tinted tint).exec (.sourceFailure source : Command Notifier α) =
      (network.exec (.sourceFailure source : Command Notifier α)).tinted tint := by
  simp only [exec]
  unfold tinted
  simp only [List.getElem?_mapIdx]
  cases network.sources[source]? with
  | none => rfl
  | some state =>
    simp only [Option.map_some, tinting.failure]
    rfl

theorem releaseSource_tinted (source : SourceRef) :
    (network.tinted tint).exec (.releaseSource source : Command Notifier α) =
      (network.exec (.releaseSource source : Command Notifier α)).tinted tint := by
  have released := tinting.releaseAt network.sources source
  simp only [exec]
  unfold tinted
  simp only [List.getElem?_mapIdx, released]
  cases network.sources[source]? <;> rfl

/-- A command that is no administration and does not look at a source does on tinted sources what
it does on the plain ones. -/
theorem exec_tinted {command : Command Notifier α} (merges : command.administers = false)
    (blind : command.inspects = false) :
    (network.tinted tint).exec command = (network.exec command).tinted tint := by
  have slots : (network.tinted tint).slots = network.slots := rfl
  cases command with
  | request ref request =>
    simp only [exec, view?_tinted]
    cases network.view? ref with
    | none => rfl
    | some view => exact network.answer_tinted tinting ref view merges
  | register ref source id =>
    simp only [exec, register_tinted]
    cases network.register ref source id <;> rfl
  | attach source notifier =>
    exact network.change_tinted tinting source _ _ fun state => tinting.attach source notifier state
  | add ref source => exact network.add_tinted tinting ref source
  | ring notifier => exact network.notify_tinted tinting notifier
  | announce ref source => exact network.announce_tinted tinting ref source
  | isAlive notifier => rfl
  | act source action =>
    exact network.change_tinted tinting source _ _ fun state => tinting.act source action state
  | pull source => exact network.pull_tinted tinting source
  | sourceFailure source => exact network.sourceFailure_tinted tinting source
  | releaseSource source => exact network.releaseSource_tinted tinting source
  | inspect source => cases blind
  | receive ref =>
    simp only [exec, slots]
    cases network.slots[ref]?.bind fun slot => slot.listener.receive? <;> rfl
  | dropReceiver ref =>
    simp only [exec, slots]
    cases network.slots[ref]?.bind fun slot => slot.listener.disconnect? <;> rfl
  | dropView ref =>
    simp only [exec, view?_tinted]
    cases network.view? ref <;> rfl

/-! ### Administration of a network over tinted sources -/

omit [Producer σ α] tinting in
theorem aside_still {reply : Reply σ} (unissued : ∀ notifier, reply ≠ .registered notifier) :
    (network.still reply).Aside tint network :=
  ⟨rfl, rfl, rfl, unissued⟩

omit [Producer σ α] tinting in
/-- To give a source a hint does not show under the tint. -/
theorem mapIdx_modify {change : σ → σ} (covered : ∀ place state,
    tint place (change state) = tint place state) (place : SourceRef) (sources : List σ) :
    (sources.modify place change).mapIdx tint = sources.mapIdx tint := by
  apply List.ext_getElem?
  intro here
  rw [List.getElem?_mapIdx, List.getElem?_mapIdx, List.getElem?_modify]
  cases sources[here]? with
  | none => rfl
  | some state =>
    by_cases same : place = here
    · simp [same, covered]
    · simp [same]

theorem mapIdx_resize (view : View) (size : Nat) (sources : List σ) :
    (view.resize sources size).mapIdx tint = sources.mapIdx tint := by
  unfold View.resize
  generalize view.registry.entries = entries
  induction entries generalizing sources with
  | nil => rfl
  | cons entry entries ih =>
    rw [List.foldl_cons, ih]
    exact mapIdx_modify (fun place => tinting.resize place size) entry.source sources

/-- Administration gives hints at most. -/
theorem aside_exec {command : Command Notifier α} (administers : command.administers = true) :
    (network.exec command).Aside tint network := by
  cases command with
  | request ref request =>
    simp only [exec]
    cases network.view? ref with
    | none => exact network.aside_still (by simp)
    | some view =>
      cases request with
      | peek | next | drain | availability | release => cases administers
      | requireSegment id segment =>
        simp only [answer, View.requireSegment]
        cases view.registry.source? id with
        | none => exact network.aside_still (by simp)
        | some source =>
          refine ⟨?_, rfl, rfl, by simp [still]⟩
          have covered := mapIdx_modify
            (fun place => tinting.requireSegment place id segment) source network.sources
          simp only [still, tinted, covered]
      | resize size =>
        refine ⟨?_, rfl, rfl, by simp [answer, still]⟩
        simp only [answer, still, tinted, mapIdx_resize tinting]
      | _ => exact network.aside_still (by simp)
  | _ => cases administers

/-- Administration is answered over tinted sources as over the plain ones. -/
theorem reply_administration {command : Command Notifier α}
    (administers : command.administers = true) :
    ((network.tinted tint).exec command).reply = (network.exec command).reply := by
  cases command with
  | request ref request =>
    simp only [exec, view?_tinted]
    cases network.view? ref with
    | none => rfl
    | some view =>
      cases request with
      | peek | next | drain | availability | release => cases administers
      | requireSegment id segment =>
        simp only [answer, View.requireSegment]
        cases view.registry.source? id <;> rfl
      | failure => exact congrArg Reply.failure (view.failure?_tinted tinting network.sources)
      | _ => rfl
  | _ => cases administers

end Network

end FairMerge
