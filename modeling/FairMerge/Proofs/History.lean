import FairMerge.Network.Session
import FairMerge.Proofs.ViewSteps

/-! # Histories

A session leaves a sequence of records. The records up to any point, also up to a point inside a
callback, are a history: `Session.play_invariant` proves a statement of all histories from what one
command does. A history contains the activities of every view, and `Session.holds_of_view` carries
an invariant of views from their steps to all histories. -/

namespace FairMerge

/-- The view's activities among the events. -/
def Event.activity? (ref : ViewRef) : Event → Option Activity
  | view other activity => if other = ref then some activity else none
  | _ => none

/-- What a view did, in order. -/
def Event.activities (ref : ViewRef) (events : List Event) : List Activity :=
  events.filterMap (Event.activity? ref)

theorem Event.activities_append (ref : ViewRef) (first second : List Event) :
    activities ref (first ++ second) = activities ref first ++ activities ref second :=
  List.filterMap_append

theorem Event.activities_map_view (ref : ViewRef) (log : List Activity) :
    activities ref (log.map (view ref)) = log := by
  induction log with
  | nil => rfl
  | cons activity log ih =>
    simp only [activities, List.map_cons] at ih ⊢
    rw [List.filterMap_cons_some (b := activity) (by simp [activity?]), ih]

theorem Event.activities_map_view_of_ne {ref other : ViewRef} (different : other ≠ ref)
    (log : List Activity) : activities ref (log.map (view other)) = [] := by
  induction log with
  | nil => rfl
  | cons activity log ih =>
    simp only [activities, List.map_cons] at ih ⊢
    rw [List.filterMap_cons_none (by simp [activity?, different]), ih]

/-! ### Views and their slots -/

namespace Network

variable {σ α : Type} {network : Network σ} {ref other : ViewRef} {view : View}

theorem view?_setView_of_ne (different : other ≠ ref) (state : View) :
    (network.setView ref state).view? other = network.view? other := by
  simp [view?, setView, List.getElem?_modify_ne _ _ (Ne.symm different)]

theorem view?_setView_self {state : View} (found : network.view? ref = some view) :
    (network.setView ref state).view? ref = some state := by
  unfold view? at found
  cases slot : network.slots[ref]? with
  | none => simp [slot] at found
  | some slot' => simp [view?, setView, slot]

theorem eq_of_view?_setView {state : View}
    (found : (network.setView ref state).view? ref = some view) : view = state := by
  unfold view? setView at found
  cases slot : network.slots[ref]? with
  | none => simp [slot] at found
  | some slot' => simpa [slot, eq_comm] using found

@[simp] theorem view?_setListener (listener : Listener) :
    (network.setListener ref listener).view? other = network.view? other := by
  unfold view? setListener
  by_cases same : ref = other
  · subst same
    cases slot : network.slots[ref]? <;> simp [slot]
  · simp [List.getElem?_modify_ne _ _ same]

/-- A registration that succeeds changes one view. -/
theorem register_cases {source : SourceRef} {id : SourceId} {registered : Network σ}
    (accepted : network.register ref source id = .ok registered) :
    ∃ old later, network.view? ref = some old ∧ old.register id source = .ok later ∧
      registered = network.setView ref later := by
  unfold register at accepted
  cases found : network.view? ref with
  | none => simp [found] at accepted
  | some old =>
    cases present : network.sources[source]? with
    | none => simp [found, present] at accepted
    | some state =>
      cases renewed : old.register id source with
      | error cause => simp [found, present, renewed] at accepted
      | ok later =>
        simp only [found, present, renewed, Except.ok.injEq] at accepted
        exact ⟨old, later, rfl, renewed, accepted.symm⟩

theorem sources_of_register (network : Network σ) {source : SourceRef} {id : SourceId}
    {registered : Network σ} (accepted : network.register ref source id = .ok registered) :
    registered.sources = network.sources := by
  obtain ⟨_, _, _, _, rfl⟩ := register_cases accepted
  rfl

theorem reply_ne_registered_of_register {ref : ViewRef} {source : SourceRef} {id : SourceId}
    {reply : Reply σ} (denied : network.register ref source id = .error reply)
    (notifier : Notifier) : reply ≠ .registered notifier := by
  unfold register at denied
  split at denied
  · split at denied <;> cases denied
    simp
  · cases denied
    simp

/-- A view that is there after one was dropped was there before. -/
theorem view?_of_dropped
    (found : ({ network with
      slots := network.slots.modify other fun slot => { slot with view? := none } } :
        Network σ).view? ref = some view) :
    network.view? ref = some view := by
  unfold view? at found ⊢
  by_cases same : other = ref
  · subst same
    cases slot : network.slots[other]? <;> simp [slot] at found
  · simpa [List.getElem?_modify_ne _ _ same] using found

end Network

/-! ### What a command does to a view -/

/-- The statement holds of the view at a place after the step, if there is one. -/
def Step.Upholds {σ : Type} (Holds : View → Option Entry → List Activity → Prop) (ref : ViewRef)
    (log : List Activity) (step : Step σ) : Prop :=
  ∀ view, step.network.view? ref = some view →
    Holds view none (log ++ Event.activities ref step.events)

namespace Network

variable {σ α : Type} [Producer σ α] {Holds : View → Option Entry → List Activity → Prop}
  {network : Network σ} {ref : ViewRef} {log : List Activity}

/-- A registration is refused, or the notifier that stands for it is handed out. -/
theorem exec_register_cases (network : Network σ) (target : ViewRef) (source : SourceRef)
    (id : SourceId) :
    (∃ reply, (∀ notifier, reply ≠ .registered notifier) ∧
        network.exec (.register target source id : Command Notifier α) = network.still reply) ∨
      ∃ registered, network.register target source id = .ok registered ∧
        network.exec (.register target source id : Command Notifier α) =
          registered.still (.registered ⟨target, source⟩) := by
  simp only [exec]
  cases accepted : network.register target source id with
  | error reply => exact .inl ⟨reply, reply_ne_registered_of_register accepted, rfl⟩
  | ok registered => exact .inr ⟨registered, rfl, rfl⟩

/-- A source that is added names itself, is registered, and then it is attached. -/
theorem exec_add_cases (network : Network σ) (target : ViewRef) (source : SourceRef) :
    (∃ reply, (∀ notifier, reply ≠ .registered notifier) ∧
        network.exec (.add target source : Command Notifier α) = network.still reply) ∨
      ∃ state id registered, network.sources[source]? = some state ∧
        Producer.ownId? state = some id ∧ network.register target source id = .ok registered ∧
        network.exec (.add target source : Command Notifier α) = registered.change source
          (Producer.attach ⟨target, source⟩) (.registered ⟨target, source⟩) := by
  simp only [exec]
  cases known : network.sources[source]?.bind Producer.ownId? with
  | none => exact .inl ⟨.missing, by simp, rfl⟩
  | some id =>
    obtain ⟨state, found, own⟩ := Option.bind_eq_some_iff.mp known
    simp only
    cases accepted : network.register target source id with
    | error reply => exact .inl ⟨reply, reply_ne_registered_of_register accepted, rfl⟩
    | ok registered => exact .inr ⟨state, id, registered, found, own, accepted, rfl⟩

theorem upholds_still (before : ∀ view, network.view? ref = some view → Holds view none log)
    (reply : Reply σ) : (network.still reply).Upholds Holds ref log := by
  intro view found
  simpa [still, Event.activities] using before view found

theorem upholds_commit {β : Type} {target : ViewRef} {old : View}
    (before : ∀ view, network.view? ref = some view → Holds view none log)
    (found : network.view? target = some old) (effect : Effect σ β) (reply : β → Reply σ)
    (kept : Holds old none log → Holds effect.view none (log ++ effect.journal)) :
    (network.commit target effect reply).Upholds Holds ref log := by
  intro view reached
  by_cases same : target = ref
  · subst same
    have renewed : view = effect.view := eq_of_view?_setView reached
    subst renewed
    simpa [commit, Event.activities_map_view] using kept (before old found)
  · have kept : network.view? ref = some view := by
      rw [← reached]
      exact (view?_setView_of_ne (Ne.symm same) effect.view).symm
    simpa [commit, Event.activities_map_view_of_ne same] using before view kept

theorem upholds_signalling {step : Step σ} (target : ViewRef)
    (upholds : step.Upholds Holds ref log) : (signalling step target).Upholds Holds ref log := by
  unfold signalling
  cases slot : step.network.slots[target]? with
  | none => exact upholds
  | some slot' =>
    intro view reached
    simp only [view?_setListener] at reached
    have silent : Event.activities ref [.signalled target] = [] := rfl
    simpa [Event.activities_append, silent] using upholds view reached

/-- A change of sources alone shows in no view. -/
theorem upholds_of_sources {sources : List σ}
    (before : ∀ view, network.view? ref = some view → Holds view none log) :
    ∀ view, ({ network with sources } : Network σ).view? ref = some view → Holds view none log :=
  before

variable (inv : View.Invariant σ Holds)
include inv

theorem upholds_notify (before : ∀ view, network.view? ref = some view → Holds view none log)
    (notifier : Notifier) : (network.notify notifier).Upholds Holds ref log := by
  unfold notify
  cases found : network.view? notifier.view with
  | none => exact upholds_still before _
  | some old =>
    have heard := upholds_commit before found (old.notify network.sources notifier.source)
      (fun _ => .flag true) fun holds => inv.notify holds network.sources notifier.source
    simp only
    split
    · exact upholds_signalling _ heard
    · exact heard

theorem upholds_ringing (before : ∀ view, network.view? ref = some view → Holds view none log)
    (notifier? : Option Notifier) (reply : Reply σ) :
    (network.ringing notifier? reply).Upholds Holds ref log := by
  cases notifier? with
  | none => exact upholds_still before reply
  | some notifier => exact upholds_notify inv before notifier

theorem upholds_change (before : ∀ view, network.view? ref = some view → Holds view none log)
    (source : SourceRef) (step : σ → σ × Option Notifier) (reply : Reply σ) :
    (network.change source step reply).Upholds Holds ref log := by
  unfold change
  cases network.sources[source]? with
  | none => exact upholds_still before _
  | some state => exact upholds_ringing inv (upholds_of_sources before) _ reply

theorem upholds_answer {target : ViewRef} {old : View}
    (before : ∀ view, network.view? ref = some view → Holds view none log)
    (found : network.view? target = some old) (request : Request) :
    (network.answer target old request).Upholds Holds ref log := by
  cases request with
  | peek => exact upholds_commit before found _ _ fun holds => inv.consult holds _ _
  | next => exact upholds_commit before found _ _ fun holds => inv.next holds _
  | drain limit => exact upholds_commit before found _ _ fun holds => inv.drain holds _ limit
  | availability credit => exact upholds_commit before found _ _ fun holds => inv.consult holds _ _
  | release => exact upholds_commit before found _ _ fun holds => inv.releaseAll holds _
  | requireSegment id segment =>
    simp only [answer]
    split
    · exact upholds_still before _
    · exact upholds_still (upholds_of_sources before) _
  | resize size => exact upholds_still (upholds_of_sources before) _
  | _ => exact upholds_still before _

/-- A registration that succeeds keeps the statement of every view. -/
theorem upholds_register {target : ViewRef} {source : SourceRef} {id : SourceId}
    {registered : Network σ}
    (before : ∀ view, network.view? ref = some view → Holds view none log)
    (accepted : network.register target source id = .ok registered) :
    ∀ view, registered.view? ref = some view → Holds view none log := by
  obtain ⟨old, later, found, renewed, rfl⟩ := register_cases accepted
  intro view reached
  by_cases same : target = ref
  · subst same
    rw [eq_of_view?_setView reached]
    exact inv.register (before old found) renewed
  · rw [view?_setView_of_ne (Ne.symm same)] at reached
    exact before view reached

theorem upholds_add {target : ViewRef}
    (before : ∀ view, network.view? ref = some view → Holds view none log) (source : SourceRef) :
    (network.exec (.add target source : Command Notifier α)).Upholds Holds ref log := by
  rcases network.exec_add_cases (α := α) target source with
    ⟨reply, _, still⟩ | ⟨_, _, registered, _, _, accepted, performed⟩
  · rw [still]
    exact upholds_still before reply
  · rw [performed]
    exact upholds_change inv (upholds_register inv before accepted) _ _ _

omit inv in
/-- A source that is pulled past the views shows in none. -/
theorem upholds_pull (before : ∀ view, network.view? ref = some view → Holds view none log)
    (source : SourceRef) :
    (network.exec (.pull source : Command Notifier α)).Upholds Holds ref log := by
  simp only [exec]
  cases network.sources[source]? with
  | none => exact upholds_still before _
  | some state =>
    intro view reached
    have silent : Event.activities ref [.drawn source (Producer.pullAt network.sources source).1] =
      [] := rfl
    simpa [silent] using before view reached

/-- A command keeps of every view what its steps keep. -/
theorem upholds_exec (before : ∀ view, network.view? ref = some view → Holds view none log)
    (command : Command Notifier α) : (network.exec command).Upholds Holds ref log := by
  cases command with
  | request target request =>
    simp only [exec]
    cases found : network.view? target with
    | none => exact upholds_still before _
    | some old => exact upholds_answer inv before found request
  | register target source id =>
    rcases network.exec_register_cases (α := α) target source id with
      ⟨reply, _, still⟩ | ⟨registered, accepted, performed⟩
    · rw [still]
      exact upholds_still before reply
    · rw [performed]
      exact upholds_still (upholds_register inv before accepted) _
  | attach source notifier => exact upholds_change inv before _ _ _
  | add target source => exact upholds_add inv before source
  | ring notifier => exact upholds_notify inv before notifier
  | announce target source =>
    simp only [exec]
    cases network.view? target with
    | none => exact upholds_still before _
    | some old => exact upholds_notify inv before ⟨target, source⟩
  | isAlive notifier => exact upholds_still before _
  | act source action => exact upholds_change inv before _ _ _
  | pull source => exact upholds_pull before source
  | sourceFailure source | inspect source =>
    simp only [exec]
    split <;> exact upholds_still before _
  | releaseSource source =>
    simp only [exec]
    split
    · exact upholds_still before _
    · exact upholds_still (upholds_of_sources before) _
  | receive target | dropReceiver target =>
    simp only [exec]
    split
    · exact upholds_still before _
    · refine upholds_still (fun view reached => ?_) _
      rw [view?_setListener] at reached
      exact before view reached
  | dropView target =>
    simp only [exec]
    split
    · exact upholds_still before _
    · refine upholds_still (fun view reached => before view ?_) _
      exact view?_of_dropped reached

end Network

/-! ### Histories of sessions -/

/-- What happened in the records, in order. -/
def Record.events {σ α : Type} (records : List (Record σ α)) : List Event :=
  records.flatMap fun record => record.step.events

/-- What a view did in the records. -/
def Record.activities {σ α : Type} (ref : ViewRef) (records : List (Record σ α)) : List Activity :=
  Event.activities ref (events records)

namespace Session

variable {σ α : Type}

/-- The network that records of the session lead to. -/
def reachedBy (session : Session σ α) (records : List (Record σ α)) : Network σ :=
  records.getLast?.elim session.network fun record => record.step.network

/-- The notifiers handed out once the records are made. -/
def handedOut (session : Session σ α) (records : List (Record σ α)) : List Notifier :=
  records.getLast?.elim session.notifiers Record.notifiers

@[simp] theorem reachedBy_append_singleton (session : Session σ α) (records : List (Record σ α))
    (record : Record σ α) : session.reachedBy (records ++ [record]) = record.step.network := by
  simp [reachedBy]

theorem ofConfig_of_view?_start {sources : List σ} {views : List (Config × Listener)}
    {reactions : List (List (List (Command Nat α)))} {ref : ViewRef} {view : View}
    (found : (start sources views reactions).network.view? ref = some view) :
    ∃ config, View.ofConfig config = .ok view := by
  simp only [start, Network.ofViews, Network.view?, List.getElem?_map, Option.bind_eq_some_iff,
    Option.map_eq_some_iff, List.map_map] at found
  obtain ⟨slot, ⟨⟨config, listener⟩, _, rfl⟩, built⟩ := found
  refine ⟨config, ?_⟩
  cases made : View.ofConfig config with
  | error cause => simp [made, Except.toOption] at built
  | ok view' => simpa [made, Except.toOption] using built

variable [Producer σ α]

/-- The record of a command. -/
def recordOf (session : Session σ α) (task : Task α) : Record σ α where
  task := task
  step := session.perform task.command
  notifiers := (session.reach (session.perform task.command)).notifiers

theorem perform_cases (session : Session σ α) (command : Command Nat α) :
    (command.resolve? (fun place => session.notifiers[place]?) = none ∧
      session.perform command = session.network.still .missing) ∨
    ∃ resolved, command.resolve? (fun place => session.notifiers[place]?) = some resolved ∧
      session.perform command = session.network.exec resolved := by
  unfold perform
  cases command.resolve? fun place => session.notifiers[place]? with
  | none => exact .inl ⟨rfl, rfl⟩
  | some resolved => exact .inr ⟨resolved, rfl, rfl⟩

theorem reachedBy_cons (session : Session σ α) (task : Task α) (later : List (Record σ α)) :
    session.reachedBy (session.recordOf task :: later) =
      (session.reach (session.perform task.command)).reachedBy later := by
  unfold reachedBy
  rw [List.getLast?_cons]
  cases later.getLast? <;> rfl

theorem handedOut_cons (session : Session σ α) (task : Task α) (later : List (Record σ α)) :
    session.handedOut (session.recordOf task :: later) =
      (session.reach (session.perform task.command)).handedOut later := by
  unfold handedOut
  rw [List.getLast?_cons]
  cases later.getLast? <;> rfl

section

variable (session : Session σ α) (task : Task α) (tasks : List (Task α))

theorem run_cons_of_uncalled (uncalled : (session.perform task.command).call? = none) :
    session.run (task :: tasks) =
      session.recordOf task :: (session.reach (session.perform task.command)).run tasks := by
  rw [run]
  simp only [uncalled]
  rfl

theorem run_cons_of_called {call : Call}
    (called : (session.perform task.command).call? = some call) :
    let reached := session.reach (session.perform task.command)
    session.run (task :: tasks) = session.recordOf task ::
      (reached.spend call.view).run
        ((reached.reaction call.view).map (Task.mk (task.depth + 1)) ++ tasks) := by
  rw [run]
  simp only [called]
  rfl

end

section

variable (Holds : List (Record σ α) → Network σ → List Notifier → Prop)
  (keeps : ∀ past (session : Session σ α) task, Holds past session.network session.notifiers →
    Holds (past ++ [session.recordOf task]) (session.perform task.command).network
      (session.reach (session.perform task.command)).notifiers)
include keeps

/-- What every command keeps holds at every point of a run. -/
theorem run_invariant (session : Session σ α) (tasks : List (Task α)) (past : List (Record σ α))
    (holds : Holds past session.network session.notifiers) (n : Nat) :
    Holds (past ++ (session.run tasks).take n) (session.reachedBy ((session.run tasks).take n))
      (session.handedOut ((session.run tasks).take n)) := by
  fun_induction run session tasks generalizing past n with
  | case1 session => simpa [reachedBy, handedOut] using holds
  | case2 session task tasks step reached plain nested =>
    have first := keeps past session task holds
    -- spending a reaction changes neither the network nor the notifiers
    have follows : ∀ later, Holds (past ++ [session.recordOf task] ++ later)
        (reached.reachedBy later) (reached.handedOut later) →
        Holds (past ++ session.recordOf task :: later)
          (session.reachedBy (session.recordOf task :: later))
          (session.handedOut (session.recordOf task :: later)) := by
      intro later held
      rw [reachedBy_cons, handedOut_cons]
      simpa using held
    cases n with
    | zero => simpa [reachedBy, handedOut] using holds
    | succ n =>
      rw [List.take_succ_cons]
      cases called : step.call? with
      | none => exact follows _ (plain _ first n)
      | some call => exact follows _ (nested call _ first n)

/-- What every command keeps holds at every point of a session, inside callbacks too. -/
theorem play_invariant (session : Session σ α) (holds : Holds [] session.network session.notifiers)
    (commands : List (Command Nat α)) (n : Nat) :
    Holds ((session.play commands).take n) (session.reachedBy ((session.play commands).take n))
      (session.handedOut ((session.play commands).take n)) := by
  simpa [play] using run_invariant Holds keeps session (commands.map (Task.mk 0)) [] holds n

end

/-- An invariant of views that fresh views satisfy holds of every view at every point of a
session. -/
theorem holds_of_view {Holds : View → Option Entry → List Activity → Prop}
    (inv : View.Invariant σ Holds)
    (fresh : ∀ config view, View.ofConfig config = .ok view → Holds view none [])
    (sources : List σ) (views : List (Config × Listener))
    (reactions : List (List (List (Command Nat α)))) (commands : List (Command Nat α)) (n : Nat)
    {ref : ViewRef} {view : View}
    (found : ((start sources views reactions).reachedBy
      (((start sources views reactions).play commands).take n)).view? ref = some view) :
    Holds view none
      (Record.activities ref (((start sources views reactions).play commands).take n)) := by
  refine play_invariant (fun past network _ => ∀ view, network.view? ref = some view →
    Holds view none (Record.activities ref past)) ?_ (start sources views reactions) ?_ commands n
    view found
  · intro past session task before view reached
    have extended : Record.activities ref (past ++ [session.recordOf task]) =
        Record.activities ref past ++
          Event.activities ref (session.perform task.command).events := by
      simp [Record.activities, Record.events, recordOf, Event.activities_append]
    rw [extended]
    rcases session.perform_cases task.command with ⟨_, still⟩ | ⟨resolved, _, performed⟩
    · rw [still] at reached ⊢
      exact Network.upholds_still before _ view reached
    · rw [performed] at reached ⊢
      exact Network.upholds_exec inv before resolved view reached
  · intro view reached
    obtain ⟨config, built⟩ := ofConfig_of_view?_start reached
    exact fresh config view built

end Session

end FairMerge
