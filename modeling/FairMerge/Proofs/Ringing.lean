import FairMerge.Proofs.SlotSteps

/-! # What rings, and whom it alarms

A listener is reached by a notifier only. `Network.Rings` names the commands that ring one and the
network in which it is heard, `Network.Alarms` says of which notifiers the view signals its listener.
Every command either is the notification that it rings, or it signals nobody. -/

namespace FairMerge

/-- The view whose listener is signalled. -/
def Event.signal? : Event → Option ViewRef
  | signalled ref => some ref
  | _ => none

/-- The views whose listeners were signalled, in order. -/
def Event.signals (events : List Event) : List ViewRef := events.filterMap signal?

theorem Event.signals_append (first second : List Event) :
    signals (first ++ second) = signals first ++ signals second :=
  List.filterMap_append

theorem Event.signals_map_view (ref : ViewRef) (log : List Activity) :
    signals (log.map (view ref)) = [] := by
  rw [signals, List.filterMap_map, List.filterMap_eq_nil_iff]
  intro activity _
  rfl

theorem Event.mem_signals {ref : ViewRef} {events : List Event} :
    ref ∈ signals events ↔ signalled ref ∈ events := by
  rw [signals, List.mem_filterMap]
  constructor
  · rintro ⟨event, mem, signals⟩
    cases event with
    | signalled other =>
      cases signals
      exact mem
    | view | drawn => cases signals
  · intro mem
    exact ⟨signalled ref, mem, rfl⟩

variable {σ α : Type} [Producer σ α]

/-- A view says that its listener has to be signalled exactly if it is not released, has the source
registered, nothing waits in it, and something waits after a refill. -/
theorem View.value_notify_iff {view : View} {sources : List σ} {source : SourceRef} :
    (view.notify sources source).value = true ↔
      view.released = false ∧ view.queue.entries = [] ∧
        ∃ id, view.registry.idOf? source = some id ∧
          ((view.hear id).refill sources).view.queue.entries ≠ [] := by
  rcases view.notify_cases sources source with
    ⟨deaf, result⟩ | ⟨id, open', found, ⟨empty, result⟩ | ⟨waiting, result⟩⟩
  · rw [result]
    constructor
    · intro never
      cases never
    · rintro ⟨open', _, id, found, _⟩
      rcases deaf with released | unknown
      · rw [open'] at released
        cases released
      · rw [found] at unknown
        cases unknown
  · have asked : (view.notify sources source).value =
        !((view.hear id).refill sources).view.queue.isEmpty := by
      rw [result]
      rfl
    rw [asked]
    simp [open', empty, found, Lookahead.isEmpty]
  · rw [result]
    simp [waiting]

namespace Network

/-- The command rings the notifier, which is heard in the network given. -/
inductive Rings (network : Network σ) : Command Notifier α → Notifier → Network σ → Prop
  | ring (notifier : Notifier) : Rings network (.ring notifier) notifier network
  | announce {ref : ViewRef} {view : View} (source : SourceRef)
    (there : network.view? ref = some view) :
    Rings network (.announce ref source) ⟨ref, source⟩ network
  | act {source : SourceRef} {action : α} {state : σ} {notifier : Notifier}
    (found : network.sources[source]? = some state)
    (named : (Producer.act action state).2 = some notifier) :
    Rings network (.act source action) notifier
      { network with sources := network.sources.set source (Producer.act action state).1 }
  | attach {source : SourceRef} {given : Notifier} {state : σ} {notifier : Notifier}
    (found : network.sources[source]? = some state)
    (named : (Producer.attach given state).2 = some notifier) :
    Rings network (.attach source given) notifier
      { network with sources := network.sources.set source (Producer.attach given state).1 }
  | add {ref : ViewRef} {source : SourceRef} {id : SourceId} {registered : Network σ} {state : σ}
    {notifier : Notifier} (found : network.sources[source]? = some state)
    (own : Producer.ownId? state = some id)
    (accepted : network.register ref source id = .ok registered)
    (named : (Producer.attach ⟨ref, source⟩ state).2 = some notifier) :
    Rings network (.add ref source) notifier
      { registered with
        sources := network.sources.set source (Producer.attach ⟨ref, source⟩ state).1 }

/-- The view of the notifier is there and not released, it has the source registered, nothing waits
in it, and something waits after the refill that the notifier causes. -/
def Alarms (network : Network σ) (notifier : Notifier) : Prop :=
  ∃ view, network.view? notifier.view = some view ∧ view.released = false ∧
    view.queue.entries = [] ∧ ∃ id, view.registry.idOf? notifier.source = some id ∧
      ((view.hear id).refill network.sources).view.queue.entries ≠ []

/-- How often the callback of a view was called, if it has one. -/
def calls? (network : Network σ) (ref : ViewRef) : Option Nat :=
  network.slots[ref]?.bind fun slot => slot.listener.calls?

variable {network heard : Network σ} {command : Command Notifier α} {notifier : Notifier}
  {ref target : ViewRef}

/-- A command that rings a notifier is the notification, but for its answer. -/
theorem Rings.exec_eq (rings : network.Rings command notifier heard) :
    ∃ reply, network.exec command = { heard.notify notifier with reply } := by
  cases rings with
  | ring => exact ⟨_, rfl⟩
  | announce source there => exact ⟨.done, by simp only [exec, there]⟩
  | act found named => exact ⟨.done, by simp only [exec, change, found, named, ringing]⟩
  | attach found named => exact ⟨.done, by simp only [exec, change, found, named, ringing]⟩
  | @add ref source id registered state notifier found own accepted named =>
    refine ⟨.registered ⟨ref, source⟩, ?_⟩
    simp only [exec, found, Option.bind_some, own, accepted, change, named, ringing,
      sources_of_register network accepted]

/-- Ringing a notifier is heard by the views as they are. -/
theorem Rings.view?_eq_some {view : View} (rings : network.Rings command notifier heard)
    (there : heard.view? ref = some view) :
    ∃ before, network.view? ref = some before ∧ before.released = view.released ∧
      before.queue = view.queue := by
  cases rings with
  | ring | announce | act | attach => exact ⟨view, there, rfl, rfl⟩
  | @add target source id registered state notifier found own accepted named =>
    obtain ⟨old, later, present, renewed, rfl⟩ := register_cases accepted
    change (network.setView target later).view? ref = some view at there
    by_cases same : ref = target
    · subst same
      rw [eq_of_view?_setView there]
      obtain ⟨_, _, _, rotation, _, rfl⟩ := View.register_cases renewed
      exact ⟨old, present, rfl, rfl⟩
    · rw [view?_setView_of_ne same] at there
      exact ⟨view, there, rfl, rfl⟩

/-! ### Calls of callbacks -/

omit [Producer σ α] in
@[simp] theorem calls?_setView (state : View) :
    (network.setView target state).calls? ref = network.calls? ref := by
  rw [calls?, slots_setView, calls?]
  split
  · cases network.slots[ref]? <;> rfl
  · rfl

omit [Producer σ α] in
theorem calls?_of_register {source : SourceRef} {id : SourceId}
    {registered : Network σ} (accepted : network.register target source id = .ok registered) :
    registered.calls? ref = network.calls? ref := by
  obtain ⟨_, later, _, _, rfl⟩ := register_cases accepted
  exact calls?_setView later

theorem Rings.calls?_eq (rings : network.Rings command notifier heard) :
    heard.calls? ref = network.calls? ref := by
  cases rings with
  | ring | announce | act | attach => rfl
  | @add target source id registered state notifier found own accepted named =>
    exact (calls?_of_register accepted : registered.calls? ref = network.calls? ref)

omit [Producer σ α] in
/-- Only channels are read and disconnected, so no callback is touched. -/
theorem calls?_setListener {slot : Slot} {listener : Listener}
    (there : network.slots[target]? = some slot) (same : listener.calls? = slot.listener.calls?) :
    (network.setListener target listener).calls? ref = network.calls? ref := by
  rw [calls?, slots_setListener, calls?]
  by_cases own : target = ref
  · subst own
    rw [if_pos rfl, there]
    exact same
  · rw [if_neg own]

end Network

theorem Listener.calls?_of_receive? {listener later : Listener} {received : Bool}
    (read : listener.receive? = some (received, later)) : later.calls? = listener.calls? := by
  cases listener with
  | callback calls => cases read
  | channel capacity waiting connected =>
    cases waiting with
    | zero | succ =>
      cases read
      rfl

theorem Listener.calls?_of_disconnect? {listener later : Listener}
    (gone : listener.disconnect? = some later) : later.calls? = listener.calls? := by
  cases listener with
  | callback calls => cases gone
  | channel capacity waiting connected =>
    cases gone
    rfl

/-- A signal calls a callback once more. -/
theorem Listener.calls?_signal (listener : Listener) :
    listener.signal.calls? = listener.calls?.map (· + 1) := by
  cases listener with
  | callback calls => rfl
  | channel capacity waiting connected =>
    rw [signal]
    split <;> rfl

/-- The step signals nobody. -/
structure Step.Silent (network : Network σ) (step : Step σ) : Prop where
  signals : Event.signals step.events = []
  call : step.call? = none
  calls : ∀ ref, step.network.calls? ref = network.calls? ref

/-- The step signals the listener of the view at the place, after everything else, and something
waits in the view then. -/
structure Step.Sounds (network : Network σ) (step : Step σ) (target : ViewRef) : Prop where
  events : ∃ log : List Activity,
    step.events = log.map (Event.view target) ++ [.signalled target]
  stocked : ∃ view, step.network.view? target = some view ∧ view.queue.entries ≠ []
  call : step.call? = (step.network.calls? target).map (Call.mk target)
  calls : ∀ ref, step.network.calls? ref = (network.calls? ref).map (· + [target].count ref)

omit [Producer σ α] in
theorem Step.Sounds.signals {network : Network σ} {step : Step σ} {target : ViewRef}
    (sounds : step.Sounds network target) : Event.signals step.events = [target] := by
  obtain ⟨log, ends⟩ := sounds.events
  rw [ends, Event.signals_append, Event.signals_map_view]
  rfl

namespace Network

variable {network heard : Network σ} {command : Command Notifier α} {notifier : Notifier}
  {ref target : ViewRef}

theorem silent_still (reply : Reply σ) : (network.still reply).Silent network :=
  ⟨rfl, rfl, fun _ => rfl⟩

theorem silent_commit {β : Type} (effect : Effect σ β) (reply : β → Reply σ) :
    (network.commit target effect reply).Silent network :=
  ⟨Event.signals_map_view target effect.journal, rfl, fun _ => calls?_setView effect.view⟩

theorem silent_answer (view : View) (request : Request) :
    (network.answer target view request).Silent network := by
  cases request with
  | peek | next | drain | availability | release =>
    rw [answer]
    exact silent_commit _ _
  | requireSegment id segment =>
    simp only [answer]
    split
    · exact silent_still _
    · exact ⟨rfl, rfl, fun _ => rfl⟩
  | resize size => exact ⟨rfl, rfl, fun _ => rfl⟩
  | _ => exact silent_still _

/-- A change of a source signals nobody if it names no notifier. -/
theorem silent_change {source : SourceRef} {step : σ → σ × Option Notifier} {reply : Reply σ}
    (unnamed : ∀ state, network.sources[source]? = some state → (step state).2 = none) :
    (network.change source step reply).Silent network := by
  unfold change
  cases found : network.sources[source]? with
  | none => exact silent_still _
  | some state =>
    simp only [unnamed state found, ringing]
    exact ⟨rfl, rfl, fun _ => rfl⟩

theorem silent_add {source : SourceRef}
    (quiet : ∀ notifier heard,
      ¬ network.Rings (.add ref source : Command Notifier α) notifier heard) :
    (network.exec (.add ref source : Command Notifier α)).Silent network := by
  rcases network.exec_add_cases (α := α) ref source with
    ⟨reply, _, still⟩ | ⟨state, id, registered, found, own, accepted, performed⟩
  · rw [still]
    exact silent_still reply
  · have silent : (registered.change source (Producer.attach ⟨ref, source⟩)
        (.registered ⟨ref, source⟩)).Silent registered := by
      refine silent_change fun state' found' => ?_
      rw [sources_of_register network accepted, found, Option.some.injEq] at found'
      subst found'
      cases named : (Producer.attach ⟨ref, source⟩ state).2 with
      | none => rfl
      | some notifier => exact absurd (.add found own accepted named) (quiet notifier _)
    rw [performed]
    exact ⟨silent.signals, silent.call, fun ref =>
      (silent.calls ref).trans (calls?_of_register accepted)⟩

theorem silent_receive :
    (network.exec (.receive target : Command Notifier α)).Silent network := by
  simp only [exec]
  cases read : network.slots[target]?.bind fun slot => slot.listener.receive? with
  | none => exact silent_still _
  | some pair =>
    obtain ⟨slot, there, got⟩ := Option.bind_eq_some_iff.mp read
    exact ⟨rfl, rfl, fun _ => calls?_setListener there (Listener.calls?_of_receive? got)⟩

theorem silent_dropReceiver :
    (network.exec (.dropReceiver target : Command Notifier α)).Silent network := by
  simp only [exec]
  cases read : network.slots[target]?.bind fun slot => slot.listener.disconnect? with
  | none => exact silent_still _
  | some later =>
    obtain ⟨slot, there, gone⟩ := Option.bind_eq_some_iff.mp read
    exact ⟨rfl, rfl, fun _ => calls?_setListener there (Listener.calls?_of_disconnect? gone)⟩

theorem silent_dropView :
    (network.exec (.dropView target : Command Notifier α)).Silent network := by
  simp only [exec]
  split
  · exact silent_still _
  · refine ⟨rfl, rfl, fun ref => ?_⟩
    simp only [still, calls?, List.getElem?_modify]
    cases network.slots[ref]? with
    | none => rfl
    | some slot => by_cases own : target = ref <;> simp [own]

/-- A command that rings no notifier signals nobody. -/
theorem silent_exec (quiet : ∀ notifier heard, ¬ network.Rings command notifier heard) :
    (network.exec command).Silent network := by
  cases command with
  | request ref request =>
    simp only [exec]
    split
    · exact silent_still _
    · exact silent_answer _ request
  | register ref source id =>
    rcases network.exec_register_cases (α := α) ref source id with
      ⟨reply, _, still⟩ | ⟨registered, accepted, performed⟩
    · rw [still]
      exact silent_still reply
    · rw [performed]
      exact ⟨rfl, rfl, fun _ => calls?_of_register accepted⟩
  | attach source given =>
    refine silent_change fun state found => ?_
    cases named : (Producer.attach given state).2 with
    | none => rfl
    | some notifier => exact absurd (.attach found named) (quiet notifier _)
  | act source action =>
    refine silent_change fun state found => ?_
    cases named : (Producer.act action state).2 with
    | none => rfl
    | some notifier => exact absurd (.act found named) (quiet notifier _)
  | add ref source => exact silent_add quiet
  | ring notifier => exact absurd (.ring notifier) (quiet notifier network)
  | announce ref source =>
    simp only [exec]
    cases there : network.view? ref with
    | none => exact silent_still _
    | some view => exact absurd (.announce source there) (quiet ⟨ref, source⟩ network)
  | isAlive notifier => exact silent_still _
  | receive target => exact silent_receive
  | dropReceiver target => exact silent_dropReceiver
  | dropView target => exact silent_dropView
  | pull source | sourceFailure source | releaseSource source | inspect source =>
    simp only [exec]
    split
    · exact silent_still _
    · exact ⟨rfl, rfl, fun _ => rfl⟩

/-! ### A notification -/

theorem alarms_iff {view : View} (there : network.view? notifier.view = some view) :
    network.Alarms notifier ↔ (view.notify network.sources notifier.source).value = true := by
  rw [View.value_notify_iff]
  constructor
  · rintro ⟨other, there', alarms⟩
    rw [there, Option.some.injEq] at there'
    subst there'
    exact alarms
  · intro alarms
    exact ⟨view, there, alarms⟩

theorem silent_notify (calm : ¬ network.Alarms notifier) :
    (network.notify notifier).Silent network := by
  unfold notify
  cases there : network.view? notifier.view with
  | none => exact silent_still _
  | some view =>
    simp only
    rw [if_neg (mt (alarms_iff there).mpr calm)]
    exact silent_commit _ _

/-- A notifier that alarms its view has the listener signalled. -/
theorem sounds_notify (alarms : network.Alarms notifier) :
    (network.notify notifier).Sounds network notifier.view := by
  obtain ⟨view, there, open', empty, id, found, full⟩ := alarms
  have alarm : (view.notify network.sources notifier.source).value = true :=
    View.value_notify_iff.mpr ⟨open', empty, id, found, full⟩
  obtain ⟨listener, slot⟩ := view?_eq_some_iff.mp there
  have own : (network.notify notifier).network.slots[notifier.view]? =
      some ⟨some (view.notify network.sources notifier.source).view, listener.signal⟩ := by
    rw [slots_notify there, if_pos rfl, slot, Option.map_some, if_pos alarm]
  have stands : (network.commit notifier.view (view.notify network.sources notifier.source)
      fun _ => .flag true).network.slots[notifier.view]? =
        some ⟨some (view.notify network.sources notifier.source).view, listener⟩ := by
    rw [commit, slots_setView, if_pos rfl, slot, Option.map_some]
  refine ⟨⟨(view.notify network.sources notifier.source).journal, ?_⟩,
    ⟨_, view?_eq_some_iff.mpr ⟨_, own⟩, ?_⟩, ?_, fun ref => ?_⟩
  · simp only [notify, there, if_pos alarm, signalling, stands]
    rfl
  · rcases view.notify_cases network.sources notifier.source with
      ⟨_, result⟩ | ⟨heard, _, named, ⟨_, result⟩ | ⟨_, result⟩⟩
    · rw [result] at alarm
      cases alarm
    · rw [found, Option.some.injEq] at named
      subst named
      rw [result]
      exact full
    · rw [result] at alarm
      cases alarm
  · rw [calls?, own]
    simp only [notify, there, if_pos alarm, signalling, stands]
    rfl
  · rw [calls?, slots_notify there, calls?]
    by_cases same : notifier.view = ref
    · subst same
      rw [if_pos rfl, slot, Option.map_some, if_pos alarm]
      simp [Listener.calls?_signal]
    · rw [if_neg same, List.count_singleton]
      simp [same]

/-! ### A command -/

theorem Rings.sounds (rings : network.Rings command notifier heard)
    (alarms : heard.Alarms notifier) : (network.exec command).Sounds network notifier.view := by
  obtain ⟨reply, same⟩ := rings.exec_eq
  have sounds := sounds_notify alarms
  rw [same]
  exact ⟨sounds.events, sounds.stocked, sounds.call, fun ref => by
    rw [← rings.calls?_eq]
    exact sounds.calls ref⟩

theorem Rings.silent (rings : network.Rings command notifier heard)
    (calm : ¬ heard.Alarms notifier) : (network.exec command).Silent network := by
  obtain ⟨reply, same⟩ := rings.exec_eq
  have silent := silent_notify calm
  rw [same]
  exact ⟨silent.signals, silent.call, fun ref => (silent.calls ref).trans rings.calls?_eq⟩

/-- A command signals nobody, or it rings a notifier that alarms its view. -/
theorem exec_cases (network : Network σ) (command : Command Notifier α) :
    (network.exec command).Silent network ∨
      ∃ notifier heard, network.Rings command notifier heard ∧ heard.Alarms notifier := by
  by_cases rings : ∃ notifier heard, network.Rings command notifier heard
  · obtain ⟨notifier, heard, rings⟩ := rings
    by_cases alarms : heard.Alarms notifier
    · exact .inr ⟨notifier, heard, rings, alarms⟩
    · exact .inl (rings.silent alarms)
  · exact .inl (silent_exec fun notifier heard rung => rings ⟨notifier, heard, rung⟩)

end Network

end FairMerge
