import FairMerge.Proofs.Notifiers
import FairMerge.Proofs.SourceHistory

/-! # What a command does to one slot

Seen from one view and its listener, a command is put together from few steps: the sources serve
somebody, the view does something for its consumer, a source changes and its notifier rings, the
view registers a source, a message is read. `Slot.Invariant` asks of a statement about the slot and
the pool that each step keeps it, and then every command does.

A source that has changed may owe the ringing of its notifier, so a statement is about the notifier
that is owed, too. -/

namespace FairMerge

open Producer (Served)

variable {σ α : Type} [Producer σ α]

/-- Every step that the command is put together from keeps the statement about a slot. -/
structure Slot.Invariant (ref : ViewRef) (command : Command Notifier α)
    (Holds : Option Notifier → Slot → List σ → Prop) : Prop where
  serve : ∀ {slot : Slot} {sources later : List σ}, Holds none slot sources →
    Served sources later → Holds none slot later
  consult : ∀ {view : View} {listener : Listener} {sources : List σ} {β : Type} (answer : View → β),
    (command = .request ref .peek ∨ ∃ credit, command = .request ref (.availability credit)) →
    Holds none ⟨some view, listener⟩ sources →
    Holds none ⟨some (view.consult sources answer).view, listener⟩
      (view.consult sources answer).sources
  next : ∀ {view : View} {listener : Listener} {sources : List σ},
    command = .request ref .next → Holds none ⟨some view, listener⟩ sources →
    Holds none ⟨some (view.next sources).view, listener⟩ (view.next sources).sources
  drain : ∀ {view : View} {listener : Listener} {sources : List σ} (limit : Nat),
    command = .request ref (.drain limit) → Holds none ⟨some view, listener⟩ sources →
    Holds none ⟨some (view.drain sources limit).view, listener⟩ (view.drain sources limit).sources
  release : ∀ {view : View} {listener : Listener} {sources : List σ},
    command = .request ref .release → Holds none ⟨some view, listener⟩ sources →
    Holds none ⟨some (view.release sources).view, listener⟩ (view.release sources).sources
  register : ∀ {view later : View} {listener : Listener} {sources : List σ} {id : SourceId}
    {source : SourceRef}, Holds none ⟨some view, listener⟩ sources →
    view.register id source = .ok later → Holds none ⟨some later, listener⟩ sources
  act : ∀ {slot : Slot} {sources : List σ} {place : SourceRef} {action : α} {state : σ},
    command = .act place action → Holds none slot sources → sources[place]? = some state →
    Holds (Producer.act action state).2 slot (sources.set place (Producer.act action state).1)
  attach : ∀ {slot : Slot} {sources : List σ} {place : SourceRef} {given : Notifier} {state : σ},
    (given.view = ref → ∀ view, slot.view? = some view → given.source ∈ view.registry.sources) →
    Holds none slot sources → sources[place]? = some state →
    Holds (Producer.attach given state).2 slot (sources.set place (Producer.attach given state).1)
  ring : ∀ {slot : Slot} {sources : List σ} {notifier : Notifier}, Holds none slot sources →
    Holds (some notifier) slot sources
  deaf : ∀ {slot : Slot} {sources : List σ} {notifier : Notifier},
    notifier.view ≠ ref ∨ slot.view? = none → Holds (some notifier) slot sources →
    Holds none slot sources
  notify : ∀ {view : View} {listener : Listener} {sources : List σ} {source : SourceRef},
    Holds (some ⟨ref, source⟩) ⟨some view, listener⟩ sources →
    Holds none ⟨some (view.notify sources source).view,
      if (view.notify sources source).value then listener.signal else listener⟩
      (view.notify sources source).sources
  receive : ∀ {view? : Option View} {listener later : Listener} {sources : List σ} {received : Bool},
    command = .receive ref → Holds none ⟨view?, listener⟩ sources →
    listener.receive? = some (received, later) → Holds none ⟨view?, later⟩ sources
  disconnect : ∀ {view? : Option View} {listener later : Listener} {sources : List σ},
    Holds none ⟨view?, listener⟩ sources → listener.disconnect? = some later →
    Holds none ⟨view?, later⟩ sources
  drop : ∀ {slot : Slot} {sources : List σ}, Holds none slot sources →
    Holds none { slot with view? := none } sources

namespace Network

variable {network : Network σ} {ref target : ViewRef} {slot : Slot} {view : View}

omit [Producer σ α] in
theorem view?_eq_some_iff :
    network.view? ref = some view ↔
      ∃ listener, network.slots[ref]? = some ⟨some view, listener⟩ := by
  unfold view?
  constructor
  · intro found
    obtain ⟨⟨_, listener⟩, present, rfl⟩ := Option.bind_eq_some_iff.mp found
    exact ⟨listener, present⟩
  · rintro ⟨listener, present⟩
    rw [present]
    rfl

omit [Producer σ α] in
theorem slots_setView (state : View) :
    (network.setView target state).slots[ref]? =
      if target = ref then network.slots[ref]?.map fun slot => { slot with view? := some state }
      else network.slots[ref]? := by
  by_cases same : target = ref
  · subst same
    simp [setView]
  · rw [if_neg same]
    exact List.getElem?_modify_ne _ _ same

omit [Producer σ α] in
theorem setView_self (found : network.view? ref = some view) :
    network.setView ref view = network := by
  obtain ⟨listener, present⟩ := view?_eq_some_iff.mp found
  have same : network.slots.modify ref (fun slot => { slot with view? := some view }) =
      network.slots := by
    apply List.ext_getElem?
    intro place
    rw [List.getElem?_modify]
    by_cases here : ref = place
    · subst here
      rw [present]
      simp
    · cases network.slots[place]? <;> simp [here]
  rw [setView, same]

omit [Producer σ α] in
theorem slots_setListener (listener : Listener) :
    (network.setListener target listener).slots[ref]? =
      if target = ref then network.slots[ref]?.map fun slot => { slot with listener }
      else network.slots[ref]? := by
  by_cases same : target = ref
  · subst same
    simp [setListener]
  · rw [if_neg same]
    exact List.getElem?_modify_ne _ _ same

omit [Producer σ α] in
theorem slots_signalling (step : Step σ) :
    (signalling step target).network.slots[ref]? =
      if target = ref then step.network.slots[ref]?.map fun slot =>
        { slot with listener := slot.listener.signal }
      else step.network.slots[ref]? := by
  unfold signalling
  cases there : step.network.slots[target]? with
  | none =>
    by_cases same : target = ref
    · subst same
      simp [there]
    · rw [if_neg same]
  | some slot =>
    rw [slots_setListener]
    by_cases same : target = ref
    · subst same
      simp [there]
    · rw [if_neg same, if_neg same]

omit [Producer σ α] in
@[simp] theorem sources_signalling (step : Step σ) :
    (signalling step target).network.sources = step.network.sources := by
  unfold signalling
  split <;> rfl

/-- A notifier whose view is there reaches that view and its listener. -/
theorem slots_notify {notifier : Notifier} (found : network.view? notifier.view = some view) :
    (network.notify notifier).network.slots[ref]? =
      if notifier.view = ref then network.slots[ref]?.map fun slot =>
        ⟨some (view.notify network.sources notifier.source).view,
          if (view.notify network.sources notifier.source).value then slot.listener.signal
          else slot.listener⟩
      else network.slots[ref]? := by
  simp only [notify, found]
  by_cases alarm : (view.notify network.sources notifier.source).value = true
  · simp only [if_pos alarm, slots_signalling, commit, slots_setView]
    split
    · rw [Option.map_map]
      rfl
    · rfl
  · simp only [if_neg alarm, commit, slots_setView]

theorem sources_notify {notifier : Notifier} (found : network.view? notifier.view = some view) :
    (network.notify notifier).network.sources =
      (view.notify network.sources notifier.source).sources := by
  simp only [notify, found]
  split
  · rw [sources_signalling]
    rfl
  · rfl

/-- The statement holds of the slot at a place and the pool. -/
def Keeps (Holds : Option Notifier → Slot → List σ → Prop) (ref : ViewRef) (owed : Option Notifier)
    (network : Network σ) : Prop :=
  ∀ slot, network.slots[ref]? = some slot → Holds owed slot network.sources

variable {Holds : Option Notifier → Slot → List σ → Prop}

omit [Producer σ α] in
theorem keeps_setListener {view? : Option View} {listener later : Listener}
    (keeps : network.Keeps Holds ref none)
    (there : network.slots[target]? = some ⟨view?, listener⟩)
    (own : target = ref → Holds none ⟨view?, listener⟩ network.sources →
      Holds none ⟨view?, later⟩ network.sources) :
    (network.setListener target later).Keeps Holds ref none := by
  intro slot present
  rw [slots_setListener] at present
  by_cases same : target = ref
  · subst same
    rw [if_pos rfl, there] at present
    cases present
    exact own rfl (keeps _ there)
  · rw [if_neg same] at present
    exact keeps slot present

variable {command : Command Notifier α} (inv : Slot.Invariant ref command Holds)
include inv

theorem keeps_serve {sources : List σ} (keeps : network.Keeps Holds ref none)
    (served : Served network.sources sources) :
    ({ network with sources } : Network σ).Keeps Holds ref none :=
  fun slot present => inv.serve (keeps slot present) served

theorem keeps_commit {β : Type} {effect : Effect σ β} {reply : β → Reply σ}
    (keeps : network.Keeps Holds ref none) (found : network.view? target = some view)
    (own : target = ref → ∀ listener, Holds none ⟨some view, listener⟩ network.sources →
      Holds none ⟨some effect.view, listener⟩ effect.sources)
    (served : Served network.sources effect.sources) :
    (network.commit target effect reply).network.Keeps Holds ref none := by
  intro slot present
  obtain ⟨listener, there⟩ := view?_eq_some_iff.mp found
  rw [commit, slots_setView] at present
  by_cases same : target = ref
  · subst same
    rw [if_pos rfl, there, Option.map_some, Option.some.injEq] at present
    subst present
    exact own rfl listener (keeps _ there)
  · rw [if_neg same] at present
    exact inv.serve (keeps slot present) served

theorem keeps_notify {notifier : Notifier} (keeps : network.Keeps Holds ref (some notifier)) :
    (network.notify notifier).network.Keeps Holds ref none := by
  cases found : network.view? notifier.view with
  | none =>
    rw [notify, found]
    intro slot present
    refine inv.deaf ?_ (keeps slot present)
    by_cases own : notifier.view = ref
    · rw [own, view?, show network.slots[ref]? = some slot from present] at found
      exact .inr found
    · exact .inl own
  | some view =>
    obtain ⟨target, source⟩ := notifier
    obtain ⟨listener, there⟩ := view?_eq_some_iff.mp found
    intro slot present
    rw [slots_notify found] at present
    rw [sources_notify found]
    by_cases own : target = ref
    · subst own
      rw [if_pos rfl, there] at present
      cases present
      exact inv.notify (keeps _ there)
    · have served := Effect.served fun place => view.notify_touches network.sources place source
      rw [if_neg own] at present
      exact inv.serve (inv.deaf (.inl own) (keeps slot present)) served

theorem keeps_ringing {notifier? : Option Notifier} {reply : Reply σ}
    (keeps : network.Keeps Holds ref notifier?) :
    (network.ringing notifier? reply).network.Keeps Holds ref none := by
  cases notifier? with
  | none => exact keeps
  | some notifier => exact keeps_notify inv keeps

/-- A change of a source and the ringing after it keep the statement if the change does. -/
theorem keeps_change {place : SourceRef} {step : σ → σ × Option Notifier} {reply : Reply σ}
    (keeps : network.Keeps Holds ref none)
    (changed : ∀ slot state, network.slots[ref]? = some slot →
      network.sources[place]? = some state → Holds none slot network.sources →
      Holds (step state).2 slot (network.sources.set place (step state).1)) :
    (network.change place step reply).network.Keeps Holds ref none := by
  unfold change
  cases found : network.sources[place]? with
  | none => exact keeps
  | some state =>
    apply keeps_ringing inv
    intro slot present
    exact changed slot state present found (keeps slot present)

theorem keeps_answer {request : Request} (asked : command = .request target request)
    (keeps : network.Keeps Holds ref none) (found : network.view? target = some view) :
    (network.answer target view request).network.Keeps Holds ref none := by
  cases request with
  | peek =>
    refine keeps_commit inv keeps found ?_
      (Effect.served fun place => view.consult_touches _ place _)
    rintro rfl listener holds
    exact inv.consult _ (.inl asked) holds
  | next =>
    refine keeps_commit inv keeps found ?_ (Effect.served fun place => view.next_touches _ place)
    rintro rfl listener holds
    exact inv.next asked holds
  | drain limit =>
    refine keeps_commit inv keeps found ?_
      (Effect.served fun place => view.drain_touches _ place limit)
    rintro rfl listener holds
    exact inv.drain limit asked holds
  | availability credit =>
    refine keeps_commit inv keeps found ?_
      (Effect.served fun place => view.consult_touches _ place _)
    rintro rfl listener holds
    exact inv.consult _ (.inr ⟨credit, asked⟩) holds
  | release =>
    refine keeps_commit inv keeps found ?_ (Effect.served fun place => view.release_touches _ place)
    rintro rfl listener holds
    exact inv.release asked holds
  | requireSegment id segment =>
    simp only [answer, View.requireSegment]
    cases view.registry.source? id with
    | none => exact keeps
    | some source =>
      refine keeps_serve inv keeps fun place => ⟨[], ?_⟩
      exact Producer.servesAt_modify place source network.sources fun _ =>
        .requireSegment id segment .refl
  | resize size =>
    exact keeps_serve inv keeps fun place => ⟨[], view.resize_servesAt network.sources place size⟩
  | _ => exact keeps

theorem keeps_register {source : SourceRef} {id : SourceId} {registered : Network σ}
    (keeps : network.Keeps Holds ref none)
    (accepted : network.register target source id = .ok registered) :
    registered.Keeps Holds ref none := by
  obtain ⟨old, later, found, renewed, rfl⟩ := register_cases accepted
  obtain ⟨listener, there⟩ := view?_eq_some_iff.mp found
  intro slot stands
  rw [slots_setView] at stands
  by_cases same : target = ref
  · subst same
    rw [if_pos rfl, there] at stands
    cases stands
    exact inv.register (keeps _ there) renewed
  · rw [if_neg same] at stands
    exact keeps slot stands

/-! ### Kinds of commands -/

theorem keeps_request {request : Request} (asked : command = .request target request)
    (keeps : network.Keeps Holds ref none) :
    (network.exec (.request target request : Command Notifier α)).network.Keeps Holds ref none := by
  simp only [exec]
  cases found : network.view? target with
  | none => exact keeps
  | some view => exact keeps_answer inv asked keeps found

/-- A source may be given the notifier of a registration. -/
theorem keeps_attach {place : SourceRef} {given : Notifier} {reply : Reply σ}
    (keeps : network.Keeps Holds ref none)
    (known : ∀ view, network.view? given.view = some view →
      given.source ∈ view.registry.sources) :
    (network.change place (Producer.attach given) reply).network.Keeps Holds ref none := by
  apply keeps_change inv keeps
  intro slot state present found holds
  refine inv.attach ?_ holds found
  rintro rfl view seen
  apply known view
  rw [view?, present]
  exact seen

theorem keeps_add (source : SourceRef) (keeps : network.Keeps Holds ref none) :
    (network.exec (.add target source : Command Notifier α)).network.Keeps Holds ref none := by
  rcases network.exec_add_cases (α := α) target source with
    ⟨reply, _, still⟩ | ⟨_, _, registered, _, _, accepted, performed⟩
  · rw [still]
    exact keeps
  · rw [performed]
    exact keeps_attach inv (keeps_register inv keeps accepted) (lists_of_register accepted)

/-- A notifier may ring though it is not owed. -/
theorem keeps_ring (notifier : Notifier) (keeps : network.Keeps Holds ref none) :
    (network.notify notifier).network.Keeps Holds ref none :=
  keeps_notify inv fun slot present => inv.ring (keeps slot present)

theorem keeps_announce (source : SourceRef) (keeps : network.Keeps Holds ref none) :
    (network.exec (.announce target source : Command Notifier α)).network.Keeps Holds ref none := by
  simp only [exec]
  cases network.view? target with
  | none => exact keeps
  | some view => exact keeps_ring inv ⟨target, source⟩ keeps

theorem keeps_pull (source : SourceRef) (keeps : network.Keeps Holds ref none) :
    (network.exec (.pull source : Command Notifier α)).network.Keeps Holds ref none := by
  simp only [exec]
  cases network.sources[source]? with
  | none => exact keeps
  | some state =>
    have pulled := (Prod.eta (Producer.pullAt network.sources source)).symm
    exact keeps_serve inv keeps fun place => ⟨_, Producer.servesAt_pullAt place pulled⟩

theorem keeps_releaseSource (source : SourceRef) (keeps : network.Keeps Holds ref none) :
    (network.exec (.releaseSource source : Command Notifier α)).network.Keeps Holds ref none := by
  simp only [exec]
  cases network.sources[source]? with
  | none => exact keeps
  | some state =>
    exact keeps_serve inv keeps fun place =>
      ⟨[], Producer.servesAt_releaseAt place source network.sources⟩

theorem keeps_receive (asked : command = .receive target) (keeps : network.Keeps Holds ref none) :
    (network.exec (.receive target : Command Notifier α)).network.Keeps Holds ref none := by
  simp only [exec]
  cases read : network.slots[target]?.bind fun slot => slot.listener.receive? with
  | none => exact keeps
  | some pair =>
    obtain ⟨received, later⟩ := pair
    obtain ⟨⟨view?, listener⟩, there, got⟩ := Option.bind_eq_some_iff.mp read
    apply keeps_setListener keeps there
    rintro rfl holds
    exact inv.receive asked holds got

theorem keeps_dropReceiver (target : ViewRef) (keeps : network.Keeps Holds ref none) :
    (network.exec (.dropReceiver target : Command Notifier α)).network.Keeps Holds ref none := by
  simp only [exec]
  cases read : network.slots[target]?.bind fun slot => slot.listener.disconnect? with
  | none => exact keeps
  | some later =>
    obtain ⟨⟨view?, listener⟩, there, gone⟩ := Option.bind_eq_some_iff.mp read
    apply keeps_setListener keeps there
    rintro rfl holds
    exact inv.disconnect holds gone

theorem keeps_dropView (target : ViewRef) (keeps : network.Keeps Holds ref none) :
    (network.exec (.dropView target : Command Notifier α)).network.Keeps Holds ref none := by
  simp only [exec]
  cases network.view? target with
  | none => exact keeps
  | some view =>
    intro slot present
    simp only [still] at present
    by_cases own : target = ref
    · subst own
      rw [List.getElem?_modify_eq] at present
      obtain ⟨before, there, rfl⟩ := Option.map_eq_some_iff.mp present
      exact inv.drop (keeps before there)
    · rw [List.getElem?_modify_ne _ _ own] at present
      exact keeps slot present

/-- A command keeps of every slot what its steps keep. -/
theorem keeps_exec (keeps : network.Keeps Holds ref none)
    (known : ∀ place given, command = .attach place given →
      ∀ view, network.view? given.view = some view → given.source ∈ view.registry.sources) :
    (network.exec command).network.Keeps Holds ref none := by
  cases same : command with
  | request target request => exact keeps_request inv same keeps
  | register target source id =>
    rcases network.exec_register_cases (α := α) target source id with
      ⟨reply, _, still⟩ | ⟨registered, accepted, performed⟩
    · rw [still]
      exact keeps
    · rw [performed]
      exact keeps_register inv keeps accepted
  | attach source notifier => exact keeps_attach inv keeps (known source notifier same)
  | add target source => exact keeps_add inv source keeps
  | ring notifier => exact keeps_ring inv notifier keeps
  | announce target source => exact keeps_announce inv source keeps
  | isAlive notifier => exact keeps
  | act source action =>
    exact keeps_change inv keeps fun slot state _ found holds => inv.act same holds found
  | pull source => exact keeps_pull inv source keeps
  | releaseSource source => exact keeps_releaseSource inv source keeps
  | sourceFailure source | inspect source =>
    simp only [exec]
    split <;> exact keeps
  | receive target => exact keeps_receive inv same keeps
  | dropReceiver target => exact keeps_dropReceiver inv target keeps
  | dropView target => exact keeps_dropView inv target keeps

end Network

/-- In a session whose notifiers stand for registrations, a command keeps of every slot what its
steps keep. -/
theorem Session.keeps_perform {session : Session σ α} {command : Command Nat α} {ref : ViewRef}
    {Holds : Option Notifier → Slot → List σ → Prop}
    (inv : ∀ resolved, command.resolve? (fun place => session.notifiers[place]?) = some resolved →
      Slot.Invariant ref resolved Holds)
    (stands : session.network.Stands session.notifiers)
    (keeps : session.network.Keeps Holds ref none) :
    (session.perform command).network.Keeps Holds ref none := by
  rcases session.perform_cases command with ⟨_, still⟩ | ⟨resolved, found, performed⟩
  · rw [still]
    exact keeps
  · rw [performed]
    apply Network.keeps_exec (inv resolved found) keeps
    rintro place given rfl view seen
    exact stands given (Command.mem_of_resolve?_attach found) view seen

end FairMerge
