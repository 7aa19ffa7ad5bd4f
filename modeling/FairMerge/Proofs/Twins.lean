import FairMerge.Proofs.ReadyFlags
import FairMerge.Proofs.Ringing

/-! # Networks that differ in flags

Two networks that differ at most in which sources one of their views counts as ready are twins. A
command makes twins of twins, answers alike in both and signals the same listeners, as long as no
source of the view is announced before it is attached. -/

namespace FairMerge

open Producer (Served)

/-- The slot when it is forgotten which sources its view counts as ready. -/
def Slot.forget (slot : Slot) : Slot := { slot with view? := slot.view?.map View.forget }

/-- The networks are the same but for the flags of the view at the place. -/
structure Network.Twins (ref : ViewRef) (network other : Network Source) : Prop where
  sources : network.sources = other.sources
  own : network.slots[ref]?.map Slot.forget = other.slots[ref]?.map Slot.forget
  foreign : ∀ place, place ≠ ref → network.slots[place]? = other.slots[place]?

/-- The steps answer alike, signal the same listeners and lead to twins. -/
structure Step.Alike (ref : ViewRef) (step other : Step Source) : Prop where
  network : step.network.Twins ref other.network
  reply : step.reply = other.reply
  signals : Event.signals step.events = Event.signals other.events
  call : step.call? = other.call?

/-- Whether the command lets the next pull of a source fail. -/
def Command.armsPull {ν : Type} : Command ν Source.Action → Bool
  | act _ action => action.armsPull
  | _ => false

/-- Whether the command registers a source and leaves it to others to attach it. -/
def Command.registers {ν α : Type} : Command ν α → Bool
  | register .. => true
  | _ => false

/-- All sources that the view at the place has registered are attached, if there is one. -/
def Network.Attached (network : Network Source) (ref : ViewRef) : Prop :=
  ∀ view ∈ network.view? ref, view.Attached ref network.sources

instance (network : Network Source) (ref : ViewRef) : Decidable (network.Attached ref) :=
  inferInstanceAs (Decidable (∀ view ∈ network.view? ref, _))

/-- A registration does not look at the flags. -/
theorem View.register_alike {view other : View} (same : view.forget = other.forget) (id : SourceId)
    (source : SourceRef) :
    (∃ cause, view.register id source = .error cause ∧ other.register id source = .error cause) ∨
      ∃ later later', view.register id source = .ok later ∧ other.register id source = .ok later' ∧
        later.forget = later'.forget := by
  obtain ⟨rotation, rfl, turn⟩ := eq_of_forget_eq same
  unfold View.register
  by_cases released : view.released = true
  · exact .inl ⟨.released, if_pos released, if_pos released⟩
  · simp only [if_neg released]
    cases view.registry.insert id source with
    | error cause => exact .inl ⟨cause, rfl, rfl⟩
    | ok registry =>
      have ids : view.rotation.ids = rotation.ids := by
        rw [← Rotation.ids_forget, turn, Rotation.ids_forget]
      simp only [Rotation.register, ← ids]
      by_cases known : id ∈ view.rotation.ids
      · simp only [if_pos known]
        exact .inl ⟨_, rfl, rfl⟩
      · simp only [if_neg known]
        refine .inr ⟨_, _, rfl, rfl, ?_⟩
        simp only [Rotation.forget, Rotation.mk.injEq] at turn
        simp only [forget, Rotation.forget, List.map_append, turn]

namespace Slot

variable {slot other : Slot}

theorem listener_of_forget_eq (same : slot.forget = other.forget) :
    slot.listener = other.listener :=
  (congrArg Slot.listener same :)

theorem view?_of_forget_eq (same : slot.forget = other.forget) :
    slot.view?.map View.forget = other.view?.map View.forget :=
  (congrArg Slot.view? same :)

theorem forget_eq_of (listener : slot.listener = other.listener)
    (view? : slot.view?.map View.forget = other.view?.map View.forget) :
    slot.forget = other.forget := by
  rw [forget, forget, listener, view?]

end Slot

namespace Network

variable {network other : Network Source} {ref target : ViewRef}

namespace Twins

theorem refl (ref : ViewRef) (network : Network Source) : network.Twins ref network :=
  ⟨rfl, rfl, fun _ _ => rfl⟩

theorem trans {third : Network Source} (first : network.Twins ref other)
    (second : other.Twins ref third) : network.Twins ref third :=
  ⟨first.sources.trans second.sources, first.own.trans second.own, fun place different =>
    (first.foreign place different).trans (second.foreign place different)⟩

/-- Twins have their slots at the same places. -/
theorem slots (twins : network.Twins ref other) (target : ViewRef) :
    (network.slots[target]? = none ∧ other.slots[target]? = none) ∨
      ∃ slot slot', network.slots[target]? = some slot ∧ other.slots[target]? = some slot' ∧
        slot.forget = slot'.forget ∧ (target ≠ ref → slot = slot') := by
  by_cases own : target = ref
  · subst own
    have same := twins.own
    cases there : network.slots[target]? with
    | none =>
      rw [there, Option.map_none, eq_comm, Option.map_eq_none_iff] at same
      exact .inl ⟨rfl, same⟩
    | some slot =>
      rw [there, Option.map_some, eq_comm] at same
      obtain ⟨slot', there', alike⟩ := Option.map_eq_some_iff.mp same
      exact .inr ⟨slot, slot', rfl, there', alike.symm, fun different => absurd rfl different⟩
  · have same := twins.foreign target own
    cases there : network.slots[target]? with
    | none => exact .inl ⟨rfl, same.symm.trans there⟩
    | some slot => exact .inr ⟨slot, slot, rfl, same.symm.trans there, rfl, fun _ => rfl⟩

/-- Twins have their views at the same places. -/
theorem views (twins : network.Twins ref other) (target : ViewRef) :
    (network.view? target = none ∧ other.view? target = none) ∨
      ∃ view view', network.view? target = some view ∧ other.view? target = some view' ∧
        view.forget = view'.forget ∧ (target ≠ ref → view = view') := by
  unfold view?
  rcases twins.slots target with ⟨there, there'⟩ | ⟨slot, slot', there, there', alike, equal⟩
  · rw [there, there']
    exact .inl ⟨rfl, rfl⟩
  · have same := Slot.view?_of_forget_eq alike
    rw [there, there', Option.bind_some, Option.bind_some]
    cases seen : slot.view? with
    | none =>
      rw [seen, Option.map_none, eq_comm, Option.map_eq_none_iff] at same
      exact .inl ⟨rfl, same⟩
    | some view =>
      rw [seen, Option.map_some, eq_comm] at same
      obtain ⟨view', seen', forgotten⟩ := Option.map_eq_some_iff.mp same
      refine .inr ⟨view, view', rfl, seen', forgotten.symm, fun different => ?_⟩
      rw [← equal different, seen, Option.some.injEq] at seen'
      exact seen'

theorem withSources (twins : network.Twins ref other) (sources : List Source) :
    ({ network with sources } : Network Source).Twins ref { other with sources } :=
  ⟨rfl, twins.own, twins.foreign⟩

/-- Changes of a slot that are alike make twins of twins. -/
theorem modify {change change' : Slot → Slot} (twins : network.Twins ref other)
    (own : target = ref → ∀ slot slot', slot.forget = slot'.forget →
      (change slot).forget = (change' slot').forget)
    (foreign : target ≠ ref → change = change') :
    ({ network with slots := network.slots.modify target change } : Network Source).Twins ref
      { other with slots := other.slots.modify target change' } where
  sources := twins.sources
  own := by
    by_cases here : target = ref
    · subst here
      rw [List.getElem?_modify_eq, List.getElem?_modify_eq]
      rcases twins.slots target with ⟨there, there'⟩ | ⟨slot, slot', there, there', alike, _⟩
      · rw [there, there']
        rfl
      · rw [there, there']
        exact congrArg some (own rfl slot slot' alike)
    · rw [List.getElem?_modify_ne _ _ here, List.getElem?_modify_ne _ _ here]
      exact twins.own
  foreign place different := by
    by_cases here : target = place
    · subst here
      rw [List.getElem?_modify_eq, List.getElem?_modify_eq, twins.foreign target different,
        foreign different]
    · rw [List.getElem?_modify_ne _ _ here, List.getElem?_modify_ne _ _ here]
      exact twins.foreign place different

theorem setView {view view' : View} (twins : network.Twins ref other)
    (same : view.forget = view'.forget) (foreign : target ≠ ref → view = view') :
    (network.setView target view).Twins ref (other.setView target view') := by
  refine twins.modify (fun _ slot slot' alike => ?_) (fun different => ?_)
  · have listener := Slot.listener_of_forget_eq alike
    exact Slot.forget_eq_of listener (congrArg some same)
  · rw [foreign different]

theorem setListener (twins : network.Twins ref other) (listener : Listener) :
    (network.setListener target listener).Twins ref (other.setListener target listener) := by
  refine twins.modify (fun _ slot slot' alike => ?_) (fun _ => rfl)
  have seen := Slot.view?_of_forget_eq alike
  exact Slot.forget_eq_of rfl seen

/-- What is read off a listener is the same in twins. -/
theorem listener {τ : Type} (twins : network.Twins ref other) (target : ViewRef)
    (read : Listener → Option τ) :
    (network.slots[target]?.bind fun slot => read slot.listener) =
      other.slots[target]?.bind fun slot => read slot.listener := by
  rcases twins.slots target with ⟨there, there'⟩ | ⟨slot, slot', there, there', same, _⟩
  · rw [there, there']
  · rw [there, there', Option.bind_some, Option.bind_some, Slot.listener_of_forget_eq same]

/-- Twins refuse a registration alike, or they accept it and stay twins. -/
theorem register (twins : network.Twins ref other) (target : ViewRef) (source : SourceRef)
    (id : SourceId) :
    (∃ reply, network.register target source id = .error reply ∧
        other.register target source id = .error reply) ∨
      ∃ registered registered', network.register target source id = .ok registered ∧
        other.register target source id = .ok registered' ∧ registered.Twins ref registered' := by
  unfold Network.register
  rw [← twins.sources]
  rcases twins.views target with ⟨there, there'⟩ | ⟨view, view', there, there', same, foreign⟩
  · rw [there, there']
    exact .inl ⟨.missing, rfl, rfl⟩
  · rw [there, there']
    cases network.sources[source]? with
    | none => exact .inl ⟨.missing, rfl, rfl⟩
    | some state =>
      rcases View.register_alike same id source with
        ⟨cause, denied, denied'⟩ | ⟨later, later', renewed, renewed', alike⟩
      · exact .inl ⟨.refused cause, by simp only [denied], by simp only [denied']⟩
      · refine .inr ⟨network.setView target later, other.setView target later',
          by simp only [renewed], by simp only [renewed'],
          twins.setView alike fun different => ?_⟩
        rw [foreign different, renewed'] at renewed
        exact (Except.ok.inj renewed).symm

/-- Twins have their sources attached or not. -/
theorem attached (twins : network.Twins ref other) (attached : network.Attached ref) :
    other.Attached ref := by
  intro view' there'
  rcases twins.views ref with ⟨_, none⟩ | ⟨view, seen', there, seen, same, _⟩
  · rw [none] at there'
    cases there'
  · rw [seen] at there'
    cases there'
    obtain ⟨rotation, rfl, _⟩ := View.eq_of_forget_eq same
    rw [← twins.sources]
    exact attached view there

end Twins

end Network

/-! ### Steps of twins -/

theorem Effect.Alike.refl {β : Type} (effect : Effect Source β) : effect.Alike effect :=
  ⟨rfl, rfl, rfl⟩

namespace Network

variable {network other : Network Source} {ref target : ViewRef}

theorem alike_still (twins : network.Twins ref other) (reply : Reply Source) :
    (network.still reply).Alike ref (other.still reply) :=
  ⟨twins, rfl, rfl, rfl⟩

theorem alike_commit {β : Type} {effect effect' : Effect Source β}
    (twins : network.Twins ref other) (alike : effect.Alike effect')
    (foreign : target ≠ ref → effect.view = effect'.view) (reply : β → Reply Source) :
    (network.commit target effect reply).Alike ref (other.commit target effect' reply) where
  network := by
    simp only [commit, ← alike.sources]
    exact (twins.withSources effect.sources).setView alike.view foreign
  reply := congrArg reply alike.value
  signals := by simp only [commit, Event.signals_map_view]
  call := rfl

theorem alike_signalling {step step' : Step Source} (alike : step.Alike ref step')
    (target : ViewRef) : (signalling step target).Alike ref (signalling step' target) := by
  unfold signalling
  rcases alike.network.slots target with ⟨there, there'⟩ | ⟨slot, slot', there, there', same, _⟩
  · rw [there, there']
    exact alike
  · have listener := Slot.listener_of_forget_eq same
    simp only [there, there', ← listener]
    refine ⟨alike.network.setListener _, alike.reply, ?_, rfl⟩
    rw [Event.signals_append, Event.signals_append, alike.signals]

/-! #### Requests -/

/-- A request about the same view is answered alike. -/
theorem alike_answer_same (twins : network.Twins ref other) (view : View) (request : Request) :
    (network.answer target view request).Alike ref (other.answer target view request) := by
  have sources := twins.sources
  cases request with
  | peek | next | drain | availability | release =>
    simp only [answer, ← sources]
    exact alike_commit twins (.refl _) (fun _ => rfl) _
  | requireSegment id segment =>
    simp only [answer, ← sources]
    cases view.requireSegment network.sources id segment with
    | error cause => exact alike_still twins _
    | ok later => exact alike_still (twins.withSources later) _
  | resize size =>
    simp only [answer, ← sources]
    exact alike_still (twins.withSources _) _
  | failure =>
    simp only [answer, ← sources]
    exact alike_still twins _
  | _ => exact alike_still twins _

/-- A request is answered alike whatever flags are set, as long as the views are poised. -/
theorem alike_answer {view view' : View} (twins : network.Twins ref other)
    (same : view.forget = view'.forget) (poised : view.Poised ref network.sources)
    (poised' : view'.Poised ref network.sources) (request : Request) :
    (network.answer ref view request).Alike ref (other.answer ref view' request) := by
  have sources := twins.sources
  obtain ⟨rotation, rfl, _⟩ := View.eq_of_forget_eq same
  cases request with
  | peek | availability =>
    simp only [answer, ← sources]
    refine alike_commit twins (View.consult_alike same poised poised' fun first second alike => ?_)
      (absurd rfl) _
    rw [View.queue_alike alike]
  | next =>
    simp only [answer, ← sources]
    exact alike_commit twins (View.next_alike same poised poised') (absurd rfl) _
  | drain limit =>
    simp only [answer, ← sources]
    exact alike_commit twins (View.drain_alike same poised poised' limit) (absurd rfl) _
  | release =>
    simp only [answer, ← sources]
    exact alike_commit twins (View.release_alike same network.sources) (absurd rfl) _
  | _ => exact alike_answer_same twins view _

/-! #### Notifications -/

/-- Serving gives no source a notifier. So if all sources are attached after a notification, they
were attached where the view refilled in it. -/
theorem attached_of_notify {source : SourceRef}
    (attached : (network.notify ⟨ref, source⟩).network.Attached ref) : network.Attached ref := by
  intro view found entry registered
  have served : Served network.sources (view.notify network.sources source).sources :=
    Effect.served fun place => view.notify_touches network.sources place source
  have there : (network.notify ⟨ref, source⟩).network.view? ref =
      some (view.notify network.sources source).view := by
    obtain ⟨listener, slot⟩ := view?_eq_some_iff.mp found
    rw [view?, slots_notify found, if_pos rfl, slot]
    rfl
  have still : entry ∈ (view.notify network.sources source).view.registry.entries := by
    rwa [view.registry_notify network.sources source]
  have reached := attached _ there entry still
  rw [sources_notify found] at reached
  exact Registration.IsAttached.of_served reached served

/-- The view at the place is attentive to its sources, of which none can fail, if there is one. -/
abbrev Heeds (network : Network Source) (ref : ViewRef) (owed : Option Notifier) : Prop :=
  network.Keeps (Slot.Attentive ref fun _ => True) ref owed

theorem Heeds.attentive {view : View} {owed : Option Notifier} (heeds : network.Heeds ref owed)
    (found : network.view? ref = some view) :
    view.Attentive ref (fun _ => True) owed network.sources := by
  obtain ⟨listener, there⟩ := view?_eq_some_iff.mp found
  exact heeds _ there view rfl

/-- Nothing is owed to the view at the place, and none of its sources has been announced before it
was attached. -/
structure Calm (network : Network Source) (ref : ViewRef) : Prop where
  heeds : network.Heeds ref none
  discreet : ∀ view, network.view? ref = some view → view.Discreet ref network.sources

theorem Calm.poised {view : View} (calm : network.Calm ref)
    (found : network.view? ref = some view) : view.Poised ref network.sources :=
  ⟨(calm.heeds.attentive found).toInformed, calm.discreet view found⟩

/-- Twins hear a notifier alike that both were owed. -/
theorem alike_notify {notifier : Notifier} (twins : network.Twins ref other)
    (heeds : network.Heeds ref (some notifier)) (heeds' : other.Heeds ref (some notifier))
    (attached : (network.notify notifier).network.Attached ref) :
    (network.notify notifier).Alike ref (other.notify notifier) := by
  obtain ⟨target, source⟩ := notifier
  have sources := twins.sources
  rcases twins.views target with ⟨there, there'⟩ | ⟨view, view', there, there', same, foreign⟩
  · simp only [notify, there, there']
    exact alike_still twins _
  · have heard : (view.notify network.sources source).Alike
        (view'.notify network.sources source) := by
      by_cases own : target = ref
      · subst own
        have informed := (heeds'.attentive there').toInformed
        rw [← sources] at informed
        exact View.notify_alike same (heeds.attentive there).toInformed informed
          (attached_of_notify attached view there)
      · rw [foreign own]
        exact .refl _
    have committed : (network.commit target (view.notify network.sources source)
        fun _ => .flag true).Alike ref
          (other.commit target (view'.notify network.sources source) fun _ => .flag true) := by
      refine alike_commit twins heard (fun different => ?_) _
      rw [foreign different]
    simp only [notify, there, there', ← sources, ← heard.value]
    split
    · exact alike_signalling committed target
    · exact committed

/-! #### Changes of sources -/

/-- Twins stay twins when one of their sources changes, and the notifier that it names is heard
alike. -/
theorem alike_change {place : SourceRef} {step : Source → Source × Option Notifier}
    {reply : Reply Source} (twins : network.Twins ref other)
    (heeds : ∀ state, network.sources[place]? = some state →
      Heeds { network with sources := network.sources.set place (step state).1 } ref
          (step state).2 ∧
        Heeds { other with sources := network.sources.set place (step state).1 } ref
          (step state).2)
    (attached : (network.change place step reply).network.Attached ref) :
    (network.change place step reply).Alike ref (other.change place step reply) := by
  unfold change at attached ⊢
  rw [← twins.sources]
  cases found : network.sources[place]? with
  | none => exact alike_still twins _
  | some state =>
    obtain ⟨own, own'⟩ := heeds state found
    have changed := twins.withSources (network.sources.set place (step state).1)
    simp only [found] at attached ⊢
    cases named : (step state).2 with
    | none => exact alike_still changed reply
    | some notifier =>
      rw [named] at own own' attached
      have rung := alike_notify changed own own' attached
      exact ⟨rung.network, rfl, rung.signals, rung.call⟩

/-- A source that gets the notifier of a registration owes its ringing at most. -/
theorem Heeds.attach {place : SourceRef} {given : Notifier} {state : Source}
    (heeds : network.Heeds ref none)
    (known : ∀ view, network.view? given.view = some view → given.source ∈ view.registry.sources)
    (found : network.sources[place]? = some state) :
    Heeds { network with sources := network.sources.set place (Producer.attach given state).1 } ref
      (Producer.attach given state).2 := by
  have inv : Slot.Invariant ref (.attach place given) (Slot.Attentive ref fun _ => True) :=
    Slot.attentive_invariant fun _ _ acts => by cases acts
  intro slot present
  refine inv.attach ?_ (heeds slot present) found
  rintro rfl view seen
  apply known view
  rw [view?, show network.slots[given.view]? = some slot from present]
  exact seen

/-- A source that undergoes an action owes the ringing of its notifier at most. -/
theorem Heeds.act {place : SourceRef} {action : Source.Action} {state : Source}
    (heeds : network.Heeds ref none) (harmless : action.armsPull = false)
    (found : network.sources[place]? = some state) :
    Heeds { network with sources := network.sources.set place (Producer.act action state).1 } ref
      (Producer.act action state).2 := by
  have inv : Slot.Invariant ref (.act place action) (Slot.Attentive ref fun _ => True) :=
    Slot.attentive_invariant fun _ _ acts _ => by
      cases acts
      exact harmless
  exact fun slot present => inv.act rfl (heeds slot present) found

theorem Heeds.ring (heeds : network.Heeds ref none) (notifier : Notifier) :
    network.Heeds ref (some notifier) := by
  have inv : Slot.Invariant ref (.ring notifier) (Slot.Attentive ref fun _ => True) :=
    Slot.attentive_invariant fun _ _ acts => by cases acts
  exact fun slot present => inv.ring (heeds slot present)

theorem Heeds.register {registered : Network Source} {source : SourceRef} {id : SourceId}
    (heeds : network.Heeds ref none)
    (accepted : network.register target source id = .ok registered) :
    registered.Heeds ref none := by
  have inv : Slot.Invariant ref (.register target source id) (Slot.Attentive ref fun _ => True) :=
    Slot.attentive_invariant fun _ _ acts => by cases acts
  exact keeps_register inv heeds accepted

/-- Whatever view the notifier belongs to, that view has the source registered. -/
abbrev Knows (network : Network Source) (given : Notifier) : Prop :=
  ∀ view, network.view? given.view = some view → given.source ∈ view.registry.sources

/-! #### Commands -/

theorem alike_request (twins : network.Twins ref other) (calm : network.Calm ref)
    (calm' : other.Calm ref) (target : ViewRef) (request : Request) :
    (network.exec (.request target request : Command Notifier Source.Action)).Alike ref
      (other.exec (.request target request)) := by
  simp only [exec]
  rcases twins.views target with ⟨there, there'⟩ | ⟨view, view', there, there', same, foreign⟩
  · rw [there, there']
    exact alike_still twins _
  · rw [there, there']
    by_cases own : target = ref
    · subst own
      have poised' := calm'.poised there'
      rw [← twins.sources] at poised'
      exact alike_answer twins same (calm.poised there) poised' request
    · rw [foreign own]
      exact alike_answer_same twins _ _

theorem alike_register (twins : network.Twins ref other) (target : ViewRef) (source : SourceRef)
    (id : SourceId) :
    (network.exec (.register target source id : Command Notifier Source.Action)).Alike ref
      (other.exec (.register target source id)) := by
  simp only [exec]
  rcases twins.register target source id with
    ⟨reply, denied, denied'⟩ | ⟨registered, registered', accepted, accepted', still⟩
  · rw [denied, denied']
    exact alike_still twins reply
  · rw [accepted, accepted']
    exact alike_still still _

/-- A source may be given the notifier of a registration that both know. -/
theorem alike_attach {place : SourceRef} {given : Notifier} {reply : Reply Source}
    (twins : network.Twins ref other) (heeds : network.Heeds ref none)
    (heeds' : other.Heeds ref none) (knows : network.Knows given) (knows' : other.Knows given)
    (attached : (network.change place (Producer.attach given) reply).network.Attached ref) :
    (network.change place (Producer.attach given) reply).Alike ref
      (other.change place (Producer.attach given) reply) := by
  refine alike_change twins (fun state found => ⟨heeds.attach knows found, ?_⟩) attached
  rw [twins.sources] at found ⊢
  exact heeds'.attach knows' found

theorem alike_add {source : SourceRef} (twins : network.Twins ref other)
    (heeds : network.Heeds ref none) (heeds' : other.Heeds ref none)
    (attached : (network.exec
      (.add target source : Command Notifier Source.Action)).network.Attached ref) :
    (network.exec (.add target source : Command Notifier Source.Action)).Alike ref
      (other.exec (.add target source)) := by
  simp only [exec, ← twins.sources] at attached ⊢
  cases own : network.sources[source]?.bind Producer.ownId? with
  | none => exact alike_still twins _
  | some id =>
    rcases twins.register target source id with
      ⟨reply, denied, denied'⟩ | ⟨registered, registered', accepted, accepted', still⟩
    · simp only [denied, denied']
      exact alike_still twins reply
    · simp only [own, accepted, accepted'] at attached ⊢
      have knows : registered.Knows ⟨target, source⟩ := lists_of_register accepted
      have knows' : registered'.Knows ⟨target, source⟩ := lists_of_register accepted'
      exact alike_attach still (heeds.register accepted) (heeds'.register accepted') knows knows'
        attached

theorem alike_act {place : SourceRef} {action : Source.Action} {reply : Reply Source}
    (twins : network.Twins ref other) (heeds : network.Heeds ref none)
    (heeds' : other.Heeds ref none) (harmless : action.armsPull = false)
    (attached : (network.change place (Producer.act action) reply).network.Attached ref) :
    (network.change place (Producer.act action) reply).Alike ref
      (other.change place (Producer.act action) reply) := by
  refine alike_change twins (fun state found => ⟨heeds.act harmless found, ?_⟩) attached
  rw [twins.sources] at found ⊢
  exact heeds'.act harmless found

/-- A notifier that neither is owed is heard alike, too. -/
theorem alike_ring {notifier : Notifier} (twins : network.Twins ref other)
    (heeds : network.Heeds ref none) (heeds' : other.Heeds ref none)
    (attached : (network.notify notifier).network.Attached ref) :
    (network.notify notifier).Alike ref (other.notify notifier) :=
  alike_notify twins (heeds.ring notifier) (heeds'.ring notifier) attached

theorem alike_announce {source : SourceRef} (twins : network.Twins ref other)
    (heeds : network.Heeds ref none) (heeds' : other.Heeds ref none)
    (attached : (network.exec
      (.announce target source : Command Notifier Source.Action)).network.Attached ref) :
    (network.exec (.announce target source : Command Notifier Source.Action)).Alike ref
      (other.exec (.announce target source)) := by
  simp only [exec] at attached ⊢
  rcases twins.views target with ⟨there, there'⟩ | ⟨view, view', there, there', _, _⟩
  · rw [there, there']
    exact alike_still twins _
  · rw [there] at attached
    rw [there, there']
    have rung := alike_ring twins heeds heeds' attached
    exact ⟨rung.network, rfl, rung.signals, rung.call⟩

theorem alike_isAlive (twins : network.Twins ref other) (notifier : Notifier) :
    (network.exec (.isAlive notifier : Command Notifier Source.Action)).Alike ref
      (other.exec (.isAlive notifier)) := by
  simp only [exec]
  rcases twins.views notifier.view with ⟨there, there'⟩ | ⟨view, view', there, there', _, _⟩
  · rw [there, there']
    exact alike_still twins _
  · rw [there, there']
    exact alike_still twins _

theorem alike_pull (twins : network.Twins ref other) (source : SourceRef) :
    (network.exec (.pull source : Command Notifier Source.Action)).Alike ref
      (other.exec (.pull source)) := by
  simp only [exec, ← twins.sources]
  cases network.sources[source]? with
  | none => exact alike_still twins _
  | some state => exact ⟨twins.withSources _, rfl, rfl, rfl⟩

theorem alike_releaseSource (twins : network.Twins ref other) (source : SourceRef) :
    (network.exec (.releaseSource source : Command Notifier Source.Action)).Alike ref
      (other.exec (.releaseSource source)) := by
  simp only [exec, ← twins.sources]
  cases network.sources[source]? with
  | none => exact alike_still twins _
  | some state => exact alike_still (twins.withSources _) _

theorem alike_receive (twins : network.Twins ref other) (target : ViewRef) :
    (network.exec (.receive target : Command Notifier Source.Action)).Alike ref
      (other.exec (.receive target)) := by
  simp only [exec]
  rw [← twins.listener target Listener.receive?]
  cases network.slots[target]?.bind fun slot => slot.listener.receive? with
  | none => exact alike_still twins _
  | some read => exact alike_still (twins.setListener read.2) _

theorem alike_dropReceiver (twins : network.Twins ref other) (target : ViewRef) :
    (network.exec (.dropReceiver target : Command Notifier Source.Action)).Alike ref
      (other.exec (.dropReceiver target)) := by
  simp only [exec]
  rw [← twins.listener target Listener.disconnect?]
  cases network.slots[target]?.bind fun slot => slot.listener.disconnect? with
  | none => exact alike_still twins _
  | some later => exact alike_still (twins.setListener later) _

theorem alike_dropView (twins : network.Twins ref other) (target : ViewRef) :
    (network.exec (.dropView target : Command Notifier Source.Action)).Alike ref
      (other.exec (.dropView target)) := by
  simp only [exec]
  rcases twins.views target with ⟨there, there'⟩ | ⟨view, view', there, there', _, _⟩
  · rw [there, there']
    exact alike_still twins _
  · rw [there, there']
    refine alike_still (twins.modify (fun _ slot slot' alike => ?_) fun _ => rfl) _
    have listener := Slot.listener_of_forget_eq alike
    exact Slot.forget_eq_of listener rfl

/-- Twins obey a command alike, if afterwards all sources of the view are attached or the command
registers one that still has to be. -/
theorem alike_exec {command : Command Notifier Source.Action} (twins : network.Twins ref other)
    (calm : network.Calm ref) (calm' : other.Calm ref) (harmless : command.armsPull = false)
    (known : ∀ place given, command = .attach place given →
      network.Knows given ∧ other.Knows given)
    (attached : command.registers = false → (network.exec command).network.Attached ref) :
    (network.exec command).Alike ref (other.exec command) := by
  have heeds := calm.heeds
  have heeds' := calm'.heeds
  cases command with
  | request target request => exact alike_request twins calm calm' target request
  | register target source id => exact alike_register twins target source id
  | attach place given =>
    obtain ⟨knows, knows'⟩ := known place given rfl
    exact alike_attach twins heeds heeds' knows knows' (attached rfl)
  | add target source => exact alike_add twins heeds heeds' (attached rfl)
  | ring notifier => exact alike_ring twins heeds heeds' (attached rfl)
  | announce target source => exact alike_announce twins heeds heeds' (attached rfl)
  | isAlive notifier => exact alike_isAlive twins notifier
  | act place action => exact alike_act twins heeds heeds' harmless (attached rfl)
  | pull source => exact alike_pull twins source
  | releaseSource source => exact alike_releaseSource twins source
  | sourceFailure source | inspect source =>
    simp only [exec, ← twins.sources]
    cases network.sources[source]? with
    | none => exact alike_still twins _
    | some state => exact alike_still twins _
  | receive target => exact alike_receive twins target
  | dropReceiver target => exact alike_dropReceiver twins target
  | dropView target => exact alike_dropView twins target

end Network

end FairMerge
