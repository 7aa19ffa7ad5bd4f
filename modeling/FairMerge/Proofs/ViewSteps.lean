import FairMerge.Proofs.PassCourse
import FairMerge.View

/-! # The steps of a view

The operations of a view are put together from few steps: a registration, an announcement, a pass,
taking the next buffer, handing it out, making the count public, and release.
`View.Invariant` asks of a statement that each step keeps it, and then every operation does.

Between the step that takes a buffer from the look-ahead queue and the step that hands it out the
buffer is in the view's hand, so a statement is about the view, the hand, and the activities of the
view so far. -/

namespace FairMerge

namespace View

variable {σ α : Type} [Producer σ α]

/-! ### Taking over a pass -/

section Absorb

variable (view : View) (pass : Pass σ)

@[simp] theorem released_absorb : (view.absorb pass).released = view.released := rfl

@[simp] theorem queue_absorb : (view.absorb pass).queue = view.queue.append pass.entries := rfl

/-- Announcing the failed sources changes nothing that announcing one source does not change. -/
theorem foldl_announce {β : Type} (read : Rotation → β)
    (kept : ∀ rotation id, read (rotation.announce id) = read rotation) (faults : List Fault)
    (rotation : Rotation) :
    read (faults.foldl (fun rotation fault => rotation.announce fault.id) rotation) =
      read rotation := by
  induction faults generalizing rotation with
  | nil => rfl
  | cons fault faults ih => exact (ih _).trans (kept rotation fault.id)

@[simp] theorem holder_absorb : (view.absorb pass).rotation.holder = pass.rotation.holder :=
  foldl_announce Rotation.holder (fun _ _ => rfl) pass.faults pass.rotation

@[simp] theorem ids_absorb : (view.absorb pass).rotation.ids = pass.rotation.ids :=
  foldl_announce Rotation.ids Rotation.ids_announce pass.faults pass.rotation

theorem isReady_foldl_announce {id : SourceId} (faults : List Fault) {rotation : Rotation}
    (ready : rotation.isReady id = true) :
    (faults.foldl (fun rotation fault => rotation.announce fault.id) rotation).isReady id =
      true := by
  induction faults generalizing rotation with
  | nil => exact ready
  | cons fault faults ih => exact ih (Rotation.isReady_announce ready)

variable {view pass}

theorem isReady_absorb {id : SourceId} (ready : pass.rotation.isReady id = true) :
    (view.absorb pass).rotation.isReady id = true :=
  isReady_foldl_announce pass.faults ready

/-- A source is ready after a pass was taken over because the pass left it ready, or because it
failed in the pass. -/
theorem isReady_of_absorb {id : SourceId} (ready : (view.absorb pass).rotation.isReady id = true) :
    pass.rotation.isReady id = true ∨ ∃ fault ∈ pass.faults, fault.id = id := by
  suffices announced : ∀ (faults : List Fault) (rotation : Rotation),
      (faults.foldl (fun rotation fault => rotation.announce fault.id) rotation).isReady id = true →
        rotation.isReady id = true ∨ ∃ fault ∈ faults, fault.id = id from
    announced pass.faults pass.rotation ready
  intro faults
  induction faults with
  | nil => exact fun _ ready => .inl ready
  | cons fault faults ih =>
    intro rotation ready
    rcases ih _ ready with before | ⟨later, mem, same⟩
    · rcases Rotation.isReady_of_announce before with before | same
      · exact .inl before
      · exact .inr ⟨fault, List.mem_cons_self, same⟩
    · exact .inr ⟨later, List.mem_cons_of_mem _ mem, same⟩

/-- A source that failed in the pass is ready after it. -/
theorem isReady_absorb_of_fault {fault : Fault} (failed : fault ∈ pass.faults)
    (mem : fault.id ∈ pass.rotation.ids) :
    (view.absorb pass).rotation.isReady fault.id = true := by
  suffices announced : ∀ (faults : List Fault) (rotation : Rotation), fault ∈ faults →
      fault.id ∈ rotation.ids →
      (faults.foldl (fun rotation fault => rotation.announce fault.id) rotation).isReady fault.id =
        true from announced pass.faults pass.rotation failed mem
  intro faults
  induction faults with
  | nil => intro _ failed; cases failed
  | cons head faults ih =>
    intro rotation failed mem
    rcases List.mem_cons.mp failed with rfl | failed
    · exact isReady_foldl_announce faults (Rotation.isReady_announce_self mem)
    · exact ih _ failed (by simpa using mem)

end Absorb

/-! ### Unfolding the operations -/

theorem refill_of_released {view : View} (released : view.released = true) (sources : List σ) :
    view.refill sources = ⟨(), view, sources, []⟩ := by
  simp [refill, released]

/-- Unless the view is released, a refill takes over a pass. -/
theorem refill_of_unreleased {view : View} (open' : view.released = false) (sources : List σ) :
    ∃ pass, Pass.Course view.registry view.queue.room view.rotation sources pass ∧
      view.refill sources =
        ⟨(), view.absorb pass, pass.sources, pass.pulls.map Activity.pulled⟩ :=
  ⟨_, Pass.course_run _ _ _ _, by simp [refill, open']⟩

/-- A registration that succeeds adds to the registry and to the cycle. -/
theorem register_cases {view later : View} {id : SourceId} {source : SourceRef}
    (registered : view.register id source = .ok later) :
    view.released = false ∧ id ∉ view.registry.ids ∧ source ∉ view.registry.sources ∧
      ∃ rotation, view.rotation.register id = .ok rotation ∧
        later = { view with registry := ⟨view.registry.entries ++ [⟨id, source⟩]⟩, rotation } := by
  unfold register at registered
  by_cases released : view.released = true
  · rw [if_pos released] at registered
    cases registered
  · rw [if_neg released] at registered
    cases inserted : view.registry.insert id source with
    | error cause => simp [inserted] at registered
    | ok registry =>
      obtain ⟨freshId, freshSource, rfl⟩ := Registry.insert_eq_ok_iff.mp inserted
      refine ⟨by simpa using released, Registry.source?_eq_none_iff.mp freshId,
        Registry.idOf?_eq_none_iff.mp freshSource, ?_⟩
      cases turned : view.rotation.register id with
      | error cause => simp [inserted, turned, Except.map] at registered
      | ok rotation =>
        simp only [inserted, turned, Except.map, Except.ok.injEq] at registered
        exact ⟨rotation, rfl, registered.symm⟩

/-- The view after the buffer in its hand has left. -/
def handOut (view : View) : View := { view with sequence := view.sequence + 1 }

/-- The delivery as the consumer gets it, with counts read from the view. -/
def stamp (view : View) (entry : Entry) : Entry :=
  { entry with
    delivery := {
      buffer := entry.delivery.buffer
      backlog := view.queue.dataBacklog
      nextKind := view.queue.headKind
      sequence := view.sequence } }

/-- Taking the next delivery either finds nothing after a refill, or it takes the first waiting
buffer, refills again and hands the buffer out. -/
theorem next_cases (view : View) (sources : List σ) :
    ((view.refill sources).view.queue.pop? = none ∧
      view.next sources = ⟨none, (view.refill sources).view.publish, (view.refill sources).sources,
        (view.refill sources).journal⟩) ∨
    ∃ entry queue, (view.refill sources).view.queue.pop? = some (entry, queue) ∧
      ∃ second, second = { (view.refill sources).view with queue }.refill
          (view.refill sources).sources ∧
        view.next sources = ⟨some (second.view.publish.stamp entry), second.view.publish.handOut,
          second.sources, (view.refill sources).journal ++ second.journal ++
            [.delivered (second.view.publish.stamp entry) second.view.publish.queue.length]⟩ := by
  unfold next
  cases taken : (view.refill sources).view.queue.pop? with
  | none => exact .inl ⟨rfl, by simp only [taken]⟩
  | some pair => exact .inr ⟨pair.1, pair.2, rfl, _, rfl, by simp only [taken]; rfl⟩

theorem registry_refill (view : View) (sources : List σ) :
    (view.refill sources).view.registry = view.registry := by
  unfold refill
  split <;> rfl

theorem released_refill (view : View) (sources : List σ) :
    (view.refill sources).view.released = view.released := by
  unfold refill
  split <;> rfl

theorem registry_next (view : View) (sources : List σ) :
    (view.next sources).view.registry = view.registry := by
  have first := view.registry_refill sources
  rcases view.next_cases sources with ⟨_, result⟩ | ⟨entry, queue, _, second, rfl, result⟩
  · rw [result]
    exact first
  · rw [result]
    exact (registry_refill _ _).trans first

theorem released_next (view : View) (sources : List σ) :
    (view.next sources).view.released = view.released := by
  have first := view.released_refill sources
  rcases view.next_cases sources with ⟨_, result⟩ | ⟨entry, queue, _, second, rfl, result⟩
  · rw [result]
    exact first
  · rw [result]
    exact (released_refill _ _).trans first

theorem registry_drain (view : View) (sources : List σ) (limit : Nat) :
    (view.drain sources limit).view.registry = view.registry := by
  induction limit generalizing view sources with
  | zero => rfl
  | succ limit ih =>
    have first := view.registry_next sources
    rw [drain]
    cases (view.next sources).value with
    | none => exact first
    | some entry => exact (ih _ _).trans first

theorem released_drain (view : View) (sources : List σ) (limit : Nat) :
    (view.drain sources limit).view.released = view.released := by
  induction limit generalizing view sources with
  | zero => rfl
  | succ limit ih =>
    have first := view.released_next sources
    rw [drain]
    cases (view.next sources).value with
    | none => exact first
    | some entry => exact (ih _ _).trans first

theorem registry_release (view : View) (sources : List σ) :
    (view.release sources).view.registry = view.registry := by
  unfold release
  split <;> rfl

/-- The view after an announcement by the source with the identifier. -/
def hear (view : View) (id : SourceId) : View :=
  { view with rotation := view.rotation.announce id }

/-- A notification is ignored, or it is an announcement after which the view refills if nothing
waits. -/
theorem notify_cases (view : View) (sources : List σ) (source : SourceRef) :
    ((view.released = true ∨ view.registry.idOf? source = none) ∧
      view.notify sources source = ⟨false, view, sources, []⟩) ∨
    ∃ id, view.released = false ∧ view.registry.idOf? source = some id ∧
      ((view.queue.entries = [] ∧ view.notify sources source =
          (view.hear id).consult sources fun reached => !reached.queue.isEmpty) ∨
        (view.queue.entries ≠ [] ∧
          view.notify sources source = ⟨false, view.hear id, sources, []⟩)) := by
  unfold notify
  by_cases released : view.released = true
  · exact .inl ⟨.inl released, if_pos released⟩
  · rw [if_neg released]
    cases found : view.registry.idOf? source with
    | none => exact .inl ⟨.inr rfl, rfl⟩
    | some id =>
      refine .inr ⟨id, by simpa using released, rfl, ?_⟩
      by_cases empty : view.queue.entries = []
      · exact .inl ⟨empty, if_pos (by simp [Lookahead.isEmpty, empty])⟩
      · exact .inr ⟨empty, if_neg (by simpa [Lookahead.isEmpty] using empty)⟩

theorem registry_notify (view : View) (sources : List σ) (source : SourceRef) :
    (view.notify sources source).view.registry = view.registry := by
  rcases view.notify_cases sources source with
    ⟨_, result⟩ | ⟨id, _, _, ⟨_, result⟩ | ⟨_, result⟩⟩
  · rw [result]
  · rw [result]
    exact (view.hear id).registry_refill sources
  · rw [result]
    rfl

theorem released_notify (view : View) (sources : List σ) (source : SourceRef) :
    (view.notify sources source).view.released = view.released := by
  rcases view.notify_cases sources source with
    ⟨_, result⟩ | ⟨id, _, _, ⟨_, result⟩ | ⟨_, result⟩⟩
  · rw [result]
  · rw [result]
    exact (view.hear id).released_refill sources
  · rw [result]
    rfl

/-! ### Invariants -/

/-- Every step of a view, whose sources have states in `σ`, keeps the statement. -/
structure Invariant (σ : Type) {α : Type} [Producer σ α]
    (Holds : View → Option Entry → List Activity → Prop) : Prop where
  register : ∀ {view later log id source}, Holds view none log →
    view.register id source = .ok later → Holds later none log
  announce : ∀ {view log id}, Holds view none log → view.released = false →
    id ∈ view.registry.ids → Holds (view.hear id) none log
  absorb : ∀ {view hand log} {sources : List σ} {pass : Pass σ}, Holds view hand log →
    view.released = false →
    Pass.Course view.registry view.queue.room view.rotation sources pass →
    Holds (view.absorb pass) hand (log ++ pass.pulls.map Activity.pulled)
  publish : ∀ {view hand log}, Holds view hand log → Holds view.publish hand log
  pop : ∀ {view log entry queue}, Holds view none log →
    view.queue.pop? = some (entry, queue) → Holds { view with queue } (some entry) log
  handOut : ∀ {view log entry}, Holds view (some entry) log →
    Holds view.handOut none (log ++ [.delivered (view.stamp entry) view.queue.length])
  release : ∀ {view log} (sources : List σ), Holds view none log → view.released = false →
    Holds { view with released := true, queue := view.queue.clear }.publish none
      (log ++ (releaseEach view.registry.entries sources).1.map fun (entry, error?) =>
        .released entry error?)

namespace Invariant

variable {Holds : View → Option Entry → List Activity → Prop} (inv : Invariant σ Holds)
  {view : View} {log : List Activity}
include inv

theorem refill {hand : Option Entry} (holds : Holds view hand log) (sources : List σ) :
    Holds (view.refill sources).view hand (log ++ (view.refill sources).journal) := by
  cases released : view.released with
  | true => simpa [refill_of_released released] using holds
  | false =>
    obtain ⟨pass, course, filled⟩ := refill_of_unreleased released sources
    rw [filled]
    exact inv.absorb holds released course

theorem consult {β : Type} (holds : Holds view none log) (sources : List σ) (answer : View → β) :
    Holds (view.consult sources answer).view none
      (log ++ (view.consult sources answer).journal) :=
  inv.publish (inv.refill holds sources)

theorem next (holds : Holds view none log) (sources : List σ) :
    Holds (view.next sources).view none (log ++ (view.next sources).journal) := by
  have first := inv.refill holds sources
  rcases view.next_cases sources with ⟨_, result⟩ | ⟨entry, queue, popped, second, rfl, result⟩
  · rw [result]
    exact inv.publish first
  · rw [result]
    have taken := inv.pop first popped
    have second := inv.publish (inv.refill taken (view.refill sources).sources)
    simpa only [List.append_assoc] using inv.handOut second

theorem drain (holds : Holds view none log) (sources : List σ) (limit : Nat) :
    Holds (view.drain sources limit).view none (log ++ (view.drain sources limit).journal) := by
  induction limit generalizing view log sources with
  | zero => simpa [View.drain] using holds
  | succ limit ih =>
    have first := inv.next holds sources
    rw [View.drain]
    cases taken : (view.next sources).value with
    | none => simpa [taken] using first
    | some entry =>
      have rest := ih first (view.next sources).sources
      simpa [taken, List.append_assoc] using rest

theorem notify (holds : Holds view none log) (sources : List σ) (source : SourceRef) :
    Holds (view.notify sources source).view none
      (log ++ (view.notify sources source).journal) := by
  rcases view.notify_cases sources source with
    ⟨_, result⟩ | ⟨id, open', found, ⟨_, result⟩ | ⟨_, result⟩⟩
  · rw [result]
    simpa using holds
  · rw [result]
    exact inv.consult (inv.announce holds open' (Registry.mem_ids_of_idOf? found)) sources _
  · rw [result]
    simpa using inv.announce holds open' (Registry.mem_ids_of_idOf? found)

theorem releaseAll (holds : Holds view none log) (sources : List σ) :
    Holds (view.release sources).view none (log ++ (view.release sources).journal) := by
  unfold View.release
  cases released : view.released with
  | true => simpa using holds
  | false => simpa using inv.release sources holds released

end Invariant

/-! ### Sound views -/

/-- What is true of every view at any time: identifiers and sources determine each other, the
rotation has the registered identifiers in its cycle, and the look-ahead queue keeps within its
capacity and is empty after release. -/
structure Sound (view : View) : Prop where
  distinctIds : view.registry.ids.Nodup
  distinctSources : view.registry.sources.Nodup
  cycle : view.rotation.ids = view.registry.ids
  holder : ∀ id, view.rotation.holder = some id → id ∈ view.registry.ids
  capacity : 0 < view.queue.capacity
  within : view.queue.length ≤ view.queue.capacity
  cleared : view.released = true → view.queue.entries = []

theorem eq_empty_of_config {config : Config} {view : View}
    (built : View.ofConfig config = .ok view) :
    view = empty config.capacity ∧ 0 < config.capacity := by
  unfold ofConfig Config.validate at built
  by_cases zero : config.capacity = 0
  · simp [zero, Except.map] at built
  · simp only [zero, if_false, Except.map, Except.ok.injEq] at built
    exact ⟨built.symm, Nat.pos_of_ne_zero zero⟩

theorem sound_of_config {config : Config} {view : View} (built : View.ofConfig config = .ok view) :
    view.Sound := by
  obtain ⟨rfl, positive⟩ := eq_empty_of_config built
  constructor <;>
    simp [empty, Registry.empty, Registry.ids, Registry.sources, Rotation.empty, Rotation.ids,
      Lookahead.empty, Lookahead.length, positive]

namespace Sound

variable {view later : View} {id : SourceId} {source : SourceRef}

theorem register (sound : view.Sound) (registered : view.register id source = .ok later) :
    later.Sound := by
  obtain ⟨_, freshId, freshSource, rotation, turned, rfl⟩ := register_cases registered
  have ids : Registry.ids ⟨view.registry.entries ++ [⟨id, source⟩]⟩ = view.registry.ids ++ [id] := by
    simp [Registry.ids]
  have sources : Registry.sources ⟨view.registry.entries ++ [⟨id, source⟩]⟩ =
      view.registry.sources ++ [source] := by
    simp [Registry.sources]
  constructor
  · rw [ids, ← List.concat_eq_append]
    exact List.Nodup.concat freshId sound.distinctIds
  · rw [sources, ← List.concat_eq_append]
    exact List.Nodup.concat freshSource sound.distinctSources
  · rw [ids, Rotation.ids_of_register turned, sound.cycle]
  · intro holder held
    rw [Rotation.holder_register turned] at held
    rw [ids]
    exact List.mem_append_left _ (sound.holder holder held)
  · exact sound.capacity
  · exact sound.within
  · exact sound.cleared

theorem absorb {sources : List σ} {pass : Pass σ} (sound : view.Sound)
    (open' : view.released = false)
    (course : Pass.Course view.registry view.queue.room view.rotation sources pass) :
    (view.absorb pass).Sound := by
  have brought := course.length_entries_le
  have before := sound.within
  constructor
  · exact sound.distinctIds
  · exact sound.distinctSources
  · rw [ids_absorb, course.ids_eq]
    exact sound.cycle
  · rw [holder_absorb]
    exact course.holder_mem sound.holder
  · exact sound.capacity
  · simp only [queue_absorb, Lookahead.length, Lookahead.entries_append, List.length_append,
      Lookahead.capacity_append]
    simp only [Lookahead.room, Lookahead.length] at brought before
    omega
  · intro released
    rw [released_absorb, open'] at released
    cases released

theorem refill (sound : view.Sound) (sources : List σ) : (view.refill sources).view.Sound := by
  cases released : view.released with
  | true =>
    rw [refill_of_released released]
    exact sound
  | false =>
    obtain ⟨pass, course, filled⟩ := refill_of_unreleased released sources
    rw [filled]
    exact sound.absorb released course

theorem pop {entry : Entry} {queue : Lookahead} (sound : view.Sound)
    (popped : view.queue.pop? = some (entry, queue)) : View.Sound { view with queue } := by
  obtain ⟨entries, capacity⟩ := Lookahead.pop?_eq_some_iff.mp popped
  have before := sound.within
  have positive := sound.capacity
  rw [capacity] at before positive
  constructor
  · exact sound.distinctIds
  · exact sound.distinctSources
  · exact sound.cycle
  · exact sound.holder
  · exact positive
  · simp only [Lookahead.length, entries, List.length_cons] at before ⊢
    omega
  · intro released
    rw [sound.cleared released] at entries
    cases entries

theorem hear (sound : view.Sound) (id : SourceId) : (view.hear id).Sound :=
  { sound with cycle := (Rotation.ids_announce _ _).trans sound.cycle, holder := sound.holder }

theorem publish (sound : view.Sound) : view.publish.Sound := { sound with }

/-- There is room if nothing waits. -/
theorem room_of_empty (sound : view.Sound) (empty : view.queue.entries = []) :
    ∃ room, view.queue.room = room + 1 := by
  refine ⟨view.queue.capacity - 1, ?_⟩
  have positive := sound.capacity
  rw [Lookahead.room, Lookahead.length, empty, List.length_nil]
  omega

theorem handOut (sound : view.Sound) : view.handOut.Sound := { sound with }

theorem release (sound : view.Sound) :
    View.Sound { view with released := true, queue := view.queue.clear } :=
  { sound with
    within := Nat.zero_le _
    cleared := fun _ => rfl }

end Sound

/-- Every view is sound at any time. -/
theorem sound_invariant : Invariant σ fun view _ _ => view.Sound where
  register sound registered := sound.register registered
  announce sound _ _ := sound.hear _
  absorb sound open' course := sound.absorb open' course
  publish sound := sound.publish
  pop sound popped := sound.pop popped
  handOut sound := sound.handOut
  release _ sound _ := sound.release.publish

end View

end FairMerge
