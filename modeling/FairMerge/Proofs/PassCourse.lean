import FairMerge.Pass
import FairMerge.Proofs.Registrations
import FairMerge.Proofs.Turns

/-! # The course of a pass

A pass recurses on a measure and tests three conditions a round. `Pass.Course` is the same pass as
a derivation, with one rule for each way in which a round can go, so that what holds of passes is
proved by induction on the rules. -/

namespace FairMerge

@[simp] theorem Pull.entry?_delivery (id : SourceId) (source : SourceRef) (delivery : Delivery) :
    Pull.entry? ⟨id, source, .delivery delivery⟩ = some ⟨id, delivery⟩ := rfl

@[simp] theorem Pull.entry?_nothing (id : SourceId) (source : SourceRef) :
    Pull.entry? ⟨id, source, .nothing⟩ = none := rfl

@[simp] theorem Pull.entry?_failed (id : SourceId) (source : SourceRef) (cause : Error) :
    Pull.entry? ⟨id, source, .failed cause⟩ = none := rfl

theorem Pull.entry?_of_no_delivery {id : SourceId} {source : SourceRef} {answer : Answer}
    (empty : ∀ delivery, answer ≠ .delivery delivery) :
    Pull.entry? ⟨id, source, answer⟩ = none := by
  cases answer with
  | delivery delivery => exact absurd rfl (empty delivery)
  | nothing => rfl
  | failed cause => rfl

namespace Pass

variable {σ α : Type} [Producer σ α]

/-- How a pass with so much room goes from a rotation and a pool, and what it leaves behind. -/
inductive Course (registry : Registry) : Nat → Rotation → List σ → Pass σ → Prop where
  | full {rotation : Rotation} {sources : List σ} :
    Course registry 0 rotation sources ⟨rotation, sources, [], .full⟩
  | idle {room : Nat} {rotation : Rotation} {sources : List σ}
    (unchosen : rotation.choice = none) :
    Course registry (room + 1) rotation sources ⟨rotation.select.2, sources, [], .idle⟩
  | astray {room : Nat} {rotation : Rotation} {sources : List σ} {id : SourceId}
    (chosen : rotation.choice = some id) (missing : registry.source? id = none) :
    Course registry (room + 1) rotation sources
      ⟨rotation.select.2, sources, [], .unregistered id⟩
  | taken {room : Nat} {rotation : Rotation} {sources later : List σ} {id : SourceId}
    {source : SourceRef} {delivery : Delivery} {pass : Pass σ}
    (chosen : rotation.choice = some id) (found : registry.source? id = some source)
    (pulled : Producer.pullAt sources source = (.delivery delivery, later))
    (rest : Course registry room
      (rotation.select.2.settle (.yielded delivery.buffer.continues)) later pass) :
    Course registry (room + 1) rotation sources (pass.after ⟨id, source, .delivery delivery⟩)
  | skipped {room : Nat} {rotation : Rotation} {sources later : List σ} {id : SourceId}
    {source : SourceRef} {answer : Answer} {pass : Pass σ}
    (free : rotation.holder = none) (chosen : rotation.choice = some id)
    (found : registry.source? id = some source)
    (pulled : Producer.pullAt sources source = (answer, later))
    (empty : ∀ delivery, answer ≠ .delivery delivery)
    (rest : Course registry (room + 1) (rotation.select.2.settle .dry) later pass) :
    Course registry (room + 1) rotation sources (pass.after ⟨id, source, answer⟩)
  | blocked {room : Nat} {rotation : Rotation} {sources later : List σ} {id : SourceId}
    {source : SourceRef} {answer : Answer}
    (held : rotation.holder = some id) (found : registry.source? id = some source)
    (pulled : Producer.pullAt sources source = (answer, later))
    (empty : ∀ delivery, answer ≠ .delivery delivery) :
    Course registry (room + 1) rotation sources
      ⟨rotation.select.2.settle .dry, later, [⟨id, source, answer⟩], .blocked⟩

/-- After a dry pull the pass may go on exactly if no record is open. -/
theorem switchable_settle_dry_iff {rotation : Rotation} {id : SourceId}
    (chosen : rotation.choice = some id) :
    (rotation.select.2.settle .dry).switchable = true ↔ rotation.holder = none := by
  simp [Rotation.select, Rotation.settle, chosen]

theorem course_run (registry : Registry) (room : Nat) (rotation : Rotation) (sources : List σ) :
    Course registry room rotation sources (run registry room rotation sources) := by
  fun_induction run registry room rotation sources with
  | case1 => exact .full
  | case2 rotation sources room unchosen => exact .idle unchosen
  | case3 rotation sources room id chosen missing => exact .astray chosen missing
  | case4 rotation sources room id chosen source found result pull delivery answered rest =>
    have same : pull = ⟨id, source, .delivery delivery⟩ := by simp [pull, answered]
    rw [same]
    exact .taken chosen found (by rw [← answered]) rest
  | case5 rotation sources room id chosen source found result pull settled switchable empty rest =>
    exact .skipped ((switchable_settle_dry_iff chosen).mp switchable) chosen found rfl empty rest
  | case6 rotation sources room id chosen source found result pull settled stuck empty =>
    rw [switchable_settle_dry_iff chosen] at stuck
    obtain ⟨holder, held⟩ := Option.ne_none_iff_exists'.mp stuck
    have same : holder = id := by
      have := Rotation.choice_of_holder held
      rw [chosen] at this
      exact (Option.some.inj this).symm
    exact .blocked (same ▸ held) found rfl empty

theorem run_of_idle {registry : Registry} {room : Nat} {rotation : Rotation} (sources : List σ)
    (unchosen : rotation.choice = none) :
    run registry (room + 1) rotation sources = ⟨rotation.select.2, sources, [], .idle⟩ := by
  rw [run]
  split
  · rfl
  · rename_i id chosen
    rw [unchosen] at chosen
    cases chosen

theorem run_of_blocked {registry : Registry} {room : Nat} {rotation : Rotation}
    {sources later : List σ} {id : SourceId} {source : SourceRef} {answer : Answer}
    (held : rotation.holder = some id) (found : registry.source? id = some source)
    (pulled : Producer.pullAt sources source = (answer, later))
    (empty : ∀ delivery, answer ≠ .delivery delivery) :
    run registry (room + 1) rotation sources =
      ⟨rotation.select.2.settle .dry, later, [⟨id, source, answer⟩], .blocked⟩ := by
  have chosen := Rotation.choice_of_holder held
  have stuck : (rotation.select.2.settle .dry).switchable = false := by
    rw [← Bool.not_eq_true, switchable_settle_dry_iff chosen, held]
    exact Option.some_ne_none id
  rw [run]
  split
  · rename_i unchosen
    rw [chosen] at unchosen
    cases unchosen
  · rename_i other same
    rw [chosen, Option.some.injEq] at same
    subst same
    simp only [found, pulled]
    cases answer with
    | delivery delivery => exact absurd rfl (empty delivery)
    | nothing => simp [stuck]
    | failed cause => simp [stuck]

@[simp] theorem entries_after (pull : Pull) (pass : Pass σ) :
    (pass.after pull).entries = pull.entry?.toList ++ pass.entries := by
  unfold entries after
  cases entry : pull.entry? <;> simp [entry]

namespace Course

variable {registry : Registry} {room : Nat} {rotation : Rotation} {sources : List σ} {pass : Pass σ}

/-- Every pull is of the source that is registered under the chosen identifier. -/
theorem registered (course : Course registry room rotation sources pass) :
    ∀ pull ∈ pass.pulls, registry.source? pull.id = some pull.source := by
  induction course with
  | full => simp
  | idle => simp
  | astray => simp
  | taken _ found _ _ ih =>
    intro pull mem
    rcases List.mem_cons.mp mem with rfl | mem
    · exact found
    · exact ih pull mem
  | skipped _ _ found _ _ _ ih =>
    intro pull mem
    rcases List.mem_cons.mp mem with rfl | mem
    · exact found
    · exact ih pull mem
  | blocked _ found =>
    intro pull mem
    rw [List.mem_singleton.mp mem]
    exact found

/-- A pass leaves the cycle as it is. -/
theorem ids_eq (course : Course registry room rotation sources pass) :
    pass.rotation.ids = rotation.ids := by
  induction course with
  | full => rfl
  | idle => rfl
  | astray => rfl
  | taken _ _ _ _ ih => simpa [after] using ih
  | skipped _ _ _ _ _ _ ih => simpa [after] using ih
  | blocked => simp

/-- Only a registered source comes to hold an open record. -/
theorem holder_mem (course : Course registry room rotation sources pass)
    (held : ∀ id, rotation.holder = some id → id ∈ registry.ids) :
    ∀ id, pass.rotation.holder = some id → id ∈ registry.ids := by
  induction course with
  | full => exact held
  | idle => exact held
  | astray => exact held
  | @taken _ rotation _ _ chosenId _ delivery _ chosen found _ _ ih =>
    apply ih
    intro id holds
    rw [Rotation.holder_settle_yielded chosen] at holds
    cases open' : delivery.buffer.continues with
    | false => simp [open'] at holds
    | true =>
      simp only [open', if_true, Option.some.injEq] at holds
      subst holds
      exact Registry.mem_ids_of_source? found
  | skipped _ _ _ _ _ _ ih =>
    apply ih
    intro id holds
    exact held id (by simpa using holds)
  | blocked =>
    intro id holds
    exact held id (by simpa using holds)

/-- A pass brings no more than there is room for. -/
theorem length_entries_le (course : Course registry room rotation sources pass) :
    pass.entries.length ≤ room := by
  induction course with
  | full => simp [entries]
  | idle => simp [entries]
  | astray => simp [entries]
  | taken _ _ _ _ ih =>
    rw [entries_after]
    simp only [Pull.entry?_delivery, Option.toList_some, List.length_append, List.length_singleton]
    omega
  | skipped _ _ _ _ empty _ ih =>
    rw [entries_after, Pull.entry?_of_no_delivery empty]
    simpa using ih
  | blocked _ _ _ empty => simp [entries, Pull.entry?_of_no_delivery empty]

/-- A source that was ready is ready after the pass unless one of its pulls gave nothing. -/
theorem ready_or_dry {id : SourceId} (course : Course registry room rotation sources pass)
    (ready : rotation.isReady id = true) :
    pass.rotation.isReady id = true ∨
      ∃ pull ∈ pass.pulls, pull.id = id ∧ pull.entry? = none := by
  induction course with
  | full => exact .inl ready
  | idle => exact .inl ready
  | astray => exact .inl ready
  | taken _ _ _ _ ih =>
    rcases ih (by simpa using ready) with still | ⟨pull, mem, dry⟩
    · exact .inl still
    · exact .inr ⟨pull, List.mem_cons_of_mem _ mem, dry⟩
  | @skipped _ _ _ _ chosenId source answer _ _ chosen _ _ empty _ ih =>
    by_cases same : id = chosenId
    · refine .inr ⟨_, List.mem_cons_self .., same.symm, ?_⟩
      exact Pull.entry?_of_no_delivery empty
    · rw [← Rotation.isReady_settle_dry_of_ne chosen same] at ready
      rcases ih ready with still | ⟨pull, mem, dry⟩
      · exact .inl still
      · exact .inr ⟨pull, List.mem_cons_of_mem _ mem, dry⟩
  | @blocked _ _ _ _ heldId source answer held _ _ empty =>
    by_cases same : id = heldId
    · refine .inr ⟨_, List.mem_singleton_self _, same.symm, ?_⟩
      exact Pull.entry?_of_no_delivery empty
    · refine .inl ?_
      rw [Rotation.isReady_settle_dry_of_ne (Rotation.choice_of_holder held) same]
      exact ready

/-- A pass that had room and brought nothing ended with nobody to choose, or it was over after one
pull of the source that holds the open record. -/
theorem halts (course : Course registry (room + 1) rotation sources pass)
    (cycle : rotation.ids = registry.ids)
    (held : ∀ id, rotation.holder = some id → id ∈ registry.ids) (nothing : pass.entries = []) :
    (pass.rotation.choice = none ∧ pass.rotation.pending = none) ∨
      ∃ id source answer, rotation.holder = some id ∧ registry.source? id = some source ∧
        Producer.pullAt sources source = (answer, pass.sources) ∧
        (∀ delivery, answer ≠ .delivery delivery) ∧
        pass.rotation = rotation.select.2.settle .dry ∧ pass.pulls = [⟨id, source, answer⟩] := by
  generalize capacity : room + 1 = room' at course
  induction course with
  | full => cases capacity
  | idle unchosen => exact .inl ⟨unchosen, unchosen⟩
  | astray chosen missing =>
    have known := Rotation.mem_of_choice chosen
    rw [cycle] at known
    exact absurd (known.elim id (held _)) (Registry.source?_eq_none_iff.mp missing)
  | taken => simp at nothing
  | skipped free chosen found pulled empty rest ih =>
    rw [entries_after, Pull.entry?_of_no_delivery empty] at nothing
    rcases ih (by simpa using cycle) (by simpa using held) (by simpa using nothing) capacity with
      ended | ⟨id, _, _, holds, _⟩
    · exact .inl ended
    · rw [Rotation.holder_settle_dry, Rotation.holder_select, free] at holds
      cases holds
  | blocked holds found pulled empty => exact .inr ⟨_, _, _, holds, found, pulled, empty, rfl, rfl⟩

end Course

end Pass

end FairMerge
