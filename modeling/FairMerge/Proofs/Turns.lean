import Mathlib.Data.List.Find
import Mathlib.Data.List.Nodup
import FairMerge.Rotation

/-! # What the steps of a rotation leave alone

Each step of the turn-taking concerns one source. These lemmas say what a step does to the holder
of the open record and to the sources that are ready, so that later proofs need not open the
steps. -/

namespace FairMerge.Rotation

variable {rotation : Rotation} {id other : SourceId}

theorem isReady_iff :
    rotation.isReady id = true ↔
      ∃ member ∈ rotation.members, member.id = id ∧ member.ready = true := by
  simp [isReady, List.any_eq_true]

theorem mem_ids_of_isReady (ready : rotation.isReady id = true) : id ∈ rotation.ids := by
  obtain ⟨member, mem, rfl, _⟩ := isReady_iff.mp ready
  exact List.mem_map_of_mem mem

/-- As long as no identifier occurs twice, a member is ready exactly if its identifier is. -/
theorem isReady_of_mem (distinct : rotation.ids.Nodup) {member : Member}
    (mem : member ∈ rotation.members) : rotation.isReady member.id = member.ready := by
  rw [Bool.eq_iff_iff, isReady_iff]
  constructor
  · rintro ⟨twin, mem', same, ready⟩
    rwa [← List.inj_on_of_nodup_map distinct mem' mem same]
  · intro ready
    exact ⟨member, mem, rfl, ready⟩

/-! ### Ready sources -/

theorem isReady_setReady_self (ready : Bool) :
    (rotation.setReady id ready).isReady id = true ↔ id ∈ rotation.ids ∧ ready = true := by
  rw [isReady_iff]
  constructor
  · rintro ⟨member, mem, same, set⟩
    obtain ⟨old, oldMem, rfl⟩ := List.mem_map.mp mem
    rw [Member.id_mark] at same
    subst same
    rw [Member.ready_mark_self] at set
    exact ⟨List.mem_map_of_mem oldMem, set⟩
  · rintro ⟨mem, rfl⟩
    obtain ⟨old, oldMem, rfl⟩ := List.mem_map.mp mem
    exact ⟨old.mark old.id true, List.mem_map_of_mem oldMem, by simp, by simp⟩

theorem isReady_setReady_of_ne (different : other ≠ id) (ready : Bool) :
    (rotation.setReady id ready).isReady other = rotation.isReady other := by
  have each : ∀ member : Member, ((member.mark id ready).id == other && (member.mark id ready).ready)
      = (member.id == other && member.ready) := by
    intro member
    by_cases same : member.id = id
    · have unlike : (member.id == other) = false := by
        rw [same]
        exact beq_false_of_ne (Ne.symm different)
      simp [unlike]
    · rw [Member.mark_of_ne same]
  simp only [isReady, setReady, List.any_map]
  exact congrArg (List.any rotation.members) (funext each)

theorem isReady_announce_self (mem : id ∈ rotation.ids) : (rotation.announce id).isReady id = true :=
  (isReady_setReady_self true).mpr ⟨mem, rfl⟩

/-- An announcement takes readiness from nobody. -/
theorem isReady_announce (ready : rotation.isReady other = true) :
    (rotation.announce id).isReady other = true := by
  by_cases same : other = id
  · subst same
    exact isReady_announce_self (mem_ids_of_isReady ready)
  · rw [announce, isReady_setReady_of_ne same]
    exact ready

/-- An announcement makes nobody ready but the source that it is about. -/
theorem isReady_of_announce (ready : (rotation.announce id).isReady other = true) :
    rotation.isReady other = true ∨ id = other := by
  by_cases same : id = other
  · exact .inr same
  · rw [announce, isReady_setReady_of_ne (Ne.symm same)] at ready
    exact .inl ready

@[simp] theorem isReady_select : rotation.select.2.isReady other = rotation.isReady other := rfl

@[simp] theorem isReady_settle_yielded (continues : Bool) :
    (rotation.settle (.yielded continues)).isReady other = rotation.isReady other := by
  unfold settle
  cases rotation.pending <;> cases continues <;> rfl

/-- A dry pull takes readiness from the source that was pending alone. -/
theorem isReady_settle_dry (pending : rotation.pending = some id) :
    (rotation.settle .dry).isReady other = true ↔ rotation.isReady other = true ∧ id ≠ other := by
  have marked : (rotation.settle .dry).isReady other = (rotation.setReady id false).isReady other := by
    simp only [settle, pending]
    rfl
  rw [marked]
  by_cases same : other = id
  · subst same
    simp [isReady_setReady_self]
  · simp [isReady_setReady_of_ne same, Ne.symm same]

/-- A dry pull leaves the sources alone that were not chosen. -/
theorem isReady_settle_dry_of_ne (chosen : rotation.choice = some id) (different : other ≠ id) :
    (rotation.select.2.settle .dry).isReady other = rotation.isReady other := by
  have pending : rotation.select.2.pending = some id := chosen
  rw [Bool.eq_iff_iff, isReady_settle_dry pending]
  simp [different.symm]

/-- A dry pull makes nobody ready. -/
theorem isReady_of_settle_dry (chosen : rotation.choice = some id)
    (ready : (rotation.select.2.settle .dry).isReady other = true) :
    rotation.isReady other = true := by
  have pending : rotation.select.2.pending = some id := chosen
  exact ((isReady_settle_dry pending).mp ready).1

theorem isReady_register {next : Rotation} (registered : rotation.register id = .ok next)
    (ready : rotation.isReady other = true) : next.isReady other = true := by
  unfold register at registered
  split at registered
  · cases registered
  · cases registered
    obtain ⟨member, mem, same, set⟩ := isReady_iff.mp ready
    exact isReady_iff.mpr ⟨member, List.mem_append_left _ mem, same, set⟩

/-- A registration makes nobody ready. -/
theorem isReady_of_register {next : Rotation} (registered : rotation.register id = .ok next)
    (ready : next.isReady other = true) : rotation.isReady other = true := by
  unfold register at registered
  split at registered
  · cases registered
  · cases registered
    obtain ⟨member, mem, same, set⟩ := isReady_iff.mp ready
    rcases List.mem_append.mp mem with old | new
    · exact isReady_iff.mpr ⟨member, old, same, set⟩
    · rw [List.mem_singleton.mp new] at set
      cases set

/-! ### The holder of the open record -/

@[simp] theorem holder_select : rotation.select.2.holder = rotation.holder := rfl

@[simp] theorem holder_settle_dry : (rotation.settle .dry).holder = rotation.holder := by
  unfold settle
  cases rotation.pending <;> rfl

theorem holder_settle_yielded (chosen : rotation.choice = some id) (continues : Bool) :
    (rotation.select.2.settle (.yielded continues)).holder =
      if continues then some id else none := by
  simp only [select, settle, chosen]
  cases continues <;> rfl

theorem holder_register {next : Rotation} (registered : rotation.register id = .ok next) :
    next.holder = rotation.holder := by
  unfold register at registered
  split at registered
  · cases registered
  · cases registered
    rfl

/-! ### The pending choice and the cursor -/

/-- Once an outcome is settled nothing is pending. -/
@[simp] theorem pending_settle (outcome : Outcome) : (rotation.settle outcome).pending = none := by
  unfold settle
  cases settled : rotation.pending with
  | none => exact settled
  | some id =>
    cases outcome with
    | dry => rfl
    | yielded continues => cases continues <;> rfl

@[simp] theorem cursor_select : rotation.select.2.cursor = rotation.cursor := rfl

@[simp] theorem cursor_settle_dry : (rotation.settle .dry).cursor = rotation.cursor := by
  unfold settle
  cases rotation.pending <;> rfl

theorem cursor_settle_yielded (chosen : rotation.choice = some id) (continues : Bool) :
    (rotation.select.2.settle (.yielded continues)).cursor =
      if continues then rotation.cursor else some id := by
  simp only [select, settle, chosen]
  cases continues <;> rfl

/-! ### The choice -/

theorem choice_of_holder (held : rotation.holder = some id) : rotation.choice = some id := by
  simp [choice, held]

/-- Without an open record only a ready source is chosen. -/
theorem isReady_of_choice (free : rotation.holder = none) (chosen : rotation.choice = some id) :
    rotation.isReady id = true := by
  simp only [choice, free, Option.map_eq_some_iff] at chosen
  obtain ⟨member, found, rfl⟩ := chosen
  exact isReady_iff.mpr
    ⟨member, mem_turns.mp (List.mem_of_find?_eq_some found), rfl, List.find?_some found⟩

/-- The cycle and the cursor decide on the order of the turns. -/
theorem map_id_turns_congr {rotation other : Rotation} (cycle : rotation.ids = other.ids)
    (cursor : rotation.cursor = other.cursor) :
    rotation.turns.map Member.id = other.turns.map Member.id := by
  unfold turns
  rw [cycle, cursor]
  cases other.cursor with
  | none => exact cycle
  | some id =>
    simp only [List.map_append, List.map_drop, List.map_take]
    rw [← ids, ← ids, cycle]

/-- Without an open record the first ready source whose turn comes is chosen. -/
theorem choice_eq_find? (distinct : rotation.ids.Nodup) (free : rotation.holder = none) :
    rotation.choice = (rotation.turns.map Member.id).find? rotation.isReady := by
  simp only [choice, free, List.find?_map]
  refine congrArg _ (List.find?_congr fun member mem => ?_)
  exact (isReady_of_mem distinct (mem_turns.mp mem)).symm

/-- The chosen source is in the cycle or holds the open record. -/
theorem mem_of_choice (chosen : rotation.choice = some id) :
    id ∈ rotation.ids ∨ rotation.holder = some id := by
  cases held : rotation.holder with
  | none => exact .inl (mem_ids_of_isReady (isReady_of_choice held chosen))
  | some holder =>
    rw [choice_of_holder held] at chosen
    exact .inr chosen

/-- Choosing nobody changes nothing if no choice is pending. -/
theorem select_of_idle (unchosen : rotation.choice = none) (settled : rotation.pending = none) :
    rotation.select.2 = rotation := by
  rw [select, unchosen, ← settled]

/-- Nobody is chosen exactly when no record is open and no source is ready. -/
theorem choice_eq_none_iff :
    rotation.choice = none ↔ rotation.holder = none ∧ ∀ id, rotation.isReady id = false := by
  constructor
  · intro idle
    cases held : rotation.holder with
    | some id => simp [choice_of_holder held] at idle
    | none =>
      refine ⟨rfl, fun id => ?_⟩
      simp only [choice, held, Option.map_eq_none_iff, List.find?_eq_none] at idle
      rw [← Bool.not_eq_true, isReady_iff]
      rintro ⟨member, mem, _, ready⟩
      exact idle member (mem_turns.mpr mem) ready
  · rintro ⟨free, unready⟩
    simp only [choice, free, Option.map_eq_none_iff, List.find?_eq_none]
    intro member mem ready
    have := unready member.id
    rw [isReady_iff.mpr ⟨member, mem_turns.mp mem, rfl, ready⟩] at this
    cases this

theorem setReady_setReady (ready : Bool) :
    (rotation.setReady id ready).setReady id ready = rotation.setReady id ready := by
  simp only [setReady, List.map_map]
  congr 1
  apply List.map_congr_left
  intro member _
  by_cases same : member.id = id
  · subst same
    simp [Member.mark]
  · simp [Member.mark_of_ne same]

/-- Once the holder has run dry, its running dry again changes nothing. -/
theorem settle_dry_again (held : rotation.holder = some id) :
    (rotation.select.2.settle .dry).select.2.settle .dry = rotation.select.2.settle .dry := by
  have once : ∀ other : Rotation, other.holder = some id → other.select.2.settle .dry =
      { other.setReady id false with pending := none, switchable := false } := by
    intro other held
    simp [select, settle, choice_of_holder held, setReady, held]
  rw [once _ (by simpa using held), once rotation held]
  have marked : (rotation.setReady id false).setReady id false = rotation.setReady id false :=
    setReady_setReady false
  simpa [setReady] using marked

end FairMerge.Rotation
