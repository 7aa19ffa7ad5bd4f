import Mathlib.Data.List.Basic
import FairMerge.Proofs.Turns
import FairMerge.Rotation.Move

/-! # The policy, read off the history

A rotation keeps five fields up to date while moves are made. Each of them says something about the
moves that were made and how they were answered, and nothing else: which source the last settlement
of a complete record was for, which record is open, and so on. A settlement takes effect if a source
was chosen and its pull is not settled yet; one that comes at another time says nothing. -/

namespace FairMerge.Rotation

/-- A settlement that took effect, with the source whose pull it settled. -/
structure Settlement where
  id : SourceId
  outcome : Outcome
deriving DecidableEq

/-- Whether the pull gave a buffer. -/
def Settlement.gave (settlement : Settlement) : Bool := settlement.outcome ≠ .dry

/-- The source of the pull that completed a record. -/
def Settlement.completed? (settlement : Settlement) : Option SourceId :=
  if settlement.outcome = .yielded false then some settlement.id else none

/-- The source whose pull is still to be settled: the one that was chosen last, unless a settlement
came since. -/
def awaited : List Made → Option SourceId
  | [] => none
  | .selected choice :: _ => choice
  | .settled _ :: _ => none
  | _ :: past => awaited past

/-- The settlements of a stretch that took effect, the latest first. -/
def settlements (past : List Made) : List Made → List Settlement
  | [] => []
  | .settled outcome :: stretch =>
    ((awaited (stretch ++ past)).map fun id => ⟨id, outcome⟩).toList ++ settlements past stretch
  | _ :: stretch => settlements past stretch

/-- The sources that were registered, the oldest registration first. -/
def enlisted : List Made → List SourceId
  | [] => []
  | .registered id :: past => enlisted past ++ [id]
  | _ :: past => enlisted past

/-- The source whose record is open after the settlements. -/
def openRecord (settled : List Settlement) : Option SourceId :=
  (settled.find? Settlement.gave).bind fun settlement =>
    if settlement.outcome = .yielded true then some settlement.id else none

/-- The source that completed a record last. -/
def lastCompleted (settled : List Settlement) : Option SourceId :=
  settled.findSome? Settlement.completed?

/-- The source announced data while it was registered, and since then no pull of it was settled as
dry. -/
def Announced (past : List Made) (id : SourceId) : Prop :=
  ∃ stretch news earlier, past = stretch ++ .announced id news :: earlier ∧
    id ∈ enlisted earlier ∧ ⟨id, .dry⟩ ∉ settlements (.announced id news :: earlier) stretch

/-- The sources in the order of their turns: those that were registered after the last one, those
before it, and then the last one itself. Without a last one it is the order of registration. -/
def Round (order : List SourceId) (last : Option SourceId) (round : List SourceId) : Prop :=
  match last with
  | none => round = order
  | some id => ∃ front back, order = front ++ id :: back ∧ round = back ++ front ++ [id]

/-! ### One more move -/

/-- The rotation with one more source at the end of the cycle. -/
def enlist (rotation : Rotation) (id : SourceId) : Rotation :=
  { rotation with members := rotation.members ++ [⟨id, false⟩] }

@[simp] theorem ids_enlist (rotation : Rotation) (id : SourceId) :
    (rotation.enlist id).ids = rotation.ids ++ [id] := by
  simp [enlist, ids]

@[simp] theorem isReady_enlist (rotation : Rotation) (id other : SourceId) :
    (rotation.enlist id).isReady other = rotation.isReady other := by
  simp [enlist, isReady]

section Cons

variable {rotation : Rotation} {past stretch earlier : List Made} {before moves : List Move}
  {id : SourceId}

theorem history_nil_cons (move : Move) (moves : List Move) :
    history [] (move :: moves) = ((reached moves).make move).1 :: history [] moves := by
  rw [history, List.append_nil]

/-- A registration is refused if the source is in the cycle, and otherwise adds it to the end. -/
theorem make_register (rotation : Rotation) (id : SourceId) :
    rotation.make (.register id) =
      if id ∈ rotation.ids then (.refused id (.alreadyInCycle id), rotation)
      else (.registered id, rotation.enlist id) := by
  unfold make register enlist
  by_cases known : id ∈ rotation.ids
  · simp [known]
  · simp [known]

theorem settlements_nil_settled (outcome : Outcome) (past : List Made) :
    settlements [] (.settled outcome :: past) =
      ((awaited past).map fun id => ⟨id, outcome⟩).toList ++ settlements [] past := by
  rw [settlements, List.append_nil]

/-- Without a choice there is nothing to settle. -/
theorem settle_of_settled (settled : rotation.pending = none) (outcome : Outcome) :
    rotation.settle outcome = rotation := by
  simp [settle, settled]

/-- Only an announcement that is heard and a dry pull decide on a source that had announced. -/
theorem announced_cons (made : Made) :
    Announced (made :: past) id ↔
      ((∃ news, made = .announced id news) ∧ id ∈ enlisted past) ∨
        (Announced past id ∧ (made = .settled .dry → awaited past ≠ some id)) := by
  constructor
  · rintro ⟨stretch, news, earlier, split, known, never⟩
    cases stretch with
    | nil =>
      obtain ⟨rfl, rfl⟩ := List.cons.inj split
      exact .inl ⟨⟨news, rfl⟩, known⟩
    | cons first stretch =>
      rw [List.cons_append] at split
      obtain ⟨rfl, rfl⟩ := List.cons.inj split
      refine .inr ⟨⟨stretch, news, earlier, rfl, known, ?_⟩, ?_⟩
      · intro settled
        apply never
        cases made with
        | settled outcome => exact List.mem_append_right _ settled
        | _ => exact settled
      · rintro rfl awaits
        apply never
        rw [settlements, awaits]
        exact List.mem_append_left _ (List.mem_singleton_self _)
  · rintro (⟨⟨news, rfl⟩, known⟩ | ⟨⟨stretch, news, earlier, rfl, known, never⟩, spared⟩)
    · exact ⟨[], news, past, rfl, known, List.not_mem_nil⟩
    · refine ⟨made :: stretch, news, earlier, rfl, known, ?_⟩
      cases made with
      | settled outcome =>
        rw [settlements]
        intro settled
        rcases List.mem_append.mp settled with now | then'
        · obtain ⟨other, awaits, same⟩ := Option.map_eq_some_iff.mp (Option.mem_toList.mp now)
          cases same
          exact spared rfl awaits
        · exact never then'
      | _ => exact never

end Cons

/-! ### The rotation reflects its history -/

/-- The fields of the rotation are what the history says. -/
structure Reflects (rotation : Rotation) (past : List Made) : Prop where
  cycle : rotation.ids = enlisted past
  pending : rotation.pending = awaited past
  holder : rotation.holder = openRecord (settlements [] past)
  cursor : rotation.cursor = lastCompleted (settlements [] past)
  ready : ∀ id, rotation.isReady id = true ↔ Announced past id
  stuck : rotation.switchable = false ↔
    ∃ id earlier, settlements [] past = ⟨id, .dry⟩ :: earlier ∧ openRecord earlier ≠ none

namespace Reflects

variable {rotation : Rotation} {past : List Made}

theorem empty : Rotation.empty.Reflects [] where
  cycle := rfl
  pending := rfl
  holder := rfl
  cursor := rfl
  ready := by
    intro id
    constructor
    · intro ready
      cases ready
    · rintro ⟨stretch, news, earlier, split, _⟩
      simp at split
  stuck := by simp [Rotation.empty, settlements]

theorem register (reflects : rotation.Reflects past) (id : SourceId) :
    (rotation.make (.register id)).2.Reflects ((rotation.make (.register id)).1 :: past) := by
  rw [make_register]
  by_cases known : id ∈ rotation.ids
  · rw [if_pos known]
    refine ⟨reflects.cycle, reflects.pending, reflects.holder, reflects.cursor, ?_, reflects.stuck⟩
    intro other
    simp [announced_cons, reflects.ready]
  · rw [if_neg known]
    refine ⟨?_, reflects.pending, reflects.holder, reflects.cursor, ?_, reflects.stuck⟩
    · rw [ids_enlist, reflects.cycle]
      rfl
    · intro other
      simp [announced_cons, reflects.ready]

theorem announce (reflects : rotation.Reflects past) (id : SourceId) :
    (rotation.announce id).Reflects (.announced id (rotation.awaits id) :: past) where
  cycle := (rotation.ids_announce id).trans reflects.cycle
  pending := reflects.pending
  holder := reflects.holder
  cursor := reflects.cursor
  ready := by
    intro other
    rw [announced_cons, ← reflects.ready, ← reflects.cycle]
    by_cases same : other = id
    · subst same
      rw [Rotation.announce, isReady_setReady_self]
      simpa using mem_ids_of_isReady
    · rw [Rotation.announce, isReady_setReady_of_ne same]
      simp [Ne.symm same]
  stuck := reflects.stuck

theorem select (reflects : rotation.Reflects past) :
    rotation.select.2.Reflects (.selected rotation.select.1 :: past) where
  cycle := reflects.cycle
  pending := rfl
  holder := reflects.holder
  cursor := reflects.cursor
  ready := by simp [announced_cons, reflects.ready]
  stuck := reflects.stuck

theorem settle (reflects : rotation.Reflects past) (outcome : Outcome) :
    (rotation.settle outcome).Reflects (.settled outcome :: past) := by
  have settled := settlements_nil_settled outcome past
  rw [← reflects.pending] at settled
  cases pending : rotation.pending with
  | none =>
    rw [pending] at settled
    rw [settle_of_settled pending]
    refine ⟨reflects.cycle, pending, ?_, ?_, ?_, ?_⟩
    · rw [settled]
      exact reflects.holder
    · rw [settled]
      exact reflects.cursor
    · simp [announced_cons, reflects.ready, ← reflects.pending, pending]
    · rw [settled]
      exact reflects.stuck
  | some id =>
    rw [pending] at settled
    refine ⟨(rotation.ids_settle outcome).trans reflects.cycle, pending_settle outcome, ?_, ?_, ?_,
      ?_⟩
    · rw [settled]
      cases outcome with
      | dry =>
        rw [holder_settle_dry]
        exact reflects.holder
      | yielded continues =>
        cases continues <;> simp [Rotation.settle, pending, openRecord, Settlement.gave]
    · rw [settled]
      cases outcome with
      | dry =>
        rw [cursor_settle_dry]
        exact reflects.cursor
      | yielded continues =>
        cases continues with
        | false => simp [Rotation.settle, pending, lastCompleted, Settlement.completed?]
        | true =>
          simpa [Rotation.settle, pending, lastCompleted, Settlement.completed?] using
            reflects.cursor
    · intro other
      rw [announced_cons, ← reflects.ready, ← reflects.pending, pending]
      cases outcome with
      | dry =>
        rw [isReady_settle_dry pending]
        simp
      | yielded continues => simp
    · rw [settled]
      cases outcome with
      | dry =>
        simp [Rotation.settle, pending, ← reflects.holder, Option.isSome_iff_ne_none]
      | yielded continues => cases continues <;> simp [Rotation.settle, pending]

theorem make (reflects : rotation.Reflects past) (move : Move) :
    (rotation.make move).2.Reflects ((rotation.make move).1 :: past) := by
  cases move with
  | register id => exact reflects.register id
  | announce id => exact reflects.announce id
  | select => exact reflects.select
  | settle outcome => exact reflects.settle outcome

end Reflects

theorem reflects_history : ∀ moves, (reached moves).Reflects (history [] moves)
  | [] => .empty
  | move :: moves => by
    rw [history_nil_cons]
    exact (reflects_history moves).make move

/-! ### Rotations without strangers -/

/-- No identifier occurs twice in the cycle, and only sources of the cycle are named elsewhere. -/
structure Closed (rotation : Rotation) : Prop where
  distinct : rotation.ids.Nodup
  cursor : ∀ id, rotation.cursor = some id → id ∈ rotation.ids
  pending : ∀ id, rotation.pending = some id → id ∈ rotation.ids
  holder : ∀ id, rotation.holder = some id → id ∈ rotation.ids

theorem Closed.make {rotation : Rotation} (closed : rotation.Closed) (move : Move) :
    (rotation.make move).2.Closed := by
  cases move with
  | register id =>
    rw [make_register]
    by_cases known : id ∈ rotation.ids
    · rw [if_pos known]
      exact closed
    · rw [if_neg known]
      refine ⟨?_, ?_, ?_, ?_⟩
      all_goals rw [ids_enlist]
      · exact closed.distinct.append (List.nodup_singleton id) (by simpa using known)
      · exact fun other passed => List.mem_append_left _ (closed.cursor other passed)
      · exact fun other chosen => List.mem_append_left _ (closed.pending other chosen)
      · exact fun other held => List.mem_append_left _ (closed.holder other held)
  | announce id =>
    refine ⟨?_, ?_, ?_, ?_⟩
    all_goals simp only [Rotation.make, ids_announce]
    exacts [closed.distinct, closed.cursor, closed.pending, closed.holder]
  | select =>
    refine ⟨closed.distinct, closed.cursor, ?_, closed.holder⟩
    intro id chosen
    rcases mem_of_choice chosen with mem | held
    · exact mem
    · exact closed.holder id held
  | settle outcome =>
    simp only [Rotation.make]
    cases pending : rotation.pending with
    | none =>
      rw [settle_of_settled pending]
      exact closed
    | some chosen =>
      have mem := closed.pending chosen pending
      refine ⟨?_, ?_, ?_, ?_⟩
      all_goals simp only [ids_settle, pending_settle, reduceCtorEq, false_imp_iff, implies_true]
      · exact closed.distinct
      · intro id passed
        cases outcome with
        | dry => exact closed.cursor id (by simpa using passed)
        | yielded continues =>
          cases continues with
          | true => exact closed.cursor id (by simpa [settle, pending] using passed)
          | false =>
            obtain rfl : chosen = id := by simpa [settle, pending] using passed
            exact mem
      · intro id held
        cases outcome with
        | dry => exact closed.holder id (by simpa using held)
        | yielded continues =>
          cases continues with
          | true =>
            obtain rfl : chosen = id := by simpa [settle, pending] using held
            exact mem
          | false => simp [settle, pending] at held

theorem closed_reached : ∀ moves, (reached moves).Closed
  | [] => ⟨List.nodup_nil, nofun, nofun, nofun⟩
  | move :: moves => (closed_reached moves).make move

/-- The order of the turns starts after the cursor. -/
theorem round_turns {rotation : Rotation}
    (known : ∀ id, rotation.cursor = some id → id ∈ rotation.ids) :
    Round rotation.ids rotation.cursor (rotation.turns.map Member.id) := by
  unfold turns Round
  cases cursor : rotation.cursor with
  | none => rfl
  | some id =>
    have position := List.idxOf_lt_length_of_mem (known id cursor)
    refine ⟨rotation.ids.take (rotation.ids.idxOf id), rotation.ids.drop (rotation.ids.idxOf id + 1),
      ?_, ?_⟩
    · conv_lhs => rw [← List.take_append_drop (rotation.ids.idxOf id) rotation.ids]
      rw [List.drop_eq_getElem_cons position, List.getElem_idxOf position]
    · rw [List.map_append, List.map_drop, List.map_take, ← ids, List.append_assoc,
        List.take_add_one, List.getElem?_eq_getElem position, List.getElem_idxOf position]
      rfl

/-! ### The policy -/

/-- The rotation is what the policy makes of the moves and their answers. -/
structure Follows (rotation : Rotation) (past : List Made) : Prop where
  /-- The cycle is made of the registered sources, each of them once. -/
  cycle : rotation.ids = enlisted past
  distinct : (enlisted past).Nodup
  /-- To register a source again is refused, and changes nothing. -/
  again : ∀ id ∈ enlisted past,
    rotation.make (.register id) = (.refused id (.alreadyInCycle id), rotation)
  /-- A record is open if the last buffer left it open. -/
  held : ∀ id, rotation.holder = some id ↔
    (settlements [] past).find? Settlement.gave = some ⟨id, .yielded true⟩
  /-- Those are ready that announced data after they were last found dry. -/
  ready : ∀ id, rotation.isReady id = true ↔ Announced past id
  /-- Nobody else may be drained if the last pull was dry while a record was open. -/
  stuck : rotation.switchable = false ↔
    ∃ id earlier, settlements [] past = ⟨id, .dry⟩ :: earlier ∧ openRecord earlier ≠ none
  /-- The source with an open record is chosen, ready or not. -/
  sticks : ∀ id, rotation.holder = some id → rotation.select.1 = some id
  /-- Without an open record nobody is chosen exactly if nobody is ready. -/
  idles : rotation.holder = none →
    (rotation.select.1 = none ↔ ∀ id, rotation.isReady id = false)
  /-- Without an open record the first ready source is chosen in the order of the turns, which
  starts after the source that completed a record last. -/
  turns : rotation.holder = none →
    ∃ round, Round (enlisted past) (lastCompleted (settlements [] past)) round ∧
      ∀ id, rotation.select.1 = some id ↔
        ∃ skipped rest, round = skipped ++ id :: rest ∧ Announced past id ∧
          ∀ other ∈ skipped, ¬Announced past other

theorem Reflects.follows {rotation : Rotation} {past : List Made} (reflects : rotation.Reflects past)
    (closed : rotation.Closed) : rotation.Follows past where
  cycle := reflects.cycle
  distinct := by
    rw [← reflects.cycle]
    exact closed.distinct
  again := by
    intro id known
    rw [← reflects.cycle] at known
    rw [make_register, if_pos known]
  held := by
    intro id
    rw [reflects.holder, openRecord, Option.bind_eq_some_iff]
    constructor
    · rintro ⟨⟨source, outcome⟩, found, opened⟩
      split at opened
      · cases opened
        subst_vars
        exact found
      · cases opened
    · intro found
      exact ⟨_, found, rfl⟩
  ready := reflects.ready
  stuck := reflects.stuck
  sticks _ held := choice_of_holder held
  idles := by
    intro free
    simp [Rotation.select, choice_eq_none_iff, free]
  turns := by
    intro free
    refine ⟨rotation.turns.map Member.id, ?_, ?_⟩
    · rw [← reflects.cycle, ← reflects.cursor]
      exact round_turns closed.cursor
    · intro id
      rw [Rotation.select, choice_eq_find? closed.distinct free, List.find?_eq_some_iff_append]
      simp only [Bool.not_eq_true', ← Bool.not_eq_true, reflects.ready]
      constructor
      · rintro ⟨announced, skipped, rest, round, silent⟩
        exact ⟨skipped, rest, round, announced, silent⟩
      · rintro ⟨skipped, rest, round, announced, silent⟩
        exact ⟨announced, skipped, rest, round, silent⟩

/-- After any moves in any order the rotation follows the policy. -/
theorem follows_history (moves : List Move) : (reached moves).Follows (history [] moves) :=
  (reflects_history moves).follows (closed_reached moves)

/-- Choosing twice is choosing once, and without a choice a settlement takes no effect: the record
stays open and the source ready. -/
example :
    let moves :=
      [.settle .dry, .settle (.yielded true), .select, .select, .announce ⟨1⟩, .register ⟨1⟩]
    settlements [] (history [] moves) = [⟨⟨1⟩, .yielded true⟩] ∧
      (reached moves).holder = some ⟨1⟩ ∧ (reached moves).isReady ⟨1⟩ = true := by
  decide

end FairMerge.Rotation
