import Mathlib.Data.List.Infix
import Mathlib.Data.List.Perm.Subperm
import FairMerge.Proofs.Policy

/-! # Overtaking

While a source is ready and is not chosen, others complete records. None of them completes a second
one: who completed a record has its next turn after the source that waits. So the waiting source is
overtaken at most once by each of the others, whatever else happens in the meantime. -/

namespace FairMerge.Rotation

/-! ### The order of the turns -/

section Round

variable {order round : List SourceId} {last : Option SourceId} {id : SourceId}

theorem Round.mem_iff (turns : Round order last round) : id ∈ round ↔ id ∈ order := by
  unfold Round at turns
  cases last with
  | none => rw [turns]
  | some last =>
    obtain ⟨front, back, rfl, rfl⟩ := turns
    simp only [List.mem_append, List.mem_cons, List.not_mem_nil]
    tauto

theorem Round.nodup (turns : Round order last round) (distinct : order.Nodup) : round.Nodup := by
  unfold Round at turns
  cases last with
  | none => rwa [turns]
  | some last =>
    obtain ⟨front, back, rfl, rfl⟩ := turns
    rw [List.append_assoc]
    refine List.perm_append_comm.nodup_iff.mp ?_
    simpa using distinct

/-- Only one order of the turns starts after a given source. -/
theorem Round.unique {other : List SourceId} (distinct : order.Nodup)
    (turns : Round order last round) (turns' : Round order last other) : round = other := by
  unfold Round at turns turns'
  cases last with
  | none => rw [turns, turns']
  | some last =>
    obtain ⟨front, back, rfl, rfl⟩ := turns
    obtain ⟨front', back', split, rfl⟩ := turns'
    have once := (List.nodup_middle.mp distinct).notMem
    rw [List.mem_append, not_or] at once
    obtain ⟨rfl, -, rfl⟩ := (List.append_cons_inj_of_notMem once.1 once.2).mp split
    rfl

/-- Who has had the turn goes to the end, and those that it overtook go before it. -/
theorem Round.pass {front back : List SourceId} (turns : Round order last (front ++ id :: back)) :
    Round order (some id) (back ++ front ++ [id]) := by
  unfold Round at turns
  cases last with
  | none => exact ⟨front, back, turns.symm, rfl⟩
  | some last =>
    obtain ⟨before, after, rfl, whole⟩ := turns
    rcases back.eq_nil_or_concat' with rfl | ⟨back, final, rfl⟩
    · obtain ⟨rfl, same⟩ := List.append_inj' whole rfl
      cases same
      exact ⟨before, after, rfl, rfl⟩
    · rw [← List.cons_append, ← List.append_assoc] at whole
      obtain ⟨split, same⟩ := List.append_inj' whole rfl
      cases same
      -- the source is before the last one in the order of registration, or after it
      rcases List.append_eq_append_iff.mp split with ⟨rest, rfl, between⟩ | ⟨rest, rfl, between⟩
      · rcases List.cons_eq_append_iff.mp between with ⟨rfl, rfl⟩ | ⟨rest, rfl, rfl⟩
        · exact ⟨[], back ++ last :: front, by simp, by simp⟩
        · exact ⟨before ++ last :: front, rest, by simp, by simp⟩
      · subst between
        exact ⟨rest, back ++ last :: after, by simp, by simp⟩

/-- A source that is added gets its turn somewhere among the others. -/
theorem Round.insert (turns : Round order last round) (new : SourceId) :
    ∃ front back, round = front ++ back ∧ Round (order ++ [new]) last (front ++ new :: back) := by
  unfold Round at turns ⊢
  cases last with
  | none => exact ⟨round, [], by simp, by rw [turns]⟩
  | some last =>
    obtain ⟨before, after, rfl, rfl⟩ := turns
    exact ⟨after, before ++ [last], by simp, before, after ++ [new], by simp, by simp⟩

end Round

/-! ### Sources that come before another -/

/-- If the second of a pair does not occur later on, the pair occurs early. -/
theorem pair_sublist_of_notMem {early late : List SourceId} {first second : SourceId}
    (pair : [first, second].Sublist (early ++ late)) (absent : second ∉ late) :
    [first, second].Sublist early := by
  obtain ⟨front, back, split, sub, sub'⟩ := List.sublist_append_iff.mp pair
  rcases back.eq_nil_or_concat' with rfl | ⟨back, final, rfl⟩
  · rw [split, List.append_nil]
    exact sub
  · have ends : [first] ++ [second] = (front ++ back) ++ [final] := by simpa using split
    obtain ⟨_, same⟩ := List.append_inj' ends rfl
    cases same
    exact absurd (sub'.subset (by simp)) absent

/-- The turn of the first source comes before that of the second. -/
def Before (rotation : Rotation) (first second : SourceId) : Prop :=
  [first, second].Sublist (rotation.turns.map Member.id)

section Before

variable {rotation : Rotation} {id other : SourceId}

theorem Closed.nodup_turns (closed : rotation.Closed) : (rotation.turns.map Member.id).Nodup :=
  (round_turns closed.cursor).nodup closed.distinct

theorem Closed.mem_turns (closed : rotation.Closed) :
    id ∈ rotation.turns.map Member.id ↔ id ∈ rotation.ids :=
  (round_turns closed.cursor).mem_iff

/-- If the second one is ready, it is chosen unless the choice comes before it. -/
theorem Closed.before_of_choice (closed : rotation.Closed) (free : rotation.holder = none)
    (chosen : rotation.choice = some other) (ready : rotation.isReady id = true)
    (different : other ≠ id) : rotation.Before other id := by
  rw [choice_eq_find? closed.distinct free, List.find?_eq_some_iff_append] at chosen
  obtain ⟨_, skipped, rest, split, unready⟩ := chosen
  have mem := closed.mem_turns.mpr (mem_ids_of_isReady ready)
  rw [split] at mem
  rcases List.mem_append.mp mem with early | late
  · have dull := unready id early
    rw [ready] at dull
    cases dull
  · rcases List.mem_cons.mp late with same | late
    · exact absurd same.symm different
    · rw [Before, split]
      exact List.sublist_append_of_sublist_right (List.Sublist.cons_cons other
        (List.singleton_sublist.mpr late))

/-- The order of the turns after a completed record. -/
theorem Closed.turns_of_completed (closed : rotation.Closed)
    (pending : rotation.pending = some other) {front back : List SourceId}
    (turns : rotation.turns.map Member.id = front ++ other :: back) :
    (rotation.settle (.yielded false)).turns.map Member.id = back ++ front ++ [other] := by
  have round := round_turns closed.cursor
  rw [turns] at round
  have next := round_turns (closed.make (.settle (.yielded false))).cursor
  have cursor : (rotation.settle (.yielded false)).cursor = some other := by simp [settle, pending]
  simp only [Rotation.make, ids_settle, cursor] at next
  exact Round.unique closed.distinct next round.pass

/-- Whoever completed a record comes before nobody. -/
theorem Closed.not_before_of_completed (closed : rotation.Closed)
    (pending : rotation.pending = some other) (different : other ≠ id) :
    ¬(rotation.settle (.yielded false)).Before other id := by
  intro first
  have mem := closed.mem_turns.mpr (closed.pending other pending)
  obtain ⟨front, back, split⟩ := List.append_of_mem mem
  have once := (List.nodup_middle.mp (split ▸ closed.nodup_turns)).notMem
  rw [Before, closed.turns_of_completed pending split] at first
  have early := pair_sublist_of_notMem first (by simpa using different.symm)
  apply once
  rw [List.mem_append, or_comm, ← List.mem_append]
  exact early.subset List.mem_cons_self

/-- When somebody who came before a source completed a record, whoever comes before the source did
so already. -/
theorem Closed.before_of_completed (closed : rotation.Closed)
    (pending : rotation.pending = some other) (first : rotation.Before other id) {third : SourceId}
    (next : (rotation.settle (.yielded false)).Before third id) : rotation.Before third id := by
  obtain ⟨early, late, whole, mem, mem'⟩ := List.cons_sublist_iff.mp first
  obtain ⟨front, middle, rfl⟩ := List.append_of_mem mem
  have split : rotation.turns.map Member.id = front ++ other :: (middle ++ late) := by
    rw [whole, List.append_assoc, List.cons_append]
  have distinct := closed.nodup_turns
  rw [whole] at distinct
  have once : id ∉ front ++ other :: middle := fun early =>
    List.disjoint_of_nodup_append distinct early (List.singleton_sublist.mp mem')
  rw [Before, closed.turns_of_completed pending split, List.append_assoc] at next
  have sub := pair_sublist_of_notMem next (by
    simp only [List.mem_append, List.mem_cons, List.not_mem_nil, or_false] at once ⊢
    tauto)
  rw [Before, split]
  exact sub.trans ((List.sublist_cons_self other _).trans (List.sublist_append_right front _))

/-- A new source does not change who of the others comes before whom. -/
theorem Closed.before_enlist (closed : rotation.Closed) {new : SourceId}
    (unknown : new ∉ rotation.ids) (known : id ∈ rotation.ids) (known' : other ∈ rotation.ids) :
    (rotation.enlist new).Before other id ↔ rotation.Before other id := by
  have next := closed.make (.register new)
  rw [make_register, if_neg unknown] at next
  obtain ⟨front, back, split, round⟩ := (round_turns closed.cursor).insert new
  rw [← ids_enlist] at round
  have turns : (rotation.enlist new).turns.map Member.id = front ++ new :: back :=
    Round.unique next.distinct (round_turns next.cursor) round
  rw [Before, Before, turns, split]
  constructor
  · intro pair
    have absent : new ∉ front ++ back := by
      rw [← split, closed.mem_turns]
      exact unknown
    have kept : (front ++ new :: back).erase new = front ++ back := by
      rw [List.mem_append, not_or] at absent
      rw [List.erase_append_right _ absent.1, List.erase_cons_head]
    have others : [other, id].erase new = [other, id] :=
      List.erase_of_not_mem fun mem => by
        rcases List.mem_pair.mp mem with rfl | rfl
        · exact unknown known'
        · exact unknown known
    rw [← kept, ← others]
    exact pair.erase new
  · intro pair
    exact pair.trans ((List.sublist_cons_self new back).append_left front)

end Before

/-! ### Sources that overtake another -/

/-- The source whose record the move completes. -/
def completes (rotation : Rotation) : Move → Option SourceId
  | .settle (.yielded false) => rotation.pending
  | _ => none

/-- The others that have overtaken a source are distinct and come after it. Once there is one, a
source comes before it whenever the source is chosen or its record is open. -/
structure Overtaken (rotation : Rotation) (id : SourceId) (others : List SourceId) : Prop where
  distinct : others.Nodup
  known : ∀ other ∈ others, other ∈ rotation.ids ∧ other ≠ id
  behind : ∀ other ∈ others, ¬rotation.Before other id
  ahead : others = [] ∨
    ∀ other, rotation.pending = some other ∨ rotation.holder = some other →
      rotation.Before other id

section Overtaken

variable {rotation : Rotation} {id : SourceId} {completed : List SourceId}

theorem Overtaken.nil : rotation.Overtaken id [] :=
  ⟨List.nodup_nil, List.forall_mem_nil _, List.forall_mem_nil _, .inl rfl⟩

/-- A completed record makes its source one of those that have overtaken. -/
theorem Overtaken.complete (overtaken : rotation.Overtaken id (completed.filter (· ≠ id)))
    (closed : rotation.Closed) {other : SourceId} (pending : rotation.pending = some other) :
    (rotation.settle (.yielded false)).Overtaken id ((other :: completed).filter (· ≠ id)) := by
  have settled : (rotation.settle (.yielded false)).holder = none := by simp [settle, pending]
  by_cases same : other = id
  · subst same
    have none_yet : completed.filter (· ≠ other) = [] := by
      rcases overtaken.ahead with none_yet | ahead
      · exact none_yet
      · have twice := (ahead other (.inl pending)).nodup closed.nodup_turns
        simp at twice
    rw [List.filter_cons_of_neg (by simp), none_yet]
    exact .nil
  · rw [List.filter_cons_of_pos (by simpa using same)]
    have last := closed.not_before_of_completed pending same
    have mem := closed.pending other pending
    rcases overtaken.ahead with none_yet | ahead
    · rw [none_yet]
      refine ⟨List.nodup_singleton other, ?_, ?_, .inr ?_⟩
      · simpa using ⟨mem, same⟩
      · simpa using last
      · simp [settled]
    · have first := ahead other (.inl pending)
      refine ⟨List.nodup_cons.mpr ⟨fun again => overtaken.behind other again first,
        overtaken.distinct⟩, ?_, ?_, .inr ?_⟩
      · rw [List.forall_mem_cons, ids_settle]
        exact ⟨⟨mem, same⟩, overtaken.known⟩
      · rw [List.forall_mem_cons]
        exact ⟨last, fun third early next =>
          overtaken.behind third early (closed.before_of_completed pending first next)⟩
      · simp [settled]

/-- Whoever has overtaken the source stays behind it as long as nobody else is added or completes a
record, if only sources are chosen that come before it. -/
theorem Overtaken.of_same {next : Rotation} {others : List SourceId}
    (overtaken : rotation.Overtaken id others) (cycle : next.ids = rotation.ids)
    (cursor : next.cursor = rotation.cursor)
    (named : ∀ other, next.pending = some other ∨ next.holder = some other →
      (rotation.pending = some other ∨ rotation.holder = some other) ∨ rotation.Before other id) :
    next.Overtaken id others := by
  have same : ∀ other, next.Before other id ↔ rotation.Before other id := by
    intro other
    rw [Before, map_id_turns_congr cycle cursor, Before]
  refine ⟨overtaken.distinct, ?_, ?_, overtaken.ahead.imp_right fun ahead other chosen => ?_⟩
  · rw [cycle]
    exact overtaken.known
  · intro other early
    rw [same]
    exact overtaken.behind other early
  · rw [same]
    exact (named other chosen).elim (ahead other) fun first => first

/-- Whoever has overtaken the source stays behind it, whatever is done next. -/
theorem Overtaken.make (overtaken : rotation.Overtaken id (completed.filter (· ≠ id)))
    (closed : rotation.Closed) (ready : rotation.isReady id = true) {move : Move}
    (unchosen : (rotation.make move).1 ≠ .selected (some id)) :
    (rotation.make move).2.Overtaken id
      (((rotation.completes move).toList ++ completed).filter (· ≠ id)) := by
  have mem := mem_ids_of_isReady ready
  cases move with
  | register new =>
    rw [make_register]
    by_cases known : new ∈ rotation.ids
    · rw [if_pos known]
      exact overtaken
    · rw [if_neg known]
      refine ⟨overtaken.distinct, ?_, ?_, overtaken.ahead.imp_right ?_⟩
      · intro other early
        rw [ids_enlist]
        exact (overtaken.known other early).imp_left (List.mem_append_left _)
      · intro other early
        rw [closed.before_enlist known mem (overtaken.known other early).1]
        exact overtaken.behind other early
      · intro ahead other named
        have old := named.elim (closed.pending other) (closed.holder other)
        exact (closed.before_enlist known mem old).mpr (ahead other named)
  | announce new =>
    exact overtaken.of_same (rotation.ids_announce new) rfl fun other named => .inl named
  | select =>
    refine overtaken.of_same rfl rfl fun other named => ?_
    rcases named with chosen | held
    · cases free : rotation.holder with
      | some holder =>
        have sticks : rotation.choice = some holder := choice_of_holder free
        exact .inl (.inr (sticks.symm.trans chosen))
      | none =>
        refine .inr (closed.before_of_choice free chosen ready ?_)
        rintro rfl
        exact unchosen (congrArg Made.selected chosen)
    · exact .inl (.inr held)
  | settle outcome =>
    cases pending : rotation.pending with
    | none =>
      have nobody : rotation.completes (.settle outcome) = none := by
        cases outcome with
        | dry => rfl
        | yielded continues => cases continues <;> simp [completes, pending]
      rw [nobody, Rotation.make, settle_of_settled pending]
      exact overtaken
    | some other =>
      cases outcome with
      | dry =>
        refine overtaken.of_same (rotation.ids_settle _) cursor_settle_dry fun third named => .inl ?_
        exact .inr (by simpa [Rotation.make] using named)
      | yielded continues =>
        cases continues with
        | true =>
          refine overtaken.of_same (rotation.ids_settle _) (by simp [Rotation.make, settle, pending])
            fun third named => .inl (.inl ?_)
          simpa [Rotation.make, settle, pending] using named
        | false =>
          rw [completes, pending]
          exact overtaken.complete closed pending

end Overtaken

/-! ### Stretches -/

section Stretch

variable (before stretch : List Move)

theorem history_append :
    history [] (stretch ++ before) = history before stretch ++ history [] before := by
  induction stretch with
  | nil => rfl
  | cons move stretch ih =>
    rw [List.cons_append, history_nil_cons, history, ih, List.cons_append]

/-- The sources that completed a record in a stretch, once for each record. -/
def completions : List SourceId :=
  (settlements (history [] before) (history before stretch)).filterMap Settlement.completed?

theorem completions_cons (move : Move) :
    completions before (move :: stretch) =
      ((reached (stretch ++ before)).completes move).toList ++ completions before stretch := by
  rw [completions, history]
  cases move with
  | register id =>
    rw [make_register]
    split <;> rfl
  | announce id => rfl
  | select => rfl
  | settle outcome =>
    rw [make, settlements, ← history_append, ← (reflects_history _).pending, List.filterMap_append]
    congr 1
    cases outcome with
    | dry => cases (reached (stretch ++ before)).pending <;> rfl
    | yielded continues =>
      cases continues <;> cases pending : (reached (stretch ++ before)).pending <;>
        simp [completes, pending, Settlement.completed?]

/-- Over a stretch in which the source is always ready and never chosen. -/
theorem overtaken_history {id : SourceId}
    (ready : ∀ made, made <:+ stretch → (reached (made ++ before)).isReady id = true)
    (unchosen : Made.selected (some id) ∉ history before stretch) :
    (reached (stretch ++ before)).Overtaken id ((completions before stretch).filter (· ≠ id)) := by
  induction stretch with
  | nil => exact .nil
  | cons move stretch ih =>
    rw [history, List.mem_cons, not_or] at unchosen
    have overtaken := ih (fun made early => ready made (early.trans (List.suffix_cons move stretch)))
      unchosen.2
    rw [completions_cons]
    exact overtaken.make (closed_reached _) (ready stretch (List.suffix_cons move stretch))
      (Ne.symm unchosen.1)

end Stretch

/-- A source that is ready all the time and never chosen is overtaken by each of the others with at
most one complete record, and so by no more records than there are others. -/
theorem overtaken_once (before stretch : List Move) (id : SourceId)
    (ready : ∀ made, made <:+ stretch → (reached (made ++ before)).isReady id = true)
    (unchosen : Made.selected (some id) ∉ history before stretch) :
    (∀ other, other ≠ id → (completions before stretch).count other ≤ 1) ∧
      ((completions before stretch).filter (· ≠ id)).length ≤
        ((reached (stretch ++ before)).ids.erase id).length := by
  have overtaken := overtaken_history before stretch ready unchosen
  have distinct := (closed_reached (stretch ++ before)).distinct
  refine ⟨fun other different => ?_, ?_⟩
  · have once := List.nodup_iff_count_le_one.mp overtaken.distinct other
    rwa [List.count_filter (by simpa using different)] at once
  · refine (List.subperm_of_subset overtaken.distinct fun other mem => ?_).length_le
    have known := overtaken.known other mem
    exact distinct.mem_erase_iff.mpr known.symm

namespace OvertakingExample

/-- Three sources have data, and the first of them just completed a record. -/
def before : List Move :=
  [.settle (.yielded false), .select, .announce ⟨3⟩, .announce ⟨2⟩, .announce ⟨1⟩, .register ⟨3⟩,
    .register ⟨2⟩, .register ⟨1⟩]

/-- The second gives a record in two parts and the third one in a single part, while a fourth source
comes in. -/
def stretch : List Move :=
  [.settle (.yielded false), .select, .announce ⟨4⟩, .settle (.yielded false), .select,
    .register ⟨4⟩, .announce ⟨2⟩, .settle .dry, .select, .settle (.yielded true), .select]

/-- The first source is overtaken by two of the three others. -/
theorem overtaken_once_crowded :
    completions before stretch = [⟨3⟩, ⟨2⟩] ∧
      (reached (stretch ++ before)).ids.erase ⟨1⟩ = [⟨2⟩, ⟨3⟩, ⟨4⟩] ∧
      (∀ other : SourceId, other ≠ ⟨1⟩ → (completions before stretch).count other ≤ 1) ∧
      ((completions before stretch).filter (· ≠ ⟨1⟩)).length ≤
        ((reached (stretch ++ before)).ids.erase ⟨1⟩).length := by
  have ready : ∀ made ∈ stretch.tails, (reached (made ++ before)).isReady ⟨1⟩ = true := by decide
  refine ⟨by decide, by decide, overtaken_once before stretch ⟨1⟩ (fun made early => ?_) (by decide)⟩
  exact ready made ((List.mem_tails made stretch).mpr early)

end OvertakingExample

end FairMerge.Rotation
