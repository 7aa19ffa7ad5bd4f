import FairMerge.Error

/-! # Rotation

A rotation decides which source is drained next. The sources take turns in the order of their
registration, one record a turn: the turn passes on when a record is complete, so a source whose
last buffer left its record open keeps it, and nobody else is chosen until the record ends.

A choice made by `select` waits for exactly one `settle`, which reports how the pull went. -/

namespace FairMerge

/-- A source in the cycle. It is ready if it announced data and has not run dry since. -/
structure Member where
  id : SourceId
  ready : Bool
deriving DecidableEq

namespace Member

/-- Sets whether the member is ready, if it is the one with the identifier. -/
def mark (id : SourceId) (ready : Bool) (member : Member) : Member :=
  if member.id = id then { member with ready } else member

@[simp] theorem id_mark (id : SourceId) (ready : Bool) (member : Member) :
    (member.mark id ready).id = member.id := by
  unfold mark
  split <;> rfl

@[simp] theorem ready_mark_self (member : Member) (ready : Bool) :
    (member.mark member.id ready).ready = ready := by
  simp [mark]

theorem mark_of_ne {member : Member} {id : SourceId} (other : member.id ≠ id) (ready : Bool) :
    member.mark id ready = member := by
  simp [mark, other]

end Member

/-- How the pull from a chosen source went. -/
inductive Outcome where
  /-- The source gave a buffer, whose record goes on in its next one or not. -/
  | yielded (continues : Bool)
  /-- The source gave nothing. -/
  | dry
deriving DecidableEq

/-- The state of the turn-taking. -/
structure Rotation where
  /-- The cycle, in the order of registration. -/
  members : List Member
  /-- The source that completed a record last. -/
  cursor : Option SourceId
  /-- The source chosen last, until the outcome of its pull is settled. -/
  pending : Option SourceId
  /-- The source whose record is open. -/
  holder : Option SourceId
  /-- False if the holder just ran dry: nobody else may be drained before its record ends. -/
  switchable : Bool
deriving DecidableEq

namespace Rotation

/-- The rotation without sources. -/
def empty : Rotation := ⟨[], none, none, none, true⟩

instance : Inhabited Rotation := ⟨empty⟩

/-- The identifiers of the cycle, in the order of registration. -/
def ids (rotation : Rotation) : List SourceId := rotation.members.map Member.id

/-- Whether the source is in the cycle and ready. -/
def isReady (rotation : Rotation) (id : SourceId) : Bool :=
  rotation.members.any fun member => member.id == id && member.ready

/-- How many sources are ready. -/
def readyCount (rotation : Rotation) : Nat := rotation.members.countP Member.ready

/-- Puts a source at the end of the cycle, not ready. -/
def register (rotation : Rotation) (id : SourceId) : Except Error Rotation :=
  if id ∈ rotation.ids then .error (.alreadyInCycle id)
  else .ok { rotation with members := rotation.members ++ [⟨id, false⟩] }

/-- Whether an announcement of data by the source is news: it is in the cycle and not ready. -/
def awaits (rotation : Rotation) (id : SourceId) : Bool :=
  rotation.members.any fun member => member.id == id && !member.ready

/-- Sets whether a source is ready. A source outside the cycle is ignored. -/
def setReady (rotation : Rotation) (id : SourceId) (ready : Bool) : Rotation :=
  { rotation with members := rotation.members.map (Member.mark id ready) }

/-- Notes that a source has data. -/
def announce (rotation : Rotation) (id : SourceId) : Rotation := rotation.setReady id true

/-- The cycle from the member after the cursor round to the cursor itself. -/
def turns (rotation : Rotation) : List Member :=
  match rotation.cursor with
  | none => rotation.members
  | some id =>
    let position := rotation.ids.idxOf id + 1
    rotation.members.drop position ++ rotation.members.take position

/-- The source to drain next: the holder of an open record whether it is ready or not, else the
first ready source whose turn comes. -/
def choice (rotation : Rotation) : Option SourceId :=
  match rotation.holder with
  | some id => some id
  | none => (rotation.turns.find? Member.ready).map Member.id

/-- Chooses the source to drain next; the choice is pending from then on. -/
def select (rotation : Rotation) : Option SourceId × Rotation :=
  (rotation.choice, { rotation with pending := rotation.choice })

/-- Reports how the pull from the pending source went. A complete record passes the turn on, an
open one makes the source its holder, and a source that gave nothing is no longer ready. Without a
pending choice there is nothing to report. -/
def settle (rotation : Rotation) (outcome : Outcome) : Rotation :=
  match rotation.pending with
  | none => rotation
  | some id =>
    match outcome with
    | .yielded true => { rotation with pending := none, holder := some id, switchable := true }
    | .yielded false =>
      { rotation with pending := none, holder := none, cursor := some id, switchable := true }
    | .dry =>
      { rotation.setReady id false with pending := none, switchable := rotation.holder.isNone }

/-! ### The cycle

Only a registration changes the cycle, and it adds to its end. -/

theorem ids_of_register {rotation next : Rotation} {id : SourceId}
    (registered : rotation.register id = .ok next) : next.ids = rotation.ids ++ [id] := by
  unfold register at registered
  split at registered
  · cases registered
  · cases registered
    simp [ids]

@[simp] theorem ids_setReady (rotation : Rotation) (id : SourceId) (ready : Bool) :
    (rotation.setReady id ready).ids = rotation.ids := by
  simp only [ids, setReady, List.map_map]
  exact List.map_congr_left fun member _ => member.id_mark id ready

@[simp] theorem ids_announce (rotation : Rotation) (id : SourceId) :
    (rotation.announce id).ids = rotation.ids := rotation.ids_setReady id true

@[simp] theorem ids_select (rotation : Rotation) : rotation.select.2.ids = rotation.ids := rfl

@[simp] theorem ids_settle (rotation : Rotation) (outcome : Outcome) :
    (rotation.settle outcome).ids = rotation.ids := by
  unfold settle
  cases rotation.pending with
  | none => rfl
  | some id =>
    cases outcome with
    | yielded continues => cases continues <;> rfl
    | dry => exact rotation.ids_setReady id false

/-! ### Ready sources

Settling a yield keeps the ready sources as they are; settling a dry pull of a source that does
not hold an open record makes one source fewer ready. -/

theorem readyCount_settle_yielded (rotation : Rotation) (continues : Bool) :
    (rotation.settle (.yielded continues)).readyCount = rotation.readyCount := by
  unfold settle
  cases rotation.pending <;> cases continues <;> rfl

@[simp] theorem readyCount_select (rotation : Rotation) :
    rotation.select.2.readyCount = rotation.readyCount := rfl

/-- Clearing a flag makes no source ready. -/
theorem countP_ready_map_mark_false_le (id : SourceId) (members : List Member) :
    (members.map (Member.mark id false)).countP Member.ready ≤ members.countP Member.ready := by
  rw [List.countP_map]
  apply List.countP_mono_left
  intro member _ ready
  by_cases same : member.id = id
  · subst same
    simp at ready
  · simpa [Member.mark_of_ne same] using ready

/-- Clearing a flag that was set leaves fewer ready sources. -/
theorem countP_ready_map_mark_false_lt {member : Member} (ready : member.ready = true) :
    ∀ {members : List Member}, member ∈ members →
      (members.map (Member.mark member.id false)).countP Member.ready <
        members.countP Member.ready
  | head :: tail, mem => by
    have le := countP_ready_map_mark_false_le member.id tail
    rw [List.map_cons, List.countP_cons, List.countP_cons]
    rcases List.mem_cons.mp mem with rfl | mem
    · simp only [Member.ready_mark_self, ready, Bool.false_eq_true, if_true, if_false]
      omega
    · have lt := countP_ready_map_mark_false_lt ready mem
      by_cases same : head.id = member.id
      · have cleared : (head.mark member.id false).ready = false := by simp [Member.mark, same]
        simp only [cleared, Bool.false_eq_true, if_false]
        omega
      · rw [Member.mark_of_ne same]
        omega

/-- The members in the order of their turns are the members of the cycle. -/
theorem mem_turns {rotation : Rotation} {member : Member} :
    member ∈ rotation.turns ↔ member ∈ rotation.members := by
  unfold turns
  split
  · rfl
  · rename_i id _
    constructor
    · intro mem
      rcases List.mem_append.mp mem with mem | mem
      · exact List.mem_of_mem_drop mem
      · exact List.mem_of_mem_take mem
    · intro mem
      rw [← List.take_append_drop (rotation.ids.idxOf id + 1) rotation.members] at mem
      simp only [List.mem_append] at mem ⊢
      exact mem.symm

/-- A source that gave nothing without holding an open record is one ready source less. -/
theorem readyCount_settle_dry_lt {rotation : Rotation} {id : SourceId}
    (chosen : rotation.choice = some id)
    (switchable : (rotation.select.2.settle .dry).switchable = true) :
    (rotation.select.2.settle .dry).readyCount < rotation.readyCount := by
  have free : rotation.holder = none := by
    cases held : rotation.holder with
    | none => rfl
    | some other => simp [select, settle, chosen, held] at switchable
  simp only [choice, free, Option.map_eq_some_iff] at chosen
  obtain ⟨member, found, rfl⟩ := chosen
  have mem : member ∈ rotation.members := mem_turns.mp (List.mem_of_find?_eq_some found)
  have ready : member.ready = true := List.find?_some found
  have lt := countP_ready_map_mark_false_lt ready mem
  simpa [select, settle, choice, free, found, readyCount, setReady] using lt

end Rotation

end FairMerge
