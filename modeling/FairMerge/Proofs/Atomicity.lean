import Mathlib.Data.List.Chain
import FairMerge.Proofs.Ledger
import FairMerge.Source

/-! # Records stay in one piece

A record that is split over several buffers reaches the consumer in one piece, however long its
source stalls or fails in the middle of it. From its first buffer to its last one the rotation has a
holder, and only the holder is pulled. -/

namespace FairMerge

open Activity (pulls deliveries gathered)

/-- What may follow an entry: while its record is open, only an entry of the same source. -/
def Entry.Precedes (entry later : Entry) : Prop :=
  entry.delivery.buffer.continues = true → later.source = entry.source

/-- The source whose record the entries leave open. -/
def Entry.openRecord (entries : List Entry) : Option SourceId :=
  entries.getLast?.bind fun entry =>
    if entry.delivery.buffer.continues then some entry.source else none

/-- The holder of the open record after a pull. -/
def Pull.hold (holder : Option SourceId) (pull : Pull) : Option SourceId :=
  match pull.answer with
  | .delivery delivery => if delivery.buffer.continues then some pull.id else none
  | _ => holder

/-- Each pull is of the source whose record is open when it is made, if there is one. -/
def Pull.Obey (holder : Option SourceId) : List Pull → Prop
  | [] => True
  | pull :: later => (∀ id, holder = some id → pull.id = id) ∧ Obey (pull.hold holder) later

/-! ### Pieces decide -/

theorem Entry.openRecord_congr {first second : List Entry}
    (same : first.map Entry.piece = second.map Entry.piece) :
    openRecord first = openRecord second := by
  have read : ∀ entries, openRecord entries = (entries.map Entry.piece).getLast?.bind fun piece =>
      if piece.2.continues then some piece.1 else none := by
    intro entries
    rw [List.getLast?_map, openRecord]
    cases entries.getLast? <;> rfl
  rw [read, read, same]

theorem Entry.isChain_precedes_iff (entries : List Entry) :
    entries.IsChain Entry.Precedes ↔ (entries.map Entry.piece).IsChain fun piece later =>
      piece.2.continues = true → later.1 = piece.1 :=
  (List.isChain_map (R := fun piece later : SourceId × Buffer =>
    piece.2.continues = true → later.1 = piece.1) Entry.piece).symm

/-! ### What pulls leave open -/

namespace Pull

theorem hold_of_no_delivery {holder : Option SourceId} {id : SourceId} {source : SourceRef}
    {answer : Answer} (empty : ∀ delivery, answer ≠ .delivery delivery) :
    hold holder ⟨id, source, answer⟩ = holder := by
  cases answer with
  | delivery delivery => exact absurd rfl (empty delivery)
  | nothing => rfl
  | failed cause => rfl

theorem foldl_hold_none (made : List Pull) :
    made.foldl hold none = Entry.openRecord (made.filterMap Pull.entry?) := by
  induction made using List.reverseRecOn with
  | nil => rfl
  | append_singleton made pull ih =>
    rw [List.foldl_append, List.filterMap_append, ih]
    obtain ⟨id, source, answer⟩ := pull
    cases answer with
    | delivery delivery => simp [hold, Entry.openRecord]
    | nothing => exact congrArg Entry.openRecord (List.append_nil _).symm
    | failed cause => exact congrArg Entry.openRecord (List.append_nil _).symm

theorem obey_append {holder : Option SourceId} {first second : List Pull} :
    Obey holder (first ++ second) ↔
      Obey holder first ∧ Obey (first.foldl hold holder) second := by
  induction first generalizing holder with
  | nil => simp [Obey]
  | cons pull first ih =>
    rw [List.cons_append, Obey, Obey, ih, and_assoc]
    rfl

/-- What obedient pulls give forms unbroken records, and goes on with the open one. -/
theorem Obey.isChain {holder : Option SourceId} {made : List Pull} (obey : Obey holder made) :
    (made.filterMap Pull.entry?).IsChain Entry.Precedes ∧
      ∀ id, holder = some id → ∀ entry ∈ (made.filterMap Pull.entry?).head?, entry.source = id := by
  induction made generalizing holder with
  | nil => exact ⟨.nil, fun _ _ entry mem => by cases mem⟩
  | cons pull made ih =>
    obtain ⟨here, later⟩ := obey
    obtain ⟨chain, head⟩ := ih later
    obtain ⟨id, source, answer⟩ := pull
    cases answer with
    | delivery delivery =>
      rw [List.filterMap_cons_some (Pull.entry?_delivery id source delivery)]
      refine ⟨List.isChain_cons.mpr ⟨?_, chain⟩, ?_⟩
      · intro entry mem continues
        exact head id (if_pos continues) entry mem
      · intro held holds entry mem
        obtain rfl : _ = entry := Option.some.inj mem
        exact here held holds
    | nothing => exact ⟨chain, head⟩
    | failed cause => exact ⟨chain, head⟩

end Pull

/-! ### What a pass leaves open -/

namespace Pass.Course

variable {σ α : Type} [Producer σ α] {registry : Registry} {room : Nat} {rotation : Rotation}
  {sources : List σ} {pass : Pass σ}

theorem holder_eq (course : Course registry room rotation sources pass) :
    pass.rotation.holder = pass.pulls.foldl Pull.hold rotation.holder := by
  induction course with
  | full | idle | astray => rfl
  | taken chosen _ _ _ ih =>
    rw [Rotation.holder_settle_yielded chosen] at ih
    exact ih
  | skipped _ _ _ _ empty _ ih =>
    rw [Rotation.holder_settle_dry, Rotation.holder_select] at ih
    simp only [after, List.foldl_cons, Pull.hold_of_no_delivery empty]
    exact ih
  | blocked _ _ _ empty => simp [Pull.hold_of_no_delivery empty]

theorem obey (course : Course registry room rotation sources pass) :
    Pull.Obey rotation.holder pass.pulls := by
  induction course with
  | full | idle | astray => trivial
  | taken chosen _ _ _ ih =>
    rw [Rotation.holder_settle_yielded chosen] at ih
    refine ⟨fun id held => ?_, ih⟩
    rw [Rotation.choice_of_holder held] at chosen
    exact (Option.some.inj chosen).symm
  | skipped free _ _ _ empty _ ih =>
    rw [Rotation.holder_settle_dry, Rotation.holder_select] at ih
    refine ⟨fun id held => ?_, ?_⟩
    · rw [free] at held
      cases held
    · rw [Pull.hold_of_no_delivery empty]
      exact ih
  | blocked held =>
    refine ⟨fun id holds => ?_, trivial⟩
    rw [held] at holds
    exact Option.some.inj holds

end Pass.Course

/-! ### Views -/

namespace View

variable {σ α : Type} [Producer σ α]

/-- The rotation knows which record is open, and every pull so far respected that. -/
def Atomic (view : View) (log : List Activity) : Prop :=
  view.rotation.holder = Entry.openRecord (gathered log) ∧ Pull.Obey none (pulls log)

theorem atomic_invariant : Invariant σ fun view _ log => view.Atomic log where
  register := by
    intro view later log id source ⟨holder, obey⟩ registered
    obtain ⟨_, _, _, rotation, turned, rfl⟩ := register_cases registered
    exact ⟨(Rotation.holder_register turned).trans holder, obey⟩
  announce atomic _ _ := atomic
  absorb := by
    intro view hand log sources pass ⟨holder, obey⟩ _ course
    have before : view.rotation.holder = (pulls log).foldl Pull.hold none := by
      rw [holder, Pull.foldl_hold_none]
      rfl
    constructor
    · rw [holder_absorb, course.holder_eq, before, ← List.foldl_append, Pull.foldl_hold_none]
      simp [gathered]
    · rw [Activity.pulls_append, Activity.pulls_map_pulled, Pull.obey_append, ← before]
      exact ⟨obey, course.obey⟩
  publish atomic := atomic
  pop atomic _ := atomic
  handOut := by
    rintro view log entry atomic
    simpa [Atomic, handOut] using atomic
  release := by
    intro view log sources atomic _
    simpa [Atomic, publish, gathered] using atomic

theorem atomic_of_config {config : Config} {view : View} (built : View.ofConfig config = .ok view) :
    view.Atomic [] := by
  rw [(eq_empty_of_config built).1]
  exact ⟨rfl, trivial⟩

end View

/-- In the sequence of what a view has delivered and what waits in it, a buffer that leaves its
record open is followed by a buffer of the same source. Until release the rotation holds the source
of the last one if that left its record open, and while it holds a source it pulls no other. -/
theorem records_unbroken {σ α : Type} [Producer σ α] (sources : List σ)
    (views : List (Config × Listener)) (reactions : List (List (List (Command Nat α))))
    (commands : List (Command Nat α)) (n : Nat) (ref : ViewRef) (view : View) :
    let session := Session.start sources views reactions
    let past := (session.play commands).take n
    let log := Record.activities ref past
    let stream := deliveries log ++ view.queue.entries
    (session.reachedBy past).view? ref = some view →
      stream.IsChain Entry.Precedes ∧
      (view.released = false → view.rotation.holder = Entry.openRecord stream) ∧
      ∀ before pull later, pulls log = before ++ pull :: later →
        ∀ id, Entry.openRecord (before.filterMap Pull.entry?) = some id → pull.id = id := by
  intro session past log stream found
  obtain ⟨_, dropped, kept, balance⟩ := Session.holds_of_view View.balanced_invariant
    (fun _ _ built => View.balanced_of_config built) sources views reactions commands n found
  obtain ⟨holder, obey⟩ := Session.holds_of_view View.atomic_invariant
    (fun _ _ built => View.atomic_of_config built) sources views reactions commands n found
  rw [Option.toList_none, List.nil_append, ← List.map_append] at balance
  refine ⟨?_, ?_, ?_⟩
  · rw [Entry.isChain_precedes_iff]
    have gatheredChain := (Entry.isChain_precedes_iff _).mp obey.isChain.1
    exact (balance ▸ gatheredChain).left_of_append
  · intro open'
    rw [kept open', List.append_nil] at balance
    rw [holder]
    exact (Entry.openRecord_congr balance).symm
  · intro before pull later split id holds
    rw [split, Pull.obey_append, Pull.foldl_hold_none] at obey
    exact obey.2.1 id holds

namespace Stalled

/-- The first source begins a record that it cannot go on with, while the second has data. -/
def session : Session Source Source.Action :=
  .start [.memory (.ofBuffers ⟨5⟩ [.fragment [1]]), .memory (.ofBuffers ⟨6⟩ [.data [9]])]
    [(⟨2⟩, .ofCallback)] []

def commands : List (Command Nat Source.Action) := [
  .add 0 0, .add 0 1, .request 0 .next, .request 0 .next, .act 0 (.memory (.failPull "lost")),
  .act 0 (.memory (.push (.data [2]))), .request 0 .next]

/-- What the view delivered and what waits in it after so many commands. -/
def stream (n : Nat) (view : View) : List Entry :=
  deliveries (Record.activities 0 ((session.play commands).take n)) ++ view.queue.entries

end Stalled

open Stalled in
/-- The source that stalls and fails holds back the other one until its record is complete. -/
theorem records_unbroken_stalled :
    (∃ view, (session.reachedBy ((session.play commands).take 6)).view? 0 = some view ∧
      view.rotation.holder = Entry.openRecord (stream 6 view) ∧
      (stream 6 view).map Entry.piece = [(⟨5⟩, .fragment [1])]) ∧
    ∃ view, (session.reachedBy ((session.play commands).take 7)).view? 0 = some view ∧
      (stream 7 view).IsChain Entry.Precedes ∧
      (stream 7 view).map Entry.piece =
        [(⟨5⟩, .fragment [1]), (⟨5⟩, .data [2]), (⟨6⟩, .data [9])] := by
  constructor
  · have there : ((session.reachedBy ((session.play commands).take 6)).view? 0).any (fun view =>
        !view.released && decide ((stream 6 view).map Entry.piece = [(⟨5⟩, .fragment [1])])) =
          true := by
      decide +kernel
    obtain ⟨view, found, facts⟩ := (Option.any_eq_true _ _).mp there
    simp only [Bool.and_eq_true, Bool.not_eq_true', decide_eq_true_eq] at facts
    have unbroken := records_unbroken _ _ _ commands 6 0 view found
    exact ⟨view, found, unbroken.2.1 facts.1, facts.2⟩
  · have there : ((session.reachedBy ((session.play commands).take 7)).view? 0).any (fun view =>
        decide ((stream 7 view).map Entry.piece =
          [(⟨5⟩, .fragment [1]), (⟨5⟩, .data [2]), (⟨6⟩, .data [9])])) = true := by
      decide +kernel
    obtain ⟨view, found, facts⟩ := (Option.any_eq_true _ _).mp there
    have unbroken := records_unbroken _ _ _ commands 7 0 view found
    exact ⟨view, found, unbroken.1, of_decide_eq_true facts⟩

end FairMerge
