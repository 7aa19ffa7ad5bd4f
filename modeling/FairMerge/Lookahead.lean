import FairMerge.Buffer

/-! # The look-ahead queue

A view pulls a bounded number of buffers ahead of its consumer. They wait here in the order in
which they were pulled, which is the order in which they are delivered. -/

namespace FairMerge

/-- A waiting delivery and the source that it was pulled from. -/
structure Entry where
  source : SourceId
  delivery : Delivery
deriving DecidableEq

namespace Entry

/-- Whether the entry holds ordinary data. -/
def isData (entry : Entry) : Bool := entry.delivery.buffer.isData

/-- The entry's description shows the delivery before the source. -/
def describe (entry : Entry) : String :=
  Description.braced "CacheEntry" [
    Description.field "buffer" entry.delivery.describe,
    Description.field "source" entry.source.describe]

end Entry

/-- The entries that wait for the consumer, first the next one to leave, and how many of them the
view pulls ahead. -/
structure Lookahead where
  entries : List Entry
  capacity : Nat
deriving DecidableEq

namespace Lookahead

/-- A queue without entries. -/
def empty (capacity : Nat) : Lookahead := ⟨[], capacity⟩

/-- The number of entries. -/
def length (queue : Lookahead) : Nat := queue.entries.length

/-- Whether nothing waits. -/
def isEmpty (queue : Lookahead) : Bool := queue.entries.isEmpty

/-- Whether the entries reach the capacity. -/
def isFull (queue : Lookahead) : Bool := queue.capacity ≤ queue.length

/-- How many more entries the capacity admits. -/
def room (queue : Lookahead) : Nat := queue.capacity - queue.length

/-- Adds entries at the end. Whether they fit is for the caller to see to. -/
def append (queue : Lookahead) (entries : List Entry) : Lookahead :=
  { queue with entries := queue.entries ++ entries }

/-- Adds one entry at the end. -/
def push (queue : Lookahead) (entry : Entry) : Lookahead := queue.append [entry]

/-- The entry that leaves next. -/
def head? (queue : Lookahead) : Option Entry := queue.entries.head?

/-- Takes the entry that leaves next. -/
def pop? (queue : Lookahead) : Option (Entry × Lookahead) :=
  match queue.entries with
  | [] => none
  | entry :: entries => some (entry, { queue with entries })

/-- The kind of the buffer that leaves next, `Kind.none` if nothing waits. -/
def headKind (queue : Lookahead) : Kind :=
  match queue.entries with
  | [] => .none
  | entry :: _ => entry.delivery.buffer.kind

/-- The number of waiting data buffers. -/
def dataBacklog (queue : Lookahead) : Nat := queue.entries.countP Entry.isData

/-- Drops every entry. -/
def clear (queue : Lookahead) : Lookahead := { queue with entries := [] }

/-- The queue's description lists the entries in the order in which they leave. -/
def describe (queue : Lookahead) : String :=
  Description.braced "BufferCache" [
    Description.field "entries" (Description.bracketed (queue.entries.map Entry.describe)),
    Description.field "capacity" (Decimal.text queue.capacity)]

@[simp] theorem entries_append (queue : Lookahead) (entries : List Entry) :
    (queue.append entries).entries = queue.entries ++ entries := rfl

@[simp] theorem capacity_append (queue : Lookahead) (entries : List Entry) :
    (queue.append entries).capacity = queue.capacity := rfl

/-- Taking an entry takes the first one and leaves the rest. -/
theorem pop?_eq_some_iff {queue rest : Lookahead} {entry : Entry} :
    queue.pop? = some (entry, rest) ↔
      queue.entries = entry :: rest.entries ∧ queue.capacity = rest.capacity := by
  obtain ⟨entries, capacity⟩ := queue
  obtain ⟨later, bound⟩ := rest
  cases entries <;> simp [pop?, and_assoc]

/-- Nothing can be taken exactly when nothing waits. -/
theorem pop?_eq_none_iff {queue : Lookahead} : queue.pop? = none ↔ queue.entries = [] := by
  obtain ⟨entries, capacity⟩ := queue
  cases entries <;> simp [pop?]

end Lookahead

end FairMerge
