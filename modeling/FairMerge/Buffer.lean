import FairMerge.SourceId

/-! # Buffers and deliveries

A buffer is a payload with its kind and a flag that says whether its record goes on in the next
buffer of the same source. A delivery is a buffer together with what its producer says about the
buffers behind it. -/

namespace FairMerge

/-- What a buffer holds; `none` says, of a next buffer, that there is none. -/
inductive Kind where
  | none
  /-- Ordinary data, sent only against the consumer's credit. -/
  | data
  /-- An event in the stream, sent whether or not there is credit. -/
  | event
deriving DecidableEq

namespace Kind

/-- The kind's name. -/
def name : Kind → String
  | none => "None"
  | data => "Data"
  | event => "Event"

/-- The kind with a given name. -/
def ofName? : String → Option Kind
  | "None" => some none
  | "Data" => some data
  | "Event" => some event
  | _ => Option.none

/-- Every kind is found again by its name. -/
@[simp] theorem ofName?_name (kind : Kind) : ofName? kind.name = some kind := by
  cases kind <;> rfl

instance : Inhabited Kind := ⟨none⟩

end Kind

/-- One piece of a source's output. -/
structure Buffer where
  payload : List UInt8
  kind : Kind
  /-- The record that this buffer belongs to is continued by the source's next buffer. -/
  continues : Bool
deriving DecidableEq

namespace Buffer

/-- A data buffer that completes its record. -/
def data (payload : List UInt8) : Buffer := ⟨payload, .data, false⟩

/-- A data buffer whose record goes on in the next buffer. -/
def fragment (payload : List UInt8) : Buffer := ⟨payload, .data, true⟩

/-- An event. -/
def event (payload : List UInt8) : Buffer := ⟨payload, .event, false⟩

/-- The payload's length in bytes. -/
def length (buffer : Buffer) : Nat := buffer.payload.length

/-- Whether the payload is empty. -/
def isEmpty (buffer : Buffer) : Bool := buffer.payload.isEmpty

/-- Whether the buffer is ordinary data. -/
def isData (buffer : Buffer) : Bool := buffer.kind == .data

/-- Whether the buffer is an event. -/
def isEvent (buffer : Buffer) : Bool := buffer.kind == .event

/-- The buffer's description gives the length of the payload in place of its bytes. -/
def describe (buffer : Buffer) : String :=
  Description.braced "Buffer" [
    Description.field "len" (Decimal.text buffer.length),
    Description.field "data_type" buffer.kind.name,
    Description.field "partial_record" (Description.ofBool buffer.continues)]

end Buffer

/-- A buffer with its place in the producer's output. -/
structure Delivery where
  buffer : Buffer
  /-- Data buffers still queued behind this one. -/
  backlog : Nat
  /-- The kind of the buffer queued next, `Kind.none` if there is none. -/
  nextKind : Kind
  /-- The position of this buffer in the producer's output, from zero. -/
  sequence : Nat
deriving DecidableEq

namespace Delivery

/-- The delivery's description shows the buffer and the producer's counts. -/
def describe (delivery : Delivery) : String :=
  Description.braced "BufferAndBacklog" [
    Description.field "buffer" delivery.buffer.describe,
    Description.field "backlog" (Decimal.text delivery.backlog),
    Description.field "next_data_type" delivery.nextKind.name,
    Description.field "sequence_number" (Decimal.text delivery.sequence)]

end Delivery

end FairMerge
