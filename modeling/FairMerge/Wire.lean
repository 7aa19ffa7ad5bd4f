import FairMerge.Buffer
import FairMerge.Json.Record
import FairMerge.View.Capability
import FairMerge.View.Config
import FairMerge.View.Stats

/-! # Values on the wire

The JSON form of those values that are sent to and read from elsewhere. What is written is read
back as the same value, as long as the numbers fit the width that the form has for them. -/

namespace FairMerge

/-- Types whose values have a JSON form. -/
class Wire (α : Type) where
  /-- The JSON form of a value. -/
  toJson : α → Json
  /-- The value of a JSON form. -/
  ofJson? : Json → Option α

namespace Wire

/-- The text of a value. -/
def write {α : Type} [Wire α] (value : α) : String := (toJson value).render

/-- The value of a text. -/
def read? {α : Type} [Wire α] (text : String) : Option α := (Json.parse? text).bind ofJson?

/-- Counts and sizes are below this bound: they have 64 bits. -/
def countBound : Nat := UInt64.size

/-- The JSON form of a natural number. -/
def ofNat (value : Nat) : Json := .number (.natural value)

/-- The count that a JSON value is. -/
def count? (json : Json) : Option Nat := json.natural? countBound

/-- An identifier is its number. -/
instance : Wire SourceId where
  toJson id := ofNat id.val.toNat
  ofJson? json := (json.natural? UInt32.size).map fun value => ⟨UInt32.ofNat value⟩

/-- A kind is its name. -/
instance : Wire Kind where
  toJson kind := .text (some kind.name)
  ofJson? json := json.alternative?.bind Kind.ofName?

/-- A capability is its name. -/
instance : Wire Capability where
  toJson capability := .text (some capability.name)
  ofJson? json := json.alternative?.bind Capability.ofName?

instance : Wire Availability where
  toJson availability := .record [
    ("available", .bool availability.available),
    ("backlog", ofNat availability.backlog)]
  ofJson? json :=
    match json.fields? ["available", "backlog"] with
    | some [some available, some backlog] => do
      return ⟨← available.bool?, ← count? backlog⟩
    | _ => none

instance : Wire Stats where
  toJson stats := .record [
    ("sources", ofNat stats.sources),
    ("queued", ofNat stats.queued),
    ("data_backlog", ofNat stats.dataBacklog),
    ("next_sequence", ofNat stats.nextSequence),
    ("released", .bool stats.released)]
  ofJson? json :=
    match json.fields? ["sources", "queued", "data_backlog", "next_sequence", "released"] with
    | some [some sources, some queued, some dataBacklog, some nextSequence, some released] => do
      return ⟨← count? sources, ← count? queued, ← count? dataBacklog, ← count? nextSequence,
        ← released.bool?⟩
    | _ => none

/-- A configuration that leaves its capacity out has the default one. -/
instance : Wire Config where
  toJson config := .record [("cache_capacity", ofNat config.capacity)]
  ofJson? json :=
    match json.fields? ["cache_capacity"] with
    | some [some capacity] => (count? capacity).map Config.mk
    | some [none] => some Config.default
    | _ => none

end Wire

/-- The configuration that a text gives, if it can be read and is sound. -/
def Config.ofText (text : String) : Except Error Config :=
  match (Wire.read? text : Option Config) with
  | none => .error (.serialization "the text is no configuration")
  | some config => config.validate.map fun _ => config

end FairMerge
