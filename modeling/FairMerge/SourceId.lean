import FairMerge.Decimal
import FairMerge.Description

/-! # Source identifiers

The caller chooses the identifier of a source. Within one view no two sources share one; nothing
else is asked of them, so they need not be contiguous nor grow with registration. -/

namespace FairMerge

/-- The identifier under which a source is registered in a view. -/
structure SourceId where
  val : UInt32
deriving DecidableEq

namespace SourceId

/-- The identifier as it stands in messages: its decimal digits. -/
def text (id : SourceId) : String := Decimal.text id.val.toNat

/-- The identifier inside a description. -/
def describe (id : SourceId) : String := "SourceId(" ++ id.text ++ ")"

/-- Identifiers are ordered as numbers. -/
instance : Ord SourceId := ⟨fun a b => compare a.val b.val⟩

/-- The identifiers in ascending order. -/
def sort (ids : List SourceId) : List SourceId := ids.mergeSort fun a b => (compare a b).isLE

end SourceId

end FairMerge
