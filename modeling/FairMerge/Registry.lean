import FairMerge.Error

/-! # The registry

Which source a view knows under which identifier. The registry only grows, and it refuses to use
an identifier twice or to know a source under two identifiers, so each determines the other. -/

namespace FairMerge

/-- A source by its place in the pool of sources. Two sources with equal content at different
places are different sources. -/
abbrev SourceRef := Nat

/-- A view by its place among the views of a network. -/
abbrev ViewRef := Nat

/-- A registered source with its identifier. -/
structure Registration where
  id : SourceId
  source : SourceRef
deriving DecidableEq

/-- The registrations of a view, the oldest first. -/
structure Registry where
  entries : List Registration
deriving DecidableEq

namespace Registry

/-- The registry without sources. -/
def empty : Registry := ⟨[]⟩

/-- The number of registered sources. -/
def length (registry : Registry) : Nat := registry.entries.length

/-- The registered identifiers, the oldest first. -/
def ids (registry : Registry) : List SourceId := registry.entries.map Registration.id

/-- The source registered under an identifier. -/
def source? (registry : Registry) (id : SourceId) : Option SourceRef :=
  (registry.entries.find? fun entry => entry.id == id).map Registration.source

/-- The identifier under which a source is registered. -/
def idOf? (registry : Registry) (source : SourceRef) : Option SourceId :=
  (registry.entries.find? fun entry => entry.source == source).map Registration.id

/-- Registers a source. That the identifier is taken is found before the source is looked at. -/
def insert (registry : Registry) (id : SourceId) (source : SourceRef) : Except Error Registry :=
  match registry.source? id with
  | some _ => .error (.duplicateId id)
  | none =>
    match registry.idOf? source with
    | some existing => .error (.duplicateSource existing)
    | none => .ok ⟨registry.entries ++ [⟨id, source⟩]⟩

/-- An identifier has a source exactly when it is registered. -/
theorem source?_eq_none_iff {registry : Registry} {id : SourceId} :
    registry.source? id = none ↔ id ∉ registry.ids := by
  simp only [source?, Option.map_eq_none_iff, List.find?_eq_none, beq_iff_eq, ids, List.mem_map,
    not_exists, not_and]

/-- A registration fails exactly when the identifier or the source is taken. -/
theorem insert_eq_ok_iff {registry next : Registry} {id : SourceId} {source : SourceRef} :
    registry.insert id source = .ok next ↔
      registry.source? id = none ∧ registry.idOf? source = none ∧
        next = ⟨registry.entries ++ [⟨id, source⟩]⟩ := by
  unfold insert
  cases registry.source? id with
  | some taken => simp
  | none =>
    cases registry.idOf? source with
    | some existing => simp
    | none => simp [eq_comm]

end Registry

end FairMerge
