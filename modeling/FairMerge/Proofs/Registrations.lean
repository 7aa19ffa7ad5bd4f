import Mathlib.Data.List.Nodup
import FairMerge.Registry

/-! # Identifiers and sources determine each other

The registry is searched by identifier and by source. As long as neither occurs twice in it, both
searches find exactly the registrations that are there. -/

namespace FairMerge

namespace Registry

variable {registry : Registry} {id : SourceId} {source : SourceRef} {entry : Registration}

/-- The registered sources, the oldest registration first. -/
def sources (registry : Registry) : List SourceRef := registry.entries.map Registration.source

theorem mem_of_source? (found : registry.source? id = some source) :
    ⟨id, source⟩ ∈ registry.entries := by
  simp only [source?, Option.map_eq_some_iff] at found
  obtain ⟨entry, found, rfl⟩ := found
  have same : entry.id = id := by simpa using List.find?_some found
  rw [← same]
  exact List.mem_of_find?_eq_some found

theorem mem_of_idOf? (found : registry.idOf? source = some id) :
    ⟨id, source⟩ ∈ registry.entries := by
  simp only [idOf?, Option.map_eq_some_iff] at found
  obtain ⟨entry, found, rfl⟩ := found
  have same : entry.source = source := by simpa using List.find?_some found
  rw [← same]
  exact List.mem_of_find?_eq_some found

theorem idOf?_eq_none_iff : registry.idOf? source = none ↔ source ∉ registry.sources := by
  simp only [idOf?, Option.map_eq_none_iff, List.find?_eq_none, beq_iff_eq, sources, List.mem_map,
    not_exists, not_and]

theorem mem_ids_of_source? (found : registry.source? id = some source) : id ∈ registry.ids :=
  List.mem_map_of_mem (mem_of_source? found)

theorem source?_of_mem (distinct : registry.ids.Nodup) (mem : entry ∈ registry.entries) :
    registry.source? entry.id = some entry.source := by
  cases found : registry.source? entry.id with
  | none => exact absurd (List.mem_map_of_mem mem) (source?_eq_none_iff.mp found)
  | some source =>
    have same := List.inj_on_of_nodup_map distinct (mem_of_source? found) mem rfl
    rw [← same]

theorem mem_ids_of_idOf? (found : registry.idOf? source = some id) : id ∈ registry.ids :=
  List.mem_map_of_mem (mem_of_idOf? found)

theorem idOf?_of_mem (distinct : registry.sources.Nodup) (mem : entry ∈ registry.entries) :
    registry.idOf? entry.source = some entry.id := by
  cases found : registry.idOf? entry.source with
  | none => exact absurd (List.mem_map_of_mem mem) (idOf?_eq_none_iff.mp found)
  | some id =>
    have same := List.inj_on_of_nodup_map distinct (mem_of_idOf? found) mem rfl
    rw [← same]

/-- Two registrations agree in the identifier exactly if they agree in the source. -/
theorem id_eq_iff_source_eq {other : Registration} (distinctIds : registry.ids.Nodup)
    (distinctSources : registry.sources.Nodup) (mem : entry ∈ registry.entries)
    (mem' : other ∈ registry.entries) : entry.id = other.id ↔ entry.source = other.source := by
  constructor
  · intro same
    rw [List.inj_on_of_nodup_map distinctIds mem mem' same]
  · intro same
    rw [List.inj_on_of_nodup_map distinctSources mem mem' same]

end Registry

end FairMerge
