import Mathlib.Algebra.Order.BigOperators.Group.List
import Mathlib.Algebra.Order.Group.Nat
import FairMerge.Proofs.Attention
import FairMerge.Proofs.Ledger
import FairMerge.Proofs.Returns

/-! # What a view has still to deliver

From each of its sources a view has still to deliver what waits in its look-ahead queue and then
what waits in the source. A delivery takes its buffer from the front of that, and nothing else that
the consumer asks for changes it. -/

namespace FairMerge

open Source (queueAt)

/-- What a pass brings from a source was at the front of the source's queue. -/
theorem Pass.Course.buffersFrom_entries {registry : Registry} {room : Nat} {rotation : Rotation}
    {sources : List Source} {pass : Pass Source} {entry : Registration} {after : MemorySource}
    (course : Course registry room rotation sources pass) (distinctIds : registry.ids.Nodup)
    (distinctSources : registry.sources.Nodup) (registered : entry ∈ registry.entries)
    (found : pass.sources[entry.source]? = some (.memory after)) :
    Entry.buffersFrom entry.id pass.entries ++ after.queue = queueAt sources entry.source := by
  induction course with
  | full | idle | astray =>
    rw [Source.queueAt_eq found]
    rfl
  | @taken _ _ _ _ id source delivery _ _ listed pulled rest ih =>
    obtain ⟨between, _, present, _⟩ := Source.served_memory rest.served found
    have brought := Source.queueAt_pullAt pulled present
    have same : id = entry.id ↔ source = entry.source := Registry.id_eq_iff_source_eq distinctIds
      distinctSources (Registry.mem_of_source? listed) registered
    have later := ih found
    rw [Source.queueAt_eq present] at later
    rw [brought, ← later, entries_after, Pull.entry?_delivery, Option.toList_some,
      Entry.buffersFrom_append, List.append_assoc]
    congr 1
    by_cases here : source = entry.source
    · simp [Entry.buffersFrom, here, same.mpr here]
    · simp [Entry.buffersFrom, here, mt same.mp here]
  | @skipped _ _ _ _ _ source answer _ _ _ _ pulled empty rest ih =>
    obtain ⟨between, _, present, _⟩ := Source.served_memory rest.served found
    have brought := Source.queueAt_pullAt pulled present
    have later := ih found
    rw [Source.queueAt_eq present] at later
    rw [brought, ← later, entries_after, Pull.entry?_of_no_delivery empty,
      Answer.buffer?_of_no_delivery empty, Option.toList_none, Option.toList_none, ite_self]
    rfl
  | @blocked _ _ _ _ _ source answer _ _ pulled empty =>
    have brought := Source.queueAt_pullAt pulled found
    rw [brought, Answer.buffer?_of_no_delivery empty, Option.toList_none, ite_self, entries,
      List.filterMap_cons, Pull.entry?_of_no_delivery empty]
    rfl

namespace View

/-- What the view has still to deliver from a source. -/
def ahead (view : View) (sources : List Source) (entry : Registration) : List Buffer :=
  Entry.buffersFrom entry.id view.queue.entries ++ queueAt sources entry.source

/-- How many buffers the view has still to deliver. -/
def remaining (view : View) (sources : List Source) : Nat :=
  (view.registry.entries.flatMap (view.ahead sources)).length

variable {view : View} {ref : ViewRef} {sources : List Source} {entry : Registration}

theorem ahead_refill (sound : view.Sound) (attached : view.Attached ref sources)
    (registered : entry ∈ view.registry.entries) :
    (view.refill sources).view.ahead (view.refill sources).sources entry =
      view.ahead sources entry := by
  cases released : view.released with
  | true => rw [refill_of_released released]
  | false =>
    obtain ⟨pass, course, filled⟩ := refill_of_unreleased released sources
    rw [filled]
    obtain ⟨after, found, _⟩ := (attached.serve course.served).memory registered
    have brought := course.buffersFrom_entries sound.distinctIds sound.distinctSources registered
      found
    simp only [ahead, queue_absorb, Lookahead.entries_append, Entry.buffersFrom_append]
    rw [← brought, Source.queueAt_eq found, List.append_assoc]

/-- A delivery is taken from the front of what remains of its source. -/
theorem ahead_next (sound : view.Sound) (attached : view.Attached ref sources)
    (registered : entry ∈ view.registry.entries) :
    Entry.buffersFrom entry.id (view.next sources).value.toList ++
        (view.next sources).view.ahead (view.next sources).sources entry =
      view.ahead sources entry := by
  have first := ahead_refill sound attached registered
  rcases view.next_cases sources with ⟨_, result⟩ | ⟨taken, queue, popped, second, made, result⟩
  · rw [result]
    exact first
  · have there := (Lookahead.pop?_eq_some_iff.mp popped).1
    have listed : entry ∈ (view.refill sources).view.registry.entries := by
      rw [registry_refill]
      exact registered
    have kept : Attached { (view.refill sources).view with queue } ref
        (view.refill sources).sources := by
      intro other mem
      have served := Effect.served fun place => view.refill_touches sources place
      apply attached.serve served other
      rw [← registry_refill view sources]
      exact mem
    have again := ahead_refill ((sound.refill sources).pop popped) kept listed
    rw [← made] at again
    rw [result]
    calc Entry.buffersFrom entry.id [second.view.publish.stamp taken] ++
          second.view.ahead second.sources entry
      _ = Entry.buffersFrom entry.id [taken] ++ (Entry.buffersFrom entry.id queue.entries ++
            queueAt (view.refill sources).sources entry.source) := by
        rw [again, Entry.buffersFrom_eq, Entry.buffersFrom_eq entry.id [taken]]
        rfl
      _ = Entry.buffersFrom entry.id ([taken] ++ queue.entries) ++
            queueAt (view.refill sources).sources entry.source := by
        rw [Entry.buffersFrom_append, List.append_assoc]
      _ = (view.refill sources).view.ahead (view.refill sources).sources entry := by
        rw [ahead, there]
        rfl
      _ = view.ahead sources entry := first

theorem Filed.source_mem_of_next {given : Entry} (filed : view.Filed none [])
    (delivered : (view.next sources).value = some given) : given.source ∈ view.registry.ids := by
  have after := filed_invariant.next filed sources
  rw [← registry_next view sources]
  refine after given (List.mem_append_left _ ?_)
  rw [List.nil_append, deliveries_next, delivered]
  exact List.mem_singleton_self given

theorem remaining_next_le (sound : view.Sound) (attached : view.Attached ref sources) :
    (view.next sources).view.remaining (view.next sources).sources ≤ view.remaining sources := by
  rw [remaining, remaining, registry_next, List.length_flatMap, List.length_flatMap]
  apply List.sum_le_sum
  intro entry registered
  rw [← ahead_next sound attached registered, List.length_append]
  exact Nat.le_add_left _ _

/-- After a delivery less remains. -/
theorem remaining_next_lt {given : Entry} (sound : view.Sound) (attached : view.Attached ref sources)
    (filed : view.Filed none []) (delivered : (view.next sources).value = some given) :
    (view.next sources).view.remaining (view.next sources).sources < view.remaining sources := by
  obtain ⟨entry, registered, same⟩ := List.mem_map.mp (filed.source_mem_of_next delivered)
  rw [remaining, remaining, registry_next, List.length_flatMap, List.length_flatMap]
  refine List.sum_lt_sum _ _ (fun other registered => ?_) ⟨entry, registered, ?_⟩
  · rw [← ahead_next sound attached registered, List.length_append]
    exact Nat.le_add_left _ _
  · rw [← ahead_next sound attached registered, List.length_append, delivered]
    simp [Entry.buffersFrom, same]

end View

end FairMerge
