import FairMerge.Proofs.MemoryQueue
import FairMerge.Proofs.Returns

/-! # Nothing is lost, repeated, reordered or altered

Two equations between sequences hold at every point of a session. For a view and one of its sources,
what the view delivered followed by what waits in it is what the source gave to the view. For a
queue-backed source, what it gave to all who pulled it followed by its queue is what it started
with followed by what was pushed. -/

namespace FairMerge

open Activity (deliveries gathered)

/-! ### Whom a source served -/

namespace Event

/-- Whom the source at a place served with which buffer: a view, or somebody past every view. -/
def serving? (place : SourceRef) (event : Event) : Option (Option ViewRef × Buffer) :=
  match event with
  | view ref activity => ((activity.answer? place).bind Answer.buffer?).map (some ref, ·)
  | drawn source answer => if source = place then answer.buffer?.map (none, ·) else none
  | signalled _ => none

/-- The servings of the source at a place, in order. -/
def servings (place : SourceRef) (events : List Event) : List (Option ViewRef × Buffer) :=
  events.filterMap (serving? place)

/-- The part of the servings that one puller got. -/
def share (puller : Option ViewRef) (servings : List (Option ViewRef × Buffer)) : List Buffer :=
  (servings.filter fun serving => serving.1 = puller).map Prod.snd

/-- The servings are the answers that have a buffer. -/
theorem map_snd_servings (place : SourceRef) (events : List Event) :
    (servings place events).map Prod.snd = (answers place events).filterMap Answer.buffer? := by
  rw [servings, answers, List.map_filterMap, List.filterMap_filterMap]
  congr 1
  funext event
  cases event with
  | view ref activity => cases h : (activity.answer? place).bind Answer.buffer? <;>
      simp [serving?, answer?, h]
  | signalled ref => rfl
  | drawn source answer =>
    by_cases same : source = place <;> cases buffer : answer.buffer? <;>
      simp [serving?, answer?, same, buffer]

/-- A view's share is what it was answered. -/
theorem share_servings (place : SourceRef) (ref : ViewRef) (events : List Event) :
    share (some ref) (servings place events) =
      ((activities ref events).filterMap (Activity.answer? place)).filterMap Answer.buffer? := by
  induction events with
  | nil => rfl
  | cons event events ih =>
    rw [← List.singleton_append, activities_append, List.filterMap_append, List.filterMap_append,
      ← ih]
    rw [servings, List.filterMap_append, share, List.filter_append, List.map_append]
    congr 1
    cases event with
    | view other activity =>
      by_cases same : other = ref <;>
        cases buffer : (activity.answer? place).bind Answer.buffer? <;>
        cases answered : activity.answer? place <;>
        simp_all [serving?, activities, activity?]
    | signalled other => rfl
    | drawn source answer =>
      by_cases same : source = place <;> cases buffer : answer.buffer? <;>
        simp [serving?, activities, activity?, same, buffer]

end Event

/-- What a view gathered under an identifier is what the source registered under it answered. -/
theorem View.buffersFrom_gathered {view : View} {log : List Activity} (sound : view.Sound)
    (named : view.Named log) {entry : Registration} (registered : entry ∈ view.registry.entries) :
    Entry.buffersFrom entry.id (gathered log) =
      (log.filterMap (Activity.answer? entry.source)).filterMap Answer.buffer? := by
  induction log with
  | nil => rfl
  | cons activity log ih =>
    have rest := ih fun pull mem => named pull (by
      rw [← List.singleton_append, Activity.pulls_append]
      exact List.mem_append_right _ mem)
    rw [← List.singleton_append, Activity.gathered_append, Entry.buffersFrom_append, rest,
      List.filterMap_append, List.filterMap_append]
    congr 1
    cases activity with
    | delivered | released => rfl
    | pulled pull =>
      have listed := named pull (List.mem_cons_self ..)
      have same : pull.id = entry.id ↔ pull.source = entry.source :=
        Registry.id_eq_iff_source_eq sound.distinctIds sound.distinctSources listed registered
      obtain ⟨id, source, answer⟩ := pull
      by_cases here : source = entry.source
      · obtain rfl : id = entry.id := same.mpr here
        subst here
        cases answer <;>
          simp [Activity.gathered, Activity.pulls, Activity.pull?, Entry.buffersFrom,
            Activity.answer?, Pull.answer?, List.filterMap_cons]
      · have other : id ≠ entry.id := fun equal => here (same.mp equal)
        cases answer <;>
          simp [Activity.gathered, Activity.pulls, Activity.pull?, Entry.buffersFrom,
            Activity.answer?, Pull.answer?, List.filterMap_cons, here, other]

/-! ### Reading the ledger source by source -/

namespace View

variable {view : View} {log : List Activity}

/-- The ledger of one source. -/
theorem Balanced.from_source (balanced : view.Balanced none log) (id : SourceId) :
    ∃ dropped, (view.released = false → dropped = []) ∧
      Entry.buffersFrom id (deliveries log) ++ Entry.buffersFrom id view.queue.entries ++ dropped =
        Entry.buffersFrom id (gathered log) := by
  obtain ⟨dropped, kept, balance⟩ := balanced
  refine ⟨(dropped.filter fun pair => pair.1 = id).map Prod.snd, ?_, ?_⟩
  · intro open'
    rw [kept open']
    rfl
  · rw [Entry.buffersFrom_eq id (gathered log), ← balance]
    simp [Entry.buffersFrom_eq]

end View

/-- At every point of a session, a view that is not released has delivered, from each source and in
order, exactly what the source answered to it less what still waits; what it has delivered after
release is a prefix of that. A queue-backed source that is not released has served, to all who
pulled it together, exactly what it was made with and what was pushed less what is still queued. -/
theorem stream_conserved :
    (∀ {σ α : Type} [Producer σ α] (sources : List σ) (views : List (Config × Listener))
        (reactions : List (List (List (Command Nat α)))) (commands : List (Command Nat α)) (n : Nat)
        (ref : ViewRef) (view : View),
      let session := Session.start sources views reactions
      let past := (session.play commands).take n
      let delivered := deliveries (Record.activities ref past)
      (session.reachedBy past).view? ref = some view →
        Record.returned ref past = delivered.map Entry.delivery ∧
        (∀ entry ∈ delivered ++ view.queue.entries, entry.source ∈ view.registry.ids) ∧
        ∀ entry ∈ view.registry.entries,
          let share := Event.share (some ref) (Event.servings entry.source (Record.events past))
          if view.released then Entry.buffersFrom entry.id delivered <+: share
          else Entry.buffersFrom entry.id delivered ++
            Entry.buffersFrom entry.id view.queue.entries = share) ∧
    ∀ (sources : List Source) (views : List (Config × Listener))
        (reactions : List (List (List (Command Nat Source.Action))))
        (commands : List (Command Nat Source.Action)) (n : Nat) (place : SourceRef) (id : SourceId)
        (built : List Buffer),
      let session := Session.start sources views reactions
      let past := (session.play commands).take n
      sources[place]? = some (.memory (.ofBuffers id built)) →
        ∃ memory, (session.reachedBy past).sources[place]? = some (.memory memory) ∧
          (memory.released = false →
            (Event.servings place (Record.events past)).map Prod.snd ++ memory.queue =
              built ++ (Record.actions place past).flatMap Source.Action.pushed) := by
  constructor
  · intro σ α _ sources views reactions commands n ref view session past delivered found
    obtain ⟨sound, balanced⟩ := Session.holds_of_view View.balanced_invariant
      (fun _ _ built => View.balanced_of_config built) sources views reactions commands n found
    have named := Session.holds_of_view View.named_invariant
      (fun config view _ pull mem => by cases mem) sources views reactions commands n found
    have filed := Session.holds_of_view View.filed_invariant
      (fun _ _ built => View.filed_of_config built) sources views reactions commands n found
    refine ⟨Session.returned_eq session commands n ref, filed, ?_⟩
    intro entry registered share
    obtain ⟨dropped, kept, balance⟩ := balanced.from_source entry.id
    have shared : share = Entry.buffersFrom entry.id (gathered (Record.activities ref past)) := by
      rw [View.buffersFrom_gathered sound named registered]
      exact Event.share_servings entry.source ref (Record.events past)
    rw [shared, ← balance]
    cases released : view.released with
    | true =>
      rw [if_pos rfl, List.append_assoc]
      exact List.prefix_append _ _
    | false =>
      rw [if_neg Bool.false_ne_true, kept released, List.append_nil]
  · intro sources views reactions commands n place id built session past present
    obtain ⟨state, reached, became⟩ :=
      (Session.becomesAt session commands n place).of_earlier present
    obtain ⟨memory, rfl, kept⟩ := Source.becomes_memory became
    refine ⟨memory, reached, fun open' => ?_⟩
    rw [Event.map_snd_servings, (kept open').2, MemorySource.queue_ofBuffers]

namespace Shared

/-- A queue-backed source and one that fails first. -/
def sources : List Source := [
  .memory (.ofBuffers ⟨7⟩ [.data [1], .fragment [2]]),
  .script (.ofAnswers [.failed (.pull ⟨9⟩ "lost"), .delivery ⟨.event [5], 0, .none, 0⟩] none none)]

/-- The callback of the first view pushes to the source that the second view shares. -/
def session : Session Source Source.Action :=
  .start sources [(⟨1⟩, .ofCallback), (⟨2⟩, .ofCallback)]
    [[[.act 0 (.memory (.push (.data [3]))), .act 0 (.memory (.push (.event [4])))]], []]

def commands : List (Command Nat Source.Action) := [
  .add 0 0, .register 0 1 ⟨9⟩, .announce 0 1, .register 1 0 ⟨4⟩, .request 0 .next, .announce 1 0,
  .request 0 .next, .pull 0, .request 1 .next, .act 0 (.memory (.pushAll [.data [6], .data [8]]))]

/-- What was played up to the end, the two pushes of the callback included. -/
def past : List (Record Source Source.Action) := (session.play commands).take 12

end Shared

open Shared in
/-- The first view was served `[1]`, `[2]` and `[6]`, which still waits in it. -/
theorem stream_conserved_shared :
    (∃ view, (session.reachedBy past).view? 0 = some view ∧ view.released = false ∧
      ⟨⟨7⟩, 0⟩ ∈ view.registry.entries ∧
      Entry.buffersFrom ⟨7⟩ (deliveries (Record.activities 0 past)) ++
          Entry.buffersFrom ⟨7⟩ view.queue.entries =
        Event.share (some 0) (Event.servings 0 (Record.events past)) ∧
      Event.share (some 0) (Event.servings 0 (Record.events past)) =
        [.data [1], .fragment [2], .data [6]]) ∧
    ∃ memory, (session.reachedBy past).sources[0]? = some (.memory memory) ∧
      memory.released = false ∧
      (Event.servings 0 (Record.events past)).map Prod.snd ++ memory.queue =
        [.data [1], .fragment [2]] ++ (Record.actions 0 past).flatMap Source.Action.pushed := by
  constructor
  · have there : ((session.reachedBy past).view? 0).any (fun view =>
        !view.released && view.registry.entries.contains ⟨⟨7⟩, 0⟩) = true := by
      decide +kernel
    obtain ⟨view, found, open'⟩ := (Option.any_eq_true _ _).mp there
    simp only [Bool.and_eq_true, Bool.not_eq_true', List.contains_iff_mem] at open'
    have conserved := (stream_conserved.1 sources _ _ commands 12 0 view found).2.2 _ open'.2
    rw [if_neg (by simp [open'.1])] at conserved
    exact ⟨view, found, open'.1, open'.2, conserved, by decide +kernel⟩
  · obtain ⟨memory, found, conserved⟩ := stream_conserved.2 sources
      [(⟨1⟩, .ofCallback), (⟨2⟩, .ofCallback)]
      [[[.act 0 (.memory (.push (.data [3]))), .act 0 (.memory (.push (.event [4])))]], []]
      commands 12 0 ⟨7⟩ [.data [1], .fragment [2]] rfl
    have present : Source.memoryAt (session.reachedBy past).sources 0 = some memory :=
      Source.memoryAt_eq_some_iff.mpr found
    have unreleased : (Source.memoryAt (session.reachedBy past).sources 0).any (fun memory =>
        !memory.released) = true := by
      decide +kernel
    rw [present, Option.any_some, Bool.not_eq_true'] at unreleased
    exact ⟨memory, found, unreleased, conserved unreleased⟩

end FairMerge
