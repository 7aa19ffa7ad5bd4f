import FairMerge.Proofs.Conservation
import FairMerge.Proofs.TransientFaults

/-! # The kind that is announced

A delivery announces the kind of the buffer after it, so that a consumer who is told that there is
none need not ask again before the next signal. The place that the delivery frees is filled first,
and so nothing is left if nothing is announced, except in a source that failed in that very refill:
it is asked again by the next request only, and a push to it rings nobody. -/

namespace FairMerge

open Activity (deliveries gathered)
open Producer (Becomes Serves)
open Source (queueAt)

/-! ### What a source was supplied with -/

namespace Source

open MemorySource

/-- What a memory source gave by serving, and what it still has, it had before. -/
theorem supplied_of_serves {source : MemorySource} {answers : List Answer} {state : Source}
    (serves : Serves (memory source) answers state) :
    ∃ later, state = memory later ∧
      ∀ buffer ∈ answers.filterMap Answer.buffer? ++ later.queue, buffer ∈ source.queue := by
  induction serves with
  | refl => exact ⟨source, rfl, fun buffer mem => mem⟩
  | pull _ ih =>
    obtain ⟨before, rfl, had⟩ := ih
    refine ⟨before.pull.2, rfl, fun buffer mem => had buffer ?_⟩
    rcases before.pull_cases with ⟨_, result⟩ | ⟨_, _, _, _, result⟩ | ⟨_, _, _, result⟩ |
      ⟨_, _, given, queue, _, queued, result⟩
    all_goals simp only [pull_memory, result] at mem
    · simpa using mem
    · simpa using mem
    · simpa using mem
    · rw [queued]
      simpa using mem
  | release _ ih =>
    obtain ⟨before, rfl, had⟩ := ih
    refine ⟨before.release.2, rfl, fun buffer mem => had buffer ?_⟩
    rcases List.mem_append.mp mem with given | waiting
    · exact List.mem_append_left _ given
    · cases waiting
  | requireSegment id segment _ ih =>
    obtain ⟨before, rfl, had⟩ := ih
    exact ⟨_, rfl, had⟩
  | resize size _ ih =>
    obtain ⟨before, rfl, had⟩ := ih
    exact ⟨_, rfl, had⟩

/-- What a memory source ever gave, and what it has, it had at first or was pushed to it. -/
theorem supplied_of_becomes {issued : Notifier → Prop} {start state : Source}
    {answers : List Answer} {actions : List Action} {later : MemorySource}
    (became : Becomes issued start answers actions state) (same : state = memory later) :
    ∃ source, start = memory source ∧
      ∀ buffer ∈ answers.filterMap Answer.buffer? ++ later.queue,
        buffer ∈ source.queue ++ actions.flatMap Action.pushed := by
  induction became generalizing later with
  | refl => exact ⟨later, same, fun buffer mem => List.mem_append_left _ mem⟩
  | @serve answers given actions state _ _ served ih =>
    subst same
    cases state with
    | script before =>
      obtain ⟨_, other⟩ := serves_script served
      cases other
    | memory before =>
      obtain ⟨_, same, had⟩ := supplied_of_serves served
      cases same
      obtain ⟨source, rfl, supplied⟩ := ih rfl
      refine ⟨source, rfl, fun buffer mem => supplied buffer ?_⟩
      rw [List.filterMap_append, List.append_assoc] at mem
      rcases List.mem_append.mp mem with old | new
      · exact List.mem_append_left _ old
      · exact List.mem_append_right _ (had buffer new)
  | @act answers actions state action _ ih =>
    obtain ⟨before, rfl, undergone⟩ := act_of_memory same
    obtain ⟨source, rfl, supplied⟩ := ih rfl
    refine ⟨source, rfl, fun buffer mem => ?_⟩
    have parts : buffer ∈ answers.filterMap Answer.buffer? ++ before.queue ∨
        buffer ∈ action.pushed := by
      rw [undergone.queue] at mem
      simp only [List.mem_append] at mem ⊢
      split at mem
      · exact .inl mem
      · rcases mem with given | mem
        · exact .inl (.inl given)
        · exact (List.mem_append.mp mem).imp_left .inr
    rw [List.flatMap_append, ← List.append_assoc]
    rcases parts with old | new
    · exact List.mem_append_left _ (supplied buffer old)
    · refine List.mem_append_right _ ?_
      rwa [List.flatMap_singleton]
  | attach _ _ ih =>
    obtain ⟨before, rfl, rfl, _⟩ := attach_of_memory same
    have supplied := @ih before rfl
    exact supplied

end Source

namespace Session

/-- What the source at a place had at the start, and what was pushed to it since. -/
def supplied (sources : List Source) (past : List (Record Source Source.Action))
    (place : SourceRef) : List Buffer :=
  queueAt sources place ++ (Record.actions place past).flatMap Source.Action.pushed

/-- What a view has still to deliver from a memory source is among what the source was supplied
with. -/
theorem supplied_of_ahead (sources : List Source) (views : List (Config × Listener))
    (reactions : List (List (List (Command Nat Source.Action))))
    (commands : List (Command Nat Source.Action)) (n : Nat) {ref : ViewRef} {view : View}
    {entry : Registration} {memory : MemorySource} :
    let session := start sources views reactions
    let past := (session.play commands).take n
    let reached := session.reachedBy past
    reached.view? ref = some view → entry ∈ view.registry.entries →
      reached.sources[entry.source]? = some (.memory memory) →
        ∀ buffer ∈ view.ahead reached.sources entry,
          buffer ∈ supplied sources past entry.source := by
  intro session past reached found registered present
  obtain ⟨sound, balanced⟩ := holds_of_view View.balanced_invariant
    (fun _ _ built => View.balanced_of_config built) sources views reactions commands n found
  have named := holds_of_view View.named_invariant
    (fun config view _ pull mem => by cases mem) sources views reactions commands n found
  obtain ⟨state, before, became⟩ :=
    (session.becomesAt commands n entry.source).of_later present
  obtain ⟨source, rfl, among⟩ := Source.supplied_of_becomes became rfl
  have first : queueAt sources entry.source = source.queue := Source.queueAt_eq before
  obtain ⟨dropped, _, balance⟩ := balanced.from_source entry.id
  intro buffer mem
  rw [supplied, first]
  apply among
  rw [View.ahead, Source.queueAt_eq present] at mem
  rcases List.mem_append.mp mem with waiting | queued
  · -- what waits in the view is part of what the source answered to it
    have brought : buffer ∈ Entry.buffersFrom entry.id (gathered (Record.activities ref past)) := by
      rw [← balance]
      exact List.mem_append_left _ (List.mem_append_right _ waiting)
    rw [View.buffersFrom_gathered sound named registered, Record.activities,
      ← Event.share_servings] at brought
    refine List.mem_append_left _ ?_
    rw [← Event.map_snd_servings]
    exact (List.filter_sublist.map Prod.snd).subset brought
  · exact List.mem_append_right _ queued

end Session

/-! ### The refill after a buffer was taken -/

namespace View

variable {view : View} {ref : ViewRef} {calm : SourceRef → Prop} {sources : List Source}

/-- If no kind is announced, nothing waits any more, as long as no buffer to be delivered is of that
kind. -/
theorem queue_of_next_kind_none {given : Entry} (informed : view.Informed ref calm none sources)
    (attached : view.Attached ref sources) (filed : view.Filed none [])
    (kinds : ∀ entry ∈ view.registry.entries, ∀ buffer ∈ view.ahead sources entry,
      buffer.kind ≠ .none)
    (delivered : (view.next sources).value = some given) (last : given.delivery.nextKind = .none) :
    (view.next sources).view.queue.entries = [] := by
  have headless : (view.next sources).view.queue.headKind = .none := by
    rcases view.next_cases sources with ⟨_, result⟩ | ⟨entry, queue, _, second, _, result⟩
    · rw [result] at delivered
      cases delivered
    · rw [result] at delivered ⊢
      cases delivered
      exact last
  cases waiting : (view.next sources).view.queue.entries with
  | nil => rfl
  | cons head rest =>
    rw [Lookahead.headKind, waiting] at headless
    have known : head.source ∈ view.registry.ids := by
      rw [← registry_next view sources]
      refine filed_invariant.next filed sources head (List.mem_append_right _ ?_)
      rw [waiting]
      exact List.mem_cons_self
    obtain ⟨entry, registered, same⟩ := List.mem_map.mp known
    have ahead := ahead_next informed.sound attached registered
    have mem : head.delivery.buffer ∈ view.ahead sources entry := by
      rw [← ahead, View.ahead, waiting]
      refine List.mem_append_right _ (List.mem_append_left _ ?_)
      simp [Entry.buffersFrom, same]
    exact absurd headless (kinds entry registered _ mem)

/-- If a pass had room, brought nothing, and ended with no record open, then whatever a registered
source still has it has because it failed in the pass. -/
theorem Informed.failed_of_full {pass : Pass Source} (informed : view.Informed ref calm none sources)
    (open' : view.released = false) (attached : view.Attached ref sources)
    (course : Pass.Course view.registry view.queue.room view.rotation sources pass)
    (empty : (view.absorb pass).queue.entries = [])
    (free : (view.absorb pass).rotation.holder = none)
    {entry : Registration} (registered : entry ∈ view.registry.entries)
    (full : queueAt pass.sources entry.source ≠ []) :
    Source.armedAt sources entry.source = true ∧
      (∃ cause, ⟨entry.id, entry.source, .failed cause⟩ ∈ pass.pulls) ∧
      (view.absorb pass).rotation.isReady entry.id = true := by
  have loaded := (attached.serve course.served).loaded registered full
  have ready := informed.ready open' entry registered (loaded.of_served course.served)
    (Option.some_ne_none _).symm
  rw [queue_absorb, Lookahead.entries_append, List.append_eq_nil_iff] at empty
  rw [holder_absorb] at free
  have dry : ∃ pull ∈ pass.pulls, pull.id = entry.id ∧ pull.entry? = none := by
    obtain ⟨room, large⟩ := informed.sound.room_of_empty empty.1
    have course' := course
    rw [large] at course'
    rcases course'.halts informed.sound.cycle informed.sound.holder empty.2 with
      ⟨unchosen, _⟩ | ⟨id, _, _, holds, _, _, _, same, _⟩
    · rcases course.ready_or_dry ready with still | dry
      · rw [(Rotation.choice_eq_none_iff.mp unchosen).2] at still
        cases still
      · exact dry
    · rw [same, Rotation.holder_settle_dry, Rotation.holder_select, holds] at free
      cases free
  obtain ⟨⟨id, source, answer⟩, mem, rfl, dry⟩ := dry
  obtain ⟨⟨cause, rfl⟩, _⟩ := informed.failed_of_loaded course registered loaded mem rfl dry
  obtain rfl : source = entry.source := by
    have found := course.registered _ mem
    rw [Registry.source?_of_mem informed.sound.distinctIds registered] at found
    exact (Option.some.inj found).symm
  obtain ⟨memory, present, _⟩ := loaded
  obtain ⟨_, before, original, armed⟩ :=
    (course.explains informed.tame _ mem memory present).2 cause rfl
  have fault : (⟨entry.id, cause⟩ : Fault) ∈ pass.faults := List.mem_filterMap.mpr ⟨_, mem, rfl⟩
  refine ⟨(Source.armedAt_iff original).mpr armed, ⟨cause, mem⟩, ?_⟩
  apply isReady_absorb_of_fault fault
  rw [course.ids_eq, informed.sound.cycle]
  exact List.mem_map_of_mem registered

/-- If a request leaves nothing waiting and no record open, then whatever a registered source still
has it has because it failed meanwhile, and it is ready to be asked again. -/
theorem Informed.next_leaves {given : Entry} (informed : view.Informed ref calm none sources)
    (open' : view.released = false) (attached : view.Attached ref sources)
    (delivered : (view.next sources).value = some given)
    (empty : (view.next sources).view.queue.entries = [])
    (free : (view.next sources).view.rotation.holder = none) {entry : Registration}
    (registered : entry ∈ view.registry.entries)
    (full : queueAt (view.next sources).sources entry.source ≠ []) :
    Source.armedAt sources entry.source = true ∧
      (∃ cause, .pulled ⟨entry.id, entry.source, .failed cause⟩ ∈ (view.next sources).journal) ∧
      (view.next sources).view.rotation.isReady entry.id = true := by
  have first := informed.refill
  have served := Effect.served fun place => view.refill_touches sources place
  have same := view.registry_refill sources
  rcases view.next_cases sources with ⟨_, result⟩ | ⟨head, queue, popped, second, made, result⟩
  · rw [result] at delivered
    cases delivered
  · have taken : Informed { (view.refill sources).view with queue } ref calm none
        (view.refill sources).sources :=
      { first.toInformed with sound := first.sound.pop popped }
    have kept : Attached { (view.refill sources).view with queue } ref
        (view.refill sources).sources := by
      intro other mem
      apply attached.serve served other
      rw [← same]
      exact mem
    have unreleased : View.released { (view.refill sources).view with queue } = false :=
      (view.released_refill sources).trans open'
    obtain ⟨pass, course, filled⟩ := refill_of_unreleased unreleased (view.refill sources).sources
    rw [← made] at filled
    rw [result, filled] at empty free full ⊢
    obtain ⟨armed, ⟨cause, mem⟩, ready⟩ := taken.failed_of_full unreleased kept course empty free
      (same ▸ registered) full
    refine ⟨Source.armedAt_of_served served armed, ⟨cause, ?_⟩, ready⟩
    exact List.mem_append_left _ (List.mem_append_right _ (List.mem_map_of_mem mem))

end View

/-- Suppose that a view is not released, that its sources are memory sources which announce
themselves through the notifiers of their registrations, and that these were only ever supplied with
data and events. Whatever happened before: if a delivery announces that there is no next buffer, and
leaves no record open, then a source still has something only if a failure was armed for it that the
view met during the delivery. The view counts it as ready then, so that the next request asks it. -/
theorem none_announced {sources : List Source} (fresh : Session.Fresh sources)
    (views : List (Config × Listener)) (reactions : List (List (List (Command Nat Source.Action))))
    (commands : List (Command Nat Source.Action)) (n : Nat) (ref : ViewRef) (view later : View)
    (given : Delivery) :
    let session := Session.start sources views reactions
    let past := (session.play commands).take n
    let reached := session.reachedBy past
    let step := reached.askOnce ref
    reached.view? ref = some view → view.released = false → view.Attached ref reached.sources →
      (∀ entry ∈ view.registry.entries, ∀ buffer ∈ Session.supplied sources past entry.source,
        buffer.kind ≠ .none) →
      step.reply = .delivery (some given) → given.nextKind = .none →
      step.network.view? ref = some later → later.rotation.holder = none →
        ∀ entry ∈ view.registry.entries,
          queueAt step.network.sources entry.source = [] ∨
            Source.armedAt reached.sources entry.source = true ∧
              (∃ cause, .view ref (.pulled ⟨entry.id, entry.source, .failed cause⟩) ∈ step.events) ∧
              later.rotation.isReady entry.id = true := by
  intro session past reached step found unreleased attached kinds replied last there free entry
    registered
  have serving := Session.serving_play fresh views reactions commands n found unreleased attached
  obtain rfl : (view.next reached.sources).view = later :=
    Option.some.inj (serving.next.found.symm.trans there)
  have answered : step = reached.commit ref (view.next reached.sources) fun entry =>
      .delivery (entry.map Entry.delivery) := Network.askOnce_eq found
  obtain ⟨delivered, taken, rfl⟩ :
      ∃ delivered, (view.next reached.sources).value = some delivered ∧
        delivered.delivery = given := by
    rw [answered] at replied
    exact Option.map_eq_some_iff.mp (Reply.delivery.inj replied)
  have ahead : ∀ entry ∈ view.registry.entries, ∀ buffer ∈ view.ahead reached.sources entry,
      buffer.kind ≠ .none := by
    intro entry registered buffer mem
    obtain ⟨memory, present, _⟩ := attached.memory registered
    exact kinds entry registered buffer (Session.supplied_of_ahead sources views reactions commands n
      found registered present buffer mem)
  have empty := View.queue_of_next_kind_none serving.informed attached serving.filed ahead taken last
  by_cases full : queueAt step.network.sources entry.source = []
  · exact .inl full
  · rw [answered] at full ⊢
    obtain ⟨armed, ⟨cause, mem⟩, ready⟩ := serving.informed.next_leaves unreleased attached taken
      empty free registered full
    exact .inr ⟨armed, ⟨cause, List.mem_map_of_mem mem⟩, ready⟩

namespace Withheld

/-- The source has two buffers, and the first of them is pulled when it is registered. -/
def sources : List Source := [.memory (.ofBuffers ⟨5⟩ [.data [1], .data [2]])]

def session : Session Source Source.Action := .start sources [(⟨1⟩, .ofCallback)] []

def commands : List (Command Nat Source.Action) :=
  [.add 0 0, .act 0 (.memory (.failPull "lost"))]

def past : List (Record Source Source.Action) := (session.play commands).take 2

def reached : Network Source := session.reachedBy past

def step : Step Source := reached.askOnce 0

/-- The view has delivered nothing so far, and its source can be asked. -/
theorem asked : ∃ view, reached.view? 0 = some view ∧ view.released = false ∧
    view.Attached 0 reached.sources ∧ view.registry.entries = [⟨⟨5⟩, 0⟩] ∧
    ∀ entry ∈ view.registry.entries, ∀ buffer ∈ Session.supplied sources past entry.source,
      buffer.kind ≠ .none := by
  have there : (reached.view? 0).any (fun view => decide (view.released = false ∧
      view.Attached 0 reached.sources ∧ view.registry.entries = [⟨⟨5⟩, 0⟩] ∧
      ∀ entry ∈ view.registry.entries, ∀ buffer ∈ Session.supplied sources past entry.source,
        buffer.kind ≠ .none)) = true := by
    decide +kernel
  obtain ⟨view, found, known⟩ := (Option.any_eq_true _ _).mp there
  exact ⟨view, found, of_decide_eq_true known⟩

/-- The delivery of the first buffer announces that there is no other, and no record is open. -/
theorem ended : step.reply = .delivery (some ⟨.data [1], 0, .none, 0⟩) ∧
    ∃ later, step.network.view? 0 = some later ∧ later.rotation.holder = none := by
  have there : (step.network.view? 0).any (fun later =>
      decide (later.rotation.holder = none)) = true := by
    decide +kernel
  obtain ⟨later, found, free⟩ := (Option.any_eq_true _ _).mp there
  exact ⟨by decide +kernel, later, found, of_decide_eq_true free⟩

end Withheld

open Withheld in
/-- The first delivery meets the failure of the source when it refills, and so the second buffer is
left although none is announced. -/
theorem none_announced_failing :
    ∃ later, step.network.view? 0 = some later ∧ Source.armedAt reached.sources 0 = true ∧
      (∃ cause, .view 0 (.pulled ⟨⟨5⟩, 0, .failed cause⟩) ∈ step.events) ∧
      later.rotation.isReady ⟨5⟩ = true := by
  obtain ⟨view, found, unreleased, attached, entries, kinds⟩ := asked
  obtain ⟨replied, later, there, free⟩ := ended
  have fresh := Session.fresh_map [(⟨5⟩, [.data [1], .data [2]])]
  have left : queueAt step.network.sources 0 ≠ [] := by
    decide +kernel
  rcases none_announced fresh [(⟨1⟩, .ofCallback)] [] commands 2 0 view later _ found unreleased
    attached kinds replied rfl there free ⟨⟨5⟩, 0⟩ (entries ▸ List.mem_singleton_self _) with
    empty | met
  · exact absurd empty left
  · exact ⟨later, there, met⟩

open Withheld in
/-- A consumer who waits for the next signal then waits in vain: the second buffer is still queued,
and for that reason a push after it rings nobody. -/
theorem second_buffer_withheld :
    ∃ view later, reached.view? 0 = some view ∧ view.released = false ∧
      view.Attached 0 reached.sources ∧ view.registry.entries = [⟨⟨5⟩, 0⟩] ∧
      (∀ entry ∈ view.registry.entries, ∀ buffer ∈ Session.supplied sources past entry.source,
        buffer.kind ≠ .none) ∧
      step.reply = .delivery (some ⟨.data [1], 0, .none, 0⟩) ∧
      step.network.view? 0 = some later ∧ later.rotation.holder = none ∧
      queueAt step.network.sources 0 = [.data [2]] ∧
      (step.network.exec (.act 0 (.memory (.push (.data [3]))) :
        Command Notifier Source.Action)).events = [] := by
  obtain ⟨view, found, unreleased, attached, entries, kinds⟩ := asked
  obtain ⟨replied, later, there, free⟩ := ended
  exact ⟨view, later, found, unreleased, attached, entries, kinds, replied, there, free,
    by decide +kernel, by decide +kernel⟩

end FairMerge
