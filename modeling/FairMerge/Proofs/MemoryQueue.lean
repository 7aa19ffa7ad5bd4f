import FairMerge.Proofs.SourceHistory
import FairMerge.Source

/-! # The queue of a memory source

What the operations of a queue-backed source do to its queue, and what follows for the queue over
the source's history. -/

namespace FairMerge

open Producer (Serves Becomes BecomesAt)

/-- The buffer in an answer. -/
def Answer.buffer? : Answer → Option Buffer
  | delivery given => some given.buffer
  | _ => none

@[simp] theorem Answer.buffer?_delivery (given : Delivery) :
    (delivery given).buffer? = some given.buffer := rfl

@[simp] theorem Answer.buffer?_nothing : nothing.buffer? = none := rfl

@[simp] theorem Answer.buffer?_failed (cause : Error) : (failed cause).buffer? = none := rfl

theorem Answer.buffer?_of_no_delivery {answer : Answer}
    (empty : ∀ given, answer ≠ .delivery given) : answer.buffer? = none := by
  cases answer with
  | delivery given => exact absurd rfl (empty given)
  | nothing | failed => rfl

namespace MemorySource

/-- Queueing buffers one by one is appending them. -/
theorem enqueueAll_eq (source : MemorySource) (buffers : List Buffer) :
    source.enqueueAll buffers =
      { source with
        queue := source.queue ++ buffers
        dataCount := source.dataCount + buffers.countP Buffer.isData } := by
  unfold enqueueAll
  induction buffers generalizing source with
  | nil => simp
  | cons buffer buffers ih =>
    rw [List.foldl_cons, ih, List.countP_cons]
    simp only [enqueue, List.append_assoc, List.singleton_append, mk.injEq, and_self, and_true,
      true_and]
    split <;> omega

@[simp] theorem queue_ofBuffers (id : SourceId) (buffers : List Buffer) :
    (ofBuffers id buffers).queue = buffers := by
  simp [ofBuffers, enqueueAll_eq, empty]

@[simp] theorem released_ofBuffers (id : SourceId) (buffers : List Buffer) :
    (ofBuffers id buffers).released = false := by
  simp [ofBuffers, enqueueAll_eq, empty]

@[simp] theorem notifier?_ofBuffers (id : SourceId) (buffers : List Buffer) :
    (ofBuffers id buffers).notifier? = none := by
  simp [ofBuffers, enqueueAll_eq, empty]

@[simp] theorem pullFault?_ofBuffers (id : SourceId) (buffers : List Buffer) :
    (ofBuffers id buffers).pullFault? = none := by
  simp [ofBuffers, enqueueAll_eq, empty]

/-- What a pull answers and leaves, case by case. -/
theorem pull_cases (source : MemorySource) :
    (source.released = true ∧ source.pull = (.nothing, source)) ∨
    (source.released = false ∧ ∃ reason cause, source.pullFault? = some reason ∧
      source.pull =
        (.failed cause, { source with failure? := some cause, pullFault? := none })) ∨
    (source.released = false ∧ source.pullFault? = none ∧ source.queue = [] ∧
      source.pull = (.nothing, source)) ∨
    (source.released = false ∧ source.pullFault? = none ∧
      ∃ given queue dataCount, source.queue = given.buffer :: queue ∧
        source.pull = (.delivery given,
          { source with queue, dataCount, sequence := source.sequence + 1 })) := by
  unfold pull
  cases released : source.released with
  | true => exact .inl ⟨rfl, rfl⟩
  | false =>
    cases fault : source.pullFault? with
    | some reason => exact .inr (.inl ⟨rfl, reason, _, rfl, rfl⟩)
    | none =>
      cases queue : source.queue with
      | nil => exact .inr (.inr (.inl ⟨rfl, rfl, rfl, rfl⟩))
      | cons buffer rest =>
        exact .inr (.inr (.inr ⟨rfl, rfl, ⟨buffer, _, _, _⟩, rest, _, rfl, rfl⟩))

/-- A source that is released has an empty queue. -/
def Settled (source : MemorySource) : Prop := source.released = true → source.queue = []

theorem settled_ofBuffers (id : SourceId) (buffers : List Buffer) :
    (ofBuffers id buffers).Settled := by
  intro released
  rw [released_ofBuffers] at released
  cases released

/-- What serving leaves of a source that gave the answers. -/
structure Spent (source : MemorySource) (answers : List Answer) (later : MemorySource) : Prop where
  notifier : later.notifier? = source.notifier?
  disarmed : source.pullFault? = none → later.pullFault? = none
  settled : source.Settled → later.Settled
  queue : later.queue <:+ source.queue
  balance : later.released = false → source.released = false ∧
    answers.filterMap Answer.buffer? ++ later.queue = source.queue

namespace Spent

theorem refl (source : MemorySource) : source.Spent [] source :=
  ⟨rfl, fun kept => kept, fun kept => kept, List.suffix_rfl, fun open' => ⟨open', rfl⟩⟩

theorem trans {first second third : MemorySource} {answers answers' : List Answer}
    (before : first.Spent answers second) (later : second.Spent answers' third) :
    first.Spent (answers ++ answers') third where
  notifier := later.notifier.trans before.notifier
  disarmed unarmed := later.disarmed (before.disarmed unarmed)
  settled settled := later.settled (before.settled settled)
  queue := later.queue.trans before.queue
  balance open' := by
    obtain ⟨open', rest⟩ := later.balance open'
    obtain ⟨open', all⟩ := before.balance open'
    refine ⟨open', ?_⟩
    rw [List.filterMap_append, List.append_assoc, rest, all]

end Spent

theorem spent_pull (source : MemorySource) : source.Spent [source.pull.1] source.pull.2 := by
  rcases source.pull_cases with ⟨released, result⟩ | ⟨open', reason, cause, armed, result⟩ |
    ⟨open', _, _, result⟩ | ⟨open', unarmed, given, queue, dataCount, queued, result⟩
  · rw [result]
    exact ⟨rfl, fun kept => kept, fun kept => kept, List.suffix_rfl, fun unreleased =>
      ⟨unreleased, rfl⟩⟩
  · rw [result]
    exact ⟨rfl, fun _ => rfl, fun kept => kept, List.suffix_rfl, fun _ => ⟨open', rfl⟩⟩
  · rw [result]
    exact ⟨rfl, fun kept => kept, fun kept => kept, List.suffix_rfl, fun _ => ⟨open', rfl⟩⟩
  · rw [result]
    refine ⟨rfl, fun kept => kept, ?_, ?_, fun _ => ⟨open', queued.symm⟩⟩
    · intro _ released
      rw [open'] at released
      cases released
    · rw [queued]
      exact List.suffix_cons _ _

theorem spent_release (source : MemorySource) : source.Spent [] source.release.2 where
  notifier := rfl
  disarmed kept := kept
  settled _ _ := rfl
  queue := List.nil_suffix
  balance unreleased := by cases unreleased

end MemorySource

namespace Source

open MemorySource

/-- The state of a memory source. -/
def memory? : Source → Option MemorySource
  | memory state => some state
  | script _ => none

/-- The memory source at a place. -/
def memoryAt (sources : List Source) (place : SourceRef) : Option MemorySource :=
  sources[place]?.bind memory?

/-- The queue of the memory source at a place. -/
def queueAt (sources : List Source) (place : SourceRef) : List Buffer :=
  (memoryAt sources place).elim [] MemorySource.queue

theorem memoryAt_eq_some_iff {sources : List Source} {place : SourceRef} {state : MemorySource} :
    memoryAt sources place = some state ↔ sources[place]? = some (.memory state) := by
  unfold memoryAt
  constructor
  · intro found
    obtain ⟨source, present, same⟩ := Option.bind_eq_some_iff.mp found
    cases source with
    | memory before =>
      cases same
      exact present
    | script before => cases same
  · intro present
    rw [present]
    rfl

theorem queueAt_eq {sources : List Source} {place : SourceRef} {state : MemorySource}
    (found : sources[place]? = some (.memory state)) : queueAt sources place = state.queue := by
  rw [queueAt, memoryAt_eq_some_iff.mpr found]
  rfl

/-- The buffers that an action pushes. -/
def Action.pushed : Action → List Buffer
  | memory (.push buffer) => [buffer]
  | memory (.pushAll buffers) => buffers
  | _ => []

theorem pull_memory (source : MemorySource) :
    Producer.pull (memory source) = (source.pull.1, memory source.pull.2) := rfl

/-- A memory source that is in the pool after it was pulled is what the pull left of it. -/
theorem pullAt_memory {sources later : List Source} {place : SourceRef} {answer : Answer}
    {after : MemorySource} (pulled : Producer.pullAt sources place = (answer, later))
    (found : later[place]? = some (.memory after)) :
    ∃ before, sources[place]? = some (.memory before) ∧ before.pull = (answer, after) := by
  unfold Producer.pullAt at pulled
  cases present : sources[place]? with
  | none =>
    simp only [present, Prod.mk.injEq] at pulled
    obtain ⟨_, rfl⟩ := pulled
    rw [present] at found
    cases found
  | some state =>
    simp only [present, Prod.mk.injEq] at pulled
    obtain ⟨rfl, rfl⟩ := pulled
    have inside : place < sources.length := (List.getElem?_eq_some_iff.mp present).1
    rw [List.getElem?_set_self inside, Option.some.injEq] at found
    cases state with
    | script state => cases found
    | memory before =>
      rw [pull_memory] at found
      cases found
      exact ⟨before, rfl, rfl⟩

/-- A pull to which a memory source has nothing to say changes nothing. -/
theorem pullAt_nothing {sources later : List Source} {place : SourceRef} {after : MemorySource}
    (pulled : Producer.pullAt sources place = (.nothing, later))
    (found : later[place]? = some (.memory after)) : later = sources := by
  obtain ⟨before, present, pull⟩ := pullAt_memory pulled found
  have same : after = before := by
    rcases before.pull_cases with ⟨_, result⟩ | ⟨_, _, _, _, result⟩ | ⟨_, _, _, result⟩ |
      ⟨_, _, _, _, _, _, result⟩ <;> rw [result] at pull <;> cases pull <;> rfl
  subst same
  simp only [Producer.pullAt, present, Prod.mk.injEq] at pulled
  obtain ⟨inside, same⟩ := List.getElem?_eq_some_iff.mp present
  rw [← pulled.2, pull_memory, pull, ← same]
  exact List.set_getElem_self inside

/-- A pull moves a buffer from the queue of the source that is pulled into the answer. -/
theorem queueAt_pullAt {sources later : List Source} {target place : SourceRef} {answer : Answer}
    {after : MemorySource} (pulled : Producer.pullAt sources target = (answer, later))
    (found : later[place]? = some (.memory after)) :
    queueAt sources place =
      (if target = place then answer.buffer?.toList else []) ++ after.queue := by
  by_cases here : target = place
  · subst here
    obtain ⟨before, present, pull⟩ := pullAt_memory pulled found
    rw [if_pos rfl, queueAt_eq present]
    rcases before.pull_cases with ⟨_, result⟩ | ⟨_, _, _, _, result⟩ | ⟨_, _, _, result⟩ |
      ⟨_, _, _, _, _, queued, result⟩
    · rw [result] at pull
      cases pull
      rfl
    · rw [result] at pull
      cases pull
      rfl
    · rw [result] at pull
      cases pull
      rfl
    · rw [result] at pull
      cases pull
      exact queued
  · rw [Producer.getElem?_of_pullAt_of_ne pulled here] at found
    rw [if_neg here, queueAt_eq found]
    rfl

/-- Serving leaves a memory source a memory source. -/
theorem serves_memory {source : MemorySource} {answers : List Answer} {state : Source}
    (serves : Serves (memory source) answers state) :
    ∃ later, state = memory later ∧ source.Spent answers later := by
  induction serves with
  | refl => exact ⟨source, rfl, .refl source⟩
  | pull _ ih =>
    obtain ⟨before, rfl, spent⟩ := ih
    exact ⟨before.pull.2, rfl, spent.trans before.spent_pull⟩
  | release _ ih =>
    obtain ⟨before, rfl, spent⟩ := ih
    refine ⟨before.release.2, rfl, ?_⟩
    simpa using spent.trans before.spent_release
  | requireSegment id segment _ ih =>
    obtain ⟨before, rfl, spent⟩ := ih
    exact ⟨_, rfl, { spent with }⟩
  | resize size _ ih =>
    obtain ⟨before, rfl, spent⟩ := ih
    exact ⟨_, rfl, { spent with }⟩

theorem serves_script {source : ScriptedSource} {answers : List Answer} {state : Source}
    (serves : Serves (script source) answers state) : ∃ later, state = script later := by
  induction serves with
  | refl => exact ⟨source, rfl⟩
  | pull _ ih | release _ ih | requireSegment _ _ _ ih | resize _ _ ih =>
    obtain ⟨before, rfl⟩ := ih
    exact ⟨_, rfl⟩

/-- A memory source that is in a pool after sources served is what serving left of a memory
source. -/
theorem served_memory {sources later : List Source} {place : SourceRef} {after : MemorySource}
    (served : Producer.Served sources later) (found : later[place]? = some (.memory after)) :
    ∃ before answers, sources[place]? = some (.memory before) ∧ before.Spent answers after := by
  obtain ⟨answers, servedAt⟩ := served place
  obtain ⟨source, present, serves⟩ := servedAt.of_later found
  cases source with
  | memory before =>
    obtain ⟨state, same, spent⟩ := serves_memory serves
    cases same
    exact ⟨before, answers, present, spent⟩
  | script before =>
    obtain ⟨state, same⟩ := serves_script serves
    cases same

/-- Whether the action lets the next pull fail. -/
def Action.armsPull : Action → Bool
  | memory (.failPull _) => true
  | _ => false

/-- What an action leaves of a memory source, and which notifier it rings. -/
structure Undergone (source : MemorySource) (action : Action) (later : MemorySource)
    (rung? : Option Notifier) : Prop where
  notifier : later.notifier? = source.notifier?
  released : later.released = source.released
  queue : later.queue = if source.released then source.queue else source.queue ++ action.pushed
  unarmed : action.armsPull = false → later.pullFault? = source.pullFault?
  rung : source.queue = [] → later.queue ≠ [] → rung? = source.notifier?

theorem act_memory (action : Action) (source : MemorySource) :
    ∃ later, (Producer.act action (memory source)).1 = memory later ∧
      Undergone source action later (Producer.act action (memory source)).2 := by
  cases action with
  | script action =>
    refine ⟨source, rfl, rfl, rfl, ?_, fun _ => rfl, fun empty full => absurd empty full⟩
    simp [Action.pushed]
  | memory action =>
    refine ⟨(source.act action).1, rfl, ?_⟩
    change Undergone source _ _ (source.act action).2
    cases action with
    | push buffer | pushAll buffers =>
      unfold MemorySource.act
      simp only [MemorySource.push, MemorySource.pushAll]
      split
      · refine ⟨rfl, rfl, by simp_all, fun _ => rfl, fun empty full => absurd empty full⟩
      · rw [enqueueAll_eq]
        refine ⟨rfl, rfl, by simp_all [Action.pushed], fun _ => rfl, ?_⟩
        intro empty full
        simp_all [isEmpty]
    | failPull reason =>
      refine ⟨rfl, rfl, by simp [MemorySource.act, Action.pushed], ?_,
        fun empty full => absurd empty full⟩
      intro harmless
      cases harmless
    | failRelease | recordFailure =>
      exact ⟨rfl, rfl, by simp [MemorySource.act, Action.pushed], fun _ => rfl,
        fun empty full => absurd empty full⟩

/-- As long as a memory source is not released, what it gave followed by its queue is its old queue
followed by what was pushed. -/
theorem becomes_memory {issued : Notifier → Prop} {source : MemorySource} {answers : List Answer}
    {actions : List Action} {state : Source}
    (became : Becomes issued (memory source) answers actions state) :
    ∃ later, state = memory later ∧ (later.released = false → source.released = false ∧
      answers.filterMap Answer.buffer? ++ later.queue =
        source.queue ++ actions.flatMap Action.pushed) := by
  induction became with
  | refl => exact ⟨source, rfl, fun open' => ⟨open', by simp⟩⟩
  | serve _ served ih =>
    obtain ⟨before, rfl, kept⟩ := ih
    obtain ⟨later, rfl, spent⟩ := serves_memory served
    refine ⟨later, rfl, fun open' => ?_⟩
    obtain ⟨open', rest⟩ := spent.balance open'
    obtain ⟨open', balance⟩ := kept open'
    refine ⟨open', ?_⟩
    rw [List.filterMap_append, List.append_assoc, rest, balance]
  | act action _ ih =>
    obtain ⟨before, rfl, kept⟩ := ih
    obtain ⟨later, result, undergone⟩ := act_memory action before
    refine ⟨later, result, fun open' => ?_⟩
    rw [undergone.released] at open'
    obtain ⟨first, balance⟩ := kept open'
    refine ⟨first, ?_⟩
    rw [undergone.queue, open', if_neg Bool.false_ne_true, ← List.append_assoc, balance]
    simp
  | attach _ _ ih =>
    obtain ⟨before, rfl, kept⟩ := ih
    exact ⟨_, rfl, kept⟩

end Source

/-! ### Over a session -/

/-- The actions of the records on the source at a place. -/
def Record.actions {σ α : Type} (place : SourceRef) (records : List (Record σ α)) : List α :=
  records.flatMap fun record => record.task.command.actions place

/-- A command that is played takes each source through the answers in its events and the actions of
the command. -/
theorem Session.touches_perform {σ α : Type} [Producer σ α] (session : Session σ α)
    (command : Command Nat α) (place : SourceRef) :
    (session.perform command).Touches (fun _ => True) place session.network.sources
      (command.actions place) := by
  rcases session.perform_cases command with ⟨lost, still⟩ | ⟨resolved, found, performed⟩
  · rw [still, Command.actions_of_resolve?_eq_none lost]
    exact Network.still_touches _ session.network place _
  · rw [performed, ← Command.actions_of_resolve? found]
    exact Network.exec_touches _ session.network place resolved fun _ _ => trivial

/-- A session takes each source through the answers in its events and the actions of its commands. -/
theorem Session.becomesAt {σ α : Type} [Producer σ α] (session : Session σ α)
    (commands : List (Command Nat α)) (n : Nat) (place : SourceRef) :
    BecomesAt (fun _ => True) place
      (Event.answers place (Record.events ((session.play commands).take n)))
      (Record.actions place ((session.play commands).take n)) session.network.sources
      (session.reachedBy ((session.play commands).take n)).sources := by
  refine play_invariant (fun past network _ =>
    BecomesAt (fun _ => True) place (Event.answers place (Record.events past))
      (Record.actions place past) session.network.sources network.sources) ?_ session
    (.refl _ place _) commands n
  intro past current task before
  have one := current.touches_perform task.command place
  simpa [Record.events, Record.actions, Event.answers_append, recordOf] using before.trans one

end FairMerge
