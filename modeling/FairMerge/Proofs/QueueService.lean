import FairMerge.Proofs.MemoryQueue
import FairMerge.Proofs.Moments
import FairMerge.Source.Memory.Move

/-! # How a memory source serves its queue

What a memory source answers to a pull follows from its history alone: what was accepted and what
was given tell the buffer, what was armed and what has failed since tells whether the pull fails.
The counter of data buffers, the sequence number and the recorded failure are readings of the same
history. It does not matter who pulls, so this holds of a source in every network. -/

namespace FairMerge

open Producer (Serves Becomes)

namespace MemorySource

/-! ### Reading a history -/

/-- Whether the source has been released. -/
def wasReleased (past : List Made) : Bool :=
  past.any fun made =>
    match made with
    | .released _ => true
    | _ => false

/-- The buffers that the source accepted, the oldest first. It had some when it was made, and it
takes what is pushed until it is released. -/
def accepted (built : List Buffer) : List Made → List Buffer
  | [] => built
  | .acted action :: earlier =>
    if wasReleased earlier then accepted built earlier
    else accepted built earlier ++ Source.Action.pushed (.memory action)
  | _ :: earlier => accepted built earlier

/-- The answers that the source gave, the oldest first. -/
def answersIn : List Made → List Answer
  | [] => []
  | .pulled answer :: earlier => answersIn earlier ++ [answer]
  | _ :: earlier => answersIn earlier

/-- The buffers that the source gave, the oldest first. -/
def given (past : List Made) : List Buffer := (answersIn past).filterMap Answer.buffer?

/-- The actions that the source underwent, the oldest first. -/
def actionsIn : List Made → List Action
  | [] => []
  | .acted action :: earlier => actionsIn earlier ++ [action]
  | _ :: earlier => actionsIn earlier

/-- The reason of the failure that is armed: the one armed last, unless a pull has failed since. -/
def armed? : List Made → Option String
  | .acted (.failPull reason) :: _ => some reason
  | .pulled (.failed _) :: _ => none
  | _ :: earlier => armed? earlier
  | [] => none

/-- The failure that the source reports: the one recorded last, by a pull or from outside. -/
def recorded? : List Made → Option Error
  | .acted (.recordFailure cause) :: _ => some cause
  | .pulled (.failed cause) :: _ => some cause
  | _ :: earlier => recorded? earlier
  | [] => none

/-- The number of data buffers among some. -/
def dataIn (buffers : List Buffer) : Nat := buffers.countP fun buffer => buffer.kind = .data

theorem countP_isData (buffers : List Buffer) : buffers.countP Buffer.isData = dataIn buffers :=
  List.countP_congr fun buffer _ => by simp [Buffer.isData]

theorem dataIn_append (before after : List Buffer) :
    dataIn (before ++ after) = dataIn before + dataIn after :=
  List.countP_append

theorem dataIn_cons (buffer : Buffer) (buffers : List Buffer) :
    dataIn (buffer :: buffers) = dataIn buffers + if buffer.kind = .data then 1 else 0 := by
  simp [dataIn, List.countP_cons]

theorem answersIn_append (later earlier : List Made) :
    answersIn (later ++ earlier) = answersIn earlier ++ answersIn later := by
  induction later with
  | nil => simp [answersIn]
  | cons made later ih => cases made <;> simp [answersIn, ih]

theorem given_pulled (answer : Answer) (past : List Made) :
    given (.pulled answer :: past) = given past ++ answer.buffer?.toList := by
  rw [given, answersIn, List.filterMap_append]
  cases buffer : answer.buffer? <;> simp [given, buffer]

theorem actionsIn_append (later earlier : List Made) :
    actionsIn (later ++ earlier) = actionsIn earlier ++ actionsIn later := by
  induction later with
  | nil => simp [actionsIn]
  | cons made later ih => cases made <;> simp [actionsIn, ih]

/-! ### The state and the history -/

/-- What the fields of a source that started with the buffers say about its history. -/
structure Reflects (source : MemorySource) (id : SourceId) (built : List Buffer)
    (past : List Made) : Prop where
  id : source.id = id
  counter : source.dataCount = dataIn source.queue
  sequence : source.sequence = (given past).length
  fault : source.pullFault? = armed? past
  failure : source.failure? = recorded? past
  released : source.released = wasReleased past
  balance : wasReleased past = false → given past ++ source.queue = accepted built past
  closed : wasReleased past = true → source.queue = []

variable {source : MemorySource} {id : SourceId} {built : List Buffer} {past : List Made}

theorem reflects_ofBuffers (id : SourceId) (built : List Buffer) :
    (ofBuffers id built).Reflects id built [] := by
  rw [ofBuffers, enqueueAll_eq, countP_isData]
  exact ⟨rfl, by simp [empty], rfl, rfl, rfl, rfl,
    fun _ => by simp [empty, given, accepted, answersIn],
    fun released => by cases released⟩

theorem pull_of_released (released : source.released = true) : source.pull = (.nothing, source) :=
  if_pos released

theorem pull_of_armed {reason : String} (open' : source.released = false)
    (armed : source.pullFault? = some reason) :
    source.pull = (.failed (.pull source.id reason),
      { source with failure? := some (.pull source.id reason), pullFault? := none }) := by
  simp only [pull, open', armed, Bool.false_eq_true, if_false]

theorem pull_of_empty (unarmed : source.pullFault? = none) (empty : source.queue = []) :
    source.pull = (.nothing, source) := by
  simp only [pull, unarmed, empty, ite_self]

namespace Reflects

/-- An open source takes what is pushed to the end of its queue. -/
theorem enqueueAll (reflects : source.Reflects id built past) (open' : wasReleased past = false)
    {action : Action} (harmless : armed? (.acted action :: past) = armed? past)
    (silent : recorded? (.acted action :: past) = recorded? past) :
    (source.enqueueAll (Source.Action.pushed (.memory action))).Reflects id built
      (.acted action :: past) := by
  have released : wasReleased (.acted action :: past) = false := open'
  rw [enqueueAll_eq, countP_isData]
  refine ⟨reflects.id, ?_, reflects.sequence, ?_, ?_, ?_, fun _ => ?_, fun closed => ?_⟩
  · rw [dataIn_append, ← reflects.counter]
  · rw [harmless]
    exact reflects.fault
  · rw [silent]
    exact reflects.failure
  · exact reflects.released
  · have balance := reflects.balance open'
    rw [accepted, if_neg (by simp [open']), ← balance, List.append_assoc]
    rfl
  · rw [released] at closed
    cases closed

/-- A released source drops what is pushed. -/
theorem dropped (reflects : source.Reflects id built past) (released : wasReleased past = true)
    {action : Action} (harmless : armed? (.acted action :: past) = armed? past)
    (silent : recorded? (.acted action :: past) = recorded? past) :
    source.Reflects id built (.acted action :: past) := by
  refine ⟨reflects.id, reflects.counter, reflects.sequence, ?_, ?_, reflects.released, ?_,
    reflects.closed⟩
  · rw [harmless]
    exact reflects.fault
  · rw [silent]
    exact reflects.failure
  · intro open'
    have unreleased : wasReleased past = false := open'
    rw [released] at unreleased
    cases unreleased

theorem push (reflects : source.Reflects id built past) {action : Action} (buffers : List Buffer)
    (pushed : Source.Action.pushed (.memory action) = buffers)
    (harmless : armed? (.acted action :: past) = armed? past)
    (silent : recorded? (.acted action :: past) = recorded? past) :
    (source.pushAll buffers).1.Reflects id built (.acted action :: past) := by
  unfold pushAll
  cases released : wasReleased past with
  | true =>
    rw [if_pos (reflects.released.trans released)]
    exact reflects.dropped released harmless silent
  | false =>
    rw [if_neg (by simp [reflects.released, released]), ← pushed]
    exact reflects.enqueueAll released harmless silent

/-- An action that pushes nothing leaves the queue and what was accepted. -/
theorem accepted_of_unpushed {action : Action}
    (unpushed : Source.Action.pushed (.memory action) = []) :
    accepted built (.acted action :: past) = accepted built past := by
  rw [accepted, unpushed, List.append_nil]
  split <;> rfl

theorem act (reflects : source.Reflects id built past) (action : Action) :
    (source.act action).1.Reflects id built (.acted action :: past) := by
  cases action with
  | push buffer => exact reflects.push [buffer] rfl rfl rfl
  | pushAll buffers => exact reflects.push buffers rfl rfl rfl
  | failPull reason =>
    refine { reflects with fault := rfl, balance := fun open' => ?_ }
    rw [accepted_of_unpushed rfl]
    exact reflects.balance open'
  | failRelease reason =>
    refine { reflects with balance := fun open' => ?_ }
    rw [accepted_of_unpushed rfl]
    exact reflects.balance open'
  | recordFailure cause =>
    refine { reflects with failure := rfl, balance := fun open' => ?_ }
    rw [accepted_of_unpushed rfl]
    exact reflects.balance open'

/-- The counter is right for what the oldest buffer leaves behind, and it is never zero when a data
buffer leaves. -/
theorem counter_of_cons (reflects : source.Reflects id built past) {buffer : Buffer}
    {queue : List Buffer} (queued : source.queue = buffer :: queue) :
    (buffer.kind = .data → 0 < source.dataCount) ∧
      (if buffer.isData then source.dataCount - 1 else source.dataCount) = dataIn queue := by
  have counter := reflects.counter
  rw [queued, dataIn_cons] at counter
  by_cases data : buffer.kind = .data
  · rw [if_pos data] at counter
    have isData : buffer.isData = true := by simp [Buffer.isData, data]
    rw [if_pos isData]
    omega
  · rw [if_neg data] at counter
    have isData : ¬buffer.isData = true := by simp [Buffer.isData, data]
    rw [if_neg isData]
    exact ⟨fun same => absurd same data, counter⟩

/-- A pull that answers nothing leaves everything as it is. -/
theorem pulled_nothing (reflects : source.Reflects id built past) :
    source.Reflects id built (.pulled .nothing :: past) := by
  have same : given (.pulled .nothing :: past) = given past := by simp [given_pulled]
  refine { reflects with sequence := ?_, balance := ?_ }
  · rw [same]
    exact reflects.sequence
  · rw [same]
    exact reflects.balance

theorem pulled_failed (reflects : source.Reflects id built past) (cause : Error) :
    Reflects { source with failure? := some cause, pullFault? := none } id built
      (.pulled (.failed cause) :: past) := by
  have same : given (.pulled (.failed cause) :: past) = given past := by simp [given_pulled]
  refine { reflects with fault := rfl, failure := rfl, sequence := ?_, balance := ?_ }
  · rw [same]
    exact reflects.sequence
  · rw [same]
    exact reflects.balance

theorem pulled_delivery (reflects : source.Reflects id built past) {delivery : Delivery}
    {queue : List Buffer} (queued : source.queue = delivery.buffer :: queue) :
    Reflects { source with
      queue, dataCount := dataIn queue, sequence := source.sequence + 1 } id built
      (.pulled (.delivery delivery) :: past) := by
  have more : given (.pulled (.delivery delivery) :: past) = given past ++ [delivery.buffer] := by
    simp [given_pulled]
  refine { reflects with counter := rfl, sequence := ?_, balance := ?_, closed := ?_ }
  · rw [more, List.length_append, ← reflects.sequence]
    rfl
  · intro open'
    have balance := reflects.balance open'
    rw [more, List.append_assoc]
    rwa [queued] at balance
  · intro released
    have empty := reflects.closed released
    rw [queued] at empty
    cases empty

/-- What the next pull of an open source comes to when no failure is armed and the oldest buffer is
known. -/
theorem pull_of_cons (reflects : source.Reflects id built past) (open' : source.released = false)
    (unarmed : source.pullFault? = none) {buffer : Buffer} {queue : List Buffer}
    (queued : source.queue = buffer :: queue) :
    source.pull =
      (.delivery ⟨buffer, dataIn queue, nextKind queue, source.sequence⟩,
        { source with
          queue, dataCount := dataIn queue, sequence := source.sequence + 1 }) := by
  have counter := (reflects.counter_of_cons queued).2
  simp only [MemorySource.pull, open', unarmed, queued, counter, Bool.false_eq_true, if_false]

theorem pull (reflects : source.Reflects id built past) :
    source.pull.2.Reflects id built (.pulled source.pull.1 :: past) := by
  cases released : source.released with
  | true =>
    rw [pull_of_released released]
    exact reflects.pulled_nothing
  | false =>
    cases armed : source.pullFault? with
    | some reason =>
      rw [pull_of_armed released armed]
      exact reflects.pulled_failed _
    | none =>
      cases queued : source.queue with
      | nil =>
        rw [pull_of_empty armed queued]
        exact reflects.pulled_nothing
      | cons buffer queue =>
        rw [reflects.pull_of_cons released armed queued]
        exact reflects.pulled_delivery queued

theorem release (reflects : source.Reflects id built past) :
    source.release.2.Reflects id built (.released source.release.1 :: past) where
  id := reflects.id
  counter := rfl
  sequence := reflects.sequence
  fault := reflects.fault
  failure := reflects.failure
  released := rfl
  balance open' := by cases open'
  closed _ := rfl

/-- Each move is reflected in the fields. -/
theorem make (reflects : source.Reflects id built past) (move : Move) :
    (source.make move).2.Reflects id built ((source.make move).1 :: past) := by
  cases move with
  | act action => exact reflects.act action
  | pull => exact reflects.pull
  | release => exact reflects.release
  | requireSegment | resize | attach => exact { reflects with }

end Reflects

/-- The fields of a source reflect its history, whatever has happened to it. -/
theorem reflects_history (id : SourceId) (built : List Buffer) (moves : List Move) :
    ((ofBuffers id built).reached moves).Reflects id built
      ((ofBuffers id built).history moves) := by
  induction moves with
  | nil => exact reflects_ofBuffers id built
  | cons move earlier ih => exact ih.make move

/-! ### Service -/

/-- How a source that was made with the buffers stands after what has happened to it, and what it
answers when it is pulled next. -/
structure Faithful (source : MemorySource) (id : SourceId) (built : List Buffer)
    (past : List Made) : Prop where
  /-- The counter is the number of data buffers in the queue. -/
  counter : source.dataCount = dataIn source.queue
  /-- So it is not zero when it is about to be lowered. -/
  covered : ∀ buffer queue, source.queue = buffer :: queue → buffer.kind = .data →
    0 < source.dataCount
  /-- Until release the queue is what was accepted and is still to be given. -/
  queue : wasReleased past = false → given past ++ source.queue = accepted built past
  /-- The failure reported is the one that a pull met last, or that was recorded since. -/
  failure : source.failure? = recorded? past
  /-- An armed failure comes first. It is recorded and disarmed, and nothing else changes. -/
  fails : wasReleased past = false → ∀ reason, armed? past = some reason →
    source.pull = (.failed (.pull id reason),
      { source with failure? := some (.pull id reason), pullFault? := none })
  /-- Else the oldest buffer is given that was accepted and not given yet. With it stand how many
  data buffers stay, the kind of the first one that stays, and how many were given before. -/
  gives : wasReleased past = false → armed? past = none → ∀ buffer rest,
    accepted built past = given past ++ buffer :: rest →
    source.pull =
      (.delivery ⟨buffer, dataIn rest, (rest.head?.map Buffer.kind).getD .none,
          (given past).length⟩,
        { source with
          queue := rest, dataCount := dataIn rest
          sequence := (given past).length + 1 })
  /-- If all that was accepted has been given, there is nothing to give. -/
  idles : wasReleased past = false → armed? past = none → accepted built past = given past →
    source.pull = (.nothing, source)
  /-- A released source has nothing to give, takes nothing, and does not fail. -/
  ended : wasReleased past = true → source.queue = [] ∧ source.pull = (.nothing, source) ∧
    (∀ buffer, source.act (.push buffer) = (source, none)) ∧
    ∀ buffers, source.act (.pushAll buffers) = (source, none)

theorem nextKind_eq (queue : List Buffer) :
    nextKind queue = (queue.head?.map Buffer.kind).getD .none := by
  cases queue <;> rfl

theorem pushAll_of_released (released : source.released = true) (buffers : List Buffer) :
    source.pushAll buffers = (source, none) :=
  if_pos released

theorem Reflects.faithful (reflects : source.Reflects id built past) :
    source.Faithful id built past where
  counter := reflects.counter
  covered _ _ queued := (reflects.counter_of_cons queued).1
  queue := reflects.balance
  failure := reflects.failure
  fails := by
    intro open' reason armed
    rw [← reflects.released] at open'
    rw [← reflects.fault] at armed
    rw [pull_of_armed open' armed, reflects.id]
  gives := by
    intro open' unarmed buffer rest waiting
    have queued : source.queue = buffer :: rest := by
      rw [← reflects.balance open'] at waiting
      exact List.append_cancel_left waiting
    rw [← reflects.released] at open'
    rw [← reflects.fault] at unarmed
    rw [reflects.pull_of_cons open' unarmed queued, nextKind_eq, reflects.sequence]
  idles := by
    intro open' unarmed served
    have empty : source.queue = [] := by
      rw [← reflects.balance open'] at served
      simpa using served
    rw [← reflects.fault] at unarmed
    exact pull_of_empty unarmed empty
  ended := by
    intro closed
    have released := reflects.released.trans closed
    refine ⟨reflects.closed closed, pull_of_released released, fun buffer => ?_, fun buffers => ?_⟩
    · exact pushAll_of_released released [buffer]
    · exact pushAll_of_released released buffers

end MemorySource

namespace Source

open MemorySource

/-- The action on a memory source that an action is. -/
def Action.memory? : Action → Option MemorySource.Action
  | memory action => some action
  | script _ => none

/-- Moves that lead from one state of a memory source to another, with the answers given and the
actions undergone on the way. -/
def Leads (source : MemorySource) (moves : List Move) (answers : List Answer)
    (actions : List Action) (later : Source) : Prop :=
  later = memory (source.reached moves) ∧ answersIn (source.history moves) = answers ∧
    actionsIn (source.history moves) = actions.filterMap Action.memory?

variable {source : MemorySource} {answers : List Answer} {actions : List Action} {state : Source}

/-- Whatever a memory source serves is a sequence of moves. -/
theorem moves_of_serves (serves : Serves (memory source) answers state) :
    ∃ moves, Leads source moves answers [] state := by
  induction serves with
  | refl => exact ⟨[], rfl, rfl, rfl⟩
  | pull _ ih =>
    obtain ⟨moves, rfl, answered, acted⟩ := ih
    refine ⟨.pull :: moves, rfl, ?_, acted⟩
    rw [history, make, answersIn, answered, pull_memory]
  | release _ ih =>
    obtain ⟨moves, rfl, answered, acted⟩ := ih
    exact ⟨.release :: moves, rfl, answered, acted⟩
  | requireSegment id segment _ ih =>
    obtain ⟨moves, rfl, answered, acted⟩ := ih
    exact ⟨.requireSegment id segment :: moves, rfl, answered, acted⟩
  | resize size _ ih =>
    obtain ⟨moves, rfl, answered, acted⟩ := ih
    exact ⟨.resize size :: moves, rfl, answered, acted⟩

/-- Whatever becomes of a memory source is a sequence of moves. -/
theorem moves_of_becomes {issued : Notifier → Prop}
    (became : Becomes issued (memory source) answers actions state) :
    ∃ moves, Leads source moves answers actions state := by
  induction became with
  | refl => exact ⟨[], rfl, rfl, rfl⟩
  | serve _ served ih =>
    obtain ⟨moves, rfl, answered, acted⟩ := ih
    obtain ⟨later, rfl, answered', acted'⟩ := moves_of_serves served
    refine ⟨later ++ moves, by rw [reached_append], ?_, ?_⟩
    · rw [history_append, answersIn_append, answered, answered']
    · rw [history_append, actionsIn_append, acted, acted', List.filterMap_nil, List.append_nil]
  | act action _ ih =>
    obtain ⟨moves, rfl, answered, acted⟩ := ih
    cases action with
    | memory action =>
      refine ⟨.act action :: moves, rfl, answered, ?_⟩
      rw [history, make, actionsIn, acted, List.filterMap_append]
      rfl
    | script action =>
      refine ⟨moves, rfl, answered, ?_⟩
      rw [List.filterMap_append, acted]
      exact (List.append_nil _).symm
  | @attach _ _ _ notifier _ _ ih =>
    obtain ⟨moves, rfl, answered, acted⟩ := ih
    exact ⟨.attach notifier :: moves, rfl, answered, acted⟩

end Source

/-! ### In a session -/

namespace Session

open MemorySource Source

/-- What a memory source has gone through at some point of a session is a sequence of moves. -/
def Traced (session : Session Source Source.Action) (commands : List (Command Nat Source.Action))
    (place : SourceRef) (source : MemorySource) (n : Nat) (moves : List Move) : Prop :=
  let past := (session.play commands).take n
  ∃ state, (session.reachedBy past).sources[place]? = some state ∧
    Leads source moves (Event.answers place (Record.events past)) (Record.actions place past) state

variable {session : Session Source Source.Action} {commands : List (Command Nat Source.Action)}
  {place : SourceRef} {source : MemorySource}

/-- The next record adds moves to those that are known. -/
theorem Traced.extend {n : Nat} {moves : List Move}
    (traced : session.Traced commands place source n moves) :
    ∃ later, session.Traced commands place source (n + 1) (later ++ moves) := by
  cases played : (session.play commands)[n]? with
  | none =>
    have ended : (session.play commands).take (n + 1) = (session.play commands).take n := by
      simp [List.take_add_one, played]
    exact ⟨[], by rwa [Traced, ended]⟩
  | some record =>
    obtain ⟨state, found, rfl, answered, acted⟩ := traced
    obtain ⟨current, network, _, same⟩ := session.record_play commands played
    have touches := current.touches_perform record.task.command place
    rw [network] at touches
    obtain ⟨later, reached, became⟩ := touches.of_earlier found
    obtain ⟨new, rfl, answered', acted'⟩ := moves_of_becomes became
    have more : (session.play commands).take (n + 1) =
        (session.play commands).take n ++ [record] := by
      simp [List.take_add_one, played]
    refine ⟨new, memory (source.reached (new ++ moves)), ?_, rfl, ?_, ?_⟩
    · rw [session.reachedBy_take_succ played, same, reached_append]
      exact reached
    · rw [history_append, answersIn_append, answered, answered', more, same,
        Record.events_append_recordOf, Event.answers_append]
      rfl
    · rw [history_append, actionsIn_append, acted, acted', more, Record.actions, Record.actions,
        List.flatMap_append, List.filterMap_append]
      simp

/-- The moves known at each point, more and more of them. -/
noncomputable def trace (start : session.Traced commands place source 0 []) :
    ∀ n, { moves // session.Traced commands place source n moves }
  | 0 => ⟨[], start⟩
  | n + 1 => ⟨(trace start n).2.extend.choose ++ (trace start n).1,
      (trace start n).2.extend.choose_spec⟩

end Session

/-- A memory source serves its queue exactly, whatever happens to it and in whatever order: its
counter, its failure and its answer to the next pull are what its history says. A pull for which a
failure is armed fails with the reason that was armed last and takes nothing. Any other pull gives
the oldest buffer that was accepted and not given yet, or nothing if there is none. After release
there is nothing to give, nothing is taken, and no failure fires.

What happens to a source in a session is such a history: at every point, moves lead to the source
from what it was made as, with the answers that it gave to all who pulled it and the actions that it
underwent, and the moves known at one point are the first ones of those known later. -/
theorem queue_served :
    (∀ (id : SourceId) (built : List Buffer) (moves : List MemorySource.Move),
      ((MemorySource.ofBuffers id built).reached moves).Faithful id built
        ((MemorySource.ofBuffers id built).history moves)) ∧
    ∀ (sources : List Source) (views : List (Config × Listener))
        (reactions : List (List (List (Command Nat Source.Action))))
        (commands : List (Command Nat Source.Action)) (place : SourceRef) (id : SourceId)
        (built : List Buffer),
      let session := Session.start sources views reactions
      let source := MemorySource.ofBuffers id built
      sources[place]? = some (.memory source) →
        ∃ moves : Nat → List MemorySource.Move, ∀ n,
          let past := (session.play commands).take n
          moves n <:+ moves (n + 1) ∧
            (session.reachedBy past).sources[place]? = some (.memory (source.reached (moves n))) ∧
            MemorySource.answersIn (source.history (moves n)) =
              Event.answers place (Record.events past) ∧
            MemorySource.actionsIn (source.history (moves n)) =
              (Record.actions place past).filterMap Source.Action.memory? := by
  constructor
  · intro id built moves
    exact (MemorySource.reflects_history id built moves).faithful
  · intro sources views reactions commands place id built session source present
    have start : session.Traced commands place source 0 [] := ⟨_, present, rfl, rfl, rfl⟩
    refine ⟨fun n => (Session.trace start n).1, fun n => ?_⟩
    obtain ⟨state, found, rfl, answered, acted⟩ := (Session.trace start n).2
    exact ⟨List.suffix_append _ _, found, answered, acted⟩

namespace Balking

/-- The source is shared: a view fails to pull it, somebody else pulls it past the view, and it is
released while a failure is armed. -/
def source : MemorySource := .ofBuffers ⟨7⟩ [.data [1], .event [2], .data [6]]

def session : Session Source Source.Action :=
  .start [.memory source] [(⟨1⟩, .ofCallback)] []

def commands : List (Command Nat Source.Action) := [
  .act 0 (.memory (.failPull "late")), .act 0 (.memory (.failPull "lost")), .add 0 0,
  .request 0 .next, .act 0 (.memory (.push (.data [3]))), .pull 0,
  .act 0 (.memory (.push (.data [4]))), .act 0 (.memory (.failPull "gone")), .releaseSource 0,
  .act 0 (.memory (.push (.data [5]))), .request 0 .next, .request 0 .next]

end Balking

open Balking in
/-- The first pull fails with the reason armed last and takes nothing, the others tell how many data
buffers stay, and after the release nothing fails any more. -/
theorem queue_served_balking :
    ∃ moves, (session.reachedBy (session.play commands)).sources[0]? =
        some (.memory (source.reached moves)) ∧
      MemorySource.answersIn (source.history moves) = [
        .failed (.pull ⟨7⟩ "lost"), .delivery ⟨.data [1], 1, .event, 0⟩,
        .delivery ⟨.event [2], 1, .data, 1⟩, .delivery ⟨.data [6], 1, .data, 2⟩, .nothing] ∧
      (source.reached moves).Faithful ⟨7⟩ [.data [1], .event [2], .data [6]]
        (source.history moves) := by
  have given : Event.answers 0 (Record.events (session.play commands)) = [
      .failed (.pull ⟨7⟩ "lost"), .delivery ⟨.data [1], 1, .event, 0⟩,
      .delivery ⟨.event [2], 1, .data, 1⟩, .delivery ⟨.data [6], 1, .data, 2⟩, .nothing] := by
    decide +kernel
  obtain ⟨moves, traced⟩ := queue_served.2 [.memory source] [(⟨1⟩, .ofCallback)] [] commands 0 ⟨7⟩
    [.data [1], .event [2], .data [6]] rfl
  obtain ⟨_, found, answered, _⟩ := traced (session.play commands).length
  have all : (session.play commands).take (session.play commands).length = session.play commands :=
    List.take_length
  change (session.reachedBy ((session.play commands).take _)).sources[0]? = _ at found
  change _ = Event.answers 0 (Record.events ((session.play commands).take _)) at answered
  rw [all] at found answered
  exact ⟨_, found, answered.trans given, queue_served.1 _ _ _⟩

end FairMerge
