import FairMerge.Producer

/-! # Queue-backed sources

A memory source serves the buffers that were pushed into its queue, in order. It rings its
notifier when the queue stops being empty. A failure can be armed for its next pull and for its
release. Once released it is empty for good. -/

namespace FairMerge

/-- A request for a segment, with the identifier it was made for. -/
structure SegmentRequest where
  source : SourceId
  segment : UInt32
deriving DecidableEq

/-- The state of a queue-backed source. -/
structure MemorySource where
  id : SourceId
  /-- The buffers to serve, the next one first. -/
  queue : List Buffer
  /-- The number of data buffers in the queue. -/
  dataCount : Nat
  /-- The number of buffers served. It has no bound here; a counter of 64 bits is the same number as
  long as fewer than `2 ^ 64` were served. -/
  sequence : Nat
  /-- The failure recorded last. -/
  failure? : Option Error
  /-- The reason for which the next pull will fail. -/
  pullFault? : Option String
  /-- The reason for which the next release will fail. -/
  releaseFault? : Option String
  /-- The consumer's buffer size as it was told last. -/
  bufferSize? : Option Nat
  /-- The segments asked for, the oldest request first. -/
  segments : List SegmentRequest
  /-- The notifier to ring. -/
  notifier? : Option Notifier
  released : Bool
  /-- How often the source was released. -/
  releaseCount : Nat
deriving DecidableEq

namespace MemorySource

/-- A source with an empty queue. -/
def empty (id : SourceId) : MemorySource :=
  ⟨id, [], 0, 0, none, none, none, none, [], none, false, 0⟩

/-- Puts a buffer at the end of the queue. -/
def enqueue (source : MemorySource) (buffer : Buffer) : MemorySource :=
  { source with
    queue := source.queue ++ [buffer]
    dataCount := if buffer.isData then source.dataCount + 1 else source.dataCount }

/-- Puts buffers at the end of the queue, in order. -/
def enqueueAll (source : MemorySource) (buffers : List Buffer) : MemorySource :=
  buffers.foldl enqueue source

/-- A source that starts with buffers in its queue. -/
def ofBuffers (id : SourceId) (buffers : List Buffer) : MemorySource :=
  (empty id).enqueueAll buffers

/-- Whether the queue is empty. -/
def isEmpty (source : MemorySource) : Bool := source.queue.isEmpty

/-- The kind of the buffer served next, `Kind.none` if the queue is empty. -/
def nextKind (queue : List Buffer) : Kind :=
  match queue with
  | [] => .none
  | buffer :: _ => buffer.kind

/-- Answers a pull. An armed failure comes first: it is recorded and disarmed, and the queue stays
as it was. Otherwise the oldest buffer is served. A released source has nothing. -/
def pull (source : MemorySource) : Answer × MemorySource :=
  if source.released then (.nothing, source)
  else
    match source.pullFault? with
    | some reason =>
      let cause := Error.pull source.id reason
      (.failed cause, { source with failure? := some cause, pullFault? := none })
    | none =>
      match source.queue with
      | [] => (.nothing, source)
      | buffer :: queue =>
        let dataCount := if buffer.isData then source.dataCount - 1 else source.dataCount
        (.delivery ⟨buffer, dataCount, nextKind queue, source.sequence⟩,
          { source with queue, dataCount, sequence := source.sequence + 1 })

/-- Empties the queue for good. An armed failure is reported once, and the source is released all
the same. -/
def release (source : MemorySource) : Option Error × MemorySource :=
  (source.releaseFault?.map (Error.release source.id),
    { source with
      queue := [], dataCount := 0, releaseFault? := none, released := true
      releaseCount := source.releaseCount + 1 })

/-- Takes a notifier in place of the one before. It rings at once if buffers are waiting. -/
def attach (notifier : Notifier) (source : MemorySource) : MemorySource × Option Notifier :=
  ({ source with notifier? := some notifier }, if source.isEmpty then none else some notifier)

/-- Appends buffers and rings the notifier if the queue was empty before and is not after. A
released source drops them. -/
def pushAll (source : MemorySource) (buffers : List Buffer) : MemorySource × Option Notifier :=
  if source.released then (source, none)
  else
    let filled := source.enqueueAll buffers
    (filled, if source.isEmpty && !filled.isEmpty then source.notifier? else none)

/-- Appends one buffer. -/
def push (source : MemorySource) (buffer : Buffer) : MemorySource × Option Notifier :=
  source.pushAll [buffer]

/-- What the outside may do to a memory source. -/
inductive Action where
  | push (buffer : Buffer)
  | pushAll (buffers : List Buffer)
  /-- Lets the next pull fail. -/
  | failPull (reason : String)
  /-- Lets the next release fail. -/
  | failRelease (reason : String)
  /-- Records a failure that no pull met. -/
  | recordFailure (cause : Error)
deriving DecidableEq

/-- The effect of an action. -/
def act (action : Action) (source : MemorySource) : MemorySource × Option Notifier :=
  match action with
  | .push buffer => source.push buffer
  | .pushAll buffers => source.pushAll buffers
  | .failPull reason => ({ source with pullFault? := some reason }, none)
  | .failRelease reason => ({ source with releaseFault? := some reason }, none)
  | .recordFailure cause => ({ source with failure? := some cause }, none)

instance : Producer MemorySource Action where
  pull := pull
  failure? := MemorySource.failure?
  release := release
  requireSegment id segment source :=
    { source with segments := source.segments ++ [⟨id, segment⟩] }
  resize size source := { source with bufferSize? := some size }
  ownId? source := some source.id
  attach := attach
  act := act

end MemorySource

end FairMerge
