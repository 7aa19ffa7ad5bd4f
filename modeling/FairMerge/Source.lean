import FairMerge.Source.Memory
import FairMerge.Source.Script

/-! # Sources

The sources of a network are queue-backed or scripted, side by side in one pool. -/

namespace FairMerge

/-- A source of either sort. -/
inductive Source where
  | memory (source : MemorySource)
  | script (source : ScriptedSource)
deriving DecidableEq

namespace Source

/-- An action on a source of one sort. -/
inductive Action where
  | memory (action : MemorySource.Action)
  | script (action : ScriptedSource.Action)
deriving DecidableEq

/-- Answers a pull. -/
def pull : Source → Answer × Source
  | memory source => (Producer.pull source).map id memory
  | script source => (Producer.pull source).map id script

/-- Why the source failed, if it did. -/
def failure? : Source → Option Error
  | memory source => Producer.failure? source
  | script source => Producer.failure? source

/-- Gives up all resources. -/
def release : Source → Option Error × Source
  | memory source => (Producer.release source).map id memory
  | script source => (Producer.release source).map id script

/-- Hands a segment request on. -/
def requireSegment (id : SourceId) (segment : UInt32) : Source → Source
  | memory source => memory (Producer.requireSegment id segment source)
  | script source => script (Producer.requireSegment id segment source)

/-- Hands a buffer size on. -/
def resize (size : Nat) : Source → Source
  | memory source => memory (Producer.resize size source)
  | script source => script (Producer.resize size source)

/-- The identifier that the source was made with. -/
def ownId? : Source → Option SourceId
  | memory source => Producer.ownId? source
  | script source => Producer.ownId? source

/-- Hands a notifier on. -/
def attach (notifier : Notifier) : Source → Source × Option Notifier
  | memory source => (Producer.attach notifier source).map memory id
  | script source => (Producer.attach notifier source).map script id

/-- The effect of an action. An action meant for the other sort does nothing. -/
def act : Action → Source → Source × Option Notifier
  | .memory action, memory source => (Producer.act action source).map memory id
  | .script action, script source => (Producer.act action source).map script id
  | _, source => (source, none)

instance : Producer Source Action where
  pull := pull
  failure? := failure?
  release := release
  requireSegment := requireSegment
  resize := resize
  ownId? := ownId?
  attach := attach
  act := act

end Source

end FairMerge
