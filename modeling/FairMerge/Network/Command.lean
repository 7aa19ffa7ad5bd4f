import FairMerge.View
import FairMerge.View.Capability

/-! # Commands

What can happen in a network, and what it answers. A command refers to sources and views by their
places; notifiers it may name in any way, so that a list of commands can be written down before the
notifiers are handed out. -/

namespace FairMerge

/-- Something asked of a view. -/
inductive Request where
  | sourceIds
  | peek
  | next
  | drain (limit : Nat)
  | availability (credit : Bool)
  | queued
  /-- The number of waiting buffers as it was last made public. -/
  | publicCount
  | requireSegment (id : SourceId) (segment : UInt32)
  | resize (size : Nat)
  | release
  | isReleased
  | capacity
  | failure
  | stats
  | capabilities
  | supports (capability : Capability)
  | unsupported (operation : Unsupported)
  | describe
deriving DecidableEq

/-- Something that happens in a network whose sources undergo the actions in `α`, where notifiers
are named by elements of `ν`. -/
inductive Command (ν α : Type) where
  | request (view : ViewRef) (request : Request)
  /-- Registers a source, which gives a new notifier. -/
  | register (view : ViewRef) (source : SourceRef) (id : SourceId)
  /-- Gives a source a notifier. -/
  | attach (source : SourceRef) (notifier : ν)
  /-- Registers a source under its own identifier and gives it the notifier. -/
  | add (view : ViewRef) (source : SourceRef)
  /-- Rings a notifier. -/
  | ring (notifier : ν)
  /-- Tells a view that a source has data. -/
  | announce (view : ViewRef) (source : SourceRef)
  | isAlive (notifier : ν)
  | act (source : SourceRef) (action : α)
  /-- Pulls a source past every view. -/
  | pull (source : SourceRef)
  | sourceFailure (source : SourceRef)
  /-- Releases a source past every view. -/
  | releaseSource (source : SourceRef)
  | inspect (source : SourceRef)
  /-- Reads a message from a view's channel. -/
  | receive (view : ViewRef)
  | dropReceiver (view : ViewRef)
  | dropView (view : ViewRef)
deriving DecidableEq

/-- Replaces the names of notifiers, if all of them mean something. -/
def Command.resolve? {ν μ α : Type} (find? : ν → Option μ) : Command ν α → Option (Command μ α)
  | request view asked => some (request view asked)
  | register view source id => some (register view source id)
  | attach source notifier => (find? notifier).map (attach source)
  | add view source => some (add view source)
  | ring notifier => (find? notifier).map ring
  | announce view source => some (announce view source)
  | isAlive notifier => (find? notifier).map isAlive
  | act source action => some (act source action)
  | pull source => some (pull source)
  | sourceFailure source => some (sourceFailure source)
  | releaseSource source => some (releaseSource source)
  | inspect source => some (inspect source)
  | receive view => some (receive view)
  | dropReceiver view => some (dropReceiver view)
  | dropView view => some (dropView view)

/-- The answer to a command. -/
inductive Reply (σ : Type) where
  | done
  | refused (cause : Error)
  /-- The source is registered, and this is its notifier. -/
  | registered (notifier : Notifier)
  | id (id : Option SourceId)
  | ids (ids : List SourceId)
  | delivery (delivery : Option Delivery)
  | deliveries (deliveries : List Delivery)
  | availability (availability : Availability)
  | number (number : Nat)
  | flag (flag : Bool)
  | answer (answer : Answer)
  | failure (cause : Option Error)
  | stats (stats : Stats)
  | capabilities (capabilities : List Capability)
  | text (text : String)
  | source (source : σ)
  /-- The command names something that is not there. -/
  | missing
deriving DecidableEq

end FairMerge
