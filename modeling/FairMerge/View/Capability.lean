import FairMerge.Error

/-! # Capabilities

What a consumer may ask of a view, and the operations that a merged stream does not offer. -/

namespace FairMerge

/-- A way of using a view. -/
inductive Capability where
  /-- Peeking, taking buffers and asking what is available. -/
  | pull
  /-- Sources announce data through notifiers. -/
  | availabilityPush
  /-- Segment requests, buffer sizes and release reach the sources. -/
  | administrativeForward
  /-- Going on after backpressure. -/
  | creditResume
  /-- Events that overtake waiting data. -/
  | priorityEvents
  /-- Confirming that all data was processed. -/
  | tieredSegmentAck
deriving DecidableEq

namespace Capability

/-- The capability's name. -/
def name : Capability → String
  | pull => "pull"
  | availabilityPush => "availability_push"
  | administrativeForward => "administrative_forward"
  | creditResume => "credit_resume"
  | priorityEvents => "priority_events"
  | tieredSegmentAck => "tiered_segment_ack"

/-- The capability with a given name. -/
def ofName? : String → Option Capability
  | "pull" => some pull
  | "availability_push" => some availabilityPush
  | "administrative_forward" => some administrativeForward
  | "credit_resume" => some creditResume
  | "priority_events" => some priorityEvents
  | "tiered_segment_ack" => some tieredSegmentAck
  | _ => none

/-- Every capability is found again by its name. -/
@[simp] theorem ofName?_name (capability : Capability) :
    ofName? capability.name = some capability := by
  cases capability <;> rfl

/-- The capabilities of a merged stream. -/
def ofMerge : List Capability := [pull, availabilityPush, administrativeForward]

end Capability

/-- An operation that makes no sense on a merged stream and is refused. -/
inductive Unsupported where
  /-- Availability is announced per source, never without one. -/
  | notifyDataAvailable
  | notifyPriorityEvent (number : Nat)
  | resumeConsumption
  | acknowledgeAllDataProcessed
deriving DecidableEq

namespace Unsupported

/-- The operation's name. -/
def name : Unsupported → String
  | notifyDataAvailable => "notify_data_available"
  | notifyPriorityEvent _ => "notify_priority_event"
  | resumeConsumption => "resume_consumption"
  | acknowledgeAllDataProcessed => "acknowledge_all_data_processed"

/-- The refusal. -/
def error (operation : Unsupported) : Error := .unsupported operation.name

end Unsupported

end FairMerge
