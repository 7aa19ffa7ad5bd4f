/-! # Counters

The numbers that a view gives to its consumer and to whoever watches it. -/

namespace FairMerge

/-- Whether a buffer may be sent, and how many data buffers wait. -/
structure Availability where
  available : Bool
  backlog : Nat
deriving DecidableEq

namespace Availability

/-- The answer of a view without a waiting buffer. -/
def unavailable : Availability := ⟨false, 0⟩

end Availability

/-- The counters of a view at one moment. -/
structure Stats where
  /-- The number of registered sources. -/
  sources : Nat
  /-- The number of waiting buffers. -/
  queued : Nat
  /-- How many of the waiting buffers are data. -/
  dataBacklog : Nat
  /-- The sequence number of the next delivery. -/
  nextSequence : Nat
  released : Bool
deriving DecidableEq

namespace Stats

/-- The counters of a view to which nothing has happened. -/
def zero : Stats := ⟨0, 0, 0, 0, false⟩

instance : Inhabited Stats := ⟨zero⟩

end Stats

end FairMerge
