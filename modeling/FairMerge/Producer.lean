import FairMerge.Buffer
import FairMerge.Registry

/-! # Producers

What a view asks of a source, and what the world outside may do to one. A source is pulled without
blocking: it answers with a delivery, with nothing, or with an error. It announces data through a
notifier, which names the view to tell and the source that has data. -/

namespace FairMerge

/-- What a source answers to a pull. -/
inductive Answer where
  | delivery (delivery : Delivery)
  /-- Nothing is ready for now. -/
  | nothing
  | failed (cause : Error)
deriving DecidableEq

/-- Tells one view that one source has data. -/
structure Notifier where
  view : ViewRef
  source : SourceRef
deriving DecidableEq

/-- The behaviour of sources with states in `σ` that the outside drives by actions in `α`. -/
class Producer (σ : Type) (α : outParam Type) where
  /-- Answers a pull. -/
  pull : σ → Answer × σ
  /-- Why the source failed, if it did. -/
  failure? : σ → Option Error
  /-- Gives up all resources, and names the error if that failed. -/
  release : σ → Option Error × σ
  /-- Takes the hint that the consumer needs a segment next, and for which identifier. -/
  requireSegment : SourceId → UInt32 → σ → σ := fun _ _ source => source
  /-- Learns the consumer's new buffer size. -/
  resize : Nat → σ → σ := fun _ source => source
  /-- The identifier that the source was made with, if it has one of its own. -/
  ownId? : σ → Option SourceId := fun _ => none
  /-- Takes a notifier to announce data through, and names it if it has to ring at once. -/
  attach : Notifier → σ → σ × Option Notifier := fun _ source => (source, none)
  /-- Undergoes an action, and names the notifier that has to ring after it. -/
  act : α → σ → σ × Option Notifier

namespace Producer

variable {σ α : Type} [Producer σ α]

/-- Pulls the source at a place of the pool. A place without a source has nothing. -/
def pullAt (sources : List σ) (source : SourceRef) : Answer × List σ :=
  match sources[source]? with
  | none => (.nothing, sources)
  | some state =>
    let result := pull state
    (result.1, sources.set source result.2)

/-- Releases the source at a place of the pool. A place without a source has nothing to give up. -/
def releaseAt (sources : List σ) (source : SourceRef) : Option Error × List σ :=
  match sources[source]? with
  | none => (none, sources)
  | some state =>
    let result := release state
    (result.1, sources.set source result.2)

/-- Why the source at a place of the pool failed, if it did. -/
def failureAt? (sources : List σ) (source : SourceRef) : Option Error :=
  sources[source]?.bind failure?

end Producer

end FairMerge
