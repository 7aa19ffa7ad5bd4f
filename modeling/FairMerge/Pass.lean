import FairMerge.Lookahead
import FairMerge.Producer
import FairMerge.Rotation

/-! # Passes

A pass pulls from the sources in the order that the rotation gives, as long as there is room for
another buffer and somebody to pull. A source that gives nothing or fails is not asked again in
the same pass, and if its record is open the pass ends there.

The pass is bounded whatever the sources answer: each pull takes either a place of the room or one
source out of the ready ones. -/

namespace FairMerge

/-- One pull of a view: the source, the identifier it was chosen by, and its answer. -/
structure Pull where
  id : SourceId
  source : SourceRef
  answer : Answer
deriving DecidableEq

namespace Pull

/-- The entry that the pull adds to the look-ahead queue. -/
def entry? (pull : Pull) : Option Entry :=
  match pull.answer with
  | .delivery delivery => some ⟨pull.id, delivery⟩
  | _ => none

/-- The error that the pull met. -/
def error? (pull : Pull) : Option Error :=
  match pull.answer with
  | .failed cause => some cause
  | _ => none

end Pull

/-- An error that a pull met, with the identifier of its source. -/
structure Fault where
  id : SourceId
  cause : Error
deriving DecidableEq

/-- Why a pass ended. -/
inductive Halt where
  /-- There was no room left. -/
  | full
  /-- No source was ready and no record open. -/
  | idle
  /-- The source with the open record gave nothing. -/
  | blocked
  /-- The rotation chose an identifier that is not registered. -/
  | unregistered (id : SourceId)
deriving DecidableEq

/-- What a pass leaves behind. -/
structure Pass (σ : Type) where
  rotation : Rotation
  sources : List σ
  /-- The pulls made, in order. -/
  pulls : List Pull
  halt : Halt

namespace Pass

variable {σ α : Type} [Producer σ α]

/-- Puts a pull in front of those that a pass made after it. -/
def after (pull : Pull) (pass : Pass σ) : Pass σ := { pass with pulls := pull :: pass.pulls }

/-- Pulls until there is no room, nobody to pull, or an open record that does not go on. -/
def run (registry : Registry) (room : Nat) (rotation : Rotation) (sources : List σ) : Pass σ :=
  match room with
  | 0 => ⟨rotation, sources, [], .full⟩
  | rest + 1 =>
    match _chosen : rotation.choice with
    | none => ⟨rotation.select.2, sources, [], .idle⟩
    | some id =>
      match registry.source? id with
      | none => ⟨rotation.select.2, sources, [], .unregistered id⟩
      | some source =>
        let result := Producer.pullAt sources source
        let pull : Pull := ⟨id, source, result.1⟩
        match result.1 with
        | .delivery delivery =>
          (run registry rest
            (rotation.select.2.settle (.yielded delivery.buffer.continues)) result.2).after pull
        | _ =>
          let settled := rotation.select.2.settle .dry
          if settled.switchable then (run registry (rest + 1) settled result.2).after pull
          else ⟨settled, result.2, [pull], .blocked⟩
termination_by room + rotation.readyCount
decreasing_by
  · have := Rotation.readyCount_settle_yielded rotation.select.2 delivery.buffer.continues
    simp only [Rotation.readyCount_select] at this
    omega
  · have := Rotation.readyCount_settle_dry_lt (by assumption) (by assumption)
    omega

/-- The entries that a pass adds to the look-ahead queue. -/
def entries (pass : Pass σ) : List Entry := pass.pulls.filterMap Pull.entry?

/-- The errors that a pass met, in order. -/
def faults (pass : Pass σ) : List Fault :=
  pass.pulls.filterMap fun pull => pull.error?.map fun cause => ⟨pull.id, cause⟩

end Pass

end FairMerge
