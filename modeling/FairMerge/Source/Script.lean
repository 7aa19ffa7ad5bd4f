import FairMerge.Producer

/-! # Scripted sources

A scripted source answers its pulls from a list written beforehand, whatever the answers are. It
keeps no notifier, so nothing that happens to it is announced. -/

namespace FairMerge

/-- The state of a scripted source. -/
structure ScriptedSource where
  /-- The answers still to give. -/
  answers : List Answer
  /-- How often the source was pulled. -/
  pulls : Nat
  /-- How often the source was released. -/
  releases : Nat
  /-- The failure that the source reports at all times. -/
  failure? : Option Error
  /-- The error that every release ends with. -/
  releaseError? : Option Error
deriving DecidableEq

namespace ScriptedSource

/-- A source that has not been used. -/
def ofAnswers (answers : List Answer) (failure? releaseError? : Option Error) : ScriptedSource :=
  ⟨answers, 0, 0, failure?, releaseError?⟩

/-- Gives the next answer of the script, and nothing once the script has ended. -/
def pull (source : ScriptedSource) : Answer × ScriptedSource :=
  match source.answers with
  | [] => (.nothing, { source with pulls := source.pulls + 1 })
  | answer :: answers => (answer, { source with answers, pulls := source.pulls + 1 })

/-- Counts the release. -/
def release (source : ScriptedSource) : Option Error × ScriptedSource :=
  (source.releaseError?, { source with releases := source.releases + 1 })

/-- What the outside may do to a scripted source. -/
inductive Action where
  /-- Adds answers at the end of the script. -/
  | extend (answers : List Answer)
deriving DecidableEq

/-- The effect of an action. -/
def act (action : Action) (source : ScriptedSource) : ScriptedSource × Option Notifier :=
  match action with
  | .extend answers => ({ source with answers := source.answers ++ answers }, none)

instance : Producer ScriptedSource Action where
  pull := pull
  failure? := ScriptedSource.failure?
  release := release
  act := act

end ScriptedSource

end FairMerge
