import FairMerge.Rotation

/-! # Moves

What can be done with a rotation, one move after the other and in any order: a settlement need not
follow a choice, a choice may be made anew before the last one is settled, and a source may be
registered again, which is refused.

Lists of moves have the latest one first, so that what came before a move is the rest of the
list. -/

namespace FairMerge.Rotation

/-- Something done with a rotation. -/
inductive Move where
  | register (id : SourceId)
  | announce (id : SourceId)
  | select
  | settle (outcome : Outcome)
deriving DecidableEq

/-- A move that was made, with the answer to it. -/
inductive Made where
  | registered (id : SourceId)
  /-- The registration was refused. -/
  | refused (id : SourceId) (cause : Error)
  /-- The announcement was news or not. -/
  | announced (id : SourceId) (news : Bool)
  | selected (choice : Option SourceId)
  | settled (outcome : Outcome)
deriving DecidableEq

/-- Makes a move. A registration that is refused changes nothing. -/
def make (rotation : Rotation) : Move → Made × Rotation
  | .register id =>
    match rotation.register id with
    | .ok next => (.registered id, next)
    | .error cause => (.refused id cause, rotation)
  | .announce id => (.announced id (rotation.awaits id), rotation.announce id)
  | .select => (.selected rotation.select.1, rotation.select.2)
  | .settle outcome => (.settled outcome, rotation.settle outcome)

/-- The rotation that the moves lead to. -/
def reached : List Move → Rotation
  | [] => empty
  | move :: earlier => ((reached earlier).make move).2

/-- The moves of a stretch with their answers, when those before it had been made. -/
def history (before : List Move) : List Move → List Made
  | [] => []
  | move :: earlier => ((reached (earlier ++ before)).make move).1 :: history before earlier

end FairMerge.Rotation
