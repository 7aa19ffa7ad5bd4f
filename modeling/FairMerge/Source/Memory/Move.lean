import FairMerge.Source

/-! # Moves of a memory source

What can happen to a memory source by itself, one move after the other and in any order, whoever
makes them. A pull is a move whether a view makes it or somebody past every view.

Lists of moves have the latest one first, so that what came before a move is the rest of the
list. -/

namespace FairMerge.MemorySource

/-- Something that happens to a memory source. -/
inductive Move where
  | act (action : Action)
  | pull
  | release
  | requireSegment (id : SourceId) (segment : UInt32)
  | resize (size : Nat)
  | attach (notifier : Notifier)
deriving DecidableEq

/-- A move that was made, with the answer to it. -/
inductive Made where
  | acted (action : Action)
  | pulled (answer : Answer)
  | released (error? : Option Error)
  /-- The source was told something or given a notifier. -/
  | told
deriving DecidableEq

/-- Makes a move. -/
def make (source : MemorySource) : Move → Made × MemorySource
  | .act action => (.acted action, (source.act action).1)
  | .pull => (.pulled source.pull.1, source.pull.2)
  | .release => (.released source.release.1, source.release.2)
  | .requireSegment id segment => (.told, Producer.requireSegment id segment source)
  | .resize size => (.told, Producer.resize size source)
  | .attach notifier => (.told, (source.attach notifier).1)

/-- The source that the moves lead to. -/
def reached (source : MemorySource) : List Move → MemorySource
  | [] => source
  | move :: earlier => ((source.reached earlier).make move).2

/-- The moves with their answers. -/
def history (source : MemorySource) : List Move → List Made
  | [] => []
  | move :: earlier => ((source.reached earlier).make move).1 :: source.history earlier

theorem reached_append (source : MemorySource) (later earlier : List Move) :
    source.reached (later ++ earlier) = (source.reached earlier).reached later := by
  induction later with
  | nil => rfl
  | cons move later ih => rw [List.cons_append, reached, reached, ih]

theorem history_append (source : MemorySource) (later earlier : List Move) :
    source.history (later ++ earlier) =
      (source.reached earlier).history later ++ source.history earlier := by
  induction later with
  | nil => rfl
  | cons move later ih =>
    rw [List.cons_append, history, history, ih, reached_append, List.cons_append]

end FairMerge.MemorySource
