import FairMerge.Network

/-! # Sessions

A session plays a list of commands on a network whose callbacks act on it in turn: to each view
belong lists of commands, of which each call of its callback plays the next one. Once they are used
up the callback does nothing. The commands name a notifier by its place among those that the session
has handed out so far.

Since a callback is called at the very end of a command, its commands come right after that command
and before those that were to follow. So a session is one sequence of commands, in which each
command carries its depth, the number of callbacks that it runs inside. -/

namespace FairMerge

/-- A command with the number of callbacks that it runs inside. -/
structure Task (α : Type) where
  depth : Nat
  command : Command Nat α

/-- The state of a session. -/
structure Session (σ α : Type) where
  network : Network σ
  /-- The notifiers handed out, the oldest first. -/
  notifiers : List Notifier
  /-- For each view, what the calls of its callback will play. -/
  reactions : List (List (List (Command Nat α)))

/-- What a command did in a session. -/
structure Record (σ α : Type) where
  task : Task α
  step : Step σ
  /-- The notifiers handed out by then. -/
  notifiers : List Notifier

namespace Session

variable {σ α : Type}

/-- A session before anything has happened: views fresh from their settings, each with its listener,
and no notifier handed out. -/
def start (sources : List σ) (views : List (Config × Listener))
    (reactions : List (List (List (Command Nat α)))) : Session σ α where
  network := .ofViews sources (views.map fun (config, listener) =>
    (View.ofConfig config, listener))
  notifiers := []
  reactions := reactions

/-- The number of commands that callbacks may still play. -/
def pending (session : Session σ α) : Nat := session.reactions.flatten.flatten.length

/-- What the next call of a view's callback plays. -/
def reaction (session : Session σ α) (view : ViewRef) : List (Command Nat α) :=
  (session.reactions[view]?.bind List.head?).getD []

/-- The session once that is taken. -/
def spend (session : Session σ α) (view : ViewRef) : Session σ α :=
  { session with reactions := session.reactions.modify view List.tail }

/-- Taking a reaction leaves that many commands fewer. -/
theorem length_reaction_add_pending_spend (session : Session σ α) (view : ViewRef) :
    (session.reaction view).length + (session.spend view).pending = session.pending := by
  unfold reaction spend pending
  generalize session.reactions = reactions
  induction reactions generalizing view with
  | nil => simp
  | cons lists reactions ih =>
    cases view with
    | zero => cases lists <;> simp
    | succ view =>
      have later := ih view
      simp only [List.getElem?_cons_succ, List.modify_succ_cons, List.flatten_cons,
        List.flatten_append, List.length_append] at later ⊢
      omega

/-- The session after a step that was played in it. -/
def reach (session : Session σ α) (step : Step σ) : Session σ α :=
  { session with
    network := step.network
    notifiers := match step.reply with
      | .registered notifier => session.notifiers ++ [notifier]
      | _ => session.notifiers }

variable [Producer σ α]

/-- Carries a command out. One that names a notifier not handed out does nothing. -/
def perform (session : Session σ α) (command : Command Nat α) : Step σ :=
  match command.resolve? fun place => session.notifiers[place]? with
  | none => session.network.still .missing
  | some command => session.network.exec command

/-- Plays the tasks in order, each followed by what its callback plays. -/
def run (session : Session σ α) : List (Task α) → List (Record σ α)
  | [] => []
  | task :: tasks =>
    let step := session.perform task.command
    let reached := session.reach step
    ⟨task, step, reached.notifiers⟩ ::
      match step.call? with
      | none => reached.run tasks
      | some call =>
        (reached.spend call.view).run
          ((reached.reaction call.view).map (Task.mk (task.depth + 1)) ++ tasks)
termination_by tasks => session.pending + tasks.length
decreasing_by
  · simp [pending, reach]
  · have := length_reaction_add_pending_spend
      (session.reach (session.perform task.command)) call.view
    have unspent : (session.reach (session.perform task.command)).pending = session.pending := rfl
    simp only [List.length_append, List.length_map, List.length_cons]
    omega

/-- Plays commands that run inside no callback. -/
def play (session : Session σ α) (commands : List (Command Nat α)) : List (Record σ α) :=
  session.run (commands.map (Task.mk 0))

end Session

/-- A command together with what was played inside its callback, and the network after all of
it. -/
inductive Trace (σ α : Type) where
  | node (record : Record σ α) (inner : List (Trace σ α)) (reached : Network σ)

namespace Trace

variable {σ α : Type}

/-- The record of the command itself. -/
def record : Trace σ α → Record σ α
  | node record _ _ => record

/-- What was played inside the callback. -/
def inner : Trace σ α → List (Trace σ α)
  | node _ inner _ => inner

/-- The network after the command and all that was played inside its callback. -/
def reached : Trace σ α → Network σ
  | node _ _ reached => reached

/-- Puts a record before a forest: the deeper records at the front of the forest ran inside it. -/
def graft (record : Record σ α) (forest : List (Trace σ α)) : List (Trace σ α) :=
  let parts := forest.span fun trace => record.task.depth < trace.record.task.depth
  node record parts.1 (parts.1.getLast?.elim record.step.network reached) :: parts.2

/-- The forest of a sequence of records. -/
def ofRecords (records : List (Record σ α)) : List (Trace σ α) := records.foldr graft []

end Trace

end FairMerge
