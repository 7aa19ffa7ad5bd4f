import FairMerge.Proofs.History

/-! # The moments of a session

A session goes through a sequence of moments, one before each of its records. A record is what its
command does at its moment, and what every command keeps lasts from any moment on. What callbacks
will still play at a moment is read call by call. -/

namespace FairMerge

section

variable {σ α : Type}

theorem Record.events_append (past later : List (Record σ α)) :
    events (past ++ later) = events past ++ events later :=
  List.flatMap_append

theorem Record.activities_append (ref : ViewRef) (past later : List (Record σ α)) :
    activities ref (past ++ later) = activities ref past ++ activities ref later := by
  rw [activities, events_append, Event.activities_append]
  rfl

/-- What a view has done at some moment goes on from what it had done before. -/
theorem Record.activities_take (ref : ViewRef) (records : List (Record σ α)) {m n : Nat}
    (le : m ≤ n) :
    ∃ new, activities ref (records.take n) = activities ref (records.take m) ++ new := by
  obtain ⟨rest, split⟩ := (List.take_prefix_take_left le : records.take m <+: records.take n)
  exact ⟨activities ref rest, by rw [← split, activities_append]⟩

theorem Record.events_append_recordOf [Producer σ α] (past : List (Record σ α))
    (session : Session σ α) (task : Task α) :
    events (past ++ [session.recordOf task]) =
      events past ++ (session.perform task.command).events := by
  rw [events_append]
  simp [events, Session.recordOf]

end

namespace Session

variable {σ α : Type}

@[simp] theorem handedOut_append_singleton (session : Session σ α) (records : List (Record σ α))
    (record : Record σ α) : session.handedOut (records ++ [record]) = record.notifiers := by
  simp [handedOut]

theorem notifiers_reach_of_unissued (session : Session σ α) {step : Step σ}
    (unissued : ∀ notifier, step.reply ≠ .registered notifier) :
    (session.reach step).notifiers = session.notifiers := by
  unfold reach
  split
  · rename_i notifier replied
    exact absurd replied (unissued notifier)
  · rfl

/-! ### What callbacks will play -/

/-- What a call of a view's callback will play, the next call having the number zero. -/
def script (session : Session σ α) (view : ViewRef) (call : Nat) : List (Command Nat α) :=
  ((session.reactions[view]?.getD [])[call]?).getD []

theorem reaction_eq_script (session : Session σ α) (view : ViewRef) :
    session.reaction view = session.script view 0 := by
  unfold reaction script
  cases session.reactions[view]? with
  | none => rfl
  | some lists => cases lists <;> rfl

theorem script_spend (session : Session σ α) (view target : ViewRef) (call : Nat) :
    (session.spend view).script target call =
      if view = target then session.script target (call + 1) else session.script target call := by
  unfold spend script
  by_cases same : view = target
  · subst same
    rw [if_pos rfl, List.getElem?_modify_eq]
    cases session.reactions[view]? with
    | none => rfl
    | some lists => cases lists <;> rfl
  · rw [if_neg same, List.getElem?_modify_ne _ _ same]

/-- Sessions whose callbacks will play alike, call by call, do so once each took the next call. -/
theorem scripts_spend {first second : Session σ α}
    (Alike : List (Command Nat α) → List (Command Nat α) → Prop)
    (scripts : ∀ target call, Alike (first.script target call) (second.script target call))
    (view target : ViewRef) (call : Nat) :
    Alike ((first.spend view).script target call) ((second.spend view).script target call) := by
  rw [script_spend, script_spend]
  split
  · exact scripts target (call + 1)
  · exact scripts target call

/-- What callbacks will play may be changed call by call, as long as nothing stays nothing. -/
theorem script_map (session : Session σ α)
    {change : List (Command Nat α) → List (Command Nat α)} (nothing : change [] = [])
    (view : ViewRef) (call : Nat) :
    ({ session with reactions := session.reactions.map (List.map change) } : Session σ α).script
      view call = change (session.script view call) := by
  unfold script
  simp only [List.getElem?_map]
  cases session.reactions[view]? with
  | none => exact nothing.symm
  | some lists =>
    simp only [Option.map_some, Option.getD_some, List.getElem?_map]
    cases lists[call]? with
    | none => exact nothing.symm
    | some commands => rfl

/-! ### Records and what lasts -/

variable [Producer σ α] (session : Session σ α) (commands : List (Command Nat α))

/-- Each record tells what its command does at the moment at which it is played. -/
theorem record_play {n : Nat} {record : Record σ α}
    (played : (session.play commands)[n]? = some record) :
    ∃ current : Session σ α,
      current.network = session.reachedBy ((session.play commands).take n) ∧
      current.notifiers = session.handedOut ((session.play commands).take n) ∧
      record = current.recordOf record.task := by
  have each := (play_invariant (fun past network notifiers =>
    network = session.reachedBy past ∧ notifiers = session.handedOut past ∧
      ∀ place record, past[place]? = some record → ∃ current : Session σ α,
        current.network = session.reachedBy (past.take place) ∧
        current.notifiers = session.handedOut (past.take place) ∧
        record = current.recordOf record.task) ?_ session ⟨rfl, rfl, by simp⟩ commands
    (n + 1)).2.2 n record (by rw [List.getElem?_take_of_lt (Nat.lt_succ_self n), played])
  · rw [List.take_take, Nat.min_eq_left (Nat.le_succ n)] at each
    exact each
  · rintro past current task ⟨network, notifiers, before⟩
    refine ⟨by simp [recordOf], by simp [recordOf], ?_⟩
    intro place record there
    by_cases inside : place < past.length
    · rw [List.getElem?_append_left inside] at there
      rw [List.take_append_of_le_length (Nat.le_of_lt inside)]
      exact before place record there
    · have last : place = past.length := by
        have bound := (List.getElem?_eq_some_iff.mp there).1
        rw [List.length_append, List.length_singleton] at bound
        omega
      subst last
      rw [List.getElem?_concat_length, Option.some.injEq] at there
      rw [List.take_left' rfl, ← there]
      exact ⟨current, network, notifiers, rfl⟩

omit [Producer σ α] in
theorem reachedBy_take_succ {records : List (Record σ α)} {n : Nat} {record : Record σ α}
    (there : records[n]? = some record) :
    session.reachedBy (records.take (n + 1)) = record.step.network := by
  rw [List.take_add_one, there, Option.toList_some, reachedBy_append_singleton]

/-- What every command keeps, once it holds, holds at all later moments. -/
theorem play_persists (Holds : List (Record σ α) → Network σ → Prop)
    (keeps : ∀ past (current : Session σ α) task, Holds past current.network →
      Holds (past ++ [current.recordOf task]) (current.perform task.command).network)
    {m n : Nat} (le : m ≤ n)
    (holds : Holds ((session.play commands).take m)
      (session.reachedBy ((session.play commands).take m))) :
    Holds ((session.play commands).take n)
      (session.reachedBy ((session.play commands).take n)) := by
  induction le with
  | refl => exact holds
  | @step n _ before =>
    rw [List.take_add_one]
    cases played : (session.play commands)[n]? with
    | none => simpa using before
    | some record =>
      obtain ⟨current, network, _, same⟩ := session.record_play commands played
      rw [← network] at before
      have after := keeps _ current record.task before
      rw [Option.toList_some, reachedBy_append_singleton, same]
      exact after

/-- What every step of a view keeps, once it holds of the view at a place, holds at all later
moments. -/
theorem holds_of_earlier {Holds : View → Prop} (inv : View.Invariant σ fun view _ _ => Holds view)
    {ref : ViewRef} {m n : Nat} (le : m ≤ n)
    (holds : ∀ view, (session.reachedBy ((session.play commands).take m)).view? ref = some view →
      Holds view) :
    ∀ view, (session.reachedBy ((session.play commands).take n)).view? ref = some view →
      Holds view := by
  refine session.play_persists commands
    (fun _ network => ∀ view, network.view? ref = some view → Holds view) ?_ le holds
  intro past current task before
  rcases current.perform_cases task.command with ⟨_, still⟩ | ⟨resolved, _, performed⟩
  · rw [still]
    exact before
  · rw [performed]
    have upholds : (current.network.exec resolved).Upholds (fun view _ _ => Holds view) ref [] :=
      Network.upholds_exec inv before resolved
    exact upholds

end Session

end FairMerge
