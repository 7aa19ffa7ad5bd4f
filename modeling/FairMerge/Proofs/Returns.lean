import FairMerge.Proofs.Ledger

/-! # What the consumer gets is what the journal calls delivered

A view answers its consumer with deliveries, and its journal has an entry for each. Read over a
whole history, the answers and the journal tell of the same deliveries in the same order. -/

namespace FairMerge

open Activity (deliveries)

namespace View

variable {σ α : Type} [Producer σ α] (view : View) (sources : List σ)

theorem deliveries_refill : deliveries (view.refill sources).journal = [] := by
  cases released : view.released with
  | true =>
    rw [refill_of_released released]
    rfl
  | false =>
    obtain ⟨pass, _, filled⟩ := refill_of_unreleased released sources
    rw [filled, Activity.deliveries_map_pulled]

theorem deliveries_consult {β : Type} (answer : View → β) :
    deliveries (view.consult sources answer).journal = [] :=
  view.deliveries_refill sources

theorem deliveries_next :
    deliveries (view.next sources).journal = (view.next sources).value.toList := by
  have first := view.deliveries_refill sources
  rcases view.next_cases sources with ⟨_, result⟩ | ⟨entry, queue, _, second, rfl, result⟩
  · rw [result]
    exact first
  · rw [result]
    have second := deliveries_refill { (view.refill sources).view with queue }
      (view.refill sources).sources
    rw [Activity.deliveries_append, Activity.deliveries_append, first, second,
      Activity.deliveries_delivered]
    rfl

theorem deliveries_drain (limit : Nat) :
    deliveries (view.drain sources limit).journal = (view.drain sources limit).value := by
  induction limit generalizing view sources with
  | zero => rfl
  | succ limit ih =>
    have first := view.deliveries_next sources
    rw [View.drain]
    cases taken : (view.next sources).value with
    | none => simpa [taken] using first
    | some entry =>
      have rest := ih (view.next sources).view (view.next sources).sources
      simp only [taken, Option.toList_some] at first
      simp [first, rest]

theorem deliveries_notify (source : SourceRef) :
    deliveries (view.notify sources source).journal = [] := by
  rcases view.notify_cases sources source with
    ⟨_, result⟩ | ⟨id, _, _, ⟨_, result⟩ | ⟨_, result⟩⟩
  · rw [result]
    rfl
  · rw [result]
    exact deliveries_consult _ sources _
  · rw [result]
    rfl

theorem deliveries_release : deliveries (view.release sources).journal = [] := by
  unfold View.release
  split
  · rfl
  · exact Activity.deliveries_map_released _

end View

/-- Whether a view answers that there is no delivery. -/
def Reply.isEnd {σ : Type} : Reply σ → Bool
  | delivery none => true
  | _ => false

/-- The deliveries that an answer carries. -/
def Reply.carried {σ : Type} : Reply σ → List Delivery
  | delivery taken => taken.toList
  | deliveries taken => taken
  | _ => []

/-- The deliveries with which a view answers a command. -/
def Command.returned {ν α σ : Type} (ref : ViewRef) (command : Command ν α) (reply : Reply σ) :
    List Delivery :=
  match command with
  | request other _ => if other = ref then reply.carried else []
  | _ => []

theorem Command.returned_of_resolve? {ν μ α σ : Type} {find? : ν → Option μ} {command : Command ν α}
    {resolved : Command μ α} (found : command.resolve? find? = some resolved) (ref : ViewRef)
    (reply : Reply σ) : resolved.returned ref reply = command.returned ref reply := by
  cases command with
  | attach | ring | isAlive =>
    simp only [resolve?, Option.map_eq_some_iff] at found
    obtain ⟨_, _, rfl⟩ := found
    rfl
  | _ =>
    simp only [resolve?, Option.some.injEq] at found
    subst found
    rfl

/-- What a view returned to its consumer in the records. -/
def Record.returned {σ α : Type} (ref : ViewRef) (records : List (Record σ α)) : List Delivery :=
  records.flatMap fun record => record.task.command.returned ref record.step.reply

namespace Network

variable {σ α : Type} [Producer σ α] (network : Network σ) (ref : ViewRef)

theorem deliveries_commit {β : Type} (target : ViewRef) (effect : Effect σ β)
    (reply : β → Reply σ) :
    deliveries (Event.activities ref (network.commit target effect reply).events) =
      if target = ref then deliveries effect.journal else [] := by
  by_cases same : target = ref
  · subst same
    rw [if_pos rfl, commit, Event.activities_map_view]
  · rw [if_neg same, commit, Event.activities_map_view_of_ne same]
    rfl

theorem deliveries_notify (notifier : Notifier) :
    deliveries (Event.activities ref (network.notify notifier).events) = [] := by
  unfold notify
  cases network.view? notifier.view with
  | none => rfl
  | some view =>
    have heard : deliveries (Event.activities ref (network.commit notifier.view
        (view.notify network.sources notifier.source) fun _ => .flag true).events) = [] := by
      rw [deliveries_commit, view.deliveries_notify, ite_self]
    simp only
    split
    · unfold signalling
      split
      · exact heard
      · simp only [Event.activities_append, Activity.deliveries_append, heard, List.nil_append]
        rfl
    · exact heard

theorem deliveries_change (source : SourceRef) (step : σ → σ × Option Notifier) (reply : Reply σ) :
    deliveries (Event.activities ref (network.change source step reply).events) = [] := by
  unfold change
  cases network.sources[source]? with
  | none => rfl
  | some state =>
    simp only [ringing]
    cases (step state).2 with
    | none => rfl
    | some notifier => exact deliveries_notify _ ref notifier

/-- An answer to a request has the deliveries that its journal tells of. -/
theorem deliveries_answer (target : ViewRef) (view : View) (request : Request) :
    (deliveries (Event.activities ref (network.answer target view request).events)).map
        Entry.delivery =
      if target = ref then (network.answer target view request).reply.carried else [] := by
  cases request with
  | next =>
    rw [answer, deliveries_commit, view.deliveries_next]
    split
    · cases taken : (view.next network.sources).value <;> simp [commit, Reply.carried, taken]
    · rfl
  | drain limit =>
    rw [answer, deliveries_commit, view.deliveries_drain]
    split
    · rfl
    · rfl
  | peek =>
    have silent : deliveries (view.peek network.sources).journal = [] :=
      view.deliveries_consult network.sources _
    rw [answer, deliveries_commit, silent]
    simp [commit, Reply.carried]
  | availability credit =>
    have silent : deliveries (view.availability network.sources credit).journal = [] :=
      view.deliveries_consult network.sources _
    rw [answer, deliveries_commit, silent]
    simp [commit, Reply.carried]
  | release =>
    rw [answer, deliveries_commit, view.deliveries_release]
    cases failed : (view.release network.sources).value <;> simp [commit, Reply.carried, failed]
  | requireSegment id segment =>
    simp only [answer]
    split <;> exact (ite_self _).symm
  | _ => exact (ite_self _).symm

/-- A command's answer has the deliveries that its journal tells of. -/
theorem returned_exec (command : Command Notifier α) :
    command.returned ref (network.exec command).reply =
      (deliveries (Event.activities ref (network.exec command).events)).map Entry.delivery := by
  cases command with
  | request target request =>
    simp only [exec, Command.returned]
    cases network.view? target with
    | none => exact ite_self _
    | some view => exact (deliveries_answer network ref target view request).symm
  | register target source id =>
    simp only [exec]
    split <;> rfl
  | attach source notifier =>
    simp only [exec, deliveries_change]
    rfl
  | add target source =>
    simp only [exec]
    split
    · rfl
    · split
      · rfl
      · rw [deliveries_change]
        rfl
  | ring notifier =>
    simp only [exec, deliveries_notify]
    rfl
  | announce target source =>
    simp only [exec]
    split
    · rfl
    · simp only [deliveries_notify]
      rfl
  | act source action =>
    simp only [exec, deliveries_change]
    rfl
  | isAlive notifier => rfl
  | _ =>
    simp only [exec]
    split <;> rfl

end Network

/-- Over a history, a view returned what its journal calls delivered. -/
theorem Session.returned_eq {σ α : Type} [Producer σ α] (session : Session σ α)
    (commands : List (Command Nat α)) (n : Nat) (ref : ViewRef) :
    Record.returned ref ((session.play commands).take n) =
      (deliveries (Record.activities ref ((session.play commands).take n))).map Entry.delivery := by
  refine play_invariant (fun past _ _ => Record.returned ref past =
    (deliveries (Record.activities ref past)).map Entry.delivery) ?_ session rfl commands n
  intro past session task before
  have one : task.command.returned ref (session.perform task.command).reply =
      (deliveries (Event.activities ref (session.perform task.command).events)).map
        Entry.delivery := by
    rcases session.perform_cases task.command with ⟨_, still⟩ | ⟨resolved, found, performed⟩
    · rw [still]
      cases task.command with
      | request target request => exact ite_self _
      | _ => rfl
    · rw [performed, ← Command.returned_of_resolve? found]
      exact Network.returned_exec session.network ref resolved
  simp only [Record.returned, Record.activities, Record.events, List.flatMap_append,
    List.flatMap_singleton, Event.activities_append, Activity.deliveries_append,
    List.map_append] at before ⊢
  rw [before]
  exact congrArg _ one

end FairMerge
