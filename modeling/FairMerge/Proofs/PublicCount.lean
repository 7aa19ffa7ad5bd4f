import FairMerge.Proofs.SlotSteps
import FairMerge.Source

/-! # The public count

How many buffers wait in a view shows in three places: in the queue itself, in the counters, and in
a number that the view makes public for those who do not want to wait for it. Nothing in the queue
or in the number knows of the others or of the capacity: each operation refills no further than the
capacity, and makes the count public before it ends. -/

namespace FairMerge

variable {σ α : Type} [Producer σ α]

/-- The view admits so many buffers and no more of them wait, and the public number is theirs. -/
structure View.Counted (capacity : Nat) (view : View) : Prop where
  sound : view.Sound
  admits : view.queue.capacity = capacity
  published : view.published = view.queue.length

namespace View

theorem capacity_refill (view : View) (sources : List σ) :
    (view.refill sources).view.queue.capacity = view.queue.capacity := by
  unfold refill
  split <;> rfl

namespace Counted

variable {capacity : Nat} {view later : View}

/-- Whatever the number was, it is right after a refill that is followed by its publication. -/
theorem of_refill (sound : view.Sound) (admits : view.queue.capacity = capacity)
    (sources : List σ) : (view.refill sources).view.publish.Counted capacity where
  sound := (sound.refill sources).publish
  admits := (view.capacity_refill sources).trans admits
  published := rfl

theorem consult {β : Type} (counted : view.Counted capacity) (sources : List σ)
    (answer : View → β) : (view.consult sources answer).view.Counted capacity :=
  of_refill counted.sound counted.admits sources

theorem next (counted : view.Counted capacity) (sources : List σ) :
    (view.next sources).view.Counted capacity := by
  have first := of_refill counted.sound counted.admits sources
  rcases view.next_cases sources with ⟨_, result⟩ | ⟨entry, queue, popped, second, rfl, result⟩
  · rw [result]
    exact first
  · rw [result]
    have taken := (counted.sound.refill sources).pop popped
    have admits : queue.capacity = capacity :=
      (Lookahead.pop?_eq_some_iff.mp popped).2.symm.trans first.admits
    have again := of_refill taken admits (view.refill sources).sources
    exact { again with sound := again.sound.handOut }

theorem drain (counted : view.Counted capacity) (sources : List σ) (limit : Nat) :
    (view.drain sources limit).view.Counted capacity := by
  induction limit generalizing view sources with
  | zero => exact counted
  | succ limit ih =>
    have first := counted.next sources
    rw [View.drain]
    cases (view.next sources).value with
    | none => exact first
    | some entry => exact ih first _

/-- A notification that is heard while something waits changes neither the queue nor the number. -/
theorem notify (counted : view.Counted capacity) (sources : List σ) (source : SourceRef) :
    (view.notify sources source).view.Counted capacity := by
  have heard (id : SourceId) : (view.hear id).Counted capacity :=
    { counted with sound := counted.sound.hear id }
  rcases view.notify_cases sources source with
    ⟨_, result⟩ | ⟨id, _, _, ⟨_, result⟩ | ⟨_, result⟩⟩
  · rw [result]
    exact counted
  · rw [result]
    exact (heard id).consult sources _
  · rw [result]
    exact heard id

theorem release (counted : view.Counted capacity) (sources : List σ) :
    (view.release sources).view.Counted capacity := by
  unfold View.release
  split
  · exact counted
  · exact ⟨counted.sound.release.publish, counted.admits, rfl⟩

theorem register {id : SourceId} {source : SourceRef} (counted : view.Counted capacity)
    (registered : view.register id source = .ok later) : later.Counted capacity := by
  have sound := counted.sound.register registered
  obtain ⟨_, _, _, rotation, _, rfl⟩ := register_cases registered
  exact ⟨sound, counted.admits, counted.published⟩

end Counted

end View

/-- The view in the slot has the settings given and is counted, if there is one. -/
def Slot.Counted (config? : Option Config) (slot : Slot) : Prop :=
  ∀ view, slot.view? = some view → ∃ config ∈ config?, view.Counted config.capacity

/-- Every step keeps the capacity, and leaves the public number right. -/
theorem Slot.counted_invariant (ref : ViewRef) (command : Command Notifier α)
    (config? : Option Config) :
    Slot.Invariant (σ := σ) ref command fun _ slot _ => slot.Counted config? where
  serve counted _ := counted
  consult answer _ counted := by
    rintro _ ⟨⟩
    obtain ⟨config, given, before⟩ := counted _ rfl
    exact ⟨config, given, before.consult _ answer⟩
  next _ counted := by
    rintro _ ⟨⟩
    obtain ⟨config, given, before⟩ := counted _ rfl
    exact ⟨config, given, before.next _⟩
  drain limit _ counted := by
    rintro _ ⟨⟩
    obtain ⟨config, given, before⟩ := counted _ rfl
    exact ⟨config, given, before.drain _ limit⟩
  release _ counted := by
    rintro _ ⟨⟩
    obtain ⟨config, given, before⟩ := counted _ rfl
    exact ⟨config, given, before.release _⟩
  register counted registered := by
    rintro _ ⟨⟩
    obtain ⟨config, given, before⟩ := counted _ rfl
    exact ⟨config, given, before.register registered⟩
  act _ counted _ := counted
  attach _ counted _ := counted
  ring counted := counted
  deaf _ counted := counted
  notify counted := by
    rintro _ ⟨⟩
    obtain ⟨config, given, before⟩ := counted _ rfl
    exact ⟨config, given, before.notify _ _⟩
  receive _ counted _ := counted
  disconnect counted _ := counted
  drop _ := by
    rintro _ ⟨⟩

namespace Session

variable (sources : List σ) (views : List (Config × Listener))
  (reactions : List (List (List (Command Nat α)))) (commands : List (Command Nat α)) (n : Nat)

/-- At every point of a session, inside callbacks too, every view is counted and has the capacity
that it was made with. -/
theorem counted_play {ref : ViewRef} {view : View} :
    let session := start sources views reactions
    (session.reachedBy ((session.play commands).take n)).view? ref = some view →
      ∃ config ∈ views[ref]?.map Prod.fst, view.Counted config.capacity := by
  intro session found
  obtain ⟨listener, there⟩ := Network.view?_eq_some_iff.mp found
  refine (play_invariant (fun _ network notifiers => network.Stands notifiers ∧
    network.Keeps (fun _ slot _ => slot.Counted (views[ref]?.map Prod.fst)) ref none) ?_ session
    ⟨?_, ?_⟩ commands n).2 _ there view rfl
  · rintro _ session task ⟨stands, counted⟩
    exact ⟨stands_perform stands task.command, keeps_perform
      (fun resolved _ => Slot.counted_invariant ref resolved _) stands counted⟩
  · intro notifier mem
    cases mem
  · intro slot present fresh seen
    simp only [session, start, Network.ofViews, List.getElem?_map, List.map_map,
      Option.map_eq_some_iff] at present
    obtain ⟨⟨config, listener⟩, settings, rfl⟩ := present
    refine ⟨config, by rw [settings]; rfl, ?_⟩
    cases built : View.ofConfig config with
    | error cause => simp [built, Except.toOption] at seen
    | ok made =>
      have same : made = fresh := by simpa [built, Except.toOption] using seen
      subst same
      refine ⟨View.sound_of_config built, ?_, ?_⟩
      all_goals
        rw [(View.eq_empty_of_config built).1]
        rfl

end Session

/-- At every point of a session, so also when a callback starts and between the commands that it
plays, and whatever the sources answer: a view admits as many buffers as it was made to admit, at
least one, and no more than that wait in it. Asked for the number of waiting buffers, for the one
that it has made public, for its counters and for its description, it answers with the same number,
and it never counts more data buffers than that. -/
theorem count_public (sources : List σ) (views : List (Config × Listener))
    (reactions : List (List (List (Command Nat α)))) (commands : List (Command Nat α)) (n : Nat)
    (ref : ViewRef) (view : View) :
    let session := Session.start sources views reactions
    let reached := session.reachedBy ((session.play commands).take n)
    let ask (request : Request) := reached.exec (.request ref request : Command Notifier α)
    let waiting := view.queue.entries.length
    reached.view? ref = some view →
      ∃ config listener, views[ref]? = some (config, listener) ∧ 0 < config.capacity ∧
        waiting ≤ config.capacity ∧ view.published = waiting ∧
        ask .capacity = reached.still (.number config.capacity) ∧
        ask .queued = reached.still (.number waiting) ∧
        ask .publicCount = reached.still (.number waiting) ∧
        ask .describe = reached.still (.text (Description.bracedOpen "UnionView"
          [Description.field "queued" (Decimal.text waiting)])) ∧
        ∃ stats, ask .stats = reached.still (.stats stats) ∧ stats.queued = waiting ∧
          stats.dataBacklog ≤ stats.queued := by
  intro session reached ask waiting found
  obtain ⟨config, given, counted⟩ :=
    Session.counted_play sources views reactions commands n found
  obtain ⟨⟨config, listener⟩, settings, rfl⟩ := Option.map_eq_some_iff.mp given
  have answers (request : Request) : ask request = reached.answer ref view request := by
    simp only [ask, Network.exec, found]
  refine ⟨config, listener, settings, ?_, ?_, counted.published, ?_, ?_, ?_, ?_, view.stats, ?_,
    rfl, List.countP_le_length⟩
  · have positive := counted.sound.capacity
    rwa [counted.admits] at positive
  · have within := counted.sound.within
    rwa [counted.admits] at within
  · rw [answers, Network.answer, View.capacity, counted.admits]
  · rw [answers]
    rfl
  · rw [answers, Network.answer, counted.published]
    rfl
  · rw [answers, Network.answer, View.describe, counted.published]
    rfl
  · rw [answers]
    rfl

namespace Brimful

/-- The source has more than the view admits. -/
def sources : List Source := [.memory (.ofBuffers ⟨7⟩ [.event [1], .data [2], .data [3]])]

/-- The callback looks at the counters, takes a buffer and looks again. -/
def session : Session Source Source.Action :=
  .start sources [(⟨2⟩, .ofCallback)] [[[.request 0 .stats, .request 0 .next, .request 0 .queued]]]

def commands : List (Command Nat Source.Action) := [.add 0 0, .request 0 .release]

def reached (n : Nat) : Network Source := session.reachedBy ((session.play commands).take n)

end Brimful

open Brimful in
/-- When the callback starts, which is after the first command, two of the three buffers wait. -/
theorem count_public_brimful :
    (∃ record, (session.play commands)[0]? = some record ∧ record.step.call? = some ⟨0, 1⟩) ∧
      ∃ view, (reached 1).view? 0 = some view ∧ view.queue.entries.length = 2 ∧
        view.published = 2 ∧
        (reached 1).exec (.request 0 .queued : Command Notifier Source.Action) =
          (reached 1).still (.number 2) ∧
        (reached 1).exec (.request 0 .publicCount : Command Notifier Source.Action) =
          (reached 1).still (.number 2) ∧
        ∃ stats, (reached 1).exec (.request 0 .stats : Command Notifier Source.Action) =
          (reached 1).still (.stats stats) ∧ stats.queued = 2 ∧ stats.dataBacklog ≤ 2 := by
  have called : ((session.play commands)[0]?).any (fun record =>
      decide (record.step.call? = some ⟨0, 1⟩)) = true := by
    decide +kernel
  have there : ((reached 1).view? 0).any (fun view =>
      decide (view.queue.entries.length = 2)) = true := by
    decide +kernel
  obtain ⟨record, played, calls⟩ := (Option.any_eq_true _ _).mp called
  obtain ⟨view, found, full⟩ := (Option.any_eq_true _ _).mp there
  have two : view.queue.entries.length = 2 := of_decide_eq_true full
  obtain ⟨config, listener, _, _, _, published, _, queued, shown, _, stats, counters, same, data⟩ :=
    count_public sources [(⟨2⟩, .ofCallback)]
      [[[.request 0 .stats, .request 0 .next, .request 0 .queued]]] commands 1 0 view found
  rw [two] at published queued shown same
  rw [same] at data
  exact ⟨⟨record, played, of_decide_eq_true calls⟩, view, found, two, published, queued, shown,
    stats, counters, same, data⟩

end FairMerge
