import FairMerge.Proofs.Moments
import FairMerge.Proofs.Returns
import FairMerge.Source

/-! # The numbers on deliveries

A source says of its own buffers where they stand in its own output. The view replaces all of that:
what it delivers bears the position in the view's output, and counts of what waits in the view. The
counts are read after the place of the delivery was filled again, while the number was fixed before,
so that it matters which of the three a step changes. -/

namespace FairMerge

open Activity (deliveries)

/-- What a delivery says of the buffers behind it is true of the view that it left: so many data
buffers wait, and the buffer that leaves next has this kind. -/
structure Delivery.Tells (delivery : Delivery) (view : View) : Prop where
  backlog : delivery.backlog =
    (view.queue.entries.filter fun entry => entry.delivery.buffer.kind = .data).length
  nextKind : delivery.nextKind =
    (view.queue.entries.head?.map fun entry => entry.delivery.buffer.kind).getD .none

theorem Lookahead.dataBacklog_eq (queue : Lookahead) :
    queue.dataBacklog =
      (queue.entries.filter fun entry => entry.delivery.buffer.kind = .data).length := by
  rw [dataBacklog, List.countP_eq_length_filter]
  congr 2

theorem Lookahead.headKind_eq (queue : Lookahead) :
    queue.headKind =
      (queue.entries.head?.map fun entry => entry.delivery.buffer.kind).getD .none := by
  obtain ⟨entries, capacity⟩ := queue
  cases entries <;> rfl

namespace View

/-- What was stamped by a view tells of it. -/
theorem tells_stamp (view : View) (entry : Entry) : (view.stamp entry).delivery.Tells view :=
  ⟨view.queue.dataBacklog_eq, view.queue.headKind_eq⟩

/-- The deliveries bear the numbers from zero, and the view's number is the next one. -/
def Numbered (view : View) (log : List Activity) : Prop :=
  (deliveries log).map (fun entry => entry.delivery.sequence) = List.range view.sequence

theorem numbered_of_config {config : Config} {view : View}
    (built : View.ofConfig config = .ok view) : view.Numbered [] := by
  rw [(eq_empty_of_config built).1]
  rfl

theorem Numbered.sequence_eq {view : View} {log : List Activity} (numbered : view.Numbered log) :
    view.sequence = (deliveries log).length := by
  have lengths := congrArg List.length numbered
  simpa using lengths.symm

variable {σ α : Type} [Producer σ α]

/-- The number goes on with a buffer that is handed out, and with nothing else. -/
theorem numbered_invariant : Invariant σ fun view _ log => view.Numbered log where
  register numbered registered := by
    obtain ⟨_, _, _, rotation, _, rfl⟩ := register_cases registered
    exact numbered
  announce numbered _ _ := numbered
  absorb numbered _ _ := by
    rw [Numbered, Activity.deliveries_append, Activity.deliveries_map_pulled, List.append_nil]
    exact numbered
  publish numbered := numbered
  pop numbered _ := numbered
  handOut {view _ entry} numbered := by
    rw [Numbered, Activity.deliveries_append, Activity.deliveries_delivered, List.map_append,
      numbered, View.handOut, List.range_succ]
    rfl
  release _ numbered _ := by
    rw [Numbered, Activity.deliveries_append, Activity.deliveries_map_released, List.append_nil]
    exact numbered

/-- A delivery bears the view's number, the view's number is one more after it, and what it says of
the buffers behind it is true of the view after it. -/
theorem next_tells {view : View} {sources : List σ} {given : Entry}
    (taken : (view.next sources).value = some given) :
    given.delivery.Tells (view.next sources).view ∧
      (view.next sources).view.sequence = given.delivery.sequence + 1 := by
  rcases view.next_cases sources with ⟨_, result⟩ | ⟨entry, queue, _, second, _, result⟩
  · rw [result] at taken
    cases taken
  · rw [result] at taken ⊢
    cases taken
    have tells := tells_stamp second.view.publish entry
    exact ⟨⟨tells.backlog, tells.nextKind⟩, rfl⟩

/-- Of several deliveries each tells of the view when it was the last one. -/
theorem drain_tells {view : View} {sources : List σ} {limit place : Nat} {given : Entry}
    (taken : (view.drain sources limit).value[place]? = some given) :
    given.delivery.Tells (view.drain sources (place + 1)).view := by
  induction limit generalizing view sources place with
  | zero => cases taken
  | succ limit ih =>
    rw [drain] at taken ⊢
    cases first : (view.next sources).value with
    | none => simp [first] at taken
    | some entry =>
      simp only [first] at taken ⊢
      cases place with
      | zero =>
        cases taken
        exact (next_tells first).1
      | succ place => exact ih taken

end View

namespace Network

variable {σ α : Type} [Producer σ α] {network : Network σ} {ref : ViewRef}

/-- A view that answers a request is there afterwards. -/
theorem view?_answer {view : View} (found : network.view? ref = some view) (request : Request) :
    ∃ later, (network.answer ref view request).network.view? ref = some later := by
  cases request with
  | peek | next | drain | availability | release => exact ⟨_, view?_setView_self found⟩
  | requireSegment id segment =>
    simp only [answer]
    split <;> exact ⟨view, found⟩
  | _ => exact ⟨view, found⟩

/-- Nothing is returned by a view that is not there afterwards. -/
theorem returned_of_gone {command : Command Notifier α}
    (gone : (network.exec command).network.view? ref = none) :
    command.returned ref (network.exec command).reply = [] := by
  cases command with
  | request target request =>
    rw [Command.returned]
    split
    · rename_i same
      subst same
      cases found : network.view? target with
      | none => simp [exec, found, still, Reply.carried]
      | some view =>
        obtain ⟨later, there⟩ := view?_answer found request
        simp [exec, found, there] at gone
    · rfl
  | _ => rfl

end Network

namespace Session

variable {σ α : Type} [Producer σ α]

theorem returned_of_gone {session : Session σ α} {command : Command Nat α} {ref : ViewRef}
    (gone : (session.perform command).network.view? ref = none) :
    command.returned ref (session.perform command).reply = [] := by
  rcases session.perform_cases command with ⟨_, still⟩ | ⟨resolved, found, performed⟩
  · rw [still]
    cases command with
    | request target request => exact ite_self _
    | _ => rfl
  · rw [performed] at gone ⊢
    rw [← Command.returned_of_resolve? found]
    exact Network.returned_of_gone gone

variable (sources : List σ) (views : List (Config × Listener))
  (reactions : List (List (List (Command Nat α)))) (commands : List (Command Nat α)) (n : Nat)
  (ref : ViewRef)

/-- At every point of a session a view that is there has the number of what it has returned. -/
theorem sequence_eq {view : View} :
    let session := start sources views reactions
    let past := (session.play commands).take n
    (session.reachedBy past).view? ref = some view →
      view.sequence = (Record.returned ref past).length := by
  intro session past found
  have numbered := holds_of_view View.numbered_invariant (fun _ _ => View.numbered_of_config)
    sources views reactions commands n found
  rw [numbered.sequence_eq, session.returned_eq, List.length_map]

/-- What a view has returned at some point of a session bears the numbers from zero, also if the
view is gone by then. -/
theorem sequences_returned :
    let session := start sources views reactions
    let returned := Record.returned ref ((session.play commands).take n)
    returned.map Delivery.sequence = List.range returned.length := by
  intro session returned
  have there {view : View} (m : Nat)
      (found : (session.reachedBy ((session.play commands).take m)).view? ref = some view) :
      (Record.returned ref ((session.play commands).take m)).map Delivery.sequence =
        List.range (Record.returned ref ((session.play commands).take m)).length := by
    have numbered := holds_of_view View.numbered_invariant (fun _ _ => View.numbered_of_config)
      sources views reactions commands m found
    rw [session.returned_eq, List.map_map, List.length_map, ← numbered.sequence_eq]
    exact numbered
  -- what the view had returned when it was there last is all that it ever returns
  induction n with
  | zero => rfl
  | succ n ih =>
    simp only [returned]
    cases found : (session.reachedBy ((session.play commands).take (n + 1))).view? ref with
    | some view => exact there (n + 1) found
    | none =>
      rw [List.take_add_one]
      cases played : (session.play commands)[n]? with
      | none => simpa using ih
      | some record =>
        rw [session.reachedBy_take_succ played] at found
        obtain ⟨current, _, _, same⟩ := session.record_play commands played
        have silent : record.task.command.returned ref record.step.reply = [] := by
          rw [same] at found ⊢
          exact returned_of_gone found
        simpa [Record.returned, silent] using ih

/-- What a view returned comes at the place that its number says. -/
theorem sequence_of_returned {place : Nat} {delivery : Delivery} :
    let session := start sources views reactions
    (Record.returned ref ((session.play commands).take n))[place]? = some delivery →
      delivery.sequence = place := by
  intro session found
  have numbers := congrArg (fun numbers => numbers[place]?)
    (sequences_returned sources views reactions commands n ref)
  have bound := (List.getElem?_eq_some_iff.mp found).1
  rw [List.getElem?_map, found, List.getElem?_range bound] at numbers
  exact Option.some.inj numbers

end Session

section

variable {σ α : Type} [Producer σ α] {session : Session σ α} {commands : List (Command Nat α)}
  {n : Nat} {ref : ViewRef} {record : Record σ α}

/-- A request answers from the network of its moment. -/
theorem Session.step_of_request {request : Request}
    (played : (session.play commands)[n]? = some record)
    (asked : record.task.command = .request ref request) :
    record.step =
      (session.reachedBy ((session.play commands).take n)).exec (.request ref request) := by
  obtain ⟨current, network, _, same⟩ := session.record_play commands played
  rw [same, recordOf, asked, ← network]
  rfl

/-- What an answer carries is returned next. -/
theorem Session.returned_of_request {request : Request}
    (played : (session.play commands)[n]? = some record)
    (asked : record.task.command = .request ref request) :
    Record.returned ref ((session.play commands).take (n + 1)) =
      Record.returned ref ((session.play commands).take n) ++ record.step.reply.carried := by
  rw [List.take_add_one, played]
  simp [Record.returned, asked, Command.returned]

end

namespace Network

variable {σ α : Type} [Producer σ α] {network : Network σ} {ref : ViewRef}

theorem exec_stats {view : View} (found : network.view? ref = some view) :
    network.exec (.request ref .stats : Command Notifier α) = network.still (.stats view.stats) := by
  simp only [exec, found]
  rfl

/-- What a view answers to a request for a delivery is true of the view then. -/
theorem tells_of_next {delivery : Delivery}
    (answered : (network.exec (.request ref .next : Command Notifier α)).reply =
      .delivery (some delivery)) :
    ∃ later, (network.exec (.request ref .next : Command Notifier α)).network.view? ref =
      some later ∧ delivery.Tells later ∧ later.sequence = delivery.sequence + 1 := by
  cases found : network.view? ref with
  | none => simp [exec, found, still] at answered
  | some view =>
    simp only [exec, found, answer, commit, Reply.delivery.injEq, Option.map_eq_some_iff]
      at answered ⊢
    obtain ⟨given, taken, rfl⟩ := answered
    exact ⟨_, view?_setView_self found, View.next_tells taken⟩

/-- What a view answers to a request for several deliveries was true of it one after the other. -/
theorem tells_of_drain {limit place : Nat} {deliveries : List Delivery} {delivery : Delivery}
    (answered : (network.exec (.request ref (.drain limit) : Command Notifier α)).reply =
      .deliveries deliveries) (there : deliveries[place]? = some delivery) :
    ∃ view, network.view? ref = some view ∧
      delivery.Tells (view.drain network.sources (place + 1)).view := by
  cases found : network.view? ref with
  | none => simp [exec, found, still] at answered
  | some view =>
    simp only [exec, found, answer, commit, Reply.deliveries.injEq] at answered
    rw [← answered, List.getElem?_map] at there
    obtain ⟨given, taken, rfl⟩ := Option.map_eq_some_iff.mp there
    exact ⟨view, rfl, View.drain_tells taken⟩

end Network

/-- In every session, whatever the sources answer and attach to their buffers: what a view returns
bears the numbers 0, 1, 2 and so on, and at each moment the counters show how many buffers it has
returned. What a delivery says of the buffers behind it is true of the view right after it, and is
what the counters show then; and of a series of deliveries taken at once, each tells of the view
when so many had been taken. -/
theorem numbering_exact {σ α : Type} [Producer σ α] (sources : List σ)
    (views : List (Config × Listener)) (reactions : List (List (List (Command Nat α))))
    (commands : List (Command Nat α)) (n : Nat) (ref : ViewRef) :
    let session := Session.start sources views reactions
    let records := session.play commands
    let reached := session.reachedBy (records.take n)
    let returned := Record.returned ref (records.take n)
    let counters (network : Network σ) (stats : Stats) : Prop :=
      network.exec (.request ref .stats : Command Notifier α) = network.still (.stats stats)
    (∀ (place : Nat) (delivery : Delivery), returned[place]? = some delivery →
        delivery.sequence = place) ∧
      (∀ view, reached.view? ref = some view → ∃ stats, counters reached stats ∧
        stats.nextSequence = returned.length) ∧
      (∀ record, records[n]? = some record → record.task.command = .request ref .next →
        ∀ delivery, record.step.reply = .delivery (some delivery) →
          delivery.sequence = returned.length ∧
          ∃ later, record.step.network.view? ref = some later ∧ delivery.Tells later ∧
            ∃ stats, counters record.step.network stats ∧
              stats.dataBacklog = delivery.backlog ∧
              stats.nextSequence = delivery.sequence + 1) ∧
      ∀ record limit, records[n]? = some record →
        record.task.command = .request ref (.drain limit) →
        ∀ deliveries, record.step.reply = .deliveries deliveries →
          ∀ (place : Nat) (delivery : Delivery), deliveries[place]? = some delivery →
            delivery.sequence = returned.length + place ∧
            ∃ view, reached.view? ref = some view ∧
              delivery.Tells (view.drain reached.sources (place + 1)).view := by
  intro session records reached returned counters
  have placed (m : Nat) {place : Nat} {delivery : Delivery}
      (there : (Record.returned ref (records.take m))[place]? = some delivery) :
      delivery.sequence = place :=
    Session.sequence_of_returned sources views reactions commands m ref there
  refine ⟨fun place delivery there => placed n there, ?_, ?_, ?_⟩
  · intro view found
    exact ⟨view.stats, Network.exec_stats found,
      Session.sequence_eq sources views reactions commands n ref found⟩
  · intro record played asked delivery answered
    have next := Session.returned_of_request played asked
    rw [answered] at next
    have number : delivery.sequence = returned.length := by
      apply placed (n + 1)
      rw [next]
      exact List.getElem?_concat_length ..
    have step := Session.step_of_request played asked
    rw [step] at answered ⊢
    obtain ⟨later, found, tells, number'⟩ := Network.tells_of_next answered
    refine ⟨number, later, found, tells, later.stats, Network.exec_stats found, ?_, number'⟩
    rw [tells.backlog]
    exact later.queue.dataBacklog_eq
  · intro record limit played asked deliveries answered place delivery there
    have next := Session.returned_of_request played asked
    rw [answered] at next
    refine ⟨placed (n + 1) ?_, ?_⟩
    · rw [next, List.getElem?_append_right (Nat.le_add_right ..), Nat.add_sub_cancel_left]
      exact there
    · rw [Session.step_of_request played asked] at answered
      exact Network.tells_of_drain answered there

namespace Mislabelled

/-- Nothing that the source says of its buffers is so, and it fails in between. -/
def sources : List Source := [.script (.ofAnswers [
  .delivery ⟨.data [1], 42, .event, 99⟩, .failed (.pull ⟨7⟩ "lost"),
  .delivery ⟨.event [2], 7, .none, 99⟩, .delivery ⟨.data [3], 5, .event, 0⟩] none none)]

def session : Session Source Source.Action := .start sources [(⟨2⟩, .ofCallback)] []

def commands : List (Command Nat Source.Action) :=
  [.register 0 0 ⟨7⟩, .ring 0, .request 0 .next, .request 0 .next, .request 0 (.drain 5)]

def reached (n : Nat) : Network Source := session.reachedBy ((session.play commands).take n)

end Mislabelled

open Mislabelled in
/-- The second delivery is the event. It has the number one, and a data buffer waits behind it. The
last one, taken together with all that follow, has the number two. -/
theorem numbering_exact_mislabelled :
    (∃ record later, (session.play commands)[3]? = some record ∧
      record.step.reply = .delivery (some ⟨.event [2], 1, .data, 1⟩) ∧
      1 = (Record.returned 0 ((session.play commands).take 3)).length ∧
      record.step.network.view? 0 = some later ∧
      Delivery.Tells ⟨.event [2], 1, .data, 1⟩ later) ∧
    ∃ record view, (session.play commands)[4]? = some record ∧
      record.step.reply = .deliveries [⟨.data [3], 0, .none, 2⟩] ∧
      (reached 4).view? 0 = some view ∧
      Delivery.Tells ⟨.data [3], 0, .none, 2⟩ (view.drain (reached 4).sources 1).view := by
  have second : ((session.play commands)[3]?).any (fun record =>
      decide (record.task.command = .request 0 .next ∧
        record.step.reply = .delivery (some ⟨.event [2], 1, .data, 1⟩))) = true := by
    decide +kernel
  have last : ((session.play commands)[4]?).any (fun record =>
      decide (record.task.command = .request 0 (.drain 5) ∧
        record.step.reply = .deliveries [⟨.data [3], 0, .none, 2⟩])) = true := by
    decide +kernel
  have exact (n : Nat) := numbering_exact sources [(⟨2⟩, .ofCallback)] [] commands n 0
  obtain ⟨record, played, said⟩ := (Option.any_eq_true _ _).mp second
  obtain ⟨asked, answered⟩ := of_decide_eq_true said
  obtain ⟨number, later, there, tells, _⟩ := (exact 3).2.2.1 record played asked _ answered
  obtain ⟨record', played', said'⟩ := (Option.any_eq_true _ _).mp last
  obtain ⟨asked', answered'⟩ := of_decide_eq_true said'
  obtain ⟨_, view, there', tells'⟩ :=
    (exact 4).2.2.2 record' 5 played' asked' _ answered' 0 _ rfl
  exact ⟨⟨record, later, played, answered, number, there, tells⟩,
    record', view, played', answered', there', tells'⟩

end FairMerge
