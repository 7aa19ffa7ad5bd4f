import FairMerge.Proofs.Lasting
import FairMerge.Proofs.Numbering
import FairMerge.Proofs.Queries

/-! # What a view says of the delivery to come

A view that is asked what comes next answers from the front of its look-ahead queue. Whatever
happens afterwards adds to the end of the queue, and only the consumer takes from the front. So the
answer binds the view until its consumer comes back for the delivery, also if the source that the
buffer was pulled from has failed or was released in the meantime. -/

namespace FairMerge

open Activity (deliveries)

/-- The request asks for one delivery at least. -/
def Request.takes : Request → Bool
  | next => true
  | drain limit => limit != 0
  | _ => false

/-- The command leaves alone what waits in the view at the place: it asks this view neither for a
delivery nor for its release. -/
def Command.leaves {ν α : Type} (ref : ViewRef) : Command ν α → Bool
  | request view asked => !(view == ref && (asked.takes || asked == .release))
  | _ => true

theorem Command.leaves_of_resolve? {ν μ α : Type} {find? : ν → Option μ} {command : Command ν α}
    {resolved : Command μ α} (found : command.resolve? find? = some resolved) (ref : ViewRef) :
    resolved.leaves ref = command.leaves ref := by
  cases command with
  | attach | ring | isAlive =>
    simp only [resolve?, Option.map_eq_some_iff] at found
    obtain ⟨_, _, rfl⟩ := found
    rfl
  | _ =>
    simp only [resolve?, Option.some.injEq] at found
    subst found
    rfl

namespace View

variable {σ α : Type} [Producer σ α] {view : View} {sources : List σ}

/-- While the view is open and has delivered nothing, these entries wait in front. -/
def Keeps (waiting : List Entry) (view : View) (hand : Option Entry) (log : List Activity) : Prop :=
  view.released = false → hand = none → deliveries log = [] → waiting <+: view.queue.entries

/-- Only a delivery or the release takes from the front of the queue. -/
theorem keeps_invariant (waiting : List Entry) : Invariant σ (Keeps waiting) where
  register keeps registered open' free silent := by
    obtain ⟨before, _, _, rotation, _, rfl⟩ := register_cases registered
    exact keeps before free silent
  announce keeps _ _ := keeps
  absorb {_ _ log _ pass} keeps _ _ open' free silent := by
    rw [Activity.deliveries_append, Activity.deliveries_map_pulled, List.append_nil] at silent
    exact (keeps open' free silent).trans (List.prefix_append _ pass.entries)
  publish keeps := keeps
  pop _ _ _ free := nomatch free
  handOut _ _ _ silent := by
    rw [Activity.deliveries_append, Activity.deliveries_delivered, List.append_eq_nil_iff] at silent
    cases silent.2
  release _ _ _ released := nomatch released

theorem entries_refill (view : View) (sources : List σ) :
    view.queue.entries <+: (view.refill sources).view.queue.entries := by
  unfold refill
  split
  · exact List.prefix_rfl
  · exact List.prefix_append _ _

/-- The entry that waits in front is delivered next, and those behind it count in the backlog. -/
theorem next_of_waiting (sources : List σ) {entry : Entry} {rest : List Entry}
    (waits : entry :: rest <+: view.queue.entries) :
    ∃ given, (view.next sources).value = some given ∧ given.source = entry.source ∧
      given.delivery.buffer = entry.delivery.buffer ∧
      rest.countP Entry.isData ≤ given.delivery.backlog := by
  obtain ⟨later, filled⟩ := waits.trans (view.entries_refill sources)
  rcases view.next_cases sources with ⟨stopped, _⟩ | ⟨first, queue, popped, second, rfl, result⟩
  · rw [Lookahead.pop?_eq_none_iff, ← filled] at stopped
    cases stopped
  · obtain ⟨split, _⟩ := Lookahead.pop?_eq_some_iff.mp popped
    rw [← filled, List.cons_append, List.cons.injEq] at split
    obtain ⟨rfl, behind⟩ := split
    rw [result]
    refine ⟨_, rfl, rfl, rfl, ?_⟩
    have kept : rest <+: queue.entries := ⟨later, behind⟩
    have refilled := entries_refill { (view.refill sources).view with queue }
      (view.refill sources).sources
    exact (kept.trans refilled).sublist.countP_le

end View

namespace Network

variable {σ α : Type} [Producer σ α] {network : Network σ} {ref : ViewRef} {waiting : List Entry}
  {command : Command Notifier α} {request : Request} {view : View}

/-- The view at the place, as long as it is there, is open and these entries wait in front. -/
def Reserves (network : Network σ) (ref : ViewRef) (waiting : List Entry) : Prop :=
  ∀ view, network.view? ref = some view →
    view.released = false ∧ waiting <+: view.queue.entries

theorem carried_answer (spared : request.takes = false) :
    (network.answer ref view request).reply.carried = [] := by
  cases request with
  | next => cases spared
  | drain limit =>
    obtain rfl : limit = 0 := by simpa [Request.takes] using spared
    rfl
  | release =>
    cases failed : (view.release network.sources).value <;>
      simp [answer, commit, failed, Reply.carried]
  | requireSegment id segment =>
    simp only [answer]
    split <;> rfl
  | _ => rfl

/-- What is left alone is not returned. -/
theorem returned_of_leaves (leaves : command.leaves ref = true) :
    command.returned ref (network.exec command).reply = [] := by
  cases command with
  | request target request =>
    rw [Command.returned]
    split
    · rename_i same
      subst same
      have spared : request.takes = false := by
        simp only [Command.leaves, beq_self_eq_true, Bool.true_and, Bool.not_eq_true',
          Bool.or_eq_false_iff] at leaves
        exact leaves.1
      simp only [exec]
      split
      · rfl
      · exact carried_answer spared
    · rfl
  | _ => rfl

/-- A command that leaves alone what waits in a view keeps it there. -/
theorem reserves_exec (reserves : network.Reserves ref waiting)
    (leaves : command.leaves ref = true) :
    (network.exec command).network.Reserves ref waiting := by
  have silent : deliveries (Event.activities ref (network.exec command).events) = [] := by
    have returned := returned_exec network ref command
    rw [returned_of_leaves leaves] at returned
    exact List.map_eq_nil_iff.mp returned.symm
  intro later reached
  have open' : later.released = false := by
    obtain ⟨old, there, _, same | asked⟩ := heir_exec reached
    · exact same.trans (reserves old there).1
    · simp [asked, Command.leaves] at leaves
  have kept : (network.exec command).Upholds (View.Keeps waiting) ref [] :=
    upholds_exec (View.keeps_invariant waiting) (fun view there _ _ _ => (reserves view there).2)
      command
  exact ⟨open', kept later reached open' rfl silent⟩

end Network

/-- The step begins with the view's delivery of the entry, as its answer and its journal say. -/
structure Step.Gives {σ : Type} (step : Step σ) (ref : ViewRef) (entry : Entry) : Prop where
  answer : step.reply.carried.head? = some entry.delivery
  journal : (deliveries (Event.activities ref step.events)).head? = some entry

namespace Network

variable {σ α : Type} [Producer σ α] {network : Network σ} {ref : ViewRef} {request : Request}
  {view : View}

/-- A request for deliveries begins with the next one. -/
theorem gives_of_takes {given : Entry} (found : network.view? ref = some view)
    (takes : request.takes = true) (taken : (view.next network.sources).value = some given) :
    (network.exec (.request ref request : Command Notifier α)).Gives ref given := by
  have journal : (deliveries (Event.activities ref
      (network.exec (.request ref request : Command Notifier α)).events)).head? = some given := by
    simp only [exec, found]
    cases request with
    | next =>
      rw [answer, deliveries_commit, if_pos rfl, View.deliveries_next, taken]
      rfl
    | drain limit =>
      cases limit with
      | zero => cases takes
      | succ limit =>
        rw [answer, deliveries_commit, if_pos rfl, View.deliveries_drain, View.drain]
        simp only [taken]
        rfl
    | _ => cases takes
  refine ⟨?_, journal⟩
  have returned := returned_exec network ref (.request ref request : Command Notifier α)
  rw [Command.returned, if_pos rfl] at returned
  rw [returned, List.head?_map, journal]
  rfl

end Network

namespace Session

variable {σ α : Type} [Producer σ α] (session : Session σ α) (commands : List (Command Nat α))
  {ref : ViewRef} {waiting : List Entry}

/-- What waits in a view waits as long as every command leaves it alone. -/
theorem reserves_play {m k : Nat} (le : m ≤ k)
    (leaves : ∀ record ∈ ((session.play commands).take k).drop m,
      record.task.command.leaves ref = true)
    (reserves : (session.reachedBy ((session.play commands).take m)).Reserves ref waiting) :
    (session.reachedBy ((session.play commands).take k)).Reserves ref waiting := by
  induction le with
  | refl => exact reserves
  | @step k le ih =>
    rw [List.take_add_one] at leaves
    cases played : (session.play commands)[k]? with
    | none =>
      rw [played, Option.toList_none, List.append_nil] at leaves
      rw [List.take_add_one, played, Option.toList_none, List.append_nil]
      exact ih leaves
    | some record =>
      have inside := (List.getElem?_eq_some_iff.mp played).1
      have long : m ≤ ((session.play commands).take k).length := by
        rw [List.length_take]
        exact Nat.le_min.mpr ⟨le, Nat.le_trans le (Nat.le_of_lt inside)⟩
      rw [played, Option.toList_some, List.drop_append_of_le_length long] at leaves
      have before := ih fun record mem => leaves record (List.mem_append_left _ mem)
      have left := leaves record (List.mem_append_right _ List.mem_cons_self)
      obtain ⟨current, network, _, same⟩ := session.record_play commands played
      rw [session.reachedBy_take_succ played, same]
      rw [← network] at before
      rcases current.perform_cases record.task.command with
        ⟨_, still⟩ | ⟨resolved, found, performed⟩
      · rw [recordOf, still]
        exact before
      · rw [recordOf, performed]
        exact Network.reserves_exec before ((Command.leaves_of_resolve? found ref).trans left)

end Session

section

variable {σ α : Type} [Producer σ α] (sources : List σ) (views : List (Config × Listener))
  (reactions : List (List (List (Command Nat α)))) (commands : List (Command Nat α))
  {ref : ViewRef}

/-- A view in which something waits is open. -/
theorem Session.reserves_of_waiting (n : Nat) {view : View} :
    let session := start sources views reactions
    let reached := session.reachedBy ((session.play commands).take n)
    reached.view? ref = some view → view.queue.entries ≠ [] →
      reached.Reserves ref view.queue.entries := by
  intro session reached found waiting other there
  obtain rfl := Option.some.inj (found.symm.trans there)
  have sound := holds_of_view View.sound_invariant
    (fun _ _ built => View.sound_of_config built) sources views reactions commands n found
  refine ⟨?_, List.prefix_rfl⟩
  rw [← Bool.not_eq_true]
  exact mt sound.cleared waiting

/-- A query is answered from the view as it is afterwards. -/
theorem Session.read_of_query {session : Session σ α} {n : Nat} {record : Record σ α}
    (query : Query) (played : (session.play commands)[n]? = some record)
    (asked : record.task.command = .request ref query.request)
    (answered : record.step.reply ≠ .missing) :
    ∃ view, record.step.network.view? ref = some view ∧ record.step.reply = query.read view := by
  rw [step_of_request played asked] at answered ⊢
  exact Network.read_of_query answered

/-- The buffer that waits in front at some moment is what the view gives when it is asked for a
delivery next. -/
theorem Session.gives_of_waiting {m k : Nat} {taken : Record σ α} {view : View} {entry : Entry}
    {rest : List Entry} {request : Request} (le : m ≤ k) :
    let session := start sources views reactions
    let records := session.play commands
    (session.reachedBy (records.take m)).view? ref = some view →
      view.queue.entries = entry :: rest →
      (∀ record ∈ (records.take k).drop m, record.task.command.leaves ref = true) →
      records[k]? = some taken → taken.task.command = .request ref request →
      request.takes = true → (session.reachedBy (records.take k)).view? ref ≠ none →
      ∃ given, taken.step.Gives ref given ∧ given.source = entry.source ∧
        given.delivery.buffer = entry.delivery.buffer ∧
        rest.countP Entry.isData ≤ given.delivery.backlog := by
  intro session records found waiting leaves played asked takes there
  have reserves := reserves_of_waiting sources views reactions commands m found (by simp [waiting])
  have kept := session.reserves_play commands le leaves reserves
  obtain ⟨later, present⟩ := Option.ne_none_iff_exists'.mp there
  obtain ⟨_, waits⟩ := kept later present
  rw [waiting] at waits
  obtain ⟨given, value, source, buffer, backlog⟩ :=
    View.next_of_waiting (session.reachedBy (records.take k)).sources waits
  refine ⟨given, ?_, source, buffer, backlog⟩
  rw [step_of_request played asked]
  exact Network.gives_of_takes present takes value

end

/-- In every session, whatever the sources answer: what a view says of the next delivery comes true,
however much happens before the consumer asks for it, as long as the view is there and not released.
The delivery comes from the source that the view named. It is an event if the view offered it to a
consumer without credit, and no event if the view did not offer it, and its backlog is as large as
the one told then, except for itself. And it has the kind that the delivery before announced. -/
theorem promises_kept {σ α : Type} [Producer σ α] (sources : List σ)
    (views : List (Config × Listener)) (reactions : List (List (List (Command Nat α))))
    (commands : List (Command Nat α)) (m k : Nat) (ref : ViewRef) (asked taken : Record σ α)
    (request : Request) :
    let session := Session.start sources views reactions
    let records := session.play commands
    records[m]? = some asked → records[k]? = some taken → m < k →
    (∀ record ∈ (records.take k).drop (m + 1), record.task.command.leaves ref = true) →
    taken.task.command = .request ref request → request.takes = true →
    (session.reachedBy (records.take k)).view? ref ≠ none →
      (∀ id, asked.task.command = .request ref .peek → asked.step.reply = .id (some id) →
        ∃ given, taken.step.Gives ref given ∧ given.source = id) ∧
      (∀ credit available backlog view, asked.task.command = .request ref (.availability credit) →
        asked.step.reply = .availability ⟨available, backlog⟩ →
        asked.step.network.view? ref = some view → view.queue.entries ≠ [] →
        ∃ given, taken.step.Gives ref given ∧
          (available = true → credit = false → given.delivery.buffer.kind = .event) ∧
          (available = false → given.delivery.buffer.kind ≠ .event) ∧
          backlog ≤ given.delivery.backlog + if given.isData then 1 else 0) ∧
      ∀ delivery, asked.task.command = .request ref .next →
        asked.step.reply = .delivery (some delivery) → delivery.nextKind ≠ .none →
        ∃ given, taken.step.Gives ref given ∧ given.delivery.buffer.kind = delivery.nextKind := by
  intro session records played played' later leaves claims takes there
  have network := session.reachedBy_take_succ played
  -- whatever waits in front after the question is given
  have kept {view : View} {entry : Entry} {rest : List Entry}
      (found : asked.step.network.view? ref = some view)
      (waiting : view.queue.entries = entry :: rest) :
      ∃ given, taken.step.Gives ref given ∧ given.source = entry.source ∧
        given.delivery.buffer = entry.delivery.buffer ∧
        rest.countP Entry.isData ≤ given.delivery.backlog :=
    Session.gives_of_waiting sources views reactions commands (Nat.succ_le_of_lt later)
      (by rw [network, found]) waiting leaves played' claims takes there
  refine ⟨?_, ?_, ?_⟩
  · intro id peeks told
    obtain ⟨view, found, read⟩ := Session.read_of_query commands .peek played peeks
      (by simp [told])
    rw [told] at read
    cases waiting : view.queue.entries with
    | nil => simp [Query.read, Lookahead.head?, waiting] at read
    | cons entry rest =>
      obtain ⟨given, gives, source, _⟩ := kept found waiting
      refine ⟨given, gives, source.trans ?_⟩
      simpa [Query.read, Lookahead.head?, waiting, eq_comm] using read
  · intro credit available backlog view offers told found nonempty
    obtain ⟨view', found', read⟩ := Session.read_of_query commands (.availability credit)
      played offers (by simp [told])
    obtain rfl := Option.some.inj (found.symm.trans found')
    rw [told] at read
    cases waiting : view.queue.entries with
    | nil => exact absurd waiting nonempty
    | cons entry rest =>
      obtain ⟨given, gives, _, buffer, behind⟩ := kept found waiting
      have data : given.isData = entry.isData := congrArg Buffer.isData buffer
      simp only [Query.read, Lookahead.isEmpty, Lookahead.headKind, Lookahead.dataBacklog, waiting,
        List.isEmpty_cons, Bool.false_eq_true, if_false, Reply.availability.injEq,
        Availability.mk.injEq] at read
      obtain ⟨rfl, rfl⟩ := read
      refine ⟨given, gives, ?_, ?_, ?_⟩
      · rintro event rfl
        simpa [buffer] using event
      · intro refused event
        rw [← buffer, event] at refused
        simp at refused
      · rw [data, List.countP_cons]
        exact Nat.add_le_add_right behind _
  · intro delivery requests told announced
    have step := Session.step_of_request played requests
    rw [step] at told
    obtain ⟨view, found, tells, _⟩ := Network.tells_of_next told
    rw [← step] at found
    cases waiting : view.queue.entries with
    | nil => simp [tells.nextKind, waiting] at announced
    | cons entry rest =>
      obtain ⟨given, gives, _, buffer, _⟩ := kept found waiting
      refine ⟨given, gives, ?_⟩
      rw [buffer, tells.nextKind, waiting]
      rfl

namespace Meanwhile

/-- The first callback asks for the next source, and then releases this source. -/
def session : Session Source Source.Action :=
  .start [.memory (.ofBuffers ⟨5⟩ [.event [1], .data [2]]), .memory (.ofBuffers ⟨6⟩ [.data [9]])]
    [(⟨3⟩, .ofCallback)] [[[.request 0 .peek, .releaseSource 0]]]

def commands : List (Command Nat Source.Action) := [
  .add 0 0, .add 0 1, .request 0 (.availability false), .pull 1,
  .act 1 (.memory (.failPull "lost")), .request 0 .next, .act 1 (.memory (.push (.data [7]))),
  .request 0 (.drain 2)]

def records : List (Record Source Source.Action) := session.play commands

end Meanwhile

open Meanwhile in
/-- The first two answers, one of them given inside a callback, are about the event, and the kind
that comes with the event is about the data behind it. The source of both is released by then. -/
theorem promises_kept_meanwhile :
    ∃ (peek offer next drain : Record Source Source.Action) (event data : Entry),
      records[1]? = some peek ∧ records[4]? = some offer ∧ records[7]? = some next ∧
      records[9]? = some drain ∧
      peek.task.depth = 1 ∧ peek.step.reply = .id (some ⟨5⟩) ∧
      offer.step.reply = .availability ⟨true, 2⟩ ∧
      next.step.Gives 0 event ∧ event.source = ⟨5⟩ ∧ event.delivery.buffer.kind = .event ∧
      2 ≤ event.delivery.backlog + (if event.isData then 1 else 0) ∧
      next.step.reply = .delivery (some ⟨.event [1], 2, .data, 0⟩) ∧
      drain.step.Gives 0 data ∧ data.delivery.buffer.kind = .data := by
  have peeked : records[1]?.any (fun record => decide (record.task.depth = 1 ∧
      record.task.command = .request 0 .peek ∧ record.step.reply = .id (some ⟨5⟩))) = true := by
    decide +kernel
  have offering : records[4]?.any (fun record => decide (
      record.task.command = .request 0 (.availability false) ∧
      record.step.reply = .availability ⟨true, 2⟩ ∧
      (record.step.network.view? 0).any fun view => view.queue.entries ≠ [])) = true := by
    decide +kernel
  have requested : records[7]?.any (fun record => decide (
      record.task.command = .request 0 .next ∧
      record.step.reply = .delivery (some ⟨.event [1], 2, .data, 0⟩))) = true := by
    decide +kernel
  have drained : records[9]?.any (fun record => decide (
      record.task.command = .request 0 (.drain 2))) = true := by
    decide +kernel
  obtain ⟨peek, played, facts⟩ := (Option.any_eq_true _ _).mp peeked
  obtain ⟨offer, played', facts'⟩ := (Option.any_eq_true _ _).mp offering
  obtain ⟨next, taken, facts''⟩ := (Option.any_eq_true _ _).mp requested
  obtain ⟨drain, taken', asked⟩ := (Option.any_eq_true _ _).mp drained
  obtain ⟨depth, peeks, named⟩ := of_decide_eq_true facts
  obtain ⟨offers, told, waiting⟩ := of_decide_eq_true facts'
  obtain ⟨view, found, nonempty⟩ := (Option.any_eq_true _ _).mp waiting
  obtain ⟨requests, answered⟩ := of_decide_eq_true facts''
  have kept (m k : Nat) := promises_kept session.network.sources [(⟨3⟩, .ofCallback)]
    [[[.request 0 .peek, .releaseSource 0]]] commands m k 0
  obtain ⟨source, _⟩ := kept 1 7 peek next .next played taken (by decide) (by decide +kernel)
    requests rfl (by decide +kernel)
  obtain ⟨_, offered, _⟩ := kept 4 7 offer next .next played' taken (by decide) (by decide +kernel)
    requests rfl (by decide +kernel)
  obtain ⟨_, _, kind⟩ := kept 7 9 next drain (.drain 2) taken taken' (by decide)
    (by decide +kernel) (of_decide_eq_true asked) rfl (by decide +kernel)
  obtain ⟨event, gives, fromSource⟩ := source ⟨5⟩ peeks named
  obtain ⟨event', gives', isEvent, _, backlog⟩ :=
    offered false true 2 view offers told found (of_decide_eq_true nonempty)
  obtain ⟨data, gives'', isData⟩ := kind _ requests answered (by decide)
  obtain rfl := Option.some.inj (gives.journal.symm.trans gives'.journal)
  exact ⟨peek, offer, next, drain, event, data, played, played', taken, taken', depth, named, told,
    gives, fromSource, isEvent rfl rfl, backlog, answered, gives'', isData⟩

end FairMerge
