import FairMerge.Proofs.LookaheadTransparency
import FairMerge.Proofs.Queries
import FairMerge.Proofs.Workload

/-! # Queries leave no trace

A consumer may ask what comes next without taking it, and for that the view refills. However a
refill ended, over sources that cannot fail another one right after it ends in the same state: the
queue is full, or nobody is ready, or the source with the open record is pulled once more in vain.
So it cannot be told afterwards how often the consumer has asked. -/

namespace FairMerge

/-! ### A refill after a refill -/

namespace Pass

variable {σ α : Type} [Producer σ α] {registry : Registry} {room : Nat} {rotation : Rotation}

theorem run_of_no_room (sources : List σ) :
    run registry 0 rotation sources = ⟨rotation, sources, [], .full⟩ := by
  rw [run]

theorem run_of_astray {id : SourceId} (sources : List σ) (chosen : rotation.choice = some id)
    (missing : registry.source? id = none) :
    run registry (room + 1) rotation sources =
      ⟨rotation.select.2, sources, [], .unregistered id⟩ := by
  rw [run]
  split
  · rename_i unchosen
    rw [chosen] at unchosen
    cases unchosen
  · rename_i other same
    rw [chosen, Option.some.injEq] at same
    subst same
    simp only [missing]

/-- The pass leaves everything as it was. -/
structure Vain (pass : Pass σ) (rotation : Rotation) (sources : List σ) : Prop where
  rotation : pass.rotation = rotation
  sources : pass.sources = sources
  entries : pass.entries = []
  faults : pass.faults = []

/-- After a pass over sources that cannot fail, a pass with the room that it left is in vain. -/
theorem Course.vain_again {sources : List Source} {pass : Pass Source}
    (course : Course registry room rotation sources pass) (unarmed : registry.Unarmed sources) :
    (run registry (room - pass.entries.length) pass.rotation pass.sources).Vain
      pass.rotation pass.sources := by
  induction course with
  | full =>
    rw [Nat.zero_sub, run_of_no_room]
    exact ⟨rfl, rfl, rfl, rfl⟩
  | @idle room rotation sources unchosen =>
    have still : rotation.select.2.choice = none := unchosen
    have again : run registry (room + 1) rotation.select.2 sources =
        ⟨rotation.select.2.select.2, sources, [], .idle⟩ := run_of_idle sources still
    rw [Rotation.select_of_idle still unchosen] at again
    change (run registry (room + 1) rotation.select.2 sources).Vain rotation.select.2 sources
    rw [again]
    exact ⟨rfl, rfl, rfl, rfl⟩
  | @astray room rotation sources id chosen missing =>
    have still : rotation.select.2.choice = some id := chosen
    change (run registry (room + 1) rotation.select.2 sources).Vain rotation.select.2 sources
    rw [run_of_astray sources still missing]
    exact ⟨rfl, rfl, rfl, rfl⟩
  | taken _ _ pulled _ ih =>
    have left := ih (unarmed.serve (Producer.served_pullAt pulled))
    rw [entries_after, Pull.entry?_delivery, Option.toList_some, List.length_append,
      List.length_singleton, Nat.add_comm 1, Nat.add_sub_add_right]
    exact left
  | skipped _ _ _ pulled empty _ ih =>
    have left := ih (unarmed.serve (Producer.served_pullAt pulled))
    rw [entries_after, Pull.entry?_of_no_delivery empty]
    exact left
  | @blocked room rotation sources later id source answer held found pulled empty =>
    -- the holder is pulled again, and again it has nothing
    obtain ⟨rfl, rfl⟩ := unarmed.nothing_of_no_delivery found pulled empty
    have holds : (rotation.select.2.settle .dry).holder = some id := by
      rw [Rotation.holder_settle_dry, Rotation.holder_select, held]
    have again : run registry (room + 1) (rotation.select.2.settle .dry) later =
        ⟨(rotation.select.2.settle .dry).select.2.settle .dry, later, [⟨id, source, .nothing⟩],
          .blocked⟩ := run_of_blocked holds found pulled empty
    rw [Rotation.settle_dry_again held] at again
    change (run registry (room + 1) (rotation.select.2.settle .dry) later).Vain _ _
    rw [again]
    exact ⟨rfl, rfl, rfl, rfl⟩

end Pass

namespace View

variable {view : View} {sources : List Source}

/-- A refill changes neither the view nor the sources. -/
def Sated (view : View) (sources : List Source) : Prop :=
  (view.refill sources).view = view ∧ (view.refill sources).sources = sources

theorem absorb_of_vain {pass : Pass Source} (vain : pass.Vain view.rotation sources) :
    view.absorb pass = view := by
  simp [absorb, vain.entries, vain.faults, vain.rotation, Lookahead.append]

theorem sated_refill (unarmed : view.registry.Unarmed sources) :
    (view.refill sources).view.Sated (view.refill sources).sources := by
  cases released : view.released with
  | true =>
    rw [refill_of_released released, Sated, refill_of_released released]
    exact ⟨rfl, rfl⟩
  | false =>
    have course : Pass.Course view.registry view.queue.room view.rotation sources
        (view.pass sources) := Pass.course_run ..
    have open' : (view.absorb (view.pass sources)).released = false := released
    have left : (view.absorb (view.pass sources)).queue.room =
        view.queue.room - (view.pass sources).entries.length := by
      simp only [queue_absorb, Lookahead.room, Lookahead.capacity_append, Lookahead.length,
        Lookahead.entries_append, List.length_append, Nat.sub_sub]
    have turn : (view.absorb (view.pass sources)).rotation = (view.pass sources).rotation := by
      rw [absorb, course.faults_eq_nil unarmed]
      rfl
    have vain : ((view.absorb (view.pass sources)).pass (view.pass sources).sources).Vain
        (view.absorb (view.pass sources)).rotation (view.pass sources).sources := by
      rw [pass, left, turn]
      exact course.vain_again unarmed
    rw [refill_eq_absorb released, Sated, refill_eq_absorb open']
    exact ⟨absorb_of_vain vain, vain.sources⟩

/-- Neither the public count nor the number of the next delivery matters to a refill. -/
theorem refill_with (published sequence : Nat) :
    { view with published, sequence }.refill sources =
      ⟨(), { (view.refill sources).view with published, sequence }, (view.refill sources).sources,
        (view.refill sources).journal⟩ := by
  unfold refill
  split <;> rfl

/-- The count that was public before a refill does not show once the count after it is public. -/
theorem publish_refill_with (published : Nat) :
    ({ view with published }.refill sources).view.publish = (view.refill sources).view.publish ∧
      ({ view with published }.refill sources).sources = (view.refill sources).sources := by
  unfold refill
  split <;> exact ⟨rfl, rfl⟩

theorem Sated.with (sated : view.Sated sources) (published sequence : Nat) :
    Sated { view with published, sequence } sources := by
  rw [Sated, refill_with, sated.1]
  exact ⟨rfl, sated.2⟩

theorem sated_next (unarmed : view.registry.Unarmed sources) :
    (view.next sources).view.Sated (view.next sources).sources ∧
      (view.next sources).view.publish = (view.next sources).view := by
  rcases view.next_cases sources with ⟨_, result⟩ | ⟨entry, queue, _, second, rfl, result⟩
  · rw [result]
    exact ⟨(sated_refill unarmed).with _ _, rfl⟩
  · rw [result]
    have again : Registry.Unarmed { (view.refill sources).view with queue }.registry
        (view.refill sources).sources := unarmed_refill unarmed
    exact ⟨(sated_refill again).with _ _, rfl⟩

end View

/-! ### Queries -/

namespace View

variable {view : View} {sources : List Source}

theorem queried_of_sated (sated : view.Sated sources) (published : view.publish = view) :
    view.queried sources = view := by
  rw [queried, sated.1, published]

/-- Whether the view was queried before does not matter to a request for the next delivery. -/
theorem next_queried (unarmed : view.registry.Unarmed sources) :
    let next := (view.queried sources).next (view.refill sources).sources
    next.value = (view.next sources).value ∧ next.view = (view.next sources).view ∧
      next.sources = (view.next sources).sources := by
  intro next
  have sated : (view.queried sources).Sated (view.refill sources).sources :=
    (sated_refill unarmed).with _ _
  have same : (view.queried sources).queue = (view.refill sources).view.queue := rfl
  rcases next_cases (view.queried sources) (view.refill sources).sources with
    ⟨stopped, result⟩ | ⟨entry, queue, popped, second, rfl, result⟩
  · rw [sated.1, same] at stopped
    rcases view.next_cases sources with ⟨_, result'⟩ | ⟨_, _, popped, _⟩
    · rw [show next = _ from result, result', sated.1, sated.2]
      exact ⟨rfl, rfl, rfl⟩
    · rw [stopped] at popped
      cases popped
  · rw [sated.1, same] at popped
    rcases view.next_cases sources with
      ⟨stopped, _⟩ | ⟨entry', queue', popped', second', rfl, result'⟩
    · rw [popped] at stopped
      cases stopped
    · rw [popped, Option.some.injEq, Prod.mk.injEq] at popped'
      obtain ⟨rfl, rfl⟩ := popped'
      -- the second refills start from views that differ in the public count alone
      obtain ⟨views, pools⟩ := @publish_refill_with { (view.refill sources).view with queue }
        (view.refill sources).sources (view.refill sources).view.queue.length
      rw [show next = _ from result, result', sated.1, sated.2]
      exact ⟨congrArg (fun later => some (later.stamp entry)) views, congrArg handOut views, pools⟩

/-- A request gives no delivery exactly if nothing waits after a refill. -/
theorem next_eq_none_iff :
    (view.next sources).value = none ↔ (view.queried sources).queue.entries = [] := by
  change _ ↔ (view.refill sources).view.queue.entries = []
  rw [← Lookahead.pop?_eq_none_iff]
  rcases view.next_cases sources with ⟨stopped, result⟩ | ⟨entry, queue, popped, _, _, result⟩
  · simp only [result, stopped]
  · simp only [result, popped, reduceCtorEq]

end View

namespace Network

/-- The view is asked the queries one after the other. -/
def query (network : Network Source) (ref : ViewRef) (queries : List Query) : List (Step Source) :=
  network.run (queries.map fun query =>
    (.request ref query.request : Command Notifier Source.Action))

theorem query_cons (network : Network Source) (ref : ViewRef) (query : Query)
    (queries : List Query) :
    network.query ref (query :: queries) =
      network.exec (.request ref query.request) ::
        (network.exec (.request ref query.request : Command Notifier Source.Action)).network.query
          ref queries := rfl

/-- The network after so many queries. -/
def asked (network : Network Source) (ref : ViewRef) (queries : List Query) : Network Source :=
  network.reachedBy (network.query ref queries)

variable {network : Network Source} {ref : ViewRef} {view : View}

/-- A consumer that is told no source gets no delivery, and the other way round. -/
theorem peek_none_iff (found : network.view? ref = some view) :
    (network.exec (.request ref .peek : Command Notifier Source.Action)).reply = .id none ↔
      (network.askOnce ref).reply = .delivery none := by
  have told := (exec_query found .peek).2
  rw [Query.request] at told
  rw [told, askOnce_eq found]
  simp only [Query.read, commit, Reply.id.injEq, Reply.delivery.injEq, Option.map_eq_none_iff,
    View.next_eq_none_iff, Lookahead.head?, List.head?_eq_none_iff]

/-- A consumer with credit is told that a buffer is available exactly if it gets a delivery. -/
theorem available_iff (found : network.view? ref = some view) :
    (∃ backlog, (network.exec (.request ref (.availability true) :
        Command Notifier Source.Action)).reply = .availability ⟨true, backlog⟩) ↔
      ∃ delivery, (network.askOnce ref).reply = .delivery (some delivery) := by
  have told := (exec_query found (.availability true)).2
  rw [Query.request] at told
  have ended : (view.next network.sources).value = none ↔
      (view.queried network.sources).queue.entries = [] := View.next_eq_none_iff
  rw [told, askOnce_eq found]
  cases taken : (view.next network.sources).value with
  | none =>
    have empty := ended.mp taken
    simp [Query.read, commit, taken, Lookahead.isEmpty, empty, Availability.unavailable]
  | some entry =>
    have waiting := mt ended.mpr (by simp [taken])
    simp [Query.read, commit, taken, Lookahead.isEmpty, waiting]

/-- Queries to a view that a refill does not change change nothing. -/
theorem query_of_sated (found : network.view? ref = some view)
    (sated : view.Sated network.sources) (published : view.publish = view)
    (queries : List Query) :
    (∀ step ∈ network.query ref queries, step.network = network) ∧
      (network.query ref queries).map Step.reply = queries.map (Query.read view) := by
  have same : network.queried ref view = network := by
    rw [queried, View.queried_of_sated sated published, sated.2]
    exact setView_self found
  induction queries with
  | nil => exact ⟨List.forall_mem_nil _, rfl⟩
  | cons query queries ih =>
    obtain ⟨left, answered⟩ := exec_query found query
    rw [same] at left
    rw [View.queried_of_sated sated published] at answered
    rw [query_cons, List.forall_mem_cons, left, List.map_cons, List.map_cons, answered, ih.2]
    exact ⟨⟨rfl, ih.1⟩, rfl⟩

/-- The first query settles the state from which all are answered. -/
theorem query_of_unarmed (found : network.view? ref = some view)
    (unarmed : view.registry.Unarmed network.sources) (queries : List Query) :
    (∀ step ∈ network.query ref queries, step.network = network.queried ref view) ∧
      (network.query ref queries).map Step.reply =
        queries.map (Query.read (view.queried network.sources)) := by
  cases queries with
  | nil => exact ⟨List.forall_mem_nil _, rfl⟩
  | cons query queries =>
    obtain ⟨left, answered⟩ := exec_query found query
    obtain ⟨rest, answers⟩ :=
      query_of_sated (view?_queried found) ((View.sated_refill unarmed).with _ _) rfl queries
    rw [query_cons, List.forall_mem_cons, left, List.map_cons, List.map_cons, answered, answers]
    exact ⟨⟨rfl, rest⟩, rfl⟩

/-- Queries leave the network as it is or as one query leaves it. -/
theorem asked_cases (found : network.view? ref = some view)
    (unarmed : view.registry.Unarmed network.sources) (queries : List Query) :
    network.asked ref queries = network ∨ network.asked ref queries = network.queried ref view := by
  unfold asked reachedBy
  cases last : (network.query ref queries).getLast? with
  | none => exact .inl rfl
  | some step =>
    exact .inr ((query_of_unarmed found unarmed queries).1 step (List.mem_of_getLast? last))

theorem view?_asked (found : network.view? ref = some view)
    (unarmed : view.registry.Unarmed network.sources) (queries : List Query) :
    ∃ later, (network.asked ref queries).view? ref = some later := by
  rcases asked_cases found unarmed queries with same | same
  · rw [same]
    exact ⟨view, found⟩
  · rw [same]
    exact ⟨_, view?_queried found⟩

/-- A request right after a query gets what it would get without the query. -/
theorem askOnce_queried (found : network.view? ref = some view)
    (unarmed : view.registry.Unarmed network.sources) :
    ((network.queried ref view).askOnce ref).reply = (network.askOnce ref).reply ∧
      ((network.queried ref view).askOnce ref).network = (network.askOnce ref).network := by
  obtain ⟨value, later, pool⟩ := View.next_queried unarmed
  have pool' : (network.queried ref view).sources = (view.refill network.sources).sources := rfl
  rw [askOnce_eq (view?_queried found), askOnce_eq found]
  simp only [commit, pool', value, later, pool, true_and]
  simp [queried, setView, List.modify_modify_eq, Function.comp_def]

/-- What queries to a view do, and what they mean for its deliveries. -/
structure Transparent (network : Network Source) (ref : ViewRef) (view : View) : Prop where
  /-- A refill right after a refill changes neither the view nor the sources. -/
  refills : (view.refill network.sources).view.Sated (view.refill network.sources).sources
  /-- However many queries there are in a row, all are answered from one state of the view. -/
  answers : ∀ queries, (network.query ref queries).map Step.reply =
    queries.map (Query.read (view.queried network.sources))
  settles : ∀ queries, ∀ step ∈ network.query ref queries, step.network = network.queried ref view
  /-- A request right after them gets what it would get without them, and leaves what it would
  leave. -/
  precede : ∀ queries,
    ((network.asked ref queries).askOnce ref).reply = (network.askOnce ref).reply ∧
      ((network.asked ref queries).askOnce ref).network = (network.askOnce ref).network
  /-- One more query tells whether the request will get a delivery. -/
  peeks : ∀ queries,
    ((network.asked ref queries).exec
        (.request ref .peek : Command Notifier Source.Action)).reply = .id none ↔
      ((network.asked ref queries).askOnce ref).reply = .delivery none
  offers : ∀ queries,
    (∃ backlog, ((network.asked ref queries).exec (.request ref (.availability true) :
        Command Notifier Source.Action)).reply = .availability ⟨true, backlog⟩) ↔
      ∃ delivery, ((network.asked ref queries).askOnce ref).reply = .delivery (some delivery)
  /-- Right after a request the queries leave everything exactly as it is. -/
  follow : ∀ queries, ∀ step ∈ (network.askOnce ref).network.query ref queries,
    step.network = (network.askOnce ref).network

/-- Suppose that the sources of a view are memory sources and that no failure is armed for their
next pulls. In whatever state the network is, a refill right after a refill changes nothing, and so
the consumer may ask what comes next as often as it likes: all queries are answered from one state,
they do not change what the next request gets and leaves, and they tell truly whether it gets a
delivery. -/
theorem queries_transparent (found : network.view? ref = some view)
    (unarmed : view.registry.Unarmed network.sources) : network.Transparent ref view where
  refills := View.sated_refill unarmed
  answers queries := (query_of_unarmed found unarmed queries).2
  settles queries := (query_of_unarmed found unarmed queries).1
  precede queries := by
    rcases asked_cases found unarmed queries with same | same
    · rw [same]
      exact ⟨rfl, rfl⟩
    · rw [same]
      exact askOnce_queried found unarmed
  peeks queries := by
    obtain ⟨later, there⟩ := view?_asked found unarmed queries
    exact peek_none_iff there
  offers queries := by
    obtain ⟨later, there⟩ := view?_asked found unarmed queries
    exact available_iff there
  follow queries := by
    obtain ⟨sated, published⟩ := View.sated_next unarmed
    refine (query_of_sated ?_ ?_ published queries).1
    · rw [askOnce_eq found]
      exact view?_setView_self found
    · rw [sources_askOnce found]
      exact sated

end Network

namespace Dry

/-- The first source begins a record and cannot go on with it. -/
def sources : List Source := [
  .memory (.ofBuffers ⟨5⟩ [.fragment [1]]), .memory (.ofBuffers ⟨6⟩ [.data [9]])]

def session : Session Source Source.Action := .start sources [(⟨3⟩, .ofCallback)] []

def commands : List (Command Nat Source.Action) := [.add 0 0, .add 0 1]

def reached : Network Source := session.reachedBy ((session.play commands).take 2)

end Dry

open Dry in
/-- The queries name the source of the fragment that waits. Once it is delivered they name nobody,
for the record is open and the data of the other source has to wait. -/
theorem queries_transparent_dry :
    ∃ view, reached.view? 0 = some view ∧ reached.Transparent 0 view ∧
      (reached.query 0 [.peek, .availability true]).map Step.reply =
        [.id (some ⟨5⟩), .availability ⟨true, 1⟩] ∧
      ((reached.asked 0 [.peek, .peek]).askOnce 0).reply =
        .delivery (some ⟨.fragment [1], 0, .none, 0⟩) ∧
      ((reached.askOnce 0).network.query 0 [.peek, .availability true]).map Step.reply =
        [.id none, .availability .unavailable] := by
  have there : (reached.view? 0).any (fun view =>
      decide (view.registry.Unarmed reached.sources)) = true := by
    decide +kernel
  obtain ⟨view, found, unarmed⟩ := (Option.any_eq_true _ _).mp there
  have transparent := Network.queries_transparent found (of_decide_eq_true unarmed)
  refine ⟨view, found, transparent, ?_, ?_, ?_⟩
  · decide +kernel
  · rw [(transparent.precede [.peek, .peek]).1]
    decide +kernel
  · decide +kernel

end FairMerge
