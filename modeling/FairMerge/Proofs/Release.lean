import FairMerge.Proofs.Lasting
import FairMerge.Proofs.Signals

/-! # Release is final

The first release calls every registered source once, in the order of registration, whichever of
them fail. It leaves the view closed: it answers everything that there is nothing, and whatever
happens later finds it as it is. -/

namespace FairMerge

variable {σ α : Type} [Producer σ α]

/-! ### Releasing sources -/

namespace Producer

theorem releaseAt_eq (sources : List σ) (place : SourceRef) :
    releaseAt sources place =
      (sources[place]?.bind fun state => (release state).1,
        sources.modify place fun state => (release state).2) := by
  unfold releaseAt
  cases found : sources[place]? with
  | none =>
    rw [List.modify_eq_self (List.getElem?_eq_none_iff.mp found)]
    rfl
  | some state =>
    simp [List.modify_eq_set_getElem?, found]

/-- The release of a source does not touch another one. -/
theorem releaseAt_releaseAt {place other : SourceRef} (different : other ≠ place)
    (sources : List σ) :
    (releaseAt (releaseAt sources other).2 place).1 = (releaseAt sources place).1 := by
  simp only [releaseAt_eq, List.getElem?_modify_ne _ _ different]

end Producer

namespace View

/-- Sources that are released one after the other are each released once, from what they were. -/
theorem releaseEach_eq {entries : List Registration}
    (distinct : (entries.map Registration.source).Nodup) (sources : List σ) :
    (releaseEach entries sources).1 =
        entries.map (fun entry => (entry, (Producer.releaseAt sources entry.source).1)) ∧
      ∀ place, (releaseEach entries sources).2[place]? = sources[place]?.map fun state =>
        if place ∈ entries.map Registration.source then (Producer.release state).2 else state := by
  induction entries generalizing sources with
  | nil => simp [releaseEach]
  | cons entry entries ih =>
    obtain ⟨fresh, distinct⟩ := List.nodup_cons.mp distinct
    obtain ⟨errors, states⟩ := ih distinct (Producer.releaseAt sources entry.source).2
    constructor
    · simp only [releaseEach, errors, List.map_cons, List.cons.injEq, true_and]
      refine List.map_congr_left fun other mem => ?_
      have different : entry.source ≠ other.source := by
        intro same
        exact fresh (same ▸ List.mem_map_of_mem mem)
      rw [Producer.releaseAt_releaseAt different]
    · intro place
      rw [releaseEach, states, Producer.releaseAt_eq, List.getElem?_modify]
      cases sources[place]? with
      | none => rfl
      | some state =>
        by_cases own : entry.source = place
        · subst own
          simp [fresh]
        · simp [own, Ne.symm own]

end View

/-! ### A closed view -/

/-- The view is released, and nothing waits in it nor is said to. -/
structure View.Closed (view : View) : Prop where
  released : view.released = true
  empty : view.queue.entries = []
  published : view.published = 0

/-- The view after its release. -/
def View.closed (view : View) : View :=
  { view with released := true, queue := view.queue.clear, published := 0 }

theorem View.closed_closed (view : View) : view.closed.Closed := ⟨rfl, rfl, rfl⟩

namespace View.Closed

variable {view : View} (closed : view.Closed) (sources : List σ)
include closed

omit [Producer σ α] in
theorem publish_eq : view.publish = view := by
  rw [publish, Lookahead.length, closed.empty, List.length_nil, ← closed.published]

theorem consult_eq {β : Type} (answer : View → β) :
    view.consult sources answer = ⟨answer view, view, sources, []⟩ := by
  rw [consult, refill_of_released closed.released]
  simp only [closed.publish_eq]

theorem next_eq : view.next sources = ⟨none, view, sources, []⟩ := by
  have nothing : view.queue.pop? = none := Lookahead.pop?_eq_none_iff.mpr closed.empty
  rw [next, refill_of_released closed.released]
  simp only [nothing, closed.publish_eq]

theorem drain_eq (limit : Nat) : view.drain sources limit = ⟨[], view, sources, []⟩ := by
  cases limit with
  | zero => rfl
  | succ limit =>
    rw [drain, closed.next_eq]

theorem release_eq : view.release sources = ⟨none, view, sources, []⟩ :=
  if_pos closed.released

theorem notify_eq (source : SourceRef) : view.notify sources source = ⟨false, view, sources, []⟩ :=
  if_pos closed.released

omit sources [Producer σ α] in
theorem register_eq (id : SourceId) (source : SourceRef) :
    view.register id source = .error .released :=
  if_pos closed.released

/-- No step of a closed view changes it or does anything. -/
theorem invariant : View.Invariant σ fun later hand log => later = view ∧ hand = none ∧ log = [] where
  register := by
    rintro _ later log id source ⟨rfl, _, _⟩ registered
    rw [closed.register_eq] at registered
    cases registered
  announce := by
    rintro _ log id ⟨rfl, _, _⟩ open'
    rw [closed.released] at open'
    cases open'
  absorb := by
    rintro _ hand log sources pass ⟨rfl, _, _⟩ open'
    rw [closed.released] at open'
    cases open'
  publish := by
    rintro _ hand log ⟨rfl, rfl, rfl⟩
    exact ⟨closed.publish_eq, rfl, rfl⟩
  pop := by
    rintro _ log entry queue ⟨rfl, _, _⟩ popped
    rw [Lookahead.pop?_eq_none_iff.mpr closed.empty] at popped
    cases popped
  handOut := by
    rintro _ log entry ⟨_, held, _⟩
    cases held
  release := by
    rintro _ log sources ⟨rfl, _, _⟩ open'
    rw [closed.released] at open'
    cases open'

end View.Closed

/-- What the network answers about a view that is closed, and that it stays as it is. -/
structure Network.Inert (network : Network σ) (ref : ViewRef) : Prop where
  isReleased : network.exec (.request ref .isReleased) = network.still (.flag true)
  queued : network.exec (.request ref .queued) = network.still (.number 0)
  next : network.exec (.request ref .next) = network.still (.delivery none)
  peek : network.exec (.request ref .peek) = network.still (.id none)
  drain : ∀ limit, network.exec (.request ref (.drain limit)) = network.still (.deliveries [])
  availability : ∀ credit, network.exec (.request ref (.availability credit)) =
    network.still (.availability .unavailable)
  release : network.exec (.request ref .release) = network.still .done
  register : ∀ source id, network.sources[source]? ≠ none →
    network.exec (.register ref source id) = network.still (.refused .released)
  add : ∀ source, network.sources[source]?.bind Producer.ownId? ≠ none →
    network.exec (.add ref source) = network.still (.refused .released)
  /-- A notifier of the view rings without an effect beyond what rings it. -/
  notified : ∀ {command : Command Notifier α} {notifier : Notifier} {heard : Network σ},
    network.Rings command notifier heard → notifier.view = ref →
      (network.exec command).network = heard ∧ (network.exec command).events = [] ∧
        (network.exec command).call? = none

namespace Network

variable {network heard : Network σ} {ref : ViewRef} {view : View}

theorem commit_self {β : Type} (there : network.view? ref = some view) (value : β)
    (reply : β → Reply σ) :
    network.commit ref ⟨value, view, network.sources, []⟩ reply =
      network.still (reply value) := by
  rw [commit, setView_self there]
  rfl

theorem register_of_closed (there : network.view? ref = some view) (closed : view.Closed)
    {source : SourceRef} (present : network.sources[source]? ≠ none) (id : SourceId) :
    network.register ref source id = .error (.refused .released) := by
  obtain ⟨state, found⟩ := Option.ne_none_iff_exists'.mp present
  simp only [register, there, found, closed.register_eq]

/-- What rings a notifier leaves a released view as it is. -/
theorem Rings.view?_of_released {command : Command Notifier α} {notifier : Notifier}
    (rings : network.Rings command notifier heard) (there : network.view? ref = some view)
    (released : view.released = true) : heard.view? ref = some view := by
  cases rings with
  | ring | announce | act | attach => exact there
  | @add target source id registered state notifier found own accepted named =>
    obtain ⟨old, later, present, renewed, rfl⟩ := register_cases accepted
    have different : ref ≠ target := by
      rintro rfl
      rw [there, Option.some.injEq] at present
      rw [← present] at renewed
      exact absurd released (ne_true_of_eq_false (View.register_cases renewed).1)
    exact (view?_setView_of_ne different later).trans there

theorem notify_of_closed {notifier : Notifier} (there : network.view? notifier.view = some view)
    (closed : view.Closed) : network.notify notifier = network.still (.flag true) := by
  simp only [notify, there, closed.notify_eq, if_neg Bool.false_ne_true, commit_self there]

theorem inert_of_closed (there : network.view? ref = some view) (closed : view.Closed) :
    network.Inert ref where
  isReleased := by
    simp only [exec, there, answer, closed.released]
  queued := by
    simp only [exec, there, answer, View.queued, Lookahead.length, closed.empty, List.length_nil]
  next := by
    simp only [exec, there, answer, closed.next_eq, commit_self there]
    rfl
  peek := by
    simp only [exec, there, answer, View.peek, closed.consult_eq, commit_self there,
      Lookahead.head?, closed.empty]
    rfl
  drain limit := by
    simp only [exec, there, answer, closed.drain_eq, commit_self there]
    rfl
  availability credit := by
    simp only [exec, there, answer, View.availability, closed.consult_eq, commit_self there,
      Lookahead.isEmpty, closed.empty]
    rfl
  release := by
    simp only [exec, there, answer, closed.release_eq, commit_self there]
    rfl
  register source id present := by
    simp only [exec, register_of_closed there closed present]
  add source own := by
    obtain ⟨id, known⟩ := Option.ne_none_iff_exists'.mp own
    have present : network.sources[source]? ≠ none := by
      intro absent
      rw [absent] at known
      cases known
    simp only [exec, known, register_of_closed there closed present]
  notified := by
    rintro command notifier heard rings rfl
    obtain ⟨reply, same⟩ := rings.exec_eq
    rw [same, notify_of_closed (rings.view?_of_released there closed.released) closed]
    exact ⟨rfl, rfl, rfl⟩

/-- The release of a view that is not released: what it does, answers and leaves behind. -/
theorem exec_release (sound : view.Sound) (there : network.view? ref = some view)
    (open' : view.released = false) :
    let step := network.exec (.request ref .release)
    let error? (entry : Registration) := (Producer.releaseAt network.sources entry.source).1
    step.events = view.registry.entries.map (fun entry =>
        .view ref (.released entry (error? entry))) ∧
      step.reply = (view.registry.entries.findSome? error?).elim .done .refused ∧
      (∀ place, step.network.sources[place]? = network.sources[place]?.map fun state =>
        if place ∈ view.registry.sources then (Producer.release state).2 else state) ∧
      step.network.view? ref = some view.closed := by
  intro step error?
  obtain ⟨errors, states⟩ := View.releaseEach_eq sound.distinctSources network.sources
  have result : view.release network.sources =
      ⟨view.registry.entries.findSome? error?, view.closed,
        (View.releaseEach view.registry.entries network.sources).2,
        view.registry.entries.map fun entry => .released entry (error? entry)⟩ := by
    unfold View.release
    rw [if_neg (by simp [open'])]
    simp only [errors, List.findSome?_map, List.map_map]
    rfl
  have same : step = network.commit ref (view.release network.sources)
      fun error? => error?.elim .done .refused := by
    simp only [step, exec, there]
    rfl
  rw [same, result]
  refine ⟨?_, rfl, states, view?_setView_self there⟩
  rw [commit, List.map_map]
  rfl

end Network

/-! ### After the release -/

namespace Session

variable {session : Session σ α} {ref : ViewRef} {closed : View}

/-- A view that is closed, or gone, is not signalled. -/
theorem unsignalled_of_closed (isClosed : closed.Closed)
    (stays : ∀ view, session.network.view? ref = some view → view = closed)
    (command : Command Nat α) : .signalled ref ∉ (session.perform command).events := by
  intro mem
  obtain ⟨_, _, notifier, heard, rings, rfl, view, there, open', _⟩ :=
    (session.exact_perform command ref).precise.mp mem
  obtain ⟨before, found, same, _⟩ := rings.view?_eq_some there
  rw [stays before found, isClosed.released, open'] at same
  cases same

/-- A command leaves a closed view as it is, and the view does nothing. -/
theorem closed_perform (isClosed : closed.Closed)
    (stays : ∀ view, session.network.view? ref = some view → view = closed)
    {command : Command Nat α} {later : View}
    (reached : (session.perform command).network.view? ref = some later) :
    session.network.view? ref = some closed ∧ later = closed ∧
      Event.activities ref (session.perform command).events = [] := by
  rcases session.perform_cases command with ⟨_, still⟩ | ⟨resolved, _, performed⟩
  · rw [still] at reached ⊢
    have same := stays later reached
    exact ⟨same ▸ reached, same, rfl⟩
  · rw [performed] at reached ⊢
    obtain ⟨old, there, _⟩ := Network.heir_exec reached
    have upholds : (session.network.exec resolved).Upholds
        (fun view hand log => view = closed ∧ hand = none ∧ log = []) ref [] :=
      Network.upholds_exec isClosed.invariant (fun view there => ⟨stays view there, rfl, rfl⟩)
        resolved
    obtain ⟨same, _, silent⟩ := upholds later reached
    exact ⟨stays old there ▸ there, same, silent⟩

/-- From a moment on at which a view is closed, it stays as it is and does nothing, and it is not
signalled. -/
theorem closed_play (session : Session σ α) (commands : List (Command Nat α))
    (isClosed : closed.Closed) {m n : Nat} (le : m ≤ n)
    (there : (session.reachedBy ((session.play commands).take m)).view? ref = some closed) :
    let past (n : Nat) := (session.play commands).take n
    (Event.signals (Record.events (past n))).count ref =
        (Event.signals (Record.events (past m))).count ref ∧
      ∀ later, (session.reachedBy (past n)).view? ref = some later →
        later = closed ∧ Record.activities ref (past n) = Record.activities ref (past m) := by
  intro past
  refine session.play_persists commands (fun records network =>
    (Event.signals (Record.events records)).count ref =
        (Event.signals (Record.events (past m))).count ref ∧
      ∀ later, network.view? ref = some later →
        later = closed ∧ Record.activities ref records = Record.activities ref (past m))
    ?_ le ⟨rfl, ?_⟩
  · rintro records current task ⟨counted, stays⟩
    have stays' (view : View) (found : current.network.view? ref = some view) : view = closed :=
      (stays view found).1
    constructor
    · have unsignalled := unsignalled_of_closed isClosed stays' task.command
      rw [← Event.mem_signals] at unsignalled
      rw [Record.events_append_recordOf, Event.signals_append, List.count_append,
        List.count_eq_zero.mpr unsignalled, counted, Nat.add_zero]
    · intro later reached
      obtain ⟨before, same, silent⟩ := closed_perform isClosed stays' reached
      refine ⟨same, ?_⟩
      rw [Record.activities, Record.events_append_recordOf, Event.activities_append, silent,
        List.append_nil]
      exact (stays closed before).2
  · intro later found
    rw [there, Option.some.injEq] at found
    exact ⟨found.symm, rfl⟩

end Session

/-- The first release of a view, from wherever it is asked for, releases every registered source
once, in the order of registration, whichever of them fail, and answers with the first error. From
then on as long as the view is there it is closed and stays exactly as the release left it, whatever
happens: it is not signalled, it pulls and releases no source, and it answers accordingly. -/
theorem release_terminal (sources : List σ) (views : List (Config × Listener))
    (reactions : List (List (List (Command Nat α)))) (commands : List (Command Nat α))
    (ref : ViewRef) (m : Nat) (record : Record σ α) (view : View) :
    let session := Session.start sources views reactions
    let past (n : Nat) := (session.play commands).take n
    let before := session.reachedBy (past m)
    let error? (entry : Registration) := (Producer.releaseAt before.sources entry.source).1
    (session.play commands)[m]? = some record →
    record.task.command = .request ref .release →
    (∀ earlier ∈ past m, earlier.task.command ≠ .request ref .release) →
    before.view? ref = some view →
      (record.step.events = view.registry.entries.map (fun entry =>
          .view ref (.released entry (error? entry))) ∧
        record.step.reply = (view.registry.entries.findSome? error?).elim .done .refused ∧
        (∀ entry ∈ view.registry.entries, ∃ state, before.sources[entry.source]? = some state ∧
          error? entry = (Producer.release state).1) ∧
        (∀ place, record.step.network.sources[place]? = before.sources[place]?.map fun state =>
          if place ∈ view.registry.sources then (Producer.release state).2 else state) ∧
        record.step.network.view? ref = some view.closed) ∧
      ∀ n, m < n →
        (Event.signals (Record.events (past n))).count ref =
            (Event.signals (Record.events (past (m + 1)))).count ref ∧
          ∀ later, (session.reachedBy (past n)).view? ref = some later →
            later = view.closed ∧ (session.reachedBy (past n)).Inert ref ∧
              Record.activities ref (past n) = Record.activities ref (past (m + 1)) := by
  intro session past before error? played asked unasked there
  have sound := Session.holds_of_view View.sound_invariant
    (fun _ _ built => View.sound_of_config built) sources views reactions commands m there
  have open' := Session.open_play sources views reactions commands m unasked view there
  have performed : record.step = before.exec (.request ref .release) := by
    obtain ⟨current, network, _, same⟩ := session.record_play commands played
    have step : record.step = current.perform record.task.command := congrArg Record.step same
    rw [step, asked, Session.perform]
    exact congrArg (fun network => network.exec (.request ref .release)) network
  obtain ⟨events, reply, states, closed⟩ := Network.exec_release sound there open'
  rw [← performed] at events reply states closed
  refine ⟨⟨events, reply, ?_, states, closed⟩, ?_⟩
  · intro entry registered
    obtain ⟨state, found⟩ := Session.housed_play sources views reactions commands m ref view there
      entry registered
    refine ⟨state, found, ?_⟩
    change (Producer.releaseAt before.sources entry.source).1 = _
    rw [Producer.releaseAt_eq, found]
    rfl
  · intro n later
    have released : (session.reachedBy (past (m + 1))).view? ref = some view.closed := by
      rw [session.reachedBy_take_succ played]
      exact closed
    obtain ⟨unsignalled, stays⟩ :=
      session.closed_play commands view.closed_closed later released
    refine ⟨unsignalled, fun view' there' => ?_⟩
    obtain ⟨rfl, silent⟩ := stays view' there'
    exact ⟨rfl, Network.inert_of_closed there' view.closed_closed, silent⟩

namespace Final

/-- The first source fails to release. -/
def sources : List Source := [
  .script (.ofAnswers [] none (some (.release ⟨6⟩ "stuck"))),
  .memory (.ofBuffers ⟨5⟩ [.data [1], .data [2]])]

/-- The callback releases the view for which it is signalled. -/
def session : Session Source Source.Action :=
  .start sources [(⟨2⟩, .ofCallback)] [[[.request 0 .release]]]

def commands : List (Command Nat Source.Action) := [
  .register 0 0 ⟨6⟩, .add 0 1, .request 0 .next, .act 1 (.memory (.push (.data [3]))), .announce 0 0]

end Final

open Final in
/-- The release inside the callback fails and closes the view all the same. -/
theorem release_terminal_reentrant :
    ∃ record view, (session.play commands)[2]? = some record ∧ record.task.depth = 1 ∧
      record.step.reply = .refused (.release ⟨6⟩ "stuck") ∧
      record.step.events = [.view 0 (.released ⟨⟨6⟩, 0⟩ (some (.release ⟨6⟩ "stuck"))),
        .view 0 (.released ⟨⟨5⟩, 1⟩ none)] ∧
      (session.reachedBy ((session.play commands).take 6)).view? 0 = some view ∧
      view.Closed ∧ (session.reachedBy ((session.play commands).take 6)).Inert 0 := by
  have releases : ((session.play commands)[2]?).any (fun record =>
      decide (record.task.depth = 1) && decide (record.task.command = .request 0 .release) &&
        decide (record.step.reply = .refused (.release ⟨6⟩ "stuck")) &&
        decide (record.step.events = [
          .view 0 (.released ⟨⟨6⟩, 0⟩ (some (.release ⟨6⟩ "stuck"))),
          .view 0 (.released ⟨⟨5⟩, 1⟩ none)])) = true := by
    decide +kernel
  have unasked : ∀ earlier ∈ (session.play commands).take 2,
      earlier.task.command ≠ .request 0 .release := by
    decide +kernel
  have present : ((session.reachedBy ((session.play commands).take 2)).view? 0).isSome = true := by
    decide +kernel
  have lasts : ((session.reachedBy ((session.play commands).take 6)).view? 0).isSome = true := by
    decide +kernel
  obtain ⟨record, played, facts⟩ := (Option.any_eq_true _ _).mp releases
  simp only [Bool.and_eq_true, decide_eq_true_eq] at facts
  obtain ⟨⟨⟨inside, asked⟩, reply⟩, events⟩ := facts
  obtain ⟨view, there⟩ := Option.isSome_iff_exists.mp present
  obtain ⟨later, found⟩ := Option.isSome_iff_exists.mp lasts
  obtain ⟨_, final⟩ := release_terminal sources [(⟨2⟩, .ofCallback)] [[[.request 0 .release]]]
    commands 0 2 record view played asked unasked there
  obtain ⟨rfl, inert, _⟩ := (final 6 (by decide)).2 later found
  exact ⟨record, _, played, inside, reply, events, found, view.closed_closed, inert⟩

end FairMerge
