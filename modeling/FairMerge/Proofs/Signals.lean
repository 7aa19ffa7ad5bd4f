import FairMerge.Proofs.MemoryQueue
import FairMerge.Proofs.Moments
import FairMerge.Proofs.Returns
import FairMerge.Proofs.Ringing

/-! # Signals, once per transition

A view signals its listener when buffers wait again after none did. So after a signal something
waits in the view, and it signals again only once the consumer has taken the last buffer. -/

namespace FairMerge

open Activity (deliveries)

theorem Event.mem_activities {ref : ViewRef} {activity : Activity} {events : List Event} :
    activity ∈ activities ref events ↔ view ref activity ∈ events := by
  rw [activities, List.mem_filterMap]
  constructor
  · rintro ⟨event, mem, same⟩
    cases event with
    | view other done =>
      by_cases own : other = ref
      · simp only [activity?, if_pos own, Option.some.injEq] at same
        rwa [← own, ← same]
      · simp [activity?, own] at same
    | signalled | drawn => cases same
  · intro mem
    exact ⟨view ref activity, mem, if_pos rfl⟩

variable {σ α : Type} [Producer σ α]

/-! ### What is called delivered -/

theorem Activity.mem_deliveries {entry : Entry} {left : Nat} {log : List Activity}
    (mem : .delivered entry left ∈ log) : entry ∈ deliveries log :=
  List.mem_filterMap.mpr ⟨_, mem, rfl⟩

namespace View

variable {view : View} {sources : List σ} {entry : Entry} {left : Nat}

/-- Asked for the next delivery, the view gives the entry, and then so many buffers wait in it. -/
def Gives (view : View) (sources : List σ) (entry : Entry) (left : Nat) : Prop :=
  (view.next sources).value = some entry ∧ (view.next sources).view.queue.length = left

theorem gives_of_mem (mem : .delivered entry left ∈ (view.next sources).journal) :
    view.Gives sources entry left := by
  have pulled (view : View) (sources : List σ) :
      Activity.delivered entry left ∉ (view.refill sources).journal := by
    intro mem
    have listed := Activity.mem_deliveries mem
    rw [deliveries_refill] at listed
    cases listed
  rcases view.next_cases sources with ⟨_, result⟩ | ⟨taken, queue, _, second, rfl, result⟩
  · rw [result] at mem
    exact absurd mem (pulled view sources)
  · rw [Gives, result]
    rw [result, List.mem_append, List.mem_append, List.mem_singleton] at mem
    rcases mem with (mem | mem) | same
    · exact absurd mem (pulled view sources)
    · exact absurd mem (pulled _ _)
    · cases same
      exact ⟨rfl, rfl⟩

/-- Each delivery of several is the next one after those before it. -/
theorem gives_of_mem_drain {limit : Nat}
    (mem : .delivered entry left ∈ (view.drain sources limit).journal) :
    ∃ taken < limit, (view.drain sources taken).view.Gives (view.drain sources taken).sources
      entry left := by
  induction limit generalizing view sources with
  | zero => cases mem
  | succ limit ih =>
    rw [drain] at mem
    cases first : (view.next sources).value with
    | none =>
      simp only [first] at mem
      exact ⟨0, Nat.zero_lt_succ limit, gives_of_mem mem⟩
    | some head =>
      simp only [first, List.mem_append] at mem
      rcases mem with mem | mem
      · exact ⟨0, Nat.zero_lt_succ limit, gives_of_mem mem⟩
      · obtain ⟨taken, within, gives⟩ := ih mem
        refine ⟨taken + 1, Nat.succ_lt_succ within, ?_⟩
        simp only [drain, first]
        exact gives

end View

namespace Network

/-- The command has the view give the entry, with so many buffers left: it asks for the next one,
or it takes several and this one after others. -/
inductive Delivers (network : Network σ) (ref : ViewRef) : Command Notifier α → Entry → Nat → Prop
  | next {view : View} {entry : Entry} {left : Nat} (there : network.view? ref = some view)
    (gives : view.Gives network.sources entry left) :
    Delivers network ref (.request ref .next) entry left
  | drain {view : View} {entry : Entry} {left taken limit : Nat}
    (there : network.view? ref = some view) (within : taken < limit)
    (gives : (view.drain network.sources taken).view.Gives
      (view.drain network.sources taken).sources entry left) :
    Delivers network ref (.request ref (.drain limit)) entry left

variable {network : Network σ} {ref : ViewRef} {command : Command Notifier α}

/-- What the journal of a command calls delivered was given. -/
theorem delivers_of_mem {entry : Entry} {left : Nat}
    (mem : .view ref (.delivered entry left) ∈ (network.exec command).events) :
    network.Delivers ref command entry left := by
  rw [← Event.mem_activities] at mem
  have carried : command.returned ref (network.exec command).reply ≠ [] := by
    rw [returned_exec]
    exact List.ne_nil_of_mem (List.mem_map_of_mem (Activity.mem_deliveries mem))
  cases command with
  | request target request =>
    by_cases own : target = ref
    · subst own
      rw [Command.returned, if_pos rfl] at carried
      simp only [exec] at mem carried
      cases there : network.view? target with
      | none => simp [there, still, Reply.carried] at carried
      | some view =>
        simp only [there] at mem carried
        cases request with
        | next =>
          rw [answer, commit, Event.activities_map_view] at mem
          exact .next there (View.gives_of_mem mem)
        | drain limit =>
          rw [answer, commit, Event.activities_map_view] at mem
          obtain ⟨taken, within, gives⟩ := View.gives_of_mem_drain mem
          exact .drain there within gives
        | release =>
          simp only [answer, commit] at carried
          cases failed : (view.release network.sources).value <;>
            simp [failed, Reply.carried] at carried
        | requireSegment id segment =>
          simp only [answer] at carried
          split at carried <;> exact absurd rfl carried
        | _ => exact absurd rfl carried
    · rw [Command.returned, if_neg own] at carried
      exact absurd rfl carried
  | _ => exact absurd rfl carried

end Network

/-! ### Between two signals -/

namespace View

/-- Unless the view is released, something waits in it, or it has just been taken, or the last
delivery of the log left nothing. -/
def Stocked (view : View) (hand : Option Entry) (log : List Activity) : Prop :=
  hand = none → view.released = false → view.queue.entries = [] →
    ∃ entry, Activity.delivered entry 0 ∈ log

theorem stocked_invariant : Invariant σ Stocked where
  register := by
    intro view later log id source stocked registered _ open' empty
    obtain ⟨_, _, _, rotation, _, rfl⟩ := register_cases registered
    exact stocked rfl open' empty
  announce stocked _ _ := stocked
  absorb := by
    intro view hand log sources pass stocked _ _ free open' empty
    obtain ⟨before, _⟩ := List.append_eq_nil_iff.mp empty
    obtain ⟨entry, mem⟩ := stocked free open' before
    exact ⟨entry, List.mem_append_left _ mem⟩
  publish stocked := stocked
  pop _ _ := by
    intro held
    cases held
  handOut := by
    intro view log entry _ _ _ empty
    refine ⟨view.stamp entry, List.mem_append_right _ ?_⟩
    rw [Lookahead.length, show view.queue.entries = [] from empty]
    exact List.mem_singleton.mpr rfl
  release _ _ _ := by
    intro _ open'
    cases open'

end View

/-- What comes before an element of which the later part has none comes before the later part. -/
theorem split_of_notMem {β : Type} {element : β} {past new first later : List β}
    (absent : element ∉ new) (split : past ++ new = first ++ element :: later) :
    ∃ rest, past = first ++ element :: rest ∧ later = rest ++ new := by
  rcases List.append_eq_append_iff.mp split with ⟨gap, _, inside⟩ | ⟨gap, before, rest⟩
  · exact absurd (inside ▸ List.mem_append_right gap List.mem_cons_self) absent
  · cases gap with
    | nil =>
      rw [List.nil_append] at rest
      exact absurd (rest ▸ List.mem_cons_self) absent
    | cons head gap =>
      obtain ⟨rfl, same⟩ := List.cons_eq_cons.mp rest
      exact ⟨gap, before, same⟩

/-- Since each signal of the view the consumer has emptied it or something waits in it, and between
any two signals the consumer has emptied it. -/
structure Network.Paced (network : Network σ) (ref : ViewRef) (past : List Event) : Prop where
  since : ∀ first later, past = first ++ .signalled ref :: later →
    (∃ entry, .view ref (.delivered entry 0) ∈ later) ∨
      ∀ view, network.view? ref = some view → view.Stocked none []
  between : ∀ first between later,
    past = first ++ .signalled ref :: (between ++ .signalled ref :: later) →
      ∃ entry, .view ref (.delivered entry 0) ∈ between

namespace Network.Paced

variable {network : Network σ} {ref : ViewRef} {past : List Event} {step : Step σ}

omit [Producer σ α] in
/-- A step without a signal of the view keeps the pace. -/
theorem quiet (paced : network.Paced ref past) (unsignalled : .signalled ref ∉ step.events)
    (upholds : (∀ view, network.view? ref = some view → view.Stocked none []) →
      step.Upholds View.Stocked ref []) :
    step.network.Paced ref (past ++ step.events) where
  since := by
    intro first later split
    obtain ⟨rest, before, rfl⟩ := split_of_notMem unsignalled split
    rcases paced.since first rest before with ⟨entry, mem⟩ | stocked
    · exact .inl ⟨entry, List.mem_append_left _ mem⟩
    · by_cases emptied : ∃ entry, .view ref (.delivered entry 0) ∈ step.events
      · obtain ⟨entry, mem⟩ := emptied
        exact .inl ⟨entry, List.mem_append_right _ mem⟩
      · refine .inr fun view there _ open' empty => ?_
        obtain ⟨entry, mem⟩ := upholds stocked view there rfl open' empty
        exact absurd ⟨entry, Event.mem_activities.mp mem⟩ emptied
  between := by
    intro first between later split
    rw [← List.cons_append, ← List.append_assoc] at split
    obtain ⟨rest, before, _⟩ := split_of_notMem unsignalled split
    rw [List.append_assoc, List.cons_append] at before
    exact paced.between first between rest before

omit [Producer σ α] in
/-- A signal keeps the pace if nothing waited before it and something does then. -/
theorem signal (paced : network.Paced ref past) {events : List Event}
    (ends : step.events = events ++ [.signalled ref]) (unsignalled : .signalled ref ∉ events)
    {before after : View} (there : network.view? ref = some before)
    (open' : before.released = false) (empty : before.queue.entries = [])
    (reached : step.network.view? ref = some after) (full : after.queue.entries ≠ []) :
    step.network.Paced ref (past ++ step.events) where
  since := by
    refine fun _ _ _ => .inr fun view found _ _ nothing => ?_
    rw [reached, Option.some.injEq] at found
    subst found
    exact absurd nothing full
  between := by
    intro first between later split
    rw [ends, ← List.append_assoc] at split
    rcases List.eq_nil_or_concat later with rfl | ⟨initial, last, rfl⟩
    · -- the later signal is the new one
      rw [← List.cons_append, ← List.append_assoc] at split
      obtain ⟨rest, earlier, rfl⟩ :=
        split_of_notMem unsignalled (List.append_inj_left' split rfl)
      rcases paced.since first rest earlier with ⟨entry, mem⟩ | stocked
      · exact ⟨entry, List.mem_append_left _ mem⟩
      · obtain ⟨_, mem⟩ := stocked before there rfl open' empty
        cases mem
    · rw [← List.cons_append, ← List.append_assoc, List.concat_eq_append, ← List.cons_append,
        ← List.append_assoc] at split
      obtain ⟨rest, earlier, _⟩ :=
        split_of_notMem unsignalled (List.append_inj_left' split rfl)
      rw [List.append_assoc, List.cons_append] at earlier
      exact paced.between first between rest earlier

end Network.Paced

/-! ### What a command signals -/

/-- The command rings a notifier of the view, which has its listener signalled. -/
def Network.Signals (network : Network σ) (ref : ViewRef) (command : Command Notifier α) : Prop :=
  ∃ notifier heard, network.Rings command notifier heard ∧ notifier.view = ref ∧
    heard.Alarms notifier

/-- What a step has to do with the listener of a view, if the step is what the command does, or if
there is no command since it named nothing that is there. -/
structure Step.Exact (network : Network σ) (command? : Option (Command Notifier α)) (ref : ViewRef)
    (step : Step σ) : Prop where
  /-- One listener is signalled, once, or none. -/
  once : (Event.signals step.events).length ≤ 1
  /-- The listener is signalled precisely if the command says so. -/
  precise : .signalled ref ∈ step.events ↔ ∃ command ∈ command?, network.Signals ref command
  /-- Something waits in the view when its listener starts. -/
  stocked : .signalled ref ∈ step.events →
    ∃ view, step.network.view? ref = some view ∧ view.queue.entries ≠ []
  /-- The step calls a callback precisely if it signals it. -/
  call : ∀ number, step.call? = some ⟨ref, number⟩ ↔
    .signalled ref ∈ step.events ∧ step.network.calls? ref = some number
  /-- A callback counts its signals. -/
  calls : step.network.calls? ref =
    (network.calls? ref).map (· + (Event.signals step.events).count ref)
  /-- What is called delivered was given by the view. -/
  delivers : ∀ entry left, .view ref (.delivered entry left) ∈ step.events →
    ∃ command ∈ command?, network.Delivers ref command entry left

namespace Network

variable {network : Network σ} {ref : ViewRef} {command? : Option (Command Notifier α)}
  {step : Step σ}

theorem exact_of_silent (silent : step.Silent network)
    (calm : ¬ ∃ command ∈ command?, network.Signals ref command)
    (delivers : ∀ entry left, .view ref (.delivered entry left) ∈ step.events →
      ∃ command ∈ command?, network.Delivers ref command entry left) :
    step.Exact network command? ref := by
  have unsignalled : .signalled ref ∉ step.events := by
    rw [← Event.mem_signals, silent.signals]
    exact List.not_mem_nil
  refine ⟨?_, ?_, fun mem => absurd mem unsignalled, fun number => ?_, ?_, delivers⟩
  · rw [silent.signals]
    exact Nat.zero_le 1
  · exact ⟨fun mem => absurd mem unsignalled, fun signals => absurd signals calm⟩
  · rw [silent.call]
    constructor
    · intro called
      cases called
    · rintro ⟨mem, _⟩
      exact absurd mem unsignalled
  · rw [silent.calls, silent.signals]
    cases network.calls? ref <;> rfl

theorem exact_exec (network : Network σ) (ref : ViewRef) (command : Command Notifier α) :
    (network.exec command).Exact network (some command) ref := by
  have delivers (entry : Entry) (left : Nat)
      (mem : .view ref (.delivered entry left) ∈ (network.exec command).events) :
      ∃ command' ∈ some command, network.Delivers ref command' entry left :=
    ⟨command, rfl, delivers_of_mem mem⟩
  rcases network.exec_cases command with silent | ⟨notifier, heard, rings, alarms⟩
  · refine exact_of_silent silent ?_ delivers
    rintro ⟨_, ⟨⟩, notifier, heard, rings, _, alarms⟩
    have one := (rings.sounds alarms).signals
    rw [silent.signals] at one
    cases one
  · have sounds := rings.sounds alarms
    have signals : .signalled ref ∈ (network.exec command).events ↔ ref = notifier.view := by
      rw [← Event.mem_signals, sounds.signals, List.mem_singleton]
    refine ⟨?_, ?_, ?_, fun number => ?_, ?_, delivers⟩
    · rw [sounds.signals]
      exact Nat.le_refl 1
    · rw [signals]
      constructor
      · rintro rfl
        exact ⟨command, rfl, notifier, heard, rings, rfl, alarms⟩
      · rintro ⟨_, ⟨⟩, other, heard', rings', rfl, alarms'⟩
        have same := (rings'.sounds alarms').signals
        rw [sounds.signals, List.cons.injEq] at same
        exact same.1.symm
    · rw [signals]
      rintro rfl
      exact sounds.stocked
    · rw [signals, sounds.call, Option.map_eq_some_iff]
      constructor
      · rintro ⟨_, counted, ⟨⟩⟩
        exact ⟨rfl, counted⟩
      · rintro ⟨rfl, counted⟩
        exact ⟨number, counted, rfl⟩
    · rw [sounds.calls, sounds.signals]

/-- A command keeps the pace. -/
theorem paced_exec {past : List Event} (paced : network.Paced ref past)
    (command : Command Notifier α) :
    (network.exec command).network.Paced ref (past ++ (network.exec command).events) := by
  have upholds (stocked : ∀ view, network.view? ref = some view → view.Stocked none []) :=
    upholds_exec View.stocked_invariant stocked command
  rcases network.exec_cases command with silent | ⟨notifier, heard, rings, alarms⟩
  · refine paced.quiet ?_ upholds
    rw [← Event.mem_signals, silent.signals]
    exact List.not_mem_nil
  · have sounds := rings.sounds alarms
    by_cases own : notifier.view = ref
    · subst own
      obtain ⟨view, there, open', empty, _⟩ := alarms
      obtain ⟨before, found, same, queue⟩ := rings.view?_eq_some there
      obtain ⟨after, reached, full⟩ := sounds.stocked
      obtain ⟨log, ends⟩ := sounds.events
      refine paced.signal ends ?_ found (same.trans open') (by rw [queue, empty]) reached full
      rw [← Event.mem_signals, Event.signals_map_view]
      exact List.not_mem_nil
    · refine paced.quiet ?_ upholds
      rw [← Event.mem_signals, sounds.signals, List.mem_singleton]
      exact Ne.symm own

end Network

namespace Session

/-- A command of a session does to the listener of a view what it is said to. -/
theorem exact_perform (session : Session σ α) (command : Command Nat α) (ref : ViewRef) :
    (session.perform command).Exact session.network
      (command.resolve? fun place => session.notifiers[place]?) ref := by
  rcases session.perform_cases command with ⟨unresolved, still⟩ | ⟨resolved, found, performed⟩
  · rw [still, unresolved]
    refine Network.exact_of_silent (Network.silent_still .missing) ?_ ?_
    · rintro ⟨_, ⟨⟩, _⟩
    · intro entry left mem
      cases mem
  · rw [performed, found]
    exact Network.exact_exec session.network ref resolved

theorem paced_play (session : Session σ α) (commands : List (Command Nat α)) (ref : ViewRef)
    (n : Nat) :
    (session.reachedBy ((session.play commands).take n)).Paced ref
      (Record.events ((session.play commands).take n)) := by
  refine play_invariant (fun past network _ => network.Paced ref (Record.events past)) ?_ session
    ⟨by simp [Record.events], by simp [Record.events]⟩ commands n
  intro past session task paced
  rw [Record.events_append_recordOf]
  rcases session.perform_cases task.command with ⟨_, still⟩ | ⟨resolved, _, performed⟩
  · rw [still]
    simpa [Network.still] using paced
  · rw [performed]
    exact Network.paced_exec paced resolved

end Session

/-! ### What rings a source -/

theorem MemorySource.pushed_of_pushAll {source : MemorySource} {buffers : List Buffer}
    {notifier : Notifier} (rung : (source.pushAll buffers).2 = some notifier) :
    source.queue = [] ∧ source.notifier? = some notifier ∧ buffers ≠ [] := by
  simp only [pushAll, enqueueAll_eq, isEmpty] at rung
  split at rung
  · cases rung
  · split at rung
    · rename_i _ starts
      simp only [Bool.and_eq_true, List.isEmpty_iff, Bool.not_eq_true', List.isEmpty_eq_false_iff]
        at starts
      obtain ⟨empty, full⟩ := starts
      rw [empty, List.nil_append] at full
      exact ⟨empty, rung, full⟩
    · cases rung

/-- Only a push to an empty queue names a notifier, the one that the source has. -/
theorem Source.pushed_of_act {action : Source.Action} {source : Source} {notifier : Notifier}
    (named : (Producer.act action source).2 = some notifier) :
    ∃ memory, source = .memory memory ∧ memory.queue = [] ∧ memory.notifier? = some notifier ∧
      action.pushed ≠ [] := by
  cases source with
  | script source => cases action <;> cases named
  | memory memory =>
    refine ⟨memory, rfl, ?_⟩
    cases action with
    | script action => cases named
    | memory action =>
      cases action with
      | push buffer => exact MemorySource.pushed_of_pushAll named
      | pushAll buffers => exact MemorySource.pushed_of_pushAll named
      | failPull | failRelease | recordFailure => cases named

/-- In a session, whatever the sources do and whatever callbacks do in turn: a command signals at
most one listener, once, and it signals that of a view precisely if it rings a notifier of the view,
the view is not released and has the source registered, nothing waits in it, and something waits
after its refill; then something waits in it when its listener starts. Between two signals of a view
it has given a delivery after which nothing waited. Of actions on sources only a push rings. -/
theorem signals_exact :
    (∀ {σ α : Type} [Producer σ α] (session : Session σ α) (commands : List (Command Nat α))
        (ref : ViewRef),
      let records := session.play commands
      (∀ (n : Nat) (record : Record σ α), records[n]? = some record →
        record.step.Exact (session.reachedBy (records.take n))
          (record.task.command.resolve? fun place =>
            (session.handedOut (records.take n))[place]?) ref) ∧
      ∀ first between later : List Event,
        Record.events records = first ++ .signalled ref :: (between ++ .signalled ref :: later) →
          ∃ entry, .view ref (.delivered entry 0) ∈ between) ∧
    ∀ (action : Source.Action) (source : Source) (notifier : Notifier),
      (Producer.act action source).2 = some notifier →
        ∃ memory, source = .memory memory ∧ memory.queue = [] ∧
          memory.notifier? = some notifier ∧ action.pushed ≠ [] := by
  constructor
  · intro σ α _ session commands ref records
    constructor
    · intro n record played
      obtain ⟨current, network, notifiers, same⟩ := session.record_play commands played
      rw [← network, ← notifiers, same]
      exact current.exact_perform record.task.command ref
    · have paced := session.paced_play commands ref records.length
      rw [List.take_length] at paced
      exact paced.between
  · intro action source notifier named
    exact Source.pushed_of_act named

namespace Nested

/-- The callback takes the buffer that it is signalled for, and then pushes another one. -/
def session : Session Source Source.Action :=
  .start [.memory (.ofBuffers ⟨5⟩ [])] [(⟨2⟩, .ofCallback)]
    [[[.request 0 .next, .act 0 (.memory (.push (.data [2])))]]]

def commands : List (Command Nat Source.Action) := [
  .add 0 0, .act 0 (.memory (.push (.data [1]))), .act 0 (.memory (.push (.data [3])))]

def events : List Event := Record.events (session.play commands)

end Nested

open Nested in
/-- The first push signals, and so does the one inside the callback, but not the last one. -/
theorem signals_exact_nested :
    Event.signals events = [0, 0] ∧
      (∃ command, (session.reachedBy ((session.play commands).take 3)).Signals 0 command) ∧
      ∃ first between later,
        events = first ++ .signalled 0 :: (between ++ .signalled 0 :: later) ∧
          ∃ entry, .view 0 (.delivered entry 0) ∈ between := by
  have signalled : ((session.play commands)[3]?).any (fun record =>
      decide (.signalled 0 ∈ record.step.events)) = true := by
    decide +kernel
  obtain ⟨record, played, mem⟩ := (Option.any_eq_true _ _).mp signalled
  obtain ⟨exact', apart⟩ := signals_exact.1 session commands 0
  obtain ⟨command, _, signals⟩ := (exact' 3 record played).precise.mp (of_decide_eq_true mem)
  have split : events =
      events.take 2 ++ .signalled 0 :: ((events.drop 3).take 3 ++ .signalled 0 :: []) := by
    decide +kernel
  exact ⟨by decide +kernel, ⟨command, signals⟩, _, _, _, split, apart _ _ _ split⟩

end FairMerge
