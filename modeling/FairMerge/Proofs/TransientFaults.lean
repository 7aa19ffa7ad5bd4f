import FairMerge.Proofs.Remaining

/-! # Failures that pass

A failure that is armed for one pull costs the consumer at most one answer that there is no
delivery. Each such answer uses up an armed failure, or after it the view rests: nothing is left
that it may deliver, and asking again changes nothing. -/

namespace FairMerge

open Activity (deliveries)
open Producer (Served)
open Source (memoryAt queueAt)

/-- Counting by a stronger condition that misses one member counts less. -/
theorem countP_lt_countP {β : Type} {strong weak : β → Bool} {members : List β} {member : β}
    (implies : ∀ other ∈ members, strong other = true → weak other = true)
    (mem : member ∈ members) (holds : weak member = true) (fails : strong member = false) :
    members.countP strong < members.countP weak := by
  induction members with
  | nil => cases mem
  | cons head members ih =>
    have rest := fun other mem => implies other (List.mem_cons_of_mem _ mem)
    have fewer : members.countP strong ≤ members.countP weak := List.countP_mono_left rest
    rw [List.countP_cons, List.countP_cons]
    rcases List.mem_cons.mp mem with rfl | mem
    · rw [holds, fails, if_pos rfl, if_neg Bool.false_ne_true]
      omega
    · have less := ih rest mem
      have first := implies head (List.mem_cons_self ..)
      by_cases strongly : strong head = true
      · rw [if_pos strongly, if_pos (first strongly)]
        omega
      · rw [if_neg strongly]
        omega

/-! ### Armed failures -/

/-- Whether the next pull of the source at a place will fail. -/
def Source.armedAt (sources : List Source) (place : SourceRef) : Bool :=
  (memoryAt sources place).any fun state => state.pullFault?.isSome

theorem Source.armedAt_iff {sources : List Source} {place : SourceRef} {state : MemorySource}
    (found : sources[place]? = some (.memory state)) :
    armedAt sources place = true ↔ state.pullFault? ≠ none := by
  rw [armedAt, memoryAt_eq_some_iff.mpr found, Option.any_some, Option.isSome_iff_ne_none]

theorem Source.armedAt_of_served {sources later : List Source} {place : SourceRef}
    (served : Served sources later) (armed : armedAt later place = true) :
    armedAt sources place = true := by
  obtain ⟨after, found, fault⟩ := (Option.any_eq_true _ _).mp armed
  obtain ⟨before, _, present, spent⟩ := served_memory served (memoryAt_eq_some_iff.mp found)
  rw [armedAt_iff present]
  intro unarmed
  rw [spent.disarmed unarmed] at fault
  cases fault

namespace View

/-- The number of registered sources whose next pull will fail. -/
def armed (view : View) (sources : List Source) : Nat :=
  view.registry.entries.countP fun entry => Source.armedAt sources entry.source

/-- Nothing waits in the view, and nothing waits in a source either, or a record is open whose
source has nothing. -/
def Exhausted (view : View) (sources : List Source) : Prop :=
  view.queue.entries = [] ∧
    ((∀ entry ∈ view.registry.entries, queueAt sources entry.source = []) ∨
      ∃ entry ∈ view.registry.entries, view.rotation.holder = some entry.id ∧
        queueAt sources entry.source = [])

/-- Asking for a delivery gives none and changes nothing. -/
def Resting (view : View) (sources : List Source) : Prop :=
  (view.next sources).value = none ∧ (view.next sources).view = view ∧
    (view.next sources).sources = sources

variable {view : View} {ref : ViewRef} {calm : SourceRef → Prop} {sources : List Source}
  {pass : Pass Source}

/-- A pass in which a pull failed leaves fewer failures armed. -/
theorem armed_lt_of_fault {room : Nat} {rotation : Rotation}
    (informed : view.Informed ref calm none sources) (attached : view.Attached ref pass.sources)
    (course : Pass.Course view.registry room rotation sources pass) (failed : pass.faults ≠ []) :
    (view.absorb pass).armed pass.sources < view.armed sources := by
  obtain ⟨fault, mem⟩ := List.exists_mem_of_ne_nil _ failed
  obtain ⟨pull, pulled, given⟩ := List.mem_filterMap.mp mem
  obtain ⟨cause, fails, _⟩ := Option.map_eq_some_iff.mp given
  have registered := Registry.mem_of_source? (course.registered pull pulled)
  obtain ⟨state, found, _⟩ := attached.memory registered
  have answered : ∃ cause, pull.answer = .failed cause := by
    cases answer : pull.answer with
    | failed cause => exact ⟨cause, rfl⟩
    | delivery | nothing => simp [Pull.error?, answer] at fails
  obtain ⟨cause, answered⟩ := answered
  obtain ⟨disarmed, before, present, fault⟩ :=
    (course.explains informed.tame pull pulled state found).2 cause answered
  refine countP_lt_countP (fun entry _ => Source.armedAt_of_served course.served) registered ?_ ?_
  · exact (Source.armedAt_iff present).mpr fault
  · rw [← Bool.not_eq_true, Source.armedAt_iff found]
    exact not_not_intro disarmed

/-! ### Rest -/

/-- A pass that finds nothing and leaves the rotation as it is changes nothing. -/
theorem resting_of_run {pulls : List Pull} {halt : Halt} (open' : view.released = false)
    (empty : view.queue.entries = []) (published : view.publish = view)
    (ran : Pass.run view.registry view.queue.room view.rotation sources =
      ⟨view.rotation, sources, pulls, halt⟩)
    (nothing : ∀ pull ∈ pulls, pull.answer = .nothing) : view.Resting sources := by
  have entries : Pass.entries (⟨view.rotation, sources, pulls, halt⟩ : Pass Source) = [] := by
    apply List.filterMap_eq_nil_iff.mpr
    intro pull mem
    simp [Pull.entry?, nothing pull mem]
  have faults : Pass.faults (⟨view.rotation, sources, pulls, halt⟩ : Pass Source) = [] := by
    apply List.filterMap_eq_nil_iff.mpr
    intro pull mem
    simp [Pull.error?, nothing pull mem]
  have filled : view.refill sources = ⟨(), view, sources, pulls.map Activity.pulled⟩ := by
    rw [refill, if_neg (ne_true_of_eq_false open')]
    simp [ran, absorb, entries, faults, Lookahead.append]
  rcases view.next_cases sources with ⟨_, result⟩ | ⟨entry, queue, popped, _⟩
  · rw [Resting, result, filled]
    exact ⟨rfl, published, rfl⟩
  · rw [filled, Lookahead.pop?_eq_none_iff.mpr empty] at popped
    cases popped

/-- If no pull of a pass failed and still nothing waits after it, there is nothing to be had. -/
theorem Informed.rests (informed : view.Informed ref calm none sources)
    (open' : view.released = false) (attached : view.Attached ref pass.sources)
    (course : Pass.Course view.registry view.queue.room view.rotation sources pass)
    (faultless : pass.faults = []) (empty : (view.absorb pass).queue.entries = []) :
    (view.absorb pass).publish.Exhausted pass.sources ∧
      (view.absorb pass).publish.Resting pass.sources := by
  have after := informed.absorb open' course
  have rotation : (view.absorb pass).publish.rotation = pass.rotation := by
    change pass.faults.foldl _ pass.rotation = pass.rotation
    rw [faultless]
    rfl
  have before := empty
  rw [queue_absorb, Lookahead.entries_append, List.append_eq_nil_iff] at before
  obtain ⟨room, large⟩ := informed.sound.room_of_empty before.1
  obtain ⟨room', still⟩ := after.publish.sound.room_of_empty empty
  rw [large] at course
  rcases course.halts informed.sound.cycle informed.sound.holder before.2 with
    ⟨unchosen, settled⟩ | ⟨id, source, answer, held, found, pulled, fruitless, same, pulls⟩
  · -- nobody is ready, but every source that has something would be
    have ran : Pass.run view.registry (room' + 1) pass.rotation pass.sources = _ :=
      Pass.run_of_idle pass.sources unchosen
    rw [Rotation.select_of_idle unchosen settled, ← still, ← rotation] at ran
    refine ⟨⟨empty, .inl fun entry registered => ?_⟩, ?_⟩
    · by_cases nothing : queueAt pass.sources entry.source = []
      · exact nothing
      · have ready := after.publish.ready open' entry registered
          (attached.loaded registered nothing) (Option.some_ne_none _).symm
        rw [rotation, (Rotation.choice_eq_none_iff.mp unchosen).2] at ready
        cases ready
    · exact resting_of_run open' empty rfl ran fun pull mem => by cases mem
  · -- the holder was pulled last, and it has nothing since the pull did not fail
    have registered := Registry.mem_of_source? found
    obtain ⟨state, present, _⟩ := attached.memory registered
    have mem : (⟨id, source, answer⟩ : Pull) ∈ pass.pulls := by
      rw [pulls]
      exact List.mem_singleton_self _
    have silent : answer = .nothing := by
      cases answer with
      | delivery delivery => exact absurd rfl (fruitless delivery)
      | nothing => rfl
      | failed cause =>
        have fault : (⟨id, cause⟩ : Fault) ∈ pass.faults := List.mem_filterMap.mpr ⟨_, mem, rfl⟩
        rw [faultless] at fault
        cases fault
    subst silent
    have dry := (course.explains informed.tame _ mem state present).1 rfl
    have unchanged := Source.pullAt_nothing pulled present
    have holds : pass.rotation.holder = some id := by
      rw [same, Rotation.holder_settle_dry, Rotation.holder_select, held]
    rw [← unchanged] at pulled
    have ran : Pass.run view.registry (room' + 1) pass.rotation pass.sources = _ :=
      Pass.run_of_blocked holds found pulled fruitless
    have again : pass.rotation.select.2.settle .dry = pass.rotation := by
      rw [same]
      exact Rotation.settle_dry_again held
    rw [again, ← still, ← rotation] at ran
    refine ⟨⟨empty, .inr ⟨⟨id, source⟩, registered, ?_, ?_⟩⟩, ?_⟩
    · rw [rotation]
      exact holds
    · rw [Source.queueAt_eq present]
      exact dry
    · refine resting_of_run open' empty rfl ran fun pull mem => ?_
      rw [List.mem_singleton.mp mem]

/-! ### One answer that there is no delivery -/

theorem armed_next_le (view : View) (sources : List Source) :
    (view.next sources).view.armed (view.next sources).sources ≤ view.armed sources := by
  have served := Effect.served fun place => view.next_touches sources place
  have same : (view.next sources).view.registry = view.registry := view.registry_next sources
  rw [armed, armed, same]
  exact List.countP_mono_left fun entry _ => Source.armedAt_of_served served

/-- An answer that there is no delivery uses up an armed failure, or the view rests after it. -/
theorem Informed.next_none (informed : view.Informed ref calm none sources)
    (open' : view.released = false) (attached : view.Attached ref sources)
    (ended : (view.next sources).value = none) :
    (view.next sources).view.armed (view.next sources).sources < view.armed sources ∨
      (view.next sources).view.Exhausted (view.next sources).sources ∧
        (view.next sources).view.Resting (view.next sources).sources := by
  obtain ⟨pass, course, filled⟩ := refill_of_unreleased open' sources
  rcases view.next_cases sources with ⟨empty, result⟩ | ⟨entry, queue, _, second, _, result⟩
  · rw [result, filled]
    rw [filled] at empty
    have kept : view.Attached ref pass.sources := attached.serve course.served
    by_cases faultless : pass.faults = []
    · right
      exact informed.rests open' kept course faultless (Lookahead.pop?_eq_none_iff.mp empty)
    · left
      have fewer := armed_lt_of_fault informed kept course faultless
      exact fewer
  · rw [result] at ended
    cases ended

end View

/-! ### Asking again and again -/

/-- What a view delivers in the steps. -/
def Step.delivered {σ : Type} (ref : ViewRef) (steps : List (Step σ)) : List Entry :=
  deliveries (Event.activities ref (steps.flatMap Step.events))

/-- How often the steps answer that there is no delivery. -/
def Step.ends {σ : Type} (steps : List (Step σ)) : Nat :=
  steps.countP fun step => step.reply.isEnd

theorem Step.delivered_cons {σ : Type} (ref : ViewRef) (step : Step σ) (steps : List (Step σ)) :
    delivered ref (step :: steps) =
      deliveries (Event.activities ref step.events) ++ delivered ref steps := by
  rw [delivered, List.flatMap_cons, Event.activities_append, Activity.deliveries_append]
  rfl

namespace Network

/-- The network that the steps lead to. -/
def reachedBy {σ : Type} (network : Network σ) (steps : List (Step σ)) : Network σ :=
  steps.getLast?.elim network Step.network

theorem reachedBy_cons {σ : Type} (network : Network σ) (step : Step σ) (steps : List (Step σ)) :
    network.reachedBy (step :: steps) = step.network.reachedBy steps := by
  unfold reachedBy
  rw [List.getLast?_cons]
  cases steps.getLast? <;> rfl

/-- The view is asked for a delivery once. -/
def askOnce (network : Network Source) (ref : ViewRef) : Step Source :=
  network.exec (.request ref .next : Command Notifier Source.Action)

/-- The view is asked for a delivery so many times. -/
def ask (network : Network Source) (ref : ViewRef) (times : Nat) : List (Step Source) :=
  network.run (List.replicate times (.request ref .next : Command Notifier Source.Action))

variable {network : Network Source} {ref : ViewRef} {calm : SourceRef → Prop} {view : View}

theorem ask_succ (times : Nat) : network.ask ref (times + 1) =
    network.askOnce ref :: (network.askOnce ref).network.ask ref times := by
  rw [ask, List.replicate_succ]
  rfl

theorem askOnce_eq (found : network.view? ref = some view) : network.askOnce ref =
    network.commit ref (view.next network.sources) fun entry =>
      .delivery (entry.map Entry.delivery) := by
  rw [askOnce, exec, found]
  rfl

theorem deliveries_askOnce (found : network.view? ref = some view) :
    deliveries (Event.activities ref (network.askOnce ref).events) =
      (view.next network.sources).value.toList := by
  rw [askOnce_eq found, deliveries_commit, if_pos rfl, View.deliveries_next]

theorem sources_askOnce (found : network.view? ref = some view) :
    (network.askOnce ref).network.sources = (view.next network.sources).sources := by
  rw [askOnce_eq found]
  rfl

theorem isEnd_askOnce (found : network.view? ref = some view) :
    (network.askOnce ref).reply.isEnd = (view.next network.sources).value.isNone := by
  rw [askOnce_eq found]
  cases taken : (view.next network.sources).value <;> simp [commit, taken, Reply.isEnd]

theorem ends_ask_succ (found : network.view? ref = some view) (times : Nat) :
    Step.ends (network.ask ref (times + 1)) =
      Step.ends ((network.askOnce ref).network.ask ref times) +
        if (view.next network.sources).value.isNone then 1 else 0 := by
  rw [ask_succ, Step.ends, List.countP_cons, isEnd_askOnce found]
  rfl

/-- Between two requests of its consumer, an unreleased view knows of its sources, these announce
themselves to it, and what waits came from them. -/
structure Serving (network : Network Source) (ref : ViewRef) (calm : SourceRef → Prop)
    (view : View) : Prop where
  found : network.view? ref = some view
  unreleased : view.released = false
  informed : view.Informed ref calm none network.sources
  attached : view.Attached ref network.sources
  filed : view.Filed none []

namespace Serving

theorem next (serving : network.Serving ref calm view) :
    (network.askOnce ref).network.Serving ref calm (view.next network.sources).view := by
  have served := Effect.served fun place => view.next_touches network.sources place
  constructor
  · rw [askOnce_eq serving.found]
    exact view?_setView_self serving.found
  · rw [View.released_next]
    exact serving.unreleased
  · rw [sources_askOnce serving.found]
    exact serving.informed.next.toInformed
  · rw [sources_askOnce serving.found]
    intro entry registered
    rw [View.registry_next] at registered
    exact serving.attached.serve served entry registered
  · have after := View.filed_invariant.next serving.filed network.sources
    exact fun entry mem => after entry (List.mem_append_right _ mem)

/-- What a view delivers is what it had to deliver, in the order of each source. -/
theorem ahead_ask (serving : network.Serving ref calm view) (times : Nat) :
    ∃ later, (network.reachedBy (network.ask ref times)).Serving ref calm later ∧
      later.registry = view.registry ∧
      ∀ entry ∈ view.registry.entries,
        Entry.buffersFrom entry.id (Step.delivered ref (network.ask ref times)) ++
            later.ahead (network.reachedBy (network.ask ref times)).sources entry =
          view.ahead network.sources entry := by
  induction times generalizing network view with
  | zero => exact ⟨view, serving, rfl, fun entry _ => rfl⟩
  | succ times ih =>
    obtain ⟨later, served, same, brought⟩ := ih serving.next
    rw [View.registry_next] at same brought
    rw [ask_succ, reachedBy_cons]
    refine ⟨later, served, same, fun entry registered => ?_⟩
    have first := View.ahead_next serving.informed.sound serving.attached registered
    rw [Step.delivered_cons, deliveries_askOnce serving.found, Entry.buffersFrom_append,
      List.append_assoc, brought entry registered, sources_askOnce serving.found]
    exact first

/-- Every request is answered with a buffer that remained, or there was none. -/
theorem times_le (serving : network.Serving ref calm view) (times : Nat) :
    times ≤ Step.ends (network.ask ref times) + view.remaining network.sources := by
  induction times generalizing network view with
  | zero => exact Nat.zero_le _
  | succ times ih =>
    have rest := ih serving.next
    rw [sources_askOnce serving.found] at rest
    rw [ends_ask_succ serving.found]
    cases taken : (view.next network.sources).value with
    | none =>
      have kept := View.remaining_next_le serving.informed.sound serving.attached
      simp only [Option.isNone_none, if_true]
      omega
    | some entry =>
      have less := View.remaining_next_lt serving.informed.sound serving.attached serving.filed
        taken
      simp only [Option.isNone_some, if_neg Bool.false_ne_true]
      omega

end Serving

/-! ### The end -/

/-- A request to a view that rests changes nothing. -/
theorem askOnce_of_resting (found : network.view? ref = some view)
    (resting : view.Resting network.sources) :
    (network.askOnce ref).reply = .delivery none ∧ (network.askOnce ref).network = network := by
  obtain ⟨nothing, same, still⟩ := resting
  rw [askOnce_eq found, commit, nothing, same, still]
  exact ⟨rfl, setView_self found⟩

theorem ask_of_resting (found : network.view? ref = some view)
    (resting : view.Resting network.sources) (times : Nat) :
    ∀ step ∈ network.ask ref times, step.reply = .delivery none ∧ step.network = network := by
  have once := askOnce_of_resting found resting
  induction times with
  | zero =>
    intro step mem
    cases mem
  | succ times ih =>
    rw [ask_succ, once.2]
    intro step mem
    rcases List.mem_cons.mp mem with rfl | mem
    · exact once
    · exact ih step mem

theorem reachedBy_ask_of_resting (found : network.view? ref = some view)
    (resting : view.Resting network.sources) (times : Nat) :
    network.reachedBy (network.ask ref times) = network := by
  induction times with
  | zero => rfl
  | succ times ih => rw [ask_succ, reachedBy_cons, (askOnce_of_resting found resting).2, ih]

/-- Once it was said more often than failures were armed that there is no delivery, the view is
exhausted and rests. -/
theorem Serving.rests (serving : network.Serving ref calm view) {times : Nat}
    (enough : view.armed network.sources < Step.ends (network.ask ref times)) :
    ∃ later, (network.reachedBy (network.ask ref times)).view? ref = some later ∧
      later.Exhausted (network.reachedBy (network.ask ref times)).sources ∧
      later.Resting (network.reachedBy (network.ask ref times)).sources := by
  induction times generalizing network view with
  | zero => exact absurd enough (Nat.not_lt_zero _)
  | succ times ih =>
    have once := sources_askOnce serving.found
    rw [ends_ask_succ serving.found] at enough
    rw [ask_succ, reachedBy_cons]
    cases taken : (view.next network.sources).value with
    | none =>
      rcases serving.informed.next_none serving.unreleased serving.attached taken with
        fewer | ⟨exhausted, resting⟩
      · -- this answer has used up one of the failures that the bound counts
        apply ih serving.next
        rw [taken] at enough
        simp only [Option.isNone_none, if_true] at enough
        rw [once]
        omega
      · have found := serving.next.found
        rw [← once] at exhausted resting
        rw [reachedBy_ask_of_resting found resting]
        exact ⟨_, found, exhausted, resting⟩
    | some entry =>
      have fewer := view.armed_next_le network.sources
      apply ih serving.next
      rw [taken] at enough
      simp only [Option.isNone_some, if_neg Bool.false_ne_true] at enough
      rw [once]
      omega

/-- The answers carry what the view delivers. -/
theorem carried_ask (network : Network Source) (ref : ViewRef) (times : Nat) :
    (network.ask ref times).flatMap (fun step => step.reply.carried) =
      (Step.delivered ref (network.ask ref times)).map Entry.delivery := by
  induction times generalizing network with
  | zero => rfl
  | succ times ih =>
    have once : (network.askOnce ref).reply.carried =
        (deliveries (Event.activities ref (network.askOnce ref).events)).map Entry.delivery := by
      rw [askOnce, ← returned_exec, Command.returned, if_pos rfl]
    rw [ask_succ, List.flatMap_cons, Step.delivered_cons, List.map_append, once, ih]

end Network

namespace Session

/-- At every point of a session that starts with fresh memory sources, an unreleased view whose
sources announce themselves to it is ready to be asked. -/
theorem serving_play {sources : List Source} (fresh : Fresh sources)
    (views : List (Config × Listener)) (reactions : List (List (List (Command Nat Source.Action))))
    (commands : List (Command Nat Source.Action)) (n : Nat) {ref : ViewRef} {view : View} :
    let session := start sources views reactions
    let past := (session.play commands).take n
    (session.reachedBy past).view? ref = some view → view.released = false →
      view.Attached ref (session.reachedBy past).sources →
        (session.reachedBy past).Serving ref (Record.Calm past) view := by
  intro session past found unreleased attached
  obtain ⟨listener, there⟩ := Network.view?_eq_some_iff.mp found
  have attentive := (attentive_play fresh views reactions commands n).2 ref _ there view rfl
  have filed := holds_of_view View.filed_invariant (fun _ _ built => View.filed_of_config built)
    sources views reactions commands n found
  exact ⟨found, unreleased, attentive.toInformed, attached, fun entry mem =>
    filed entry (List.mem_append_right _ mem)⟩

end Session

/-- Suppose that a view is not released, and that its sources are memory sources which announce
themselves through the notifiers of their registrations, some of them with a failure armed for their
next pull. Whatever happened before: if from now on it is only asked for deliveries then it gives
what waits in it and in its sources, and once it has said more often than failures were armed that
there is none, it has given all of that, or a record is open whose source has nothing. Asking again
then changes nothing. -/
theorem faults_only_delay {sources : List Source} (fresh : Session.Fresh sources)
    (views : List (Config × Listener)) (reactions : List (List (List (Command Nat Source.Action))))
    (commands : List (Command Nat Source.Action)) (n : Nat) (ref : ViewRef) (view : View)
    (times : Nat) :
    let session := Session.start sources views reactions
    let reached := session.reachedBy ((session.play commands).take n)
    let steps := reached.ask ref times
    let final := reached.reachedBy steps
    let delivered := Step.delivered ref steps
    reached.view? ref = some view → view.released = false → view.Attached ref reached.sources →
      steps.flatMap (fun step => step.reply.carried) = delivered.map Entry.delivery ∧
      (∀ entry ∈ view.queue.entries, entry.source ∈ view.registry.ids) ∧
      times ≤ Step.ends steps + view.remaining reached.sources ∧
      (view.armed reached.sources < Step.ends steps →
        ((∀ entry ∈ view.registry.entries,
            Entry.buffersFrom entry.id delivered = view.ahead reached.sources entry) ∨
          ∃ later, final.view? ref = some later ∧ later.queue.entries = [] ∧
            ∃ entry ∈ view.registry.entries, later.rotation.holder = some entry.id ∧
              queueAt final.sources entry.source = []) ∧
        ∀ more, ∀ step ∈ final.ask ref more,
          step.reply = .delivery none ∧ step.network = final) := by
  intro session reached steps final delivered found unreleased attached
  have serving := Session.serving_play fresh views reactions commands n found unreleased attached
  refine ⟨Network.carried_ask reached ref times, serving.filed, serving.times_le times, ?_⟩
  intro enough
  obtain ⟨later, present, ⟨empty, outcome⟩, resting⟩ := serving.rests enough
  obtain ⟨later', served, same, brought⟩ := serving.ahead_ask times
  obtain rfl : later' = later := Option.some.inj (served.found.symm.trans present)
  rw [same] at outcome
  refine ⟨?_, Network.ask_of_resting present resting⟩
  rcases outcome with dry | ⟨entry, registered, holds, dry⟩
  · left
    intro entry registered
    have nothing : later'.ahead final.sources entry = [] := by
      rw [View.ahead, empty, dry entry registered]
      rfl
    rw [← brought entry registered, nothing, List.append_nil]
  · right
    exact ⟨later', present, empty, entry, registered, holds, dry⟩

namespace Failing

/-- The first source begins a record, and the next pull of it will fail. -/
def session : Session Source Source.Action :=
  .start [.memory (.ofBuffers ⟨5⟩ [.fragment [1]]), .memory (.ofBuffers ⟨6⟩ [.data [9]])]
    [(⟨1⟩, .ofCallback)] []

def commands : List (Command Nat Source.Action) := [
  .add 0 0, .add 0 1, .request 0 .next, .act 0 (.memory (.failPull "lost")),
  .act 0 (.memory (.push (.data [2]))), .act 0 (.memory (.failPull "lost"))]

def reached : Network Source := session.reachedBy ((session.play commands).take 6)

end Failing

open Failing in
/-- The first request meets the failure, and so there is no delivery although both sources have
data. The later ones give it. -/
theorem faults_only_delay_failing :
    ∃ view, reached.view? 0 = some view ∧ view.armed reached.sources = 1 ∧
      Step.ends (reached.ask 0 1) = 1 ∧ Step.ends (reached.ask 0 4) = 2 ∧
      (∀ entry ∈ view.registry.entries,
        Entry.buffersFrom entry.id (Step.delivered 0 (reached.ask 0 4)) =
          view.ahead reached.sources entry) ∧
      ∀ step ∈ (reached.reachedBy (reached.ask 0 4)).ask 0 2, step.reply = .delivery none := by
  have there : (reached.view? 0).any (fun view =>
      !view.released && decide (view.Attached 0 reached.sources) &&
        decide (view.armed reached.sources = 1)) = true := by
    decide +kernel
  obtain ⟨view, found, facts⟩ := (Option.any_eq_true _ _).mp there
  simp only [Bool.and_eq_true, Bool.not_eq_true', decide_eq_true_eq] at facts
  obtain ⟨⟨unreleased, attached⟩, armed⟩ := facts
  have fresh := Session.fresh_map [(⟨5⟩, [.fragment [1]]), (⟨6⟩, [.data [9]])]
  have ends : Step.ends (reached.ask 0 4) = 2 := by
    decide +kernel
  obtain ⟨_, _, _, outcome⟩ := faults_only_delay fresh [(⟨1⟩, .ofCallback)] [] commands 6 0 view 4
    found unreleased attached
  have enough : view.armed reached.sources < Step.ends (reached.ask 0 4) := by
    rw [armed, ends]
    decide
  obtain ⟨all | ⟨later, present, _, entry, _, holds, _⟩, still⟩ := outcome enough
  · refine ⟨view, found, armed, by decide +kernel, ends, all, fun step mem => ?_⟩
    exact (still 2 step mem).1
  · have closed : ((reached.reachedBy (reached.ask 0 4)).view? 0).all (fun view =>
        view.rotation.holder = none) = true := by
      decide +kernel
    rw [show (reached.reachedBy (reached.ask 0 4)).view? 0 = some later from present] at closed
    rw [Option.all_some, decide_eq_true_eq] at closed
    rw [holds] at closed
    cases closed

end FairMerge
