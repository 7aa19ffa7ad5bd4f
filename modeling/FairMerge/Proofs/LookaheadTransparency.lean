import FairMerge.Proofs.DirectMerge
import FairMerge.Proofs.TransientFaults

/-! # The look-ahead queue does not show

A view cuts its merge into passes, as the room of its queue and the requests of its consumer have
it. Over sources that cannot fail the cuts leave no trace: the consumer gets what waits in the queue
and then what a merge without a queue gives, whatever the capacity. -/

namespace FairMerge

open DirectMerge (stream)

namespace View

/-- What waits in the view, and then what a direct merge gives from here. -/
def outlook (view : View) (sources : List Source) : List Entry :=
  view.queue.entries ++ stream view.registry view.rotation sources

variable {view : View} {sources : List Source}

theorem unarmed_refill (unarmed : view.registry.Unarmed sources) :
    (view.refill sources).view.registry.Unarmed (view.refill sources).sources := by
  rw [registry_refill]
  exact unarmed.serve (Effect.served fun place => view.refill_touches sources place)

/-- A refill only moves the end of the queue along the merge. -/
theorem outlook_refill (open' : view.released = false) (unarmed : view.registry.Unarmed sources) :
    (view.refill sources).view.outlook (view.refill sources).sources = view.outlook sources := by
  obtain ⟨pass, course, filled⟩ := refill_of_unreleased open' sources
  have rotation : (view.absorb pass).rotation = pass.rotation := by
    rw [absorb, course.faults_eq_nil unarmed]
    rfl
  rw [filled, outlook, outlook, rotation, queue_absorb, Lookahead.entries_append,
    course.stream_eq unarmed, List.append_assoc]
  rfl

/-- If nothing waits after a refill, the merge is over. -/
theorem outlook_of_empty (sound : view.Sound) (open' : view.released = false)
    (unarmed : view.registry.Unarmed sources)
    (empty : (view.refill sources).view.queue.entries = []) : view.outlook sources = [] := by
  obtain ⟨pass, course, filled⟩ := refill_of_unreleased open' sources
  rw [filled, queue_absorb, Lookahead.entries_append, List.append_eq_nil_iff] at empty
  obtain ⟨room, large⟩ := sound.room_of_empty empty.1
  have cut := course.stream_eq unarmed
  rw [empty.2, List.nil_append] at cut
  rw [outlook, empty.1, List.nil_append]
  rw [large] at course
  rcases course.halts sound.cycle sound.holder empty.2 with
    ⟨unchosen, _⟩ | ⟨id, source, answer, held, found, pulled, fruitless, _, _⟩
  · rw [cut]
    exact DirectMerge.stream_of_idle unchosen
  · rw [DirectMerge.stream_of_no_delivery (Rotation.choice_of_holder held) found pulled fruitless,
      if_neg (by simp [held])]

/-- A request takes the first entry of the outlook. -/
theorem outlook_next (sound : view.Sound) (open' : view.released = false)
    (unarmed : view.registry.Unarmed sources) :
    (view.next sources).value.map Entry.piece = (view.outlook sources).head?.map Entry.piece ∧
      (view.next sources).view.outlook (view.next sources).sources =
        (view.outlook sources).tail := by
  have first := outlook_refill open' unarmed
  rcases view.next_cases sources with ⟨empty, result⟩ | ⟨entry, queue, popped, second, rfl, result⟩
  · have ended := outlook_of_empty sound open' unarmed (Lookahead.pop?_eq_none_iff.mp empty)
    rw [ended] at first ⊢
    rw [result]
    exact ⟨rfl, first⟩
  · have there := (Lookahead.pop?_eq_some_iff.mp popped).1
    have unreleased : (view.refill sources).view.released = false := by
      rw [released_refill, open']
    have again := @outlook_refill { (view.refill sources).view with queue } _ unreleased
      (unarmed_refill unarmed)
    rw [outlook, there, List.cons_append] at first
    rw [result, ← first]
    exact ⟨rfl, again⟩

end View

/-! ### Requests of the consumer -/

/-- The steps answer one after the other with the buffers of the entries, and from then on that
there is none. The journal tells of the same buffers and of the sources that they come from. -/
def Step.Yield {σ : Type} (ref : ViewRef) (entries : List Entry) (steps : List (Step σ)) : Prop :=
  (delivered ref steps).map Entry.piece = (entries.take steps.length).map Entry.piece ∧
    ∀ (place : Nat) (step : Step σ), steps[place]? = some step →
      ∃ taken, step.reply = .delivery taken ∧
        taken.map Delivery.buffer = entries[place]?.map fun entry => entry.delivery.buffer

namespace Network

/-- At the place stands a view that is not released and whose sources cannot fail. -/
structure Carefree (network : Network Source) (ref : ViewRef) (view : View) : Prop where
  found : network.view? ref = some view
  unreleased : view.released = false
  sound : view.Sound
  unarmed : view.registry.Unarmed network.sources

variable {network : Network Source} {ref : ViewRef} {view : View}

theorem Carefree.next (carefree : network.Carefree ref view) :
    (network.askOnce ref).network.Carefree ref (view.next network.sources).view where
  found := by
    rw [askOnce_eq carefree.found]
    exact view?_setView_self carefree.found
  unreleased := by rw [View.released_next, carefree.unreleased]
  sound := @View.Invariant.next _ _ _ _ View.sound_invariant view [] carefree.sound network.sources
  unarmed := by
    rw [sources_askOnce carefree.found, View.registry_next]
    exact carefree.unarmed.serve
      (Effect.served fun place => view.next_touches network.sources place)

/-- However often the view is asked, it yields its outlook. -/
theorem Carefree.yield (carefree : network.Carefree ref view) (times : Nat) :
    Step.Yield ref (view.outlook network.sources) (network.ask ref times) := by
  induction times generalizing network view with
  | zero => exact ⟨rfl, fun place step there => by cases there⟩
  | succ times ih =>
    obtain ⟨taken, rest⟩ := View.outlook_next carefree.sound carefree.unreleased carefree.unarmed
    obtain ⟨delivered, answers⟩ := ih carefree.next
    rw [sources_askOnce carefree.found, rest] at delivered answers
    rw [ask_succ]
    constructor
    · rw [Step.delivered_cons, List.map_append, delivered, deliveries_askOnce carefree.found,
        List.length_cons]
      cases all : view.outlook network.sources with
      | nil =>
        rw [all] at taken
        simp only [List.head?_nil, Option.map_none, Option.map_eq_none_iff] at taken
        simp [taken]
      | cons entry entries =>
        rw [all] at taken
        obtain ⟨given, same, piece⟩ := Option.map_eq_some_iff.mp taken
        simp [same, piece]
    · intro place step there
      cases place with
      | zero =>
        cases there
        refine ⟨(view.next network.sources).value.map Entry.delivery, ?_, ?_⟩
        · rw [askOnce_eq carefree.found]
          rfl
        · have buffers := congrArg (Option.map Prod.snd) taken
          simpa [List.head?_eq_getElem?, Entry.piece, Function.comp_def] using buffers
      | succ place =>
        have later := answers place step (by simpa using there)
        rwa [List.getElem?_tail] at later

end Network

/-- The view with another capacity. -/
def View.withCapacity (view : View) (capacity : Nat) : View :=
  { view with queue := { view.queue with capacity } }

theorem View.Sound.withCapacity {view : View} {capacity : Nat} (sound : view.Sound)
    (positive : 0 < capacity) (within : view.queue.length ≤ capacity) :
    (view.withCapacity capacity).Sound :=
  { sound with capacity := positive, within := within }

/-- Suppose that a view is not released, that its sources are memory sources, and that no failure is
armed for their next pulls. Whatever happened before: if from now on it is only asked for deliveries
then it gives what waits in it and after that exactly what a merge without a look-ahead queue gives,
starting from the turn and the sources as they are, and then nothing. With any other capacity that
admits what waits it would give the same. -/
theorem lookahead_transparent (sources : List Source) (views : List (Config × Listener))
    (reactions : List (List (List (Command Nat Source.Action))))
    (commands : List (Command Nat Source.Action)) (n : Nat) (ref : ViewRef) (view : View) :
    let session := Session.start sources views reactions
    let reached := session.reachedBy ((session.play commands).take n)
    let merged := view.queue.entries ++ stream view.registry view.rotation reached.sources
    reached.view? ref = some view → view.released = false →
      view.registry.Unarmed reached.sources →
        (∀ times, Step.Yield ref merged (reached.ask ref times)) ∧
        ∀ capacity, 0 < capacity → view.queue.length ≤ capacity → ∀ times,
          Step.Yield ref merged
            ((reached.setView ref (view.withCapacity capacity)).ask ref times) := by
  intro session reached merged found unreleased unarmed
  have sound := Session.holds_of_view View.sound_invariant
    (fun _ _ built => View.sound_of_config built) sources views reactions commands n found
  constructor
  · have carefree : reached.Carefree ref view := ⟨found, unreleased, sound, unarmed⟩
    exact carefree.yield
  · intro capacity positive within
    have carefree : (reached.setView ref (view.withCapacity capacity)).Carefree ref
        (view.withCapacity capacity) :=
      ⟨Network.view?_setView_self found, unreleased, sound.withCapacity positive within, unarmed⟩
    exact carefree.yield

namespace Chopped

/-- The first source ends in a record that it cannot go on with. -/
def sources : List Source := [
  .memory (.ofBuffers ⟨5⟩ [.fragment [1], .data [2], .fragment [3]]),
  .memory (.ofBuffers ⟨6⟩ [.data [9], .event [8]])]

def session : Session Source Source.Action := .start sources [(⟨2⟩, .ofCallback)] []

def commands : List (Command Nat Source.Action) := [.add 0 0, .add 0 1]

def reached : Network Source := session.reachedBy ((session.play commands).take 2)

end Chopped

open Chopped in
/-- With room for two buffers or for seven, the view gives four buffers and keeps back the last one
of the second source, for the record of the first is open then. -/
theorem lookahead_transparent_chopped :
    ∃ view, reached.view? 0 = some view ∧ view.queue.length = 2 ∧
      (view.queue.entries ++ stream view.registry view.rotation reached.sources).map Entry.piece =
        [(⟨5⟩, .fragment [1]), (⟨5⟩, .data [2]), (⟨6⟩, .data [9]), (⟨5⟩, .fragment [3])] ∧
      Step.Yield 0 (view.queue.entries ++ stream view.registry view.rotation reached.sources)
        (reached.ask 0 6) ∧
      Step.Yield 0 (view.queue.entries ++ stream view.registry view.rotation reached.sources)
        ((reached.setView 0 (view.withCapacity 7)).ask 0 6) := by
  have there : (reached.view? 0).any (fun view =>
      !view.released && decide (view.registry.Unarmed reached.sources) &&
        decide (view.queue.length = 2) &&
        decide ((view.queue.entries ++
          stream view.registry view.rotation reached.sources).map Entry.piece =
            [(⟨5⟩, .fragment [1]), (⟨5⟩, .data [2]), (⟨6⟩, .data [9]), (⟨5⟩, .fragment [3])])) =
      true := by
    decide +kernel
  obtain ⟨view, found, facts⟩ := (Option.any_eq_true _ _).mp there
  simp only [Bool.and_eq_true, Bool.not_eq_true', decide_eq_true_eq] at facts
  obtain ⟨⟨⟨unreleased, unarmed⟩, two⟩, four⟩ := facts
  obtain ⟨own, other⟩ := lookahead_transparent sources [(⟨2⟩, .ofCallback)] [] commands 2 0 view
    found unreleased unarmed
  refine ⟨view, found, two, four, own 6, other 7 (by decide) ?_ 6⟩
  rw [two]
  decide

end FairMerge
