import Mathlib.Data.List.Perm.Subperm
import FairMerge.Proofs.Atomicity
import FairMerge.Proofs.Refills

/-! # The work of a refill

The loop of a pass ends whatever the sources answer, also if they never run dry or fail for ever:
each buffer takes a place of the room, and a source that gave none is not asked again. How long a
pass may get is counted here in pulls, and the loop is run with a limit on its rounds to show that
it needs one round more than pulls at most. -/

namespace FairMerge

open Activity (pulls)

/-- Whether the source gave no buffer. -/
def Pull.isDry (pull : Pull) : Bool := pull.entry?.isNone

theorem Pull.isDry_of_no_delivery {id : SourceId} {source : SourceRef} {answer : Answer}
    (empty : ∀ delivery, answer ≠ .delivery delivery) : isDry ⟨id, source, answer⟩ = true := by
  rw [isDry, entry?_of_no_delivery empty]
  rfl

/-- A source that is neither ready nor has an open record is not chosen. -/
theorem Rotation.ne_of_choice {rotation : Rotation} {id other : SourceId}
    (chosen : rotation.choice = some other) (unready : rotation.isReady id = false)
    (free : rotation.holder ≠ some id) : other ≠ id := by
  rintro rfl
  cases held : rotation.holder with
  | none =>
    rw [isReady_of_choice held chosen] at unready
    cases unready
  | some holder => exact free (held.trans ((choice_of_holder held).symm.trans chosen))

namespace Pass

variable {σ α : Type} [Producer σ α]

/-- The pass, unless it takes more than so many rounds. -/
def within (registry : Registry) (room : Nat) (rotation : Rotation) (sources : List σ) :
    Nat → Option (Pass σ)
  | 0 => none
  | rounds + 1 =>
    match room with
    | 0 => some ⟨rotation, sources, [], .full⟩
    | rest + 1 =>
      match rotation.choice with
      | none => some ⟨rotation.select.2, sources, [], .idle⟩
      | some id =>
        match registry.source? id with
        | none => some ⟨rotation.select.2, sources, [], .unregistered id⟩
        | some source =>
          let result := Producer.pullAt sources source
          let pull : Pull := ⟨id, source, result.1⟩
          match result.1 with
          | .delivery delivery =>
            (within registry rest (rotation.select.2.settle (.yielded delivery.buffer.continues))
              result.2 rounds).map (Pass.after pull)
          | _ =>
            let settled := rotation.select.2.settle .dry
            if settled.switchable then
              (within registry (rest + 1) settled result.2 rounds).map (Pass.after pull)
            else some ⟨settled, result.2, [pull], .blocked⟩

namespace Course

variable {registry : Registry} {room : Nat} {rotation : Rotation} {sources : List σ} {pass : Pass σ}

/-- One round more than there are pulls is enough. -/
theorem within_eq (course : Course registry room rotation sources pass) {rounds : Nat}
    (enough : pass.pulls.length ≤ rounds) :
    within registry room rotation sources (rounds + 1) = some pass := by
  induction course generalizing rounds with
  | full => rfl
  | idle unchosen => simp [within, unchosen]
  | astray chosen missing => simp [within, chosen, missing]
  | taken chosen found pulled _ ih =>
    cases rounds with
    | zero => cases enough
    | succ rounds =>
      have rest := ih (Nat.le_of_succ_le_succ enough)
      rw [within]
      simp only [chosen, found, pulled, rest, Option.map_some]
  | skipped free chosen found pulled empty _ ih =>
    cases rounds with
    | zero => cases enough
    | succ rounds =>
      have rest := ih (Nat.le_of_succ_le_succ enough)
      have switchable := (switchable_settle_dry_iff chosen).mpr free
      rw [within]
      simp only [chosen, found, pulled, switchable, rest, Option.map_some, if_true]
  | blocked held found pulled empty =>
    have chosen := Rotation.choice_of_holder held
    have stuck := mt (switchable_settle_dry_iff chosen).mp (held ▸ Option.some_ne_none _)
    rw [within]
    simp only [chosen, found, pulled, if_neg stuck]

theorem pulls_of_no_room (course : Course registry 0 rotation sources pass) : pass.pulls = [] := by
  cases course
  rfl

/-- A source that is neither ready nor has an open record is not pulled. -/
theorem unpulled {id : SourceId} (course : Course registry room rotation sources pass)
    (unready : rotation.isReady id = false) (free : rotation.holder ≠ some id) :
    ∀ pull ∈ pass.pulls, pull.id ≠ id := by
  induction course with
  | full | idle | astray => nofun
  | taken chosen _ _ _ ih =>
    have different := Rotation.ne_of_choice chosen unready free
    refine List.forall_mem_cons.mpr ⟨different, ih (by simpa using unready) ?_⟩
    rw [Rotation.holder_settle_yielded chosen]
    split <;> simp [different]
  | skipped _ chosen _ _ _ _ ih =>
    have different := Rotation.ne_of_choice chosen unready free
    refine List.forall_mem_cons.mpr ⟨different, ih ?_ (by simpa using free)⟩
    rw [Rotation.isReady_settle_dry_of_ne chosen different.symm]
    exact unready
  | blocked held =>
    rintro pull mem rfl
    rw [List.mem_singleton.mp mem] at free
    exact free held

/-- No source goes dry twice. -/
theorem nodup_dry (course : Course registry room rotation sources pass) :
    ((pass.pulls.filter Pull.isDry).map Pull.id).Nodup := by
  induction course with
  | full | idle | astray => exact List.nodup_nil
  | taken _ _ _ _ ih => exact ih
  | @skipped _ rotation _ _ id _ _ _ free chosen _ _ empty rest ih =>
    have pending : rotation.select.2.pending = some id := chosen
    have unready : (rotation.select.2.settle .dry).isReady id = false := by
      rw [← Bool.not_eq_true, Rotation.isReady_settle_dry pending]
      exact fun ready => ready.2 rfl
    have never := rest.unpulled unready (by simp [free])
    simp only [after, List.filter_cons_of_pos (Pull.isDry_of_no_delivery empty), List.map_cons,
      List.nodup_cons]
    refine ⟨fun again => ?_, ih⟩
    obtain ⟨pull, mem, same⟩ := List.mem_map.mp again
    exact never pull (List.mem_of_mem_filter mem) same
  | blocked _ _ _ empty => simp [Pull.isDry_of_no_delivery empty]

/-- The same is true of the sources themselves, as they are registered under one identifier each. -/
theorem nodup_dry_sources (course : Course registry room rotation sources pass)
    (distinct : registry.sources.Nodup) :
    ((pass.pulls.filter Pull.isDry).map Pull.source).Nodup := by
  refine course.nodup_dry.of_map _ |>.map_on ?_
  intro pull mem other mem' same
  have found := course.registered pull (List.mem_of_mem_filter mem)
  have found' := course.registered other (List.mem_of_mem_filter mem')
  have registrations := List.inj_on_of_nodup_map distinct (Registry.mem_of_source? found)
    (Registry.mem_of_source? found') same
  exact List.inj_on_of_nodup_map course.nodup_dry mem mem' (congrArg Registration.id registrations)

/-- A pass pulls once for each place of the room and once for each registered source at most. -/
theorem length_pulls_le (course : Course registry room rotation sources pass) :
    pass.pulls.length ≤ room + registry.length := by
  have places := course.length_entries_le
  have dries : (pass.pulls.filter Pull.isDry).length ≤ registry.length := by
    have sub : (pass.pulls.filter Pull.isDry).map Pull.id ⊆ registry.ids := by
      intro id named
      obtain ⟨pull, mem, rfl⟩ := List.mem_map.mp named
      exact Registry.mem_ids_of_source? (course.registered pull (List.mem_of_mem_filter mem))
    have le := (List.subperm_of_subset course.nodup_dry sub).length_le
    simpa [Registry.ids, Registry.length] using le
  have parts : pass.pulls.length = pass.entries.length + (pass.pulls.filter Pull.isDry).length := by
    rw [List.length_eq_countP_add_countP Pull.isDry, ← List.countP_eq_length_filter, entries,
      List.length_filterMap_eq_countP, Nat.add_comm]
    congr 2
    funext pull
    cases entry : pull.entry? <;> simp [Pull.isDry, entry]
  omega

/-- The first dry pull of the source with the open record is the last pull of the pass. -/
theorem last_of_holder_dry (course : Course registry room rotation sources pass)
    {before later : List Pull} {pull : Pull} (made : pass.pulls = before ++ pull :: later)
    (dry : pull.isDry = true)
    (holds : before.foldl Pull.hold rotation.holder = some pull.id) : later = [] := by
  induction course generalizing before with
  | full | idle | astray => simp at made
  | taken chosen _ _ _ ih =>
    rcases List.cons_eq_append_iff.mp made with ⟨rfl, same⟩ | ⟨before, rfl, rest⟩
    · obtain ⟨rfl, rfl⟩ := List.cons.inj same
      cases dry
    · refine ih rest ?_
      rw [Rotation.holder_settle_yielded chosen]
      exact holds
  | skipped free _ _ _ empty _ ih =>
    rcases List.cons_eq_append_iff.mp made with ⟨rfl, same⟩ | ⟨before, rfl, rest⟩
    · rw [List.foldl_nil, free] at holds
      cases holds
    · refine ih rest ?_
      rw [Rotation.holder_settle_dry, Rotation.holder_select]
      rwa [List.foldl_cons, Pull.hold_of_no_delivery empty] at holds
  | blocked =>
    rcases List.cons_eq_append_iff.mp made with ⟨rfl, same⟩ | ⟨before, rfl, rest⟩
    · exact (List.cons.inj same).2
    · simp at rest

/-- A pass ends without room, with nobody to choose, or with a dry pull of the source that has the
open record. -/
theorem ending (course : Course registry room rotation sources pass)
    (cycle : rotation.ids = registry.ids)
    (held : ∀ id, rotation.holder = some id → id ∈ registry.ids) :
    pass.entries.length = room ∨ pass.rotation.choice = none ∨
      ∃ before pull, pass.pulls = before ++ [pull] ∧ pull.isDry = true ∧
        pass.rotation.holder = some pull.id := by
  have straight := course.halt_ne_unregistered cycle held
  clear cycle held
  induction course with
  | full => exact .inl rfl
  | idle unchosen => exact .inr (.inl unchosen)
  | astray => exact absurd rfl (straight _)
  | taken _ _ _ _ ih =>
    rcases ih straight with full | idle | ⟨before, pull, made, last⟩
    · refine .inl ?_
      rw [entries_after]
      simp [full]
    · exact .inr (.inl idle)
    · exact .inr (.inr ⟨_ :: before, pull, congrArg (List.cons _) made, last⟩)
  | skipped _ _ _ _ empty _ ih =>
    rcases ih straight with full | idle | ⟨before, pull, made, last⟩
    · refine .inl ?_
      rw [entries_after, Pull.entry?_of_no_delivery empty]
      simpa using full
    · exact .inr (.inl idle)
    · exact .inr (.inr ⟨_ :: before, pull, congrArg (List.cons _) made, last⟩)
  | blocked held _ _ empty =>
    exact .inr (.inr ⟨[], _, rfl, Pull.isDry_of_no_delivery empty, by simpa using held⟩)

end Course

end Pass

/-! ### The work of a refill -/

namespace View

variable {σ α : Type} [Producer σ α]

/-- The pulls that a refill of the view makes. -/
def refillPulls (view : View) (sources : List σ) : List Pull := pulls (view.refill sources).journal

/-- The work of a refill of the view is bounded, and it does not end early. -/
structure Bounded (view : View) (sources : List σ) : Prop where
  /-- The loop of its pass ends within one round for each place that is free, one for each
  registered source, and one more. -/
  ends : Pass.within view.registry view.queue.room view.rotation sources
    (view.queue.room + view.registry.length + 1) = some (view.pass sources)
  /-- After release, and while there is no room, it pulls nobody. -/
  rests : view.released = true ∨ view.queue.isFull = true → view.refillPulls sources = []
  /-- It gets no more buffers than there are places. -/
  yields : ((view.refillPulls sources).filterMap Pull.entry?).length ≤
    view.queue.capacity - view.queue.length
  /-- It pulls no source again that gave nothing or failed. -/
  dries : (((view.refillPulls sources).filter Pull.isDry).map Pull.source).Nodup
  total : (view.refillPulls sources).length ≤
    view.queue.capacity - view.queue.length + view.registry.length
  /-- It pulls nobody once the source with the open record gave nothing or failed. -/
  blocks : ∀ before pull later, view.refillPulls sources = before ++ pull :: later →
    pull.isDry = true → before.foldl Pull.hold view.rotation.holder = some pull.id → later = []
  /-- It leaves room only if no record is open and nobody is ready but those that failed just now,
  or if its last pull was of the source with the open record and gave no buffer. -/
  leaves : view.released = false → (view.refill sources).view.queue.isFull = false →
    ((view.refill sources).view.rotation.holder = none ∧
        ∀ id, (view.refill sources).view.rotation.isReady id = true →
          ∃ pull ∈ view.refillPulls sources, pull.id = id ∧ pull.error? ≠ none) ∨
      ∃ before pull, view.refillPulls sources = before ++ [pull] ∧ pull.isDry = true ∧
        (view.refill sources).view.rotation.holder = some pull.id

variable {view : View} {sources : List σ}

theorem refillPulls_of_released (released : view.released = true) :
    view.refillPulls sources = [] := by
  rw [refillPulls, refill_of_released released]
  rfl

theorem refill_eq_absorb (open' : view.released = false) :
    view.refill sources = ⟨(), view.absorb (view.pass sources), (view.pass sources).sources,
      (view.pass sources).pulls.map Activity.pulled⟩ := by
  simp [refill, open', pass]

theorem refillPulls_of_unreleased (open' : view.released = false) :
    view.refillPulls sources = (view.pass sources).pulls := by
  rw [refillPulls, refill_eq_absorb open']
  exact Activity.pulls_map_pulled _

/-- Room is left after a pass only if nobody could be pulled any more. -/
theorem Sound.leaves (sound : view.Sound) (open' : view.released = false)
    (room : (view.refill sources).view.queue.isFull = false) :
    ((view.refill sources).view.rotation.holder = none ∧
        ∀ id, (view.refill sources).view.rotation.isReady id = true →
          ∃ pull ∈ view.refillPulls sources, pull.id = id ∧ pull.error? ≠ none) ∨
      ∃ before pull, view.refillPulls sources = before ++ [pull] ∧ pull.isDry = true ∧
        (view.refill sources).view.rotation.holder = some pull.id := by
  have course : Pass.Course view.registry view.queue.room view.rotation sources
      (view.pass sources) := Pass.course_run ..
  rw [refillPulls_of_unreleased open']
  simp only [refill_eq_absorb open', holder_absorb] at room ⊢
  rcases course.ending sound.cycle sound.holder with full | idle | last
  · simp only [queue_absorb, Lookahead.isFull, Lookahead.length, Lookahead.entries_append,
      Lookahead.capacity_append, List.length_append, full, Lookahead.room, decide_eq_false_iff_not]
      at room
    omega
  · obtain ⟨free, unready⟩ := Rotation.choice_eq_none_iff.mp idle
    refine .inl ⟨free, fun id ready => ?_⟩
    rcases isReady_of_absorb ready with still | ⟨fault, failed, rfl⟩
    · rw [unready] at still
      cases still
    · obtain ⟨pull, mem, named⟩ := List.mem_filterMap.mp failed
      obtain ⟨cause, error, rfl⟩ := Option.map_eq_some_iff.mp named
      exact ⟨pull, mem, rfl, by simp [error]⟩
  · exact .inr last

theorem Sound.bounded (sound : view.Sound) (sources : List σ) : view.Bounded sources := by
  have course : Pass.Course view.registry view.queue.room view.rotation sources
      (view.pass sources) := Pass.course_run ..
  have ends := course.within_eq course.length_pulls_le
  cases open' : view.released with
  | true =>
    have rests : view.refillPulls sources = [] := refillPulls_of_released open'
    refine ⟨ends, fun _ => rests, ?_, ?_, ?_, ?_, ?_⟩
    all_goals simp [rests, open']
  | false =>
    have same : view.refillPulls sources = (view.pass sources).pulls :=
      refillPulls_of_unreleased open'
    refine ⟨ends, ?_, ?_, ?_, ?_, ?_, fun open' => sound.leaves open'⟩
    all_goals rw [same]
    · rw [open']
      rintro (released | full)
      · cases released
      · have none_left : view.queue.room = 0 := by
          have := of_decide_eq_true full
          rw [Lookahead.room]
          omega
        rw [none_left] at course
        exact course.pulls_of_no_room
    · exact course.length_entries_le
    · exact course.nodup_dry_sources sound.distinctSources
    · exact course.length_pulls_le
    · exact fun before pull later => course.last_of_holder_dry

end View

/-- At every point of a session, whatever the sources answer: each refill that a command makes ends
after a bounded number of pulls, and leaves room only if nobody could be pulled any more. -/
theorem refill_bounded {σ α : Type} [Producer σ α] (sources : List σ)
    (views : List (Config × Listener)) (reactions : List (List (List (Command Nat α))))
    (commands : List (Command Nat α)) (n : Nat) (command : Command Notifier α) (state : View)
    (pool : List σ) :
    let session := Session.start sources views reactions
    let reached := session.reachedBy ((session.play commands).take n)
    reached.Refills command state pool → state.Bounded pool := by
  intro session reached refills
  have sound {ref : ViewRef} {view : View} (found : reached.view? ref = some view) : view.Sound :=
    Session.holds_of_view View.sound_invariant (fun _ _ => View.sound_of_config) sources views
      reactions commands n found
  exact (refills.sound fun _ _ found => sound found).bounded pool

namespace Balky

/-- The first source fails between its buffers, the second leaves a record open. -/
def sources : List Source :=
  [.script (.ofAnswers [.delivery ⟨.data [1], 0, .none, 0⟩, .failed (.pull ⟨7⟩ "busy"),
      .delivery ⟨.data [2], 0, .none, 0⟩] none none),
    .script (.ofAnswers [.delivery ⟨.fragment [3], 0, .none, 0⟩] none none)]

def session : Session Source Source.Action := .start sources [(⟨4⟩, .ofCallback)] []

/-- The announcement of the first source fills a place, so that of the second is only noted. -/
def commands : List (Command Nat Source.Action) :=
  [.register 0 0 ⟨7⟩, .register 0 1 ⟨3⟩, .ring 0, .ring 1]

def reached : Network Source := session.reachedBy ((session.play commands).take 4)

end Balky

open Balky in
/-- The next refill takes the fragment and ends at the second pull, with two places free and the
first source still ready. -/
theorem refill_bounded_balky :
    ∃ view, reached.view? 0 = some view ∧
      view.refillPulls reached.sources =
        [⟨⟨3⟩, 1, .delivery ⟨.fragment [3], 0, .none, 0⟩⟩, ⟨⟨3⟩, 1, .nothing⟩] ∧
      (view.refill reached.sources).view.queue.room = 2 ∧ view.rotation.isReady ⟨7⟩ = true ∧
      view.Bounded reached.sources := by
  have there : (reached.view? 0).any (fun view =>
      decide (view.refillPulls reached.sources =
          [⟨⟨3⟩, 1, .delivery ⟨.fragment [3], 0, .none, 0⟩⟩, ⟨⟨3⟩, 1, .nothing⟩] ∧
        (view.refill reached.sources).view.queue.room = 2 ∧
        view.rotation.isReady ⟨7⟩ = true)) = true := by
    decide +kernel
  obtain ⟨view, found, known⟩ := (Option.any_eq_true _ _).mp there
  obtain ⟨made, room, ready⟩ := of_decide_eq_true known
  exact ⟨view, found, made, room, ready, refill_bounded sources [(⟨4⟩, .ofCallback)] [] commands 4
    (.request 0 .peek) view reached.sources (.request found .peek)⟩

end FairMerge
