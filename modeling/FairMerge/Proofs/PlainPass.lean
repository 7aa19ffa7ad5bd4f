import FairMerge.Proofs.Attention
import FairMerge.Proofs.DirectMerge

/-! # Passes without flags

A source is counted as ready from its announcement until it is found dry, so a source that has
nothing may count as ready. As long as those that have something to announce do, and none does that
never was announced, the other flags decide nothing: a pass finds out who has something, and apart
from the flags it comes to the same as a pass that knew all along. -/

namespace FairMerge

open Producer (pullAt)
open Source (queueAt Loaded)

/-! ### Rotations without flags -/

namespace Rotation

/-- The rotation when it is forgotten who counts as ready, and how the last pull went. -/
def forget (rotation : Rotation) : Rotation :=
  { rotation with
    members := rotation.members.map fun member => { member with ready := false }
    pending := none
    switchable := true }

/-- The turn after a pull that gave a buffer. -/
def yield (rotation : Rotation) (id : SourceId) (continues : Bool) : Rotation :=
  if continues then { rotation with holder := some id }
  else { rotation with holder := none, cursor := some id }

/-- The source to drain next if exactly those count as ready that have something. -/
def rightful (rotation : Rotation) (has : SourceId → Bool) : Option SourceId :=
  match rotation.holder with
  | some id => some id
  | none => (rotation.turns.map Member.id).find? has

variable {rotation other : Rotation} {id : SourceId}

@[simp] theorem ids_forget (rotation : Rotation) : rotation.forget.ids = rotation.ids := by
  simp [forget, ids, Function.comp_def]

@[simp] theorem holder_forget (rotation : Rotation) : rotation.forget.holder = rotation.holder := rfl

/-- The flags do not show in the order of the turns. -/
theorem map_id_turns_forget (rotation : Rotation) :
    rotation.forget.turns.map Member.id = rotation.turns.map Member.id :=
  map_id_turns_congr rotation.ids_forget rfl

theorem rightful_forget (rotation : Rotation) (has : SourceId → Bool) :
    rotation.forget.rightful has = rotation.rightful has := by
  rw [rightful, rightful, map_id_turns_forget]
  rfl

/-- Setting a flag is forgotten. -/
@[simp] theorem forget_setReady (rotation : Rotation) (id : SourceId) (ready : Bool) :
    (rotation.setReady id ready).forget = rotation.forget := by
  simp only [forget, setReady, List.map_map, mk.injEq, and_self, and_true]
  apply List.map_congr_left
  intro member _
  simp [Member.id_mark]

@[simp] theorem forget_announce (rotation : Rotation) (id : SourceId) :
    (rotation.announce id).forget = rotation.forget := rotation.forget_setReady id true

@[simp] theorem forget_select (rotation : Rotation) :
    rotation.select.2.forget = rotation.forget := rfl

theorem forget_settle_dry (rotation : Rotation) : (rotation.settle .dry).forget = rotation.forget := by
  unfold settle
  cases rotation.pending with
  | none => rfl
  | some id => exact rotation.forget_setReady id false

theorem forget_settle_yielded (chosen : rotation.choice = some id) (continues : Bool) :
    (rotation.select.2.settle (.yielded continues)).forget = rotation.forget.yield id continues := by
  simp only [select, settle, chosen]
  cases continues <;> rfl

/-- If whoever has something is ready, and the one whose turn comes has something, then the turn is
rightful. -/
theorem rightful_of_choice {has : SourceId → Bool} (distinct : rotation.ids.Nodup)
    (aware : ∀ id, has id = true → rotation.isReady id = true)
    (chosen : rotation.choice = some id) (full : rotation.holder = none → has id = true) :
    rotation.rightful has = some id := by
  unfold choice at chosen
  unfold rightful
  cases held : rotation.holder with
  | some holder => simpa [held] using chosen
  | none =>
    simp only [held] at chosen ⊢
    obtain ⟨member, found, rfl⟩ := Option.map_eq_some_iff.mp chosen
    obtain ⟨_, earlier, later, turns, unready⟩ := List.find?_eq_some_iff_append.mp found
    rw [List.find?_eq_some_iff_append]
    refine ⟨full held, earlier.map Member.id, later.map Member.id, by simp [turns], ?_⟩
    intro other mem
    obtain ⟨twin, before, rfl⟩ := List.mem_map.mp mem
    have listed : twin ∈ rotation.members := by
      rw [← mem_turns, turns]
      exact List.mem_append_left _ before
    have dull := unready twin before
    rw [← isReady_of_mem distinct listed] at dull
    rw [Bool.not_eq_true'] at dull ⊢
    rw [← Bool.not_eq_true]
    intro something
    rw [aware _ something] at dull
    cases dull

theorem rightful_of_idle {has : SourceId → Bool}
    (aware : ∀ id, has id = true → rotation.isReady id = true)
    (unchosen : rotation.choice = none) : rotation.rightful has = none := by
  obtain ⟨free, unready⟩ := choice_eq_none_iff.mp unchosen
  simp only [rightful, free, List.find?_eq_none]
  intro id _ something
  have ready := aware id something
  rw [unready] at ready
  cases ready

end Rotation

/-! ### Who may be pulled -/

namespace Rotation

variable {rotation : Rotation} {id other : SourceId}

/-- The source may be chosen before anything more is announced: it counts as ready, or its record is
open. -/
def Eligible (rotation : Rotation) (id : SourceId) : Prop :=
  rotation.isReady id = true ∨ rotation.holder = some id

theorem eligible_of_choice (chosen : rotation.choice = some id) : rotation.Eligible id := by
  cases held : rotation.holder with
  | some holder =>
    rw [choice_of_holder held] at chosen
    exact .inr (held.trans chosen)
  | none => exact .inl (isReady_of_choice held chosen)

theorem Eligible.of_settle_yielded {continues : Bool} (chosen : rotation.choice = some id)
    (eligible : (rotation.select.2.settle (.yielded continues)).Eligible other) :
    rotation.Eligible other := by
  rcases eligible with ready | holds
  · exact .inl (by simpa using ready)
  · rw [holder_settle_yielded chosen] at holds
    split at holds
    · cases holds
      exact eligible_of_choice chosen
    · cases holds

theorem Eligible.of_settle_dry (chosen : rotation.choice = some id)
    (eligible : (rotation.select.2.settle .dry).Eligible other) : rotation.Eligible other := by
  rcases eligible with ready | holds
  · exact .inl (isReady_of_settle_dry chosen ready)
  · exact .inr (by simpa using holds)

end Rotation

namespace Pass.Course

variable {σ α : Type} [Producer σ α] {registry : Registry} {room : Nat} {rotation : Rotation}
  {sources : List σ} {pass : Pass σ}

/-- Who may be pulled after a pass might have been before it. -/
theorem eligible {id : SourceId} (course : Course registry room rotation sources pass)
    (after : pass.rotation.Eligible id) : rotation.Eligible id := by
  induction course with
  | full | idle | astray => exact after
  | taken chosen _ _ _ ih => exact (ih after).of_settle_yielded chosen
  | skipped _ chosen _ _ _ _ ih => exact (ih after).of_settle_dry chosen
  | blocked held => exact after.of_settle_dry (Rotation.choice_of_holder held)

/-- A pass pulls nobody else. -/
theorem eligible_of_pull (course : Course registry room rotation sources pass) :
    ∀ pull ∈ pass.pulls, rotation.Eligible pull.id := by
  induction course with
  | full | idle | astray =>
    intro pull mem
    cases mem
  | taken chosen _ _ _ ih =>
    intro pull mem
    rcases List.mem_cons.mp mem with rfl | mem
    · exact Rotation.eligible_of_choice chosen
    · exact (ih pull mem).of_settle_yielded chosen
  | skipped _ chosen _ _ _ _ ih =>
    intro pull mem
    rcases List.mem_cons.mp mem with rfl | mem
    · exact Rotation.eligible_of_choice chosen
    · exact (ih pull mem).of_settle_dry chosen
  | blocked held =>
    intro pull mem
    rw [List.mem_singleton.mp mem]
    exact .inr held

end Pass.Course

/-! ### Passes without flags -/

/-- Whether the source that is registered under the identifier has something to announce through the
notifier of its registration. -/
def Registry.has (registry : Registry) (ref : ViewRef) (sources : List Source) (id : SourceId) :
    Bool :=
  (registry.source? id).any fun source =>
    decide (Registration.IsAttached ⟨id, source⟩ ref sources) && !(queueAt sources source).isEmpty

theorem Registry.has_iff {registry : Registry} {ref : ViewRef} {sources : List Source}
    {id : SourceId} :
    registry.has ref sources id = true ↔
      ∃ source, registry.source? id = some source ∧ Loaded sources ⟨ref, source⟩ := by
  simp only [has, Option.any_eq_true, Bool.and_eq_true, decide_eq_true_eq, Bool.not_eq_true',
    List.isEmpty_eq_false_iff]
  refine exists_congr fun source => and_congr_right fun _ => ?_
  constructor
  · rintro ⟨attached, full⟩
    obtain ⟨state, present, notifies⟩ := attached.memory
    rw [Source.queueAt_eq present] at full
    exact ⟨state, present, notifies, full⟩
  · rintro ⟨state, present, notifies, full⟩
    refine ⟨?_, by rwa [Source.queueAt_eq present]⟩
    rw [Registration.IsAttached, Source.memoryAt_eq_some_iff.mpr present, Option.bind_some,
      notifies]

namespace Rotation

/-- Whoever has something to announce is ready. -/
def Aware (rotation : Rotation) (registry : Registry) (ref : ViewRef) (sources : List Source) :
    Prop :=
  ∀ id, registry.has ref sources id = true → rotation.isReady id = true

/-- Whoever may be pulled is attached. -/
def Discreet (rotation : Rotation) (registry : Registry) (ref : ViewRef) (sources : List Source) :
    Prop :=
  ∀ entry ∈ registry.entries, rotation.Eligible entry.id → entry.IsAttached ref sources

variable {rotation other : Rotation} {registry : Registry} {ref : ViewRef}
  {sources later : List Source} {id : SourceId} {source : SourceRef}

theorem Discreet.mono (discreet : rotation.Discreet registry ref sources)
    (fewer : ∀ id, other.Eligible id → rotation.Eligible id)
    (served : Producer.Served sources later) : other.Discreet registry ref later :=
  fun entry registered eligible =>
    (discreet entry registered (fewer entry.id eligible)).serve served

/-- The source that is chosen is an attached memory source. -/
theorem Discreet.chosen (discreet : rotation.Discreet registry ref sources)
    (chosen : rotation.choice = some id) (found : registry.source? id = some source) :
    ∃ state, sources[source]? = some (.memory state) ∧ state.notifier? = some ⟨ref, source⟩ :=
  Registration.IsAttached.memory
    (discreet ⟨id, source⟩ (Registry.mem_of_source? found) (eligible_of_choice chosen))

end Rotation

namespace Pass

/-- What a pass brings, the turn after it, and the pool after it, if exactly those count as ready
that have something to announce. -/
def plain (registry : Registry) (ref : ViewRef) :
    Nat → Rotation → List Source → List Entry × Rotation × List Source
  | 0, rotation, sources => ([], rotation, sources)
  | room + 1, rotation, sources =>
    match rotation.rightful (registry.has ref sources) with
    | none => ([], rotation, sources)
    | some id =>
      match registry.source? id with
      | none => ([], rotation, sources)
      | some source =>
        match pullAt sources source with
        | (.delivery delivery, later) =>
          let rest := plain registry ref room (rotation.yield id delivery.buffer.continues) later
          (⟨id, delivery⟩ :: rest.1, rest.2)
        | _ => ([], rotation, sources)

variable {registry : Registry} {ref : ViewRef} {room : Nat} {rotation : Rotation}
  {sources later : List Source} {id : SourceId} {source : SourceRef}

theorem plain_of_idle (unchosen : rotation.rightful (registry.has ref sources) = none) :
    plain registry ref (room + 1) rotation sources = ([], rotation, sources) := by
  rw [plain, unchosen]

theorem plain_of_delivery {delivery : Delivery}
    (chosen : rotation.rightful (registry.has ref sources) = some id)
    (found : registry.source? id = some source)
    (pulled : pullAt sources source = (.delivery delivery, later)) :
    plain registry ref (room + 1) rotation sources =
      (⟨id, delivery⟩ ::
          (plain registry ref room (rotation.yield id delivery.buffer.continues) later).1,
        (plain registry ref room (rotation.yield id delivery.buffer.continues) later).2) := by
  rw [plain, chosen]
  simp only [found, pulled]

theorem plain_of_no_delivery {answer : Answer}
    (chosen : rotation.rightful (registry.has ref sources) = some id)
    (found : registry.source? id = some source)
    (pulled : pullAt sources source = (answer, later))
    (empty : ∀ delivery, answer ≠ .delivery delivery) :
    plain registry ref (room + 1) rotation sources = ([], rotation, sources) := by
  rw [plain, chosen]
  simp only [found, pulled]
  cases answer with
  | delivery delivery => exact absurd rfl (empty delivery)
  | nothing | failed => rfl

end Pass

namespace Source

variable {sources later : List Source} {source : SourceRef}

/-- A memory source that gives a buffer had one. -/
theorem full_of_delivery {state : MemorySource} {delivery : Delivery}
    (present : sources[source]? = some (.memory state))
    (pulled : pullAt sources source = (.delivery delivery, later)) : state.queue ≠ [] := by
  simp only [pullAt, present, Prod.mk.injEq] at pulled
  obtain ⟨given, rfl⟩ := pulled
  rcases state.pull_cases with ⟨_, result⟩ | ⟨_, _, _, _, result⟩ | ⟨_, _, _, result⟩ |
    ⟨_, _, _, _, _, queued, _⟩
  · simp [pull_memory, result] at given
  · simp [pull_memory, result] at given
  · simp [pull_memory, result] at given
  · simp [queued]

/-- A memory source that is empty and cannot fail has nothing to say to a pull. -/
theorem pullAt_of_empty {state : MemorySource} (present : sources[source]? = some (.memory state))
    (unarmed : state.pullFault? = none) (empty : state.queue = []) :
    pullAt sources source = (.nothing, sources) := by
  have still : state.pull = (.nothing, state) := by
    rcases state.pull_cases with ⟨_, result⟩ | ⟨_, _, _, armed, _⟩ | ⟨_, _, _, result⟩ |
      ⟨_, _, _, _, _, queued, _⟩
    · exact result
    · rw [unarmed] at armed
      cases armed
    · exact result
    · rw [empty] at queued
      cases queued
  obtain ⟨inside, same⟩ := List.getElem?_eq_some_iff.mp present
  have kept : sources.set source (.memory state) = sources := by
    rw [← same]
    exact List.set_getElem_self inside
  simp only [pullAt, present, pull_memory, still, kept]

end Source

namespace Pass.Course

variable {registry : Registry} {ref : ViewRef} {room : Nat} {rotation : Rotation}
  {sources : List Source} {pass : Pass Source}

/-- If no failure is armed and whoever may be pulled is attached, no pull of a pass fails. -/
theorem faultless (course : Course registry room rotation sources pass)
    (tame : Source.Tame (fun _ => True) sources)
    (discreet : rotation.Discreet registry ref sources) : pass.faults = [] := by
  apply List.filterMap_eq_nil_iff.mpr
  intro pull mem
  have registered := Registry.mem_of_source? (course.registered pull mem)
  have attached := discreet _ registered (course.eligible_of_pull pull mem)
  obtain ⟨state, present, _⟩ := (attached.serve course.served).memory
  obtain ⟨_, failing⟩ := course.explains tame pull mem state present
  obtain ⟨id, source, answer⟩ := pull
  cases answer with
  | delivery | nothing => rfl
  | failed cause =>
    obtain ⟨_, before, original, armed⟩ := failing cause rfl
    exact absurd ((tame source before original).2 trivial) armed

/-- A pass in which no failure is armed, all that have something to announce are ready, and whoever
may be pulled is attached comes to the same as if nobody else were ready. -/
theorem forget_eq (course : Course registry room rotation sources pass)
    (tame : Source.Tame (fun _ => True) sources) (distinct : registry.ids.Nodup)
    (cycle : rotation.ids = registry.ids)
    (held : ∀ id, rotation.holder = some id → id ∈ registry.ids)
    (aware : rotation.Aware registry ref sources)
    (discreet : rotation.Discreet registry ref sources) :
    plain registry ref room rotation.forget sources =
      (pass.entries, pass.rotation.forget, pass.sources) := by
  induction course with
  | full => rfl
  | @idle _ rotation sources unchosen =>
    have idle : rotation.forget.rightful (registry.has ref sources) = none := by
      rw [Rotation.rightful_forget]
      exact Rotation.rightful_of_idle aware unchosen
    rw [plain_of_idle idle]
    rfl
  | astray chosen missing =>
    have known := Rotation.mem_of_choice chosen
    rw [cycle] at known
    exact absurd (known.elim (fun mem => mem) (held _)) (Registry.source?_eq_none_iff.mp missing)
  | @taken _ rotation sources later id source delivery pass chosen found pulled rest ih =>
    have served := Producer.served_pullAt pulled
    obtain ⟨state, present, notifies⟩ := discreet.chosen chosen found
    have full : registry.has ref sources id = true :=
      Registry.has_iff.mpr
        ⟨source, found, state, present, notifies, Source.full_of_delivery present pulled⟩
    have rightful : rotation.forget.rightful (registry.has ref sources) = some id := by
      rw [Rotation.rightful_forget]
      exact Rotation.rightful_of_choice (cycle ▸ distinct) aware chosen fun _ => full
    have settled := Rotation.forget_settle_yielded chosen delivery.buffer.continues
    have still : (rotation.select.2.settle (.yielded delivery.buffer.continues)).Discreet registry
        ref later := discreet.mono (fun _ after => after.of_settle_yielded chosen) served
    rw [plain_of_delivery rightful found pulled, ← settled,
      ih (tame.serve served) (by simpa using cycle) ?_ ?_ still, entries_after]
    · rfl
    · intro holder holds
      rw [Rotation.holder_settle_yielded chosen] at holds
      split at holds
      · cases holds
        exact Registry.mem_ids_of_source? found
      · cases holds
    · intro other something
      obtain ⟨place, listed, loaded⟩ := Registry.has_iff.mp something
      rw [Rotation.isReady_settle_yielded]
      exact aware other (Registry.has_iff.mpr ⟨place, listed, loaded.of_served served⟩)
  | @skipped _ rotation sources later id source answer pass free chosen found pulled empty rest ih =>
    obtain ⟨state, present, _⟩ := discreet.chosen chosen found
    obtain ⟨rfl, rfl⟩ := Source.nothing_of_no_delivery present
      ((tame source state present).2 trivial) pulled empty
    have explains : Source.Explains later later ⟨id, source, .nothing⟩ :=
      Source.explains_pullAt tame pulled
    have dry : state.queue = [] := (explains state present).1 rfl
    have still : (rotation.select.2.settle .dry).Discreet registry ref later :=
      discreet.mono (fun _ after => after.of_settle_dry chosen) (.refl later)
    -- the turn was wasted on a source that has nothing: without flags it would not have come
    have rest := ih tame (by simpa using cycle) (by simpa using held) ?_ still
    · rw [Rotation.forget_settle_dry, Rotation.forget_select] at rest
      rw [rest, entries_after, Pull.entry?_nothing]
      rfl
    · intro other something
      obtain ⟨place, listed, after, standing, _, full⟩ := Registry.has_iff.mp something
      have different : other ≠ id := by
        rintro rfl
        rw [found, Option.some.injEq] at listed
        subst listed
        rw [present] at standing
        cases standing
        exact full dry
      rw [Rotation.isReady_settle_dry_of_ne chosen different]
      exact aware other something
  | @blocked _ rotation sources later id source answer holds found pulled empty =>
    have rightful : rotation.forget.rightful (registry.has ref sources) = some id := by
      simp [Rotation.rightful, holds]
    rw [plain_of_no_delivery rightful found pulled empty, Rotation.forget_settle_dry]
    obtain ⟨state, present, _⟩ := discreet.chosen (Rotation.choice_of_holder holds) found
    obtain ⟨rfl, rfl⟩ := Source.nothing_of_no_delivery present
      ((tame source state present).2 trivial) pulled empty
    rfl

/-- What a pass leaves that gained nothing. -/
structure Barren (rotation : Rotation) (sources : List Source) (pass : Pass Source) : Prop where
  entries : pass.entries = []
  faults : pass.faults = []
  sources : pass.sources = sources
  turn : pass.rotation.forget = rotation.forget

/-- A pass gains nothing if the holder of the open record has nothing, or if no record is open and
nobody who is ready has anything. -/
theorem barren (course : Course registry room rotation sources pass)
    (nothing : ∀ id source, registry.source? id = some source →
      (rotation.holder = some id ∨ rotation.holder = none ∧ rotation.isReady id = true) →
        pullAt sources source = (.nothing, sources)) :
    Barren rotation sources pass := by
  induction course with
  | full | idle | astray => exact ⟨rfl, rfl, rfl, rfl⟩
  | @taken _ rotation _ _ id source _ _ chosen found pulled =>
    have eligible : rotation.holder = some id ∨
        rotation.holder = none ∧ rotation.isReady id = true := by
      cases held : rotation.holder with
      | some holder =>
        rw [Rotation.choice_of_holder held] at chosen
        exact .inl chosen
      | none => exact .inr ⟨rfl, Rotation.isReady_of_choice held chosen⟩
    rw [nothing id source found eligible] at pulled
    cases pulled
  | @skipped _ rotation sources later id source answer pass free chosen found pulled empty rest ih =>
    have ready := Rotation.isReady_of_choice free chosen
    rw [nothing id source found (.inr ⟨free, ready⟩)] at pulled
    cases pulled
    have after := ih fun other place listed eligible => by
      refine nothing other place listed (.inr ⟨free, ?_⟩)
      rcases eligible with holds | ⟨_, ready⟩
      · rw [Rotation.holder_settle_dry, Rotation.holder_select, free] at holds
        cases holds
      · exact Rotation.isReady_of_settle_dry chosen ready
    refine ⟨?_, after.faults, after.sources, ?_⟩
    · rw [entries_after, Pull.entry?_nothing, after.entries]
      rfl
    · exact after.turn.trans (Rotation.forget_settle_dry _)
  | @blocked _ rotation sources later id source answer holds found pulled empty =>
    rw [nothing id source found (.inl holds)] at pulled
    cases pulled
    exact ⟨rfl, rfl, rfl, Rotation.forget_settle_dry _⟩

end Pass.Course

end FairMerge
