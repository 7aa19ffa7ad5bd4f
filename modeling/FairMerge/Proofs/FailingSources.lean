import FairMerge.Proofs.PlainPass
import FairMerge.Proofs.Workload

/-! # Failing sources

A source whose pull fails is left out for the rest of the pass and is ready again after it. So the
pass goes as if the failing sources had not been ready at all, apart from the pulls that fail. A
failing source that has the open record stops the pass instead, since nobody else may be drained
before the record ends. -/

namespace FairMerge

open Producer (pullAt)

/-! ### Rotations with silent sources -/

namespace Rotation

/-- The rotation as if the sources were not ready. -/
def hush (ids : List SourceId) (rotation : Rotation) : Rotation :=
  { rotation with
    members := rotation.members.map fun member =>
      { member with ready := member.ready && decide (member.id ∉ ids) } }

/-- The second rotation is like the first, but the sources are not ready in it. -/
structure Hushed (ids : List SourceId) (loud quiet : Rotation) : Prop where
  turn : quiet.forget = loud.forget
  ready : ∀ id, quiet.isReady id = true ↔ loud.isReady id = true ∧ id ∉ ids

theorem hushed_hush (ids : List SourceId) (rotation : Rotation) :
    Hushed ids rotation (rotation.hush ids) where
  turn := by simp [forget, hush]
  ready id := by
    simp only [isReady_iff, hush, List.mem_map]
    constructor
    · rintro ⟨_, ⟨member, mem, rfl⟩, rfl, ready⟩
      obtain ⟨ready, outside⟩ := (Bool.and_eq_true _ _).mp ready
      exact ⟨⟨member, mem, rfl, ready⟩, of_decide_eq_true outside⟩
    · rintro ⟨⟨member, mem, rfl, ready⟩, outside⟩
      exact ⟨_, ⟨member, mem, rfl⟩, rfl, by simp [ready, outside]⟩

namespace Hushed

variable {silent : List SourceId} {loud quiet : Rotation} {id : SourceId}

theorem ids_eq (hushed : Hushed silent loud quiet) : quiet.ids = loud.ids := by
  rw [← ids_forget, hushed.turn, ids_forget]

theorem holder_eq (hushed : Hushed silent loud quiet) : quiet.holder = loud.holder := by
  rw [← holder_forget, hushed.turn, holder_forget]

theorem cursor_eq (hushed : Hushed silent loud quiet) : quiet.cursor = loud.cursor := by
  have same : quiet.forget.cursor = loud.forget.cursor := by rw [hushed.turn]
  exact same

theorem choice_none (hushed : Hushed silent loud quiet) (unchosen : loud.choice = none) :
    quiet.choice = none := by
  obtain ⟨free, unready⟩ := choice_eq_none_iff.mp unchosen
  refine choice_eq_none_iff.mpr ⟨hushed.holder_eq.trans free, fun id => ?_⟩
  rw [← Bool.not_eq_true, hushed.ready, unready]
  exact fun ready => nomatch ready.1

/-- Whoever is chosen is also chosen among the others, unless it is one of the silent sources. -/
theorem choice_some (hushed : Hushed silent loud quiet) (distinct : loud.ids.Nodup)
    (chosen : loud.choice = some id) (outside : id ∉ silent) : quiet.choice = some id := by
  cases held : loud.holder with
  | some holder =>
    rw [choice_of_holder held] at chosen
    exact choice_of_holder (hushed.holder_eq.trans (held.trans chosen))
  | none =>
    have distinct' : quiet.ids.Nodup := hushed.ids_eq ▸ distinct
    have free : quiet.holder = none := hushed.holder_eq.trans held
    have own : quiet.choice = quiet.rightful quiet.isReady := by
      rw [choice_eq_find? distinct' free, rightful, free]
    rw [own, ← rightful_forget, hushed.turn, rightful_forget]
    exact rightful_of_choice distinct (fun other ready => ((hushed.ready other).mp ready).1) chosen
      fun _ => (hushed.ready id).mpr ⟨isReady_of_choice held chosen, outside⟩

theorem settle_yielded (hushed : Hushed silent loud quiet) (chosen : loud.choice = some id)
    (chosen' : quiet.choice = some id) (continues : Bool) :
    Hushed silent (loud.select.2.settle (.yielded continues))
      (quiet.select.2.settle (.yielded continues)) where
  turn := by
    rw [forget_settle_yielded chosen', forget_settle_yielded chosen, hushed.turn]
  ready other := by simpa using hushed.ready other

theorem settle_dry (hushed : Hushed silent loud quiet) (chosen : loud.choice = some id)
    (chosen' : quiet.choice = some id) :
    Hushed silent (loud.select.2.settle .dry) (quiet.select.2.settle .dry) where
  turn := by simpa [forget_settle_dry] using hushed.turn
  ready other := by
    have pending : loud.select.2.pending = some id := chosen
    have pending' : quiet.select.2.pending = some id := chosen'
    rw [isReady_settle_dry pending, isReady_settle_dry pending', isReady_select, isReady_select,
      hushed.ready]
    tauto

/-- A dry pull of a silent source does not show. -/
theorem settle_dry_silent (hushed : Hushed silent loud quiet) (chosen : loud.choice = some id)
    (inside : id ∈ silent) : Hushed silent (loud.select.2.settle .dry) quiet where
  turn := by simpa [forget_settle_dry] using hushed.turn
  ready other := by
    have pending : loud.select.2.pending = some id := chosen
    rw [isReady_settle_dry pending, isReady_select, hushed.ready]
    constructor
    · rintro ⟨ready, outside⟩
      exact ⟨⟨ready, fun same => outside (same ▸ inside)⟩, outside⟩
    · rintro ⟨⟨ready, _⟩, outside⟩
      exact ⟨ready, outside⟩

end Hushed

end Rotation

/-! ### Two passes side by side -/

section

variable {σ α : Type} [Producer σ α] {registry : Registry} {failing : List SourceId}
  {origin pool pool' later : List σ} {loud quiet loud' quiet' : Rotation} {id : SourceId}
  {source : SourceRef} {answer : Answer}

/-- What a source answers depends on its own state alone. -/
theorem Producer.pullAt_congr (same : pool'[source]? = pool[source]?)
    (pulled : pullAt pool source = (answer, later)) :
    ∃ later', pullAt pool' source = (answer, later') ∧ later'[source]? = later[source]? := by
  unfold pullAt at pulled ⊢
  cases found : pool[source]? with
  | none =>
    rw [found] at same
    simp only [found, Prod.mk.injEq] at pulled
    simp only [same]
    exact ⟨pool', by rw [pulled.1], by rw [← pulled.2, same, found]⟩
  | some state =>
    rw [found] at same
    simp only [found, Prod.mk.injEq] at pulled
    simp only [same]
    refine ⟨_, by rw [pulled.1], ?_⟩
    rw [← pulled.2, List.getElem?_set_self (List.getElem?_eq_some_iff.mp same).1,
      List.getElem?_set_self (List.getElem?_eq_some_iff.mp found).1]

namespace Registry

/-- The error that the next pull of a registered source will meet. -/
def nextError? (registry : Registry) (pool : List σ) (id : SourceId) : Option Error :=
  (registry.source? id).bind fun source => Pull.error? ⟨id, source, (pullAt pool source).1⟩

/-- The places of registered sources. -/
def places (registry : Registry) (ids : List SourceId) : List SourceRef :=
  ids.filterMap registry.source?

theorem source_not_mem_places (distinct : registry.sources.Nodup)
    (found : registry.source? id = some source) (outside : id ∉ failing) :
    source ∉ registry.places failing := by
  intro mem
  obtain ⟨other, inside, found'⟩ := List.mem_filterMap.mp mem
  have same := List.inj_on_of_nodup_map distinct (mem_of_source? found) (mem_of_source? found') rfl
  rw [Registration.mk.injEq] at same
  exact outside (same.1 ▸ inside)

end Registry

namespace Pass

/-- Two passes are at the same point, the second of which goes as if the failing sources were not
ready. Those of them that are still ready are as they were in the beginning. -/
structure Beside (registry : Registry) (failing : List SourceId) (origin : List σ)
    (loud quiet : Rotation) (pool pool' : List σ) : Prop where
  hushed : Rotation.Hushed failing loud quiet
  agree : ∀ place ∉ registry.places failing, pool'[place]? = pool[place]?
  untouched : ∀ id ∈ failing, loud.isReady id = true → ∀ source,
    registry.source? id = some source → pool[source]? = origin[source]?
  steady : ∀ id ∈ failing, loud.holder ≠ some id

namespace Beside

/-- A failing source is chosen for its turn only, and it answers as in the beginning. -/
theorem failing_answer (beside : Beside registry failing origin loud quiet pool pool')
    (chosen : loud.choice = some id) (inside : id ∈ failing)
    (found : registry.source? id = some source) (pulled : pullAt pool source = (answer, later)) :
    loud.holder = none ∧ Pull.error? ⟨id, source, answer⟩ = registry.nextError? origin id := by
  have free : loud.holder = none := by
    cases held : loud.holder with
    | none => rfl
    | some holder =>
      rw [Rotation.choice_of_holder held] at chosen
      exact absurd (held.trans chosen) (beside.steady id inside)
  have ready := Rotation.isReady_of_choice free chosen
  have same := beside.untouched id inside ready source found
  obtain ⟨_, pulled', _⟩ := Producer.pullAt_congr same.symm pulled
  refine ⟨free, ?_⟩
  rw [Registry.nextError?, found, Option.bind_some, pulled']

/-- After the pull of a failing source the second pass is still at the same point. -/
theorem skip (beside : Beside registry failing origin loud quiet pool pool')
    (distinct : registry.sources.Nodup) (chosen : loud.choice = some id) (inside : id ∈ failing)
    (found : registry.source? id = some source) (pulled : pullAt pool source = (answer, later)) :
    Beside registry failing origin (loud.select.2.settle .dry) quiet later pool' where
  hushed := beside.hushed.settle_dry_silent chosen inside
  agree place outside := by
    have apart : source ≠ place := by
      rintro rfl
      exact outside (List.mem_filterMap.mpr ⟨id, inside, found⟩)
    rw [Producer.getElem?_of_pullAt_of_ne pulled apart]
    exact beside.agree place outside
  untouched other inside' ready place found' := by
    have pending : loud.select.2.pending = some id := chosen
    obtain ⟨ready, different⟩ := (Rotation.isReady_settle_dry pending).mp ready
    have apart : source ≠ place := by
      rintro rfl
      have same := List.inj_on_of_nodup_map distinct (Registry.mem_of_source? found)
        (Registry.mem_of_source? found') rfl
      rw [Registration.mk.injEq] at same
      exact different same.1
    rw [Producer.getElem?_of_pullAt_of_ne pulled apart]
    exact beside.untouched other inside' ready place found'
  steady := by simpa using beside.steady

/-- The pull of another source is the same in both passes. -/
theorem pull (beside : Beside registry failing origin loud quiet pool pool')
    (distinct : registry.sources.Nodup) (outside : id ∉ failing)
    (found : registry.source? id = some source) (pulled : pullAt pool source = (answer, later))
    (hushed : Rotation.Hushed failing loud' quiet')
    (fewer : ∀ other, loud'.isReady other = true → loud.isReady other = true)
    (steady : ∀ id ∈ failing, loud'.holder ≠ some id) :
    ∃ later', pullAt pool' source = (answer, later') ∧
      Beside registry failing origin loud' quiet' later later' := by
  have other := Registry.source_not_mem_places distinct found outside
  obtain ⟨later', pulled', there⟩ := Producer.pullAt_congr (beside.agree source other) pulled
  refine ⟨later', pulled', hushed, fun place away => ?_, fun id inside ready place found' => ?_,
    steady⟩
  · by_cases here : source = place
    · rw [← here, there]
    · rw [Producer.getElem?_of_pullAt_of_ne pulled here,
        Producer.getElem?_of_pullAt_of_ne pulled' here]
      exact beside.agree place away
  · have apart : source ≠ place := by
      rintro rfl
      exact other (List.mem_filterMap.mpr ⟨id, inside, found'⟩)
    rw [Producer.getElem?_of_pullAt_of_ne pulled apart]
    exact beside.untouched id inside (fewer id ready) place found'

end Beside

/-- The second pass is the first one without the failing sources, and their pulls met the errors
that they would have met in the beginning. -/
structure Without (registry : Registry) (failing : List SourceId) (origin : List σ)
    (pass pass' : Pass σ) : Prop where
  pulls : pass'.pulls = pass.pulls.filter fun pull => pull.id ∉ failing
  hushed : Rotation.Hushed failing pass.rotation pass'.rotation
  agree : ∀ place ∉ registry.places failing, pass'.sources[place]? = pass.sources[place]?
  errors : ∀ pull ∈ pass.pulls, pull.id ∈ failing →
    pull.error? = registry.nextError? origin pull.id

namespace Without

variable {pass pass' : Pass σ}

theorem after_both (without : Without registry failing origin pass pass')
    (outside : id ∉ failing) :
    Without registry failing origin (pass.after ⟨id, source, answer⟩)
      (pass'.after ⟨id, source, answer⟩) where
  pulls := by simp [after, without.pulls, outside]
  hushed := without.hushed
  agree := without.agree
  errors := List.forall_mem_cons.mpr ⟨fun inside => absurd inside outside, without.errors⟩

theorem after_failing (without : Without registry failing origin pass pass') (inside : id ∈ failing)
    (error : Pull.error? ⟨id, source, answer⟩ = registry.nextError? origin id) :
    Without registry failing origin (pass.after ⟨id, source, answer⟩) pass' where
  pulls := by
    rw [without.pulls, after, List.filter_cons_of_neg (by simpa using inside)]
  hushed := without.hushed
  agree := without.agree
  errors := List.forall_mem_cons.mpr ⟨fun _ => error, without.errors⟩

end Without

/-- A pass in which sources fail goes on beside a pass in which they are not ready. -/
theorem Course.beside {room : Nat} {pass : Pass σ} (course : Course registry room loud pool pass)
    (straight : ∀ id, pass.halt ≠ .unregistered id) (distinctIds : loud.ids.Nodup)
    (distinct : registry.sources.Nodup)
    (fails : ∀ id ∈ failing, (registry.nextError? origin id).isSome = true)
    (beside : Beside registry failing origin loud quiet pool pool') :
    ∃ pass', Course registry room quiet pool' pass' ∧
      Without registry failing origin pass pass' := by
  induction course generalizing quiet pool' with
  | full => exact ⟨_, .full, rfl, beside.hushed, beside.agree, List.forall_mem_nil _⟩
  | idle unchosen =>
    have unchosen' := beside.hushed.choice_none unchosen
    exact ⟨_, .idle unchosen', rfl, ⟨beside.hushed.turn, beside.hushed.ready⟩, beside.agree,
      List.forall_mem_nil _⟩
  | astray => exact absurd rfl (straight _)
  | @taken _ loud pool later id source delivery pass chosen found pulled rest ih =>
    have outside : id ∉ failing := by
      intro inside
      have error := (beside.failing_answer chosen inside found pulled).2
      have met := fails id inside
      rw [← error] at met
      cases met
    have chosen' := beside.hushed.choice_some distinctIds chosen outside
    have steady : ∀ other ∈ failing, (loud.select.2.settle
        (.yielded delivery.buffer.continues)).holder ≠ some other := by
      intro other inside holds
      rw [Rotation.holder_settle_yielded chosen] at holds
      split at holds
      · cases holds
        exact outside inside
      · cases holds
    obtain ⟨later', pulled', beside'⟩ := beside.pull distinct outside found pulled
      (beside.hushed.settle_yielded chosen chosen' delivery.buffer.continues) (by simp) steady
    obtain ⟨pass', course', without⟩ := ih straight (by simpa using distinctIds) beside'
    exact ⟨_, .taken chosen' found pulled' course', without.after_both outside⟩
  | @skipped _ loud pool later id source answer pass free chosen found pulled empty rest ih =>
    by_cases inside : id ∈ failing
    · -- the second pass stays where it is
      have error := (beside.failing_answer chosen inside found pulled).2
      obtain ⟨pass', course', without⟩ := ih straight (by simpa using distinctIds)
        (beside.skip distinct chosen inside found pulled)
      exact ⟨pass', course', without.after_failing inside error⟩
    · have chosen' := beside.hushed.choice_some distinctIds chosen inside
      obtain ⟨later', pulled', beside'⟩ := beside.pull distinct inside found pulled
        (beside.hushed.settle_dry chosen chosen')
        (fun other => Rotation.isReady_of_settle_dry chosen) (by simpa using beside.steady)
      obtain ⟨pass', course', without⟩ := ih straight (by simpa using distinctIds) beside'
      exact ⟨_, .skipped (beside.hushed.holder_eq.trans free) chosen' found pulled' empty course',
        without.after_both inside⟩
  | @blocked _ loud pool later id source answer held found pulled empty =>
    have outside : id ∉ failing := fun inside => beside.steady id inside held
    have chosen := Rotation.choice_of_holder held
    have chosen' := beside.hushed.choice_some distinctIds chosen outside
    obtain ⟨later', pulled', beside'⟩ := beside.pull distinct outside found pulled
      (beside.hushed.settle_dry chosen chosen')
      (fun other => Rotation.isReady_of_settle_dry chosen) (by simpa using beside.steady)
    have held' := beside.hushed.holder_eq.trans held
    refine ⟨_, .blocked held' found pulled' empty, ?_, beside'.hushed, beside'.agree, ?_⟩
    · simp [outside]
    · exact List.forall_mem_singleton.mpr fun inside => absurd inside outside

/-- What a pass leaves behind is determined. -/
theorem Course.unique {room : Nat} {rotation : Rotation} {pass pass' : Pass σ}
    (course : Course registry room rotation pool pass)
    (course' : Course registry room rotation pool pass') : pass = pass' := by
  have first := course.within_eq (Nat.le_max_left pass.pulls.length pass'.pulls.length)
  have second := course'.within_eq (Nat.le_max_right pass.pulls.length pass'.pulls.length)
  exact Option.some.inj (first.symm.trans second)

namespace Without

variable {pass pass' : Pass σ} (without : Without registry failing origin pass pass')
  (fails : ∀ id ∈ failing, (registry.nextError? origin id).isSome = true)
include without

theorem mem_faults {fault : Fault} (outside : fault.id ∉ failing) :
    fault ∈ pass'.faults ↔ fault ∈ pass.faults := by
  simp only [faults, without.pulls, List.mem_filterMap, List.mem_filter, Option.map_eq_some_iff]
  constructor
  · rintro ⟨pull, ⟨mem, _⟩, cause, error, rfl⟩
    exact ⟨pull, mem, cause, error, rfl⟩
  · rintro ⟨pull, mem, cause, error, rfl⟩
    exact ⟨pull, ⟨mem, decide_eq_true outside⟩, cause, error, rfl⟩

include fails

theorem failed {pull : Pull} (made : pull ∈ pass.pulls) (inside : pull.id ∈ failing) :
    ∃ cause, registry.nextError? origin pull.id = some cause ∧ pull.answer = .failed cause := by
  obtain ⟨cause, next⟩ := Option.isSome_iff_exists.mp (fails _ inside)
  have error := without.errors pull made inside
  refine ⟨cause, next, ?_⟩
  rw [next] at error
  cases answer : pull.answer with
  | failed other => simpa [Pull.error?, answer] using error
  | delivery | nothing => simp [Pull.error?, answer] at error

theorem entries_eq : pass'.entries = pass.entries := by
  rw [entries, without.pulls, List.filterMap_filter, entries]
  refine List.filterMap_congr fun pull made => ?_
  by_cases inside : pull.id ∈ failing
  · obtain ⟨cause, _, answer⟩ := without.failed fails made inside
    simp [inside, Pull.entry?, answer]
  · simp [inside]

/-- Each failing source is pulled at most once. -/
theorem nodup_failing {room : Nat} (course : Course registry room loud pool pass) :
    ((pass.pulls.filter fun pull => pull.id ∈ failing).map Pull.id).Nodup := by
  have among : (pass.pulls.filter fun pull => pull.id ∈ failing) =
      (pass.pulls.filter Pull.isDry).filter fun pull => pull.id ∈ failing := by
    rw [List.filter_filter]
    refine List.filter_congr fun pull made => ?_
    by_cases inside : pull.id ∈ failing
    · obtain ⟨cause, _, answer⟩ := without.failed fails made inside
      simp [inside, Pull.isDry, Pull.entry?, answer]
    · simp [inside]
  rw [among]
  exact course.nodup_dry.sublist (List.filter_sublist.map _)

end Without

end Pass

end

/-! ### Refills over failing sources -/

namespace View

variable {σ α : Type} [Producer σ α] {view : View} {sources : List σ} {failing : List SourceId}
  {id : SourceId}

/-- The view as if the sources were not ready. -/
def hush (view : View) (ids : List SourceId) : View :=
  { view with rotation := view.rotation.hush ids }

/-- A source is ready after a pass was taken over exactly if the pass left it ready or it failed in
the pass. -/
theorem isReady_absorb_iff {pass : Pass σ} : (view.absorb pass).rotation.isReady id = true ↔
    pass.rotation.isReady id = true ∨
      id ∈ pass.rotation.ids ∧ ∃ fault ∈ pass.faults, fault.id = id := by
  constructor
  · intro ready
    have known : id ∈ pass.rotation.ids := by
      rw [← view.ids_absorb pass]
      exact Rotation.mem_ids_of_isReady ready
    exact (isReady_of_absorb ready).imp_right fun failed => ⟨known, failed⟩
  · rintro (ready | ⟨known, fault, failed, rfl⟩)
    · exact isReady_absorb ready
    · exact isReady_absorb_of_fault failed known

/-- A refill brings, apart from the pulls that fail, what it would bring if the failing sources were
not ready, and these are as ready after it as they were before. -/
structure Unswayed (view : View) (sources : List σ) (failing : List SourceId) : Prop where
  queue : (view.refill sources).view.queue = ((view.hush failing).refill sources).view.queue
  pulls : (view.refillPulls sources).filter (fun pull => pull.id ∉ failing) =
    (view.hush failing).refillPulls sources
  cursor : (view.refill sources).view.rotation.cursor =
    ((view.hush failing).refill sources).view.rotation.cursor
  holder : (view.refill sources).view.rotation.holder =
    ((view.hush failing).refill sources).view.rotation.holder
  ready : ∀ id ∉ failing, (view.refill sources).view.rotation.isReady id =
    ((view.hush failing).refill sources).view.rotation.isReady id
  /-- The other sources are left in the same states. -/
  others : ∀ place ∉ view.registry.places failing,
    (view.refill sources).sources[place]? = ((view.hush failing).refill sources).sources[place]?
  stays : ∀ id ∈ failing, view.rotation.isReady id = true →
    (view.refill sources).view.rotation.isReady id = true
  once : (((view.refillPulls sources).filter fun pull => pull.id ∈ failing).map Pull.id).Nodup
  /-- The pulls that fail meet the errors that were to be expected, and these are recorded. -/
  recorded : ∀ pull ∈ view.refillPulls sources, pull.id ∈ failing →
    ∃ cause, view.registry.nextError? sources pull.id = some cause ∧ pull.answer = .failed cause ∧
      ((view.refill sources).view.faults.find? fun fault => fault.id == pull.id).map Fault.cause =
        some cause

/-- The last fault with the identifier of a source that failed in the pass is one of the pass. -/
theorem find?_absorb {pass : Pass σ} {cause : Error} (failed : ⟨id, cause⟩ ∈ pass.faults)
    (only : ∀ fault ∈ pass.faults, fault.id = id → fault.cause = cause) :
    ((view.absorb pass).faults.find? fun fault => fault.id == id).map Fault.cause = some cause := by
  change (List.find? _ (pass.faults.reverse ++ view.faults)).map Fault.cause = some cause
  rw [List.find?_append]
  cases found : pass.faults.reverse.find? fun fault => fault.id == id with
  | none =>
    have missing := List.find?_eq_none.mp found _ (List.mem_reverse.mpr failed)
    simp at missing
  | some fault =>
    have same : fault.id = id := by simpa using List.find?_some found
    have mem := List.mem_reverse.mp (List.mem_of_find?_eq_some found)
    rw [Option.some_or, Option.map_some, only fault mem same]

theorem Sound.unswayed (sound : view.Sound) (open' : view.released = false)
    (fails : ∀ id ∈ failing, (view.registry.nextError? sources id).isSome = true)
    (steady : ∀ id ∈ failing, view.rotation.holder ≠ some id) : view.Unswayed sources failing := by
  have course : Pass.Course view.registry view.queue.room view.rotation sources
      (view.pass sources) := Pass.course_run ..
  have distinct : view.rotation.ids.Nodup := sound.cycle ▸ sound.distinctIds
  obtain ⟨pass', course', without⟩ := course.beside (sound.halt_ne_unregistered sources) distinct
    sound.distinctSources fails
    ⟨view.rotation.hushed_hush failing, fun _ _ => rfl, fun _ _ _ _ _ => rfl, steady⟩
  have same : (view.hush failing).pass sources = pass' := (Pass.course_run ..).unique course'
  have quiet : (view.hush failing).released = false := open'
  have turn := without.hushed
  constructor
  · rw [refill_eq_absorb open', refill_eq_absorb quiet, same, queue_absorb, queue_absorb,
      without.entries_eq fails]
    rfl
  · rw [refillPulls_of_unreleased open', refillPulls_of_unreleased quiet, same, without.pulls]
  · rw [refill_eq_absorb open', refill_eq_absorb quiet, same]
    have kept := foldl_announce Rotation.cursor (fun _ _ => rfl)
    exact (kept _ _).trans (turn.cursor_eq.symm.trans (kept _ _).symm)
  · rw [refill_eq_absorb open', refill_eq_absorb quiet, same, holder_absorb, holder_absorb,
      turn.holder_eq]
  · intro id outside
    rw [refill_eq_absorb open', refill_eq_absorb quiet, same, Bool.eq_iff_iff, isReady_absorb_iff,
      isReady_absorb_iff, turn.ready, turn.ids_eq]
    have failed : (∃ fault ∈ pass'.faults, fault.id = id) ↔
        ∃ fault ∈ (view.pass sources).faults, fault.id = id :=
      exists_congr fun fault => and_congr_left fun same =>
        without.mem_faults (by rwa [same])
    rw [failed, and_iff_left outside]
  · intro place away
    rw [refill_eq_absorb open', refill_eq_absorb quiet, same]
    exact (without.agree place away).symm
  · intro id inside ready
    rw [refill_eq_absorb open', isReady_absorb_iff]
    rcases course.ready_or_dry ready with still | ⟨pull, made, rfl, _⟩
    · exact .inl still
    · obtain ⟨cause, _, answer⟩ := without.failed fails made inside
      refine .inr ⟨?_, ⟨pull.id, cause⟩, ?_, rfl⟩
      · rw [course.ids_eq]
        exact Rotation.mem_ids_of_isReady ready
      · exact List.mem_filterMap.mpr ⟨pull, made, by simp [Pull.error?, answer]⟩
  · rw [refillPulls_of_unreleased open']
    exact without.nodup_failing fails course
  · intro pull made inside
    rw [refillPulls_of_unreleased open'] at made
    obtain ⟨cause, next, answer⟩ := without.failed fails made inside
    refine ⟨cause, next, answer, ?_⟩
    rw [refill_eq_absorb open']
    refine find?_absorb (List.mem_filterMap.mpr ⟨pull, made, by simp [Pull.error?, answer]⟩) ?_
    intro fault failed named
    obtain ⟨other, made', given⟩ := List.mem_filterMap.mp failed
    obtain ⟨cause', error, rfl⟩ := Option.map_eq_some_iff.mp given
    have named : other.id = pull.id := named
    have met := without.errors other made' (by rwa [named])
    rw [error, named, next] at met
    exact Option.some.inj met

/-- A refill pulls the source with the open record in vain, which leaves everything as it was but
for the error. -/
structure Stopped (view : View) (sources : List σ) (id : SourceId) : Prop where
  queue : (view.refill sources).view.queue = view.queue
  holder : (view.refill sources).view.rotation.holder = some id
  ready : (view.refill sources).view.rotation.isReady id = true
  recorded : ∃ source cause, view.registry.source? id = some source ∧
    view.registry.nextError? sources id = some cause ∧
    view.refillPulls sources = [⟨id, source, .failed cause⟩] ∧
    ((view.refill sources).view.faults.find? fun fault => fault.id == id).map Fault.cause =
      some cause

theorem Sound.stopped (sound : view.Sound) (open' : view.released = false)
    (fails : (view.registry.nextError? sources id).isSome = true)
    (holds : view.rotation.holder = some id) (room : view.queue.isFull = false) :
    view.Stopped sources id := by
  obtain ⟨rest, large⟩ : ∃ rest, view.queue.room = rest + 1 := by
    refine ⟨view.queue.room - 1, ?_⟩
    simp only [Lookahead.isFull, decide_eq_false_iff_not] at room
    simp only [Lookahead.room]
    omega
  obtain ⟨cause, next⟩ := Option.isSome_iff_exists.mp fails
  obtain ⟨source, found, error⟩ := Option.bind_eq_some_iff.mp next
  have answer : (pullAt sources source).1 = .failed cause := by
    cases answer : (pullAt sources source).1 with
    | failed other => simpa [Pull.error?, answer] using error
    | delivery | nothing => simp [Pull.error?, answer] at error
  have pass : view.pass sources = ⟨view.rotation.select.2.settle .dry, (pullAt sources source).2,
      [⟨id, source, .failed cause⟩], .blocked⟩ := by
    rw [View.pass, large]
    exact Pass.run_of_blocked holds found (by rw [← answer]) (by simp)
  have failed : (⟨id, cause⟩ : Fault) ∈ (view.pass sources).faults := by
    rw [pass]
    exact List.mem_cons_self
  refine ⟨?_, ?_, ?_, source, cause, found, next, ?_, ?_⟩
  · rw [refill_eq_absorb open', pass, queue_absorb]
    simp [Lookahead.append, Pass.entries, List.filterMap_cons]
  · rw [refill_eq_absorb open', pass, holder_absorb]
    simpa using holds
  · rw [refill_eq_absorb open', isReady_absorb_iff]
    refine .inr ⟨?_, _, failed, rfl⟩
    rw [pass, Rotation.ids_settle, Rotation.ids_select, sound.cycle]
    exact sound.holder id holds
  · rw [refillPulls_of_unreleased open', pass]
  · rw [refill_eq_absorb open']
    refine find?_absorb failed fun fault mem _ => ?_
    rw [pass] at mem
    rw [List.mem_singleton.mp mem]

end View

/-- At every point of a session, whatever the sources answer: suppose that an unreleased view is
refilled while the next pulls of some of its sources would fail. If none of them has the open
record, then the refill gets from the others what it would get if the failing sources were not
ready; of those it pulls some once each, records their errors, and all that were ready remain so. If
one of them has the open record, then the refill ends with the error of this source. -/
theorem failures_isolated {σ α : Type} [Producer σ α] (sources : List σ)
    (views : List (Config × Listener)) (reactions : List (List (List (Command Nat α))))
    (commands : List (Command Nat α)) (n : Nat) (command : Command Notifier α) (state : View)
    (pool : List σ) (failing : List SourceId) :
    let session := Session.start sources views reactions
    let reached := session.reachedBy ((session.play commands).take n)
    reached.Refills command state pool → state.released = false →
    (∀ id ∈ failing, (state.registry.nextError? pool id).isSome = true) →
      ((∀ id ∈ failing, state.rotation.holder ≠ some id) → state.Unswayed pool failing) ∧
      ∀ id ∈ failing, state.rotation.holder = some id → state.queue.isFull = false →
        state.Stopped pool id := by
  intro session reached refills open' fails
  have sound : state.Sound := refills.sound fun ref view found =>
    Session.holds_of_view View.sound_invariant (fun _ _ => View.sound_of_config) sources views
      reactions commands n found
  exact ⟨fun steady => sound.unswayed open' fails steady, fun id inside holds room =>
    sound.stopped open' (fails id inside) holds room⟩

namespace Lossy

def session : Session Source Source.Action :=
  .start [.memory (.ofBuffers ⟨5⟩ [.data [1]]), .memory (.ofBuffers ⟨6⟩ [.data [2]]),
    .memory (.ofBuffers ⟨7⟩ [.fragment [3]])] [(⟨4⟩, .ofCallback)] []

/-- The second source fails while no record is open, and both fail once that of the third one is. -/
def commands : List (Command Nat Source.Action) := [
  .add 0 0, .add 0 1, .add 0 2, .act 1 (.memory (.failPull "lost")), .request 0 .peek,
  .act 1 (.memory (.failPull "lost")), .act 2 (.memory (.failPull "lost"))]

def reached (n : Nat) : Network Source := session.reachedBy ((session.play commands).take n)

end Lossy

open Lossy in
/-- The first refill goes on to the third source after the failure of the second one. The other one
ends with the failure of the third, although the second is ready. -/
theorem failures_isolated_lossy :
    ∃ view later, (reached 4).view? 0 = some view ∧ (reached 7).view? 0 = some later ∧
      view.refillPulls (reached 4).sources =
        [⟨⟨6⟩, 1, .failed (.pull ⟨6⟩ "lost")⟩, ⟨⟨7⟩, 2, .delivery ⟨.fragment [3], 0, .none, 0⟩⟩,
          ⟨⟨7⟩, 2, .nothing⟩] ∧
      view.Unswayed (reached 4).sources [⟨6⟩] ∧
      later.refillPulls (reached 7).sources = [⟨⟨7⟩, 2, .failed (.pull ⟨7⟩ "lost")⟩] ∧
      later.rotation.isReady ⟨6⟩ = true ∧ later.Stopped (reached 7).sources ⟨7⟩ := by
  have first : ((reached 4).view? 0).any (fun view => decide (
      view.refillPulls (reached 4).sources =
        [⟨⟨6⟩, 1, .failed (.pull ⟨6⟩ "lost")⟩, ⟨⟨7⟩, 2, .delivery ⟨.fragment [3], 0, .none, 0⟩⟩,
          ⟨⟨7⟩, 2, .nothing⟩] ∧
      view.released = false ∧ view.rotation.holder = none ∧
      ∀ id ∈ ([⟨6⟩] : List SourceId),
        (view.registry.nextError? (reached 4).sources id).isSome = true)) = true := by
    decide +kernel
  have second : ((reached 7).view? 0).any (fun view => decide (
      view.refillPulls (reached 7).sources = [⟨⟨7⟩, 2, .failed (.pull ⟨7⟩ "lost")⟩] ∧
      view.rotation.isReady ⟨6⟩ = true ∧ view.released = false ∧
      view.rotation.holder = some ⟨7⟩ ∧ view.queue.isFull = false ∧
      ∀ id ∈ ([⟨6⟩, ⟨7⟩] : List SourceId),
        (view.registry.nextError? (reached 7).sources id).isSome = true)) = true := by
    decide +kernel
  obtain ⟨view, found, known⟩ := (Option.any_eq_true _ _).mp first
  obtain ⟨later, found', known'⟩ := (Option.any_eq_true _ _).mp second
  obtain ⟨made, open', free, fails⟩ := of_decide_eq_true known
  obtain ⟨made', ready, open'', holds, room, fails'⟩ := of_decide_eq_true known'
  have isolated (n : Nat) := failures_isolated session.network.sources [(⟨4⟩, .ofCallback)] []
    commands n (.request 0 .peek)
  refine ⟨view, later, found, found', made, ?_, made', ready, ?_⟩
  · exact (isolated 4 view (reached 4).sources [⟨6⟩] (.request found .peek) open' fails).1
      fun id _ => by simp [free]
  · exact (isolated 7 later (reached 7).sources [⟨6⟩, ⟨7⟩] (.request found' .peek) open'' fails').2
      ⟨7⟩ (by simp) holds room

end FairMerge
