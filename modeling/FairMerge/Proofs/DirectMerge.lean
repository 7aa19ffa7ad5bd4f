import FairMerge.Proofs.MemoryQueue

/-! # Merging without a look-ahead queue

The plainest merge hands every buffer out as soon as it is pulled. It keeps no queue and so it has no
capacity: it chooses a source, pulls it once and settles the outcome, over and over, until no source
is left to choose or the source with the open record has nothing. -/

namespace FairMerge

open Producer (pullAt)

namespace Source

/-- How many more deliveries the source can give by itself, at most. -/
def stock : Source → Nat
  | memory source => source.queue.length
  | script source => source.answers.length

/-- How many more deliveries the sources can give by themselves, at most. -/
def totalStock (sources : List Source) : Nat :=
  sources.foldr (fun source total => source.stock + total) 0

theorem totalStock_set {place : SourceRef} {old : Source} (new : Source) :
    ∀ {sources : List Source}, sources[place]? = some old →
      totalStock (sources.set place new) + old.stock = totalStock sources + new.stock := by
  intro sources
  induction sources generalizing place with
  | nil =>
    intro found
    cases found
  | cons head sources ih =>
    intro found
    cases place with
    | zero =>
      cases found
      simp only [List.set_cons_zero, totalStock, List.foldr_cons]
      omega
    | succ place =>
      have rest : totalStock (sources.set place new) + old.stock =
          totalStock sources + new.stock := ih (by simpa using found)
      simp only [totalStock] at rest
      simp only [List.set_cons_succ, totalStock, List.foldr_cons]
      omega

/-- A pull takes a delivery from the stock, if it gives one. -/
theorem stock_pull (source : Source) :
    (Producer.pull source).2.stock ≤ source.stock ∧
      ∀ delivery, (Producer.pull source).1 = .delivery delivery →
        (Producer.pull source).2.stock < source.stock := by
  cases source with
  | memory source =>
    rw [pull_memory]
    rcases source.pull_cases with ⟨_, result⟩ | ⟨_, _, _, _, result⟩ | ⟨_, _, _, result⟩ |
      ⟨_, _, given, queue, _, queued, result⟩
    · simp [result]
    · simp [result, stock]
    · simp [result]
    · simp [result, stock, queued]
  | script source =>
    have same : Producer.pull (script source) = (source.pull.1, script source.pull.2) := rfl
    rw [same]
    unfold ScriptedSource.pull
    cases waiting : source.answers with
    | nil => simp [stock, waiting]
    | cons answer answers => simp [stock, waiting]

theorem totalStock_pullAt {sources later : List Source} {place : SourceRef} {answer : Answer}
    (pulled : pullAt sources place = (answer, later)) :
    totalStock later ≤ totalStock sources ∧
      ∀ delivery, answer = .delivery delivery → totalStock later < totalStock sources := by
  unfold pullAt at pulled
  cases found : sources[place]? with
  | none =>
    simp only [found, Prod.mk.injEq] at pulled
    obtain ⟨rfl, rfl⟩ := pulled
    exact ⟨Nat.le_refl _, fun delivery given => by cases given⟩
  | some state =>
    simp only [found, Prod.mk.injEq] at pulled
    obtain ⟨rfl, rfl⟩ := pulled
    have moved := totalStock_set (Producer.pull state).2 found
    obtain ⟨le, lt⟩ := state.stock_pull
    refine ⟨by omega, fun delivery given => ?_⟩
    have := lt delivery given
    omega

end Source

namespace DirectMerge

/-- The deliveries of a merge that keeps none of them, each with the source that it comes from. -/
def stream (registry : Registry) (rotation : Rotation) (sources : List Source) : List Entry :=
  match _chosen : rotation.choice with
  | none => []
  | some id =>
    match registry.source? id with
    | none => []
    | some source =>
      match _pulled : pullAt sources source with
      | (.delivery delivery, later) =>
        ⟨id, delivery⟩ ::
          stream registry (rotation.select.2.settle (.yielded delivery.buffer.continues)) later
      | (_, later) =>
        if rotation.holder = none then stream registry (rotation.select.2.settle .dry) later else []
termination_by Source.totalStock sources + rotation.readyCount
decreasing_by
  · have given := (Source.totalStock_pullAt _pulled).2 delivery rfl
    have same := rotation.select.2.readyCount_settle_yielded delivery.buffer.continues
    rw [Rotation.readyCount_select] at same
    omega
  · have kept := (Source.totalStock_pullAt _pulled).1
    have fewer := Rotation.readyCount_settle_dry_lt _chosen
      ((Pass.switchable_settle_dry_iff _chosen).mpr (by assumption))
    omega

variable {registry : Registry} {rotation : Rotation} {sources later : List Source} {id : SourceId}
  {source : SourceRef} {answer : Answer}

theorem stream_of_idle (unchosen : rotation.choice = none) :
    stream registry rotation sources = [] := by
  rw [stream]
  split
  · rfl
  · rename_i chosen
    rw [unchosen] at chosen
    cases chosen

theorem stream_of_astray (chosen : rotation.choice = some id) (missing : registry.source? id = none) :
    stream registry rotation sources = [] := by
  rw [stream]
  split
  · rfl
  · rename_i other same
    rw [chosen, Option.some.injEq] at same
    subst same
    simp [missing]

/-- One round of the merge: the delivery is handed out, or there was none and the merge goes on
unless a record is open. -/
theorem stream_of_choice (chosen : rotation.choice = some id)
    (found : registry.source? id = some source) :
    stream registry rotation sources =
      match (pullAt sources source).1 with
      | .delivery delivery => ⟨id, delivery⟩ ::
          stream registry (rotation.select.2.settle (.yielded delivery.buffer.continues))
            (pullAt sources source).2
      | _ =>
        if rotation.holder = none then
          stream registry (rotation.select.2.settle .dry) (pullAt sources source).2
        else [] := by
  rw [stream]
  split
  · rename_i unchosen
    rw [chosen] at unchosen
    cases unchosen
  · rename_i other same
    rw [chosen, Option.some.injEq] at same
    subst same
    simp only [found]
    split <;> simp_all

theorem stream_of_delivery {delivery : Delivery} (chosen : rotation.choice = some id)
    (found : registry.source? id = some source)
    (pulled : pullAt sources source = (.delivery delivery, later)) :
    stream registry rotation sources = ⟨id, delivery⟩ ::
      stream registry (rotation.select.2.settle (.yielded delivery.buffer.continues)) later := by
  rw [stream_of_choice chosen found, pulled]

theorem stream_of_no_delivery (chosen : rotation.choice = some id)
    (found : registry.source? id = some source) (pulled : pullAt sources source = (answer, later))
    (empty : ∀ delivery, answer ≠ .delivery delivery) :
    stream registry rotation sources =
      if rotation.holder = none then stream registry (rotation.select.2.settle .dry) later
      else [] := by
  rw [stream_of_choice chosen found, pulled]
  cases answer with
  | delivery delivery => exact absurd rfl (empty delivery)
  | nothing | failed => rfl

end DirectMerge

/-! ### Sources that cannot fail -/

/-- Every registered source is a memory source, and no failure is armed for its next pull. -/
def Registry.Unarmed (registry : Registry) (sources : List Source) : Prop :=
  ∀ entry ∈ registry.entries,
    (Source.memoryAt sources entry.source).map MemorySource.pullFault? = some none

instance (registry : Registry) (sources : List Source) : Decidable (registry.Unarmed sources) :=
  inferInstanceAs (Decidable (∀ entry ∈ registry.entries, _))

/-- A memory source that cannot fail gives a delivery or nothing, and if it gives nothing the pool
is as it was. -/
theorem Source.nothing_of_no_delivery {sources later : List Source} {source : SourceRef}
    {state : MemorySource} {answer : Answer} (present : sources[source]? = some (.memory state))
    (quiet : state.pullFault? = none) (pulled : pullAt sources source = (answer, later))
    (empty : ∀ delivery, answer ≠ .delivery delivery) : answer = .nothing ∧ later = sources := by
  have result : pullAt sources source =
      (state.pull.1, sources.set source (.memory state.pull.2)) := by
    simp only [pullAt, present]
    rfl
  rw [result, Prod.mk.injEq] at pulled
  obtain ⟨rfl, rfl⟩ := pulled
  have still : sources.set source (.memory state) = sources := by
    obtain ⟨inside, same⟩ := List.getElem?_eq_some_iff.mp present
    rw [← same]
    exact List.set_getElem_self inside
  rcases state.pull_cases with ⟨_, same⟩ | ⟨_, _, _, armed, _⟩ | ⟨_, _, _, same⟩ |
    ⟨_, _, given, _, _, _, same⟩
  · rw [same]
    exact ⟨rfl, still⟩
  · rw [quiet] at armed
    cases armed
  · rw [same]
    exact ⟨rfl, still⟩
  · exact absurd (by rw [same]) (empty given)

namespace Registry.Unarmed

variable {registry : Registry} {sources later : List Source} {id : SourceId} {source : SourceRef}
  {answer : Answer}

theorem memory (unarmed : registry.Unarmed sources) (found : registry.source? id = some source) :
    ∃ state, sources[source]? = some (.memory state) ∧ state.pullFault? = none := by
  obtain ⟨state, present, quiet⟩ := Option.map_eq_some_iff.mp
    (unarmed ⟨id, source⟩ (Registry.mem_of_source? found))
  exact ⟨state, Source.memoryAt_eq_some_iff.mp present, quiet⟩

theorem serve (unarmed : registry.Unarmed sources) (served : Producer.Served sources later) :
    registry.Unarmed later := by
  intro entry registered
  obtain ⟨state, present, quiet⟩ := Option.map_eq_some_iff.mp (unarmed entry registered)
  obtain ⟨answers, servedAt⟩ := served entry.source
  obtain ⟨after, found, serves⟩ := servedAt.of_earlier (Source.memoryAt_eq_some_iff.mp present)
  obtain ⟨after, rfl, spent⟩ := Source.serves_memory serves
  rw [Source.memoryAt_eq_some_iff.mpr found, Option.map_some, spent.disarmed quiet]

/-- A pull that gives no delivery gives nothing, and leaves the pool as it was. -/
theorem nothing_of_no_delivery (unarmed : registry.Unarmed sources)
    (found : registry.source? id = some source) (pulled : pullAt sources source = (answer, later))
    (empty : ∀ delivery, answer ≠ .delivery delivery) : answer = .nothing ∧ later = sources := by
  obtain ⟨state, present, quiet⟩ := unarmed.memory found
  exact Source.nothing_of_no_delivery present quiet pulled empty

end Registry.Unarmed

namespace Pass.Course

open DirectMerge (stream)

variable {registry : Registry} {room : Nat} {rotation : Rotation} {sources : List Source}
  {pass : Pass Source}

/-- A pass takes its entries from the front of the direct merge, wherever it is cut off. -/
theorem stream_eq (course : Course registry room rotation sources pass)
    (unarmed : registry.Unarmed sources) :
    stream registry rotation sources =
      pass.entries ++ stream registry pass.rotation pass.sources := by
  induction course with
  | full => rfl
  | @idle _ rotation _ unchosen =>
    have still : rotation.select.2.choice = none := unchosen
    rw [DirectMerge.stream_of_idle unchosen, DirectMerge.stream_of_idle still]
    rfl
  | @astray _ rotation _ id chosen missing =>
    have still : rotation.select.2.choice = some id := chosen
    rw [DirectMerge.stream_of_astray chosen missing, DirectMerge.stream_of_astray still missing]
    rfl
  | taken chosen found pulled _ ih =>
    rw [DirectMerge.stream_of_delivery chosen found pulled,
      ih (unarmed.serve (Producer.served_pullAt pulled)), entries_after, Pull.entry?_delivery]
    rfl
  | skipped free chosen found pulled empty _ ih =>
    rw [DirectMerge.stream_of_no_delivery chosen found pulled empty, if_pos free,
      ih (unarmed.serve (Producer.served_pullAt pulled)), entries_after,
      Pull.entry?_of_no_delivery empty]
    rfl
  | @blocked _ rotation _ _ id source answer held found pulled empty =>
    -- the source with the open record has nothing the second time either
    obtain ⟨rfl, rfl⟩ := unarmed.nothing_of_no_delivery found pulled empty
    have holds : (rotation.select.2.settle .dry).holder = some id := by
      rw [Rotation.holder_settle_dry, Rotation.holder_select, held]
    rw [DirectMerge.stream_of_no_delivery (Rotation.choice_of_holder held) found pulled empty,
      DirectMerge.stream_of_no_delivery (Rotation.choice_of_holder holds) found pulled empty,
      if_neg (by simp [held]), if_neg (by simp [holds])]
    rfl

/-- A pass over sources that cannot fail meets no error. -/
theorem faults_eq_nil (course : Course registry room rotation sources pass)
    (unarmed : registry.Unarmed sources) : pass.faults = [] := by
  suffices harmless : ∀ pull ∈ pass.pulls, pull.error? = none by
    apply List.filterMap_eq_nil_iff.mpr
    intro pull mem
    rw [harmless pull mem]
    rfl
  induction course with
  | full | idle | astray =>
    intro pull mem
    cases mem
  | taken _ _ pulled _ ih =>
    intro pull mem
    rcases List.mem_cons.mp mem with rfl | mem
    · rfl
    · exact ih (unarmed.serve (Producer.served_pullAt pulled)) pull mem
  | skipped _ _ found pulled empty _ ih =>
    intro pull mem
    rcases List.mem_cons.mp mem with rfl | mem
    · rw [(unarmed.nothing_of_no_delivery found pulled empty).1]
      rfl
    · exact ih (unarmed.serve (Producer.served_pullAt pulled)) pull mem
  | blocked _ found pulled empty =>
    intro pull mem
    rw [List.mem_singleton.mp mem, (unarmed.nothing_of_no_delivery found pulled empty).1]
    rfl

end Pass.Course

end FairMerge
