import FairMerge.Proofs.FailingSources

/-! # Striking idle sources

To strike a source is to take its registration back: it stands neither in the registry nor in the
cycle any more, and what has become of it is undone. If the source is idle, a view from which it is
struck does what the view does. Above all it makes the same choices, though the sources behind the
one that is struck move up, and the cycle is shorter. -/

namespace FairMerge

/-! ### Rotations -/

namespace Rotation

/-- The rotation with sources struck from its cycle. -/
def strike (gone : List SourceId) (rotation : Rotation) : Rotation :=
  { rotation with members := rotation.members.filter fun member => member.id ∉ gone }

/-- The sources are not ready, and nothing is kept for them: neither the last turn nor the choice
that is pending nor an open record. -/
structure Idle (rotation : Rotation) (gone : List SourceId) : Prop where
  ready : ∀ id ∈ gone, rotation.isReady id = false
  cursor : ∀ id ∈ gone, rotation.cursor ≠ some id
  pending : ∀ id ∈ gone, rotation.pending ≠ some id
  holder : ∀ id ∈ gone, rotation.holder ≠ some id

variable {rotation : Rotation} {gone : List SourceId} {id : SourceId}

/-- Leaving others out moves a member up by as many places as are left out before it. So the members
up to it and those behind it are the ones that were there, as far as they are kept. -/
theorem split_filter (keep : Member → Bool) (stays : ∀ member, member.id = id → keep member = true)
    (members : List Member) :
    let position := (members.map Member.id).idxOf id + 1
    let moved := ((members.filter keep).map Member.id).idxOf id + 1
    (members.filter keep).take moved = (members.take position).filter keep ∧
      (members.filter keep).drop moved = (members.drop position).filter keep := by
  induction members with
  | nil => exact ⟨rfl, rfl⟩
  | cons member members ih =>
    obtain ⟨upTo, behind⟩ := ih
    by_cases here : member.id = id
    · have kept := stays member here
      simp [here, kept]
    · cases kept : keep member with
      | true => simpa [kept, here] using ⟨upTo, behind⟩
      | false => simpa [kept, here] using ⟨upTo, behind⟩

theorem turns_strike (cursor : ∀ id ∈ gone, rotation.cursor ≠ some id) :
    (rotation.strike gone).turns = rotation.turns.filter fun member => member.id ∉ gone := by
  unfold turns strike ids
  cases last : rotation.cursor with
  | none => rfl
  | some id =>
    have outside : id ∉ gone := fun inside => cursor id inside last
    have stays : ∀ member : Member, member.id = id → decide (member.id ∉ gone) = true :=
      fun member same => decide_eq_true (same ▸ outside)
    obtain ⟨upTo, behind⟩ := split_filter _ stays rotation.members
    simp only [List.filter_append]
    rw [upTo, behind]

namespace Idle

theorem unready (idle : rotation.Idle gone) {member : Member} (mem : member ∈ rotation.members)
    (ready : member.ready = true) : member.id ∉ gone := by
  intro inside
  have never := idle.ready _ inside
  rw [isReady_iff.mpr ⟨member, mem, rfl, ready⟩] at never
  cases never

/-- An idle source is not chosen. -/
theorem choice_ne (idle : rotation.Idle gone) (chosen : rotation.choice = some id) : id ∉ gone := by
  intro inside
  cases held : rotation.holder with
  | some holder =>
    rw [choice_of_holder held] at chosen
    exact idle.holder id inside (held.trans chosen)
  | none =>
    have never := idle.ready id inside
    rw [isReady_of_choice held chosen] at never
    cases never

/-- To strike idle sources does not change the choice. -/
theorem choice_strike (idle : rotation.Idle gone) :
    (rotation.strike gone).choice = rotation.choice := by
  have same : (rotation.strike gone).holder = rotation.holder := rfl
  unfold choice
  rw [same, turns_strike idle.cursor, List.find?_filter]
  cases rotation.holder with
  | some holder => rfl
  | none =>
    refine congrArg (Option.map Member.id) (List.find?_congr fun member mem => ?_)
    cases ready : member.ready with
    | false => simp
    | true => simpa using idle.unready (mem_turns.mp mem) ready

theorem select_strike (idle : rotation.Idle gone) :
    (rotation.strike gone).select.2 = rotation.select.2.strike gone := by
  simp only [select, idle.choice_strike]
  rfl

theorem select (idle : rotation.Idle gone) : rotation.select.2.Idle gone :=
  ⟨idle.ready, idle.cursor, fun _ inside chosen => idle.choice_ne chosen inside, idle.holder⟩

end Idle

theorem setReady_strike (id : SourceId) (ready : Bool) :
    (rotation.strike gone).setReady id ready = (rotation.setReady id ready).strike gone := by
  have same : ((fun member : Member => decide (member.id ∉ gone)) ∘ Member.mark id ready) =
      fun member => decide (member.id ∉ gone) := by
    funext member
    simp
  simp only [setReady, strike, List.filter_map, same]

theorem settle_strike (outcome : Outcome) :
    (rotation.strike gone).settle outcome = (rotation.settle outcome).strike gone := by
  have same : (rotation.strike gone).pending = rotation.pending := rfl
  unfold settle
  rw [same]
  cases rotation.pending with
  | none => rfl
  | some id =>
    cases outcome with
    | yielded continues => cases continues <;> rfl
    | dry =>
      simp only [setReady_strike]
      rfl

theorem register_strike (rotation : Rotation) (outside : id ∉ gone) :
    (rotation.strike gone).register id = (rotation.register id).map (strike gone) := by
  have listed : id ∈ (rotation.strike gone).ids ↔ id ∈ rotation.ids := by
    simp only [ids, strike, List.mem_map, List.mem_filter, decide_eq_true_eq]
    constructor
    · rintro ⟨member, ⟨mem, _⟩, same⟩
      exact ⟨member, mem, same⟩
    · rintro ⟨member, mem, rfl⟩
      exact ⟨member, ⟨mem, outside⟩, rfl⟩
  unfold register
  by_cases taken : id ∈ rotation.ids
  · rw [if_pos taken, if_pos (listed.mpr taken)]
    rfl
  · rw [if_neg taken, if_neg (mt listed.mp taken)]
    simp [strike, Except.map, List.filter_append, outside]

namespace Idle

theorem announce (idle : rotation.Idle gone) (outside : id ∉ gone) :
    (rotation.announce id).Idle gone := by
  refine ⟨fun other inside => ?_, idle.cursor, idle.pending, idle.holder⟩
  have different : other ≠ id := fun same => outside (same ▸ inside)
  rw [Rotation.announce, isReady_setReady_of_ne different]
  exact idle.ready other inside

theorem foldl_announce (faults : List Fault) (outside : ∀ fault ∈ faults, fault.id ∉ gone)
    (idle : rotation.Idle gone) :
    (faults.foldl (fun rotation fault => rotation.announce fault.id) rotation).Idle gone := by
  induction faults generalizing rotation with
  | nil => exact idle
  | cons fault faults ih =>
    obtain ⟨first, later⟩ := List.forall_mem_cons.mp outside
    exact ih later (idle.announce first)

/-- A source that was not chosen stays idle, however the pull from the chosen one goes. -/
theorem settle (idle : rotation.Idle gone) (chosen : rotation.choice = some id)
    (outcome : Outcome) : (rotation.select.2.settle outcome).Idle gone := by
  have outside := idle.choice_ne chosen
  have other {source : SourceId} (inside : source ∈ gone) : some id ≠ some source :=
    fun same => outside (Option.some.inj same ▸ inside)
  cases outcome with
  | yielded continues =>
    refine ⟨by simpa using idle.ready, ?_, by simp, ?_⟩
    · intro source inside
      rw [cursor_settle_yielded chosen]
      split
      · exact idle.cursor source inside
      · exact other inside
    · intro source inside
      rw [holder_settle_yielded chosen]
      split
      · exact other inside
      · exact (Option.some_ne_none source).symm
  | dry =>
    refine ⟨fun source inside => ?_, by simpa using idle.cursor, by simp,
      by simpa using idle.holder⟩
    rw [← Bool.not_eq_true]
    intro ready
    have before := isReady_of_settle_dry chosen ready
    rw [idle.ready source inside] at before
    cases before

theorem register (idle : rotation.Idle gone) {next : Rotation}
    (registered : rotation.register id = .ok next) : next.Idle gone := by
  have unready : ∀ other ∈ gone, next.isReady other = false := by
    intro other inside
    rw [← Bool.not_eq_true]
    intro ready
    have before := isReady_of_register registered ready
    rw [idle.ready other inside] at before
    cases before
  unfold Rotation.register at registered
  split at registered
  · cases registered
  · cases registered
    exact ⟨unready, idle.cursor, idle.pending, idle.holder⟩

end Idle

theorem foldl_announce_strike (gone : List SourceId) (faults : List Fault) (rotation : Rotation) :
    faults.foldl (fun rotation fault => rotation.announce fault.id) (rotation.strike gone) =
      (faults.foldl (fun rotation fault => rotation.announce fault.id) rotation).strike gone := by
  induction faults generalizing rotation with
  | nil => rfl
  | cons fault faults ih =>
    rw [List.foldl_cons, announce, setReady_strike]
    exact ih _

end Rotation

/-! ### Registries -/

namespace Registry

/-- The registry with sources struck from it. -/
def strike (gone : List SourceId) (registry : Registry) : Registry :=
  ⟨registry.entries.filter fun entry => entry.id ∉ gone⟩

/-- Each of the identifiers is registered once, and the source is registered under them only. -/
structure Knows (registry : Registry) (gone : List SourceId) (place : SourceRef) : Prop where
  same : ∀ entry ∈ registry.entries, entry.id ∈ gone ↔ entry.source = place
  once : (registry.entries.countP fun entry => entry.id ∈ gone) = gone.length

variable {registry : Registry} {gone : List SourceId} {place source : SourceRef} {id : SourceId}

theorem source?_strike (outside : id ∉ gone) :
    (registry.strike gone).source? id = registry.source? id := by
  unfold source? strike
  rw [List.find?_filter]
  refine congrArg _ (List.find?_congr fun entry _ => ?_)
  by_cases same : entry.id = id
  · simp [same, outside]
  · simp [same]

theorem idOf?_strike (knows : registry.Knows gone place) (other : source ≠ place) :
    (registry.strike gone).idOf? source = registry.idOf? source := by
  unfold idOf? strike
  rw [List.find?_filter]
  refine congrArg _ (List.find?_congr fun entry mem => ?_)
  by_cases same : entry.source = source
  · have outside : entry.id ∉ gone := mt (knows.same entry mem).mp (same ▸ other)
    simp [same, outside]
  · simp [same]

theorem Knows.source_ne (knows : registry.Knows gone place)
    (found : registry.source? id = some source) (outside : id ∉ gone) : source ≠ place :=
  mt (knows.same _ (mem_of_source? found)).mpr outside

theorem Knows.id_not_mem (knows : registry.Knows gone place)
    (found : registry.idOf? source = some id) (other : source ≠ place) : id ∉ gone :=
  mt (knows.same _ (mem_of_idOf? found)).mp other

theorem length_strike (knows : registry.Knows gone place) :
    registry.length = (registry.strike gone).length + gone.length := by
  have all := List.length_eq_countP_add_countP (l := registry.entries) fun entry => entry.id ∈ gone
  rw [knows.once] at all
  simp only [length, strike, ← List.countP_eq_length_filter]
  simp only [decide_eq_true_eq] at all
  omega

theorem Knows.append (knows : registry.Knows gone place) (outside : id ∉ gone)
    (other : source ≠ place) :
    Knows ⟨registry.entries ++ [⟨id, source⟩]⟩ gone place := by
  refine ⟨?_, ?_⟩
  · intro entry mem
    rcases List.mem_append.mp mem with old | new
    · exact knows.same entry old
    · rw [List.mem_singleton.mp new]
      exact iff_of_false outside other
  · rw [List.countP_append, knows.once]
    simp [outside]

theorem insert_strike (knows : registry.Knows gone place) (outside : id ∉ gone)
    (other : source ≠ place) :
    (registry.strike gone).insert id source = (registry.insert id source).map (strike gone) := by
  unfold insert
  rw [source?_strike outside, idOf?_strike knows other]
  cases registry.source? id with
  | some taken => rfl
  | none =>
    cases registry.idOf? source with
    | some existing => rfl
    | none => simp [strike, Except.map, List.filter_append, outside]

end Registry

/-! ### Pools

What becomes of one source of a pool does not concern the others. -/

namespace Producer

variable {σ α : Type} [Producer σ α] (sources : List σ) {place source : SourceRef} (base : σ)

theorem pullAt_set (other : source ≠ place) : pullAt (sources.set place base) source =
    ((pullAt sources source).1, (pullAt sources source).2.set place base) := by
  unfold pullAt
  rw [List.getElem?_set_ne (Ne.symm other)]
  cases sources[source]? with
  | none => rfl
  | some state => simp only [List.set_comm _ _ (Ne.symm other)]

theorem releaseAt_set (other : source ≠ place) : releaseAt (sources.set place base) source =
    ((releaseAt sources source).1, (releaseAt sources source).2.set place base) := by
  unfold releaseAt
  rw [List.getElem?_set_ne (Ne.symm other)]
  cases sources[source]? with
  | none => rfl
  | some state => simp only [List.set_comm _ _ (Ne.symm other)]

theorem set_releaseAt_self :
    (releaseAt sources place).2.set place base = sources.set place base := by
  unfold releaseAt
  cases sources[place]? with
  | none => rfl
  | some state => simp only [List.set_set]

omit [Producer σ α] in
theorem modify_set (change : σ → σ) (other : source ≠ place) :
    (sources.set place base).modify source change =
      (sources.modify source change).set place base := by
  apply List.ext_getElem?
  intro here
  rw [List.getElem?_modify, List.getElem?_set, List.getElem?_set, List.getElem?_modify,
    List.length_modify]
  by_cases same : place = here
  · subst same
    simp only [if_true, if_neg other]
    split <;> rfl
  · simp only [if_neg same]

omit [Producer σ α] in
theorem set_modify_self (change : σ → σ) :
    (sources.modify place change).set place base = sources.set place base := by
  apply List.ext_getElem?
  intro here
  rw [List.getElem?_set, List.getElem?_set, List.length_modify]
  by_cases same : place = here
  · simp only [if_pos same]
  · rw [if_neg same, if_neg same, List.getElem?_modify_ne _ _ same]

end Producer

/-! ### Passes -/

section

variable {σ : Type} (gone : List SourceId) (place : SourceRef) (base : σ)

/-- The pass without the sources that are struck. -/
def Pass.strike (pass : Pass σ) : Pass σ :=
  { pass with rotation := pass.rotation.strike gone, sources := pass.sources.set place base }

/-- The view without the sources that are struck. -/
def View.strike (view : View) : View :=
  { view with registry := view.registry.strike gone, rotation := view.rotation.strike gone }

/-- The effect of an operation of the view without the sources that are struck. -/
def Effect.strike {β : Type} (effect : Effect σ β) : Effect σ β :=
  { effect with view := effect.view.strike gone, sources := effect.sources.set place base }

end

variable {σ α : Type} [Producer σ α] {gone : List SourceId} {place : SourceRef} {base : σ}

/-- A pass over idle sources pulls none of them and leaves them idle, and without them it goes the
same way. -/
theorem Pass.Course.strike (base : σ) {registry : Registry} {room : Nat} {rotation : Rotation}
    {sources : List σ} {pass : Pass σ} (course : Course registry room rotation sources pass)
    (knows : registry.Knows gone place) (idle : rotation.Idle gone) :
    Course (registry.strike gone) room (rotation.strike gone) (sources.set place base)
        (pass.strike gone place base) ∧
      pass.rotation.Idle gone ∧ ∀ pull ∈ pass.pulls, pull.id ∉ gone ∧ pull.source ≠ place := by
  have pulling {sources later : List σ} {source : SourceRef} {answer : Answer}
      (pulled : Producer.pullAt sources source = (answer, later)) (other : source ≠ place) :
      Producer.pullAt (sources.set place base) source = (answer, later.set place base) := by
    rw [Producer.pullAt_set sources base other, pulled]
  induction course with
  | full => exact ⟨.full, idle, List.forall_mem_nil _⟩
  | idle unchosen =>
    refine ⟨?_, idle.select, List.forall_mem_nil _⟩
    rw [Pass.strike, ← idle.select_strike]
    exact .idle (idle.choice_strike.trans unchosen)
  | astray chosen missing =>
    refine ⟨?_, idle.select, List.forall_mem_nil _⟩
    rw [Pass.strike, ← idle.select_strike]
    exact .astray (idle.choice_strike.trans chosen)
      ((Registry.source?_strike (idle.choice_ne chosen)).trans missing)
  | taken chosen found pulled rest ih =>
    have outside := idle.choice_ne chosen
    have other := knows.source_ne found outside
    obtain ⟨struck, still, spared⟩ := ih (idle.settle chosen _)
    rw [← Rotation.settle_strike, ← idle.select_strike] at struck
    refine ⟨?_, still, List.forall_mem_cons.mpr ⟨⟨outside, other⟩, spared⟩⟩
    exact .taken (idle.choice_strike.trans chosen)
      ((Registry.source?_strike outside).trans found) (pulling pulled other) struck
  | @skipped _ rotation _ _ _ _ _ _ free chosen found pulled empty rest ih =>
    have outside := idle.choice_ne chosen
    have other := knows.source_ne found outside
    have free : (rotation.strike gone).holder = none := free
    obtain ⟨struck, still, spared⟩ := ih (idle.settle chosen _)
    rw [← Rotation.settle_strike, ← idle.select_strike] at struck
    refine ⟨?_, still, List.forall_mem_cons.mpr ⟨⟨outside, other⟩, spared⟩⟩
    exact .skipped free (idle.choice_strike.trans chosen)
      ((Registry.source?_strike outside).trans found) (pulling pulled other) empty struck
  | blocked held found pulled empty =>
    have chosen := Rotation.choice_of_holder held
    have outside := idle.choice_ne chosen
    have other := knows.source_ne found outside
    refine ⟨?_, idle.settle chosen .dry, List.forall_mem_singleton.mpr ⟨outside, other⟩⟩
    rw [Pass.strike, ← Rotation.settle_strike, ← idle.select_strike]
    exact .blocked held ((Registry.source?_strike outside).trans found) (pulling pulled other) empty

/-! ### Views -/

/-- The sources that the identifiers stand for are the one at the place, and nothing is kept for
it. -/
structure View.Idles (view : View) (gone : List SourceId) (place : SourceRef) : Prop where
  knows : view.registry.Knows gone place
  idle : view.rotation.Idle gone

/-- The source that an activity is about, unless it is a delivery. -/
def Activity.source? : Activity → Option SourceRef
  | pulled pull => some pull.source
  | delivered _ _ => none
  | released registration _ => some registration.source

/-- An operation leaves the source idle and does not touch it, and without the source it comes to
the same. -/
structure Effect.Spares {β : Type} (gone : List SourceId) (place : SourceRef) (base : σ)
    (effect struck : Effect σ β) : Prop where
  same : struck = effect.strike gone place base
  idles : effect.view.Idles gone place
  apart : ∀ activity ∈ effect.journal, activity.source? ≠ some place

namespace View

variable {view : View} (sources : List σ)

omit [Producer σ α] in
theorem absorb_strike (pass : Pass σ) :
    (view.strike gone).absorb (pass.strike gone place base) = (view.absorb pass).strike gone := by
  have announced := Rotation.foldl_announce_strike gone pass.faults pass.rotation
  simp only [absorb, strike, mk.injEq, true_and]
  exact ⟨announced, rfl, rfl, trivial⟩

theorem refill_strike (base : σ) (idles : view.Idles gone place) :
    Effect.Spares gone place base (view.refill sources)
      ((view.strike gone).refill (sources.set place base)) := by
  cases released : view.released with
  | true =>
    have released' : (view.strike gone).released = true := released
    rw [refill_of_released released, refill_of_released released']
    exact ⟨rfl, idles, List.forall_mem_nil _⟩
  | false =>
    have open' : (view.strike gone).released = false := released
    obtain ⟨pass, course, filled⟩ := refill_of_unreleased released sources
    obtain ⟨pass', course', filled'⟩ := refill_of_unreleased open' (sources.set place base)
    obtain ⟨struck, idle, spared⟩ := course.strike base idles.knows idles.idle
    cases course'.unique struck
    rw [filled, filled']
    refine ⟨?_, ⟨idles.knows, ?_⟩, ?_⟩
    · rw [absorb_strike]
      rfl
    · apply idle.foldl_announce
      intro fault failed
      obtain ⟨pull, pulled, named⟩ := List.mem_filterMap.mp failed
      obtain ⟨cause, _, rfl⟩ := Option.map_eq_some_iff.mp named
      exact (spared pull pulled).1
    · intro activity done
      obtain ⟨pull, pulled, rfl⟩ := List.mem_map.mp done
      exact fun same => (spared pull pulled).2 (Option.some.inj same)

/-- What is answered after a refill does not show the sources that are struck. -/
theorem consult_strike (base : σ) {β : Type} {answer : View → β} (idles : view.Idles gone place)
    (blind : ∀ view : View, answer (view.strike gone) = answer view) :
    Effect.Spares gone place base (view.consult sources answer)
      ((view.strike gone).consult (sources.set place base) answer) := by
  obtain ⟨same, kept, apart⟩ := refill_strike sources base idles
  refine ⟨?_, ⟨kept.knows, kept.idle⟩, apart⟩
  have shown := blind (view.refill sources).view.publish
  unfold consult
  rw [same]
  exact congrArg (fun value => Effect.mk value _ _ _) shown

theorem next_strike (base : σ) (idles : view.Idles gone place) :
    Effect.Spares gone place base (view.next sources)
      ((view.strike gone).next (sources.set place base)) := by
  obtain ⟨same, kept, apart⟩ := refill_strike sources base idles
  unfold next
  rw [same]
  simp only [Effect.strike, strike]
  cases (view.refill sources).view.queue.pop? with
  | none => exact ⟨rfl, ⟨kept.knows, kept.idle⟩, apart⟩
  | some popped =>
    obtain ⟨entry, queue⟩ := popped
    have taken : ({ (view.refill sources).view with queue } : View).Idles gone place :=
      ⟨kept.knows, kept.idle⟩
    obtain ⟨again, kept', apart'⟩ := refill_strike (view.refill sources).sources base taken
    simp only [strike] at again
    simp only [again]
    refine ⟨rfl, ⟨kept'.knows, kept'.idle⟩, ?_⟩
    refine List.forall_mem_append.mpr ⟨List.forall_mem_append.mpr ⟨apart, apart'⟩, ?_⟩
    exact List.forall_mem_singleton.mpr (Option.some_ne_none place).symm

theorem drain_strike (base : σ) (idles : view.Idles gone place) (limit : Nat) :
    Effect.Spares gone place base (view.drain sources limit)
      ((view.strike gone).drain (sources.set place base) limit) := by
  induction limit generalizing view sources with
  | zero => exact ⟨rfl, idles, List.forall_mem_nil _⟩
  | succ limit ih =>
    obtain ⟨same, kept, apart⟩ := next_strike sources base idles
    unfold drain
    rw [same]
    cases taken : (view.next sources).value with
    | none =>
      simp only [Effect.strike, taken]
      exact ⟨rfl, kept, apart⟩
    | some entry =>
      obtain ⟨later, kept', apart'⟩ := ih (view.next sources).sources kept
      simp only [Effect.strike, taken, later]
      exact ⟨rfl, kept', List.forall_mem_append.mpr ⟨apart, apart'⟩⟩

theorem notify_strike (base : σ) (idles : view.Idles gone place) {source : SourceRef}
    (other : source ≠ place) :
    Effect.Spares gone place base (view.notify sources source)
      ((view.strike gone).notify (sources.set place base) source) := by
  have named : (view.strike gone).registry.idOf? source = view.registry.idOf? source :=
    Registry.idOf?_strike idles.knows other
  have same : (view.strike gone).released = view.released := rfl
  have waiting : (view.strike gone).queue = view.queue := rfl
  unfold notify
  rw [named, same]
  by_cases released : view.released = true
  · rw [if_pos released, if_pos released]
    exact ⟨rfl, idles, List.forall_mem_nil _⟩
  · rw [if_neg released, if_neg released]
    cases found : view.registry.idOf? source with
    | none => exact ⟨rfl, idles, List.forall_mem_nil _⟩
    | some id =>
      have heard : (view.hear id).Idles gone place :=
        ⟨idles.knows, idles.idle.announce (idles.knows.id_not_mem found other)⟩
      have told : (view.strike gone).hear id = (view.hear id).strike gone := by
        simp only [hear, strike, Rotation.announce, Rotation.setReady_strike]
      dsimp only
      rw [waiting]
      by_cases empty : view.queue.isEmpty = true
      · rw [if_pos empty, if_pos empty]
        have consulted : Effect.Spares gone place base
            ((view.hear id).consult sources fun reached => !reached.queue.isEmpty)
            (((view.hear id).strike gone).consult (sources.set place base) fun reached =>
              !reached.queue.isEmpty) := consult_strike sources base heard fun _ => rfl
        rw [← told] at consulted
        exact consulted
      · rw [if_neg empty, if_neg empty]
        exact ⟨congrArg (fun view => Effect.mk false view _ _) told, heard, List.forall_mem_nil _⟩

/-! ### Administration of a view without idle sources -/

omit [Producer σ α] in
theorem register_strike (idles : view.Idles gone place) {id : SourceId} {source : SourceRef}
    (outside : id ∉ gone) (other : source ≠ place) :
    (view.strike gone).register id source = (view.register id source).map (strike gone) := by
  have same : (view.strike gone).released = view.released := rfl
  have inserted := Registry.insert_strike idles.knows outside other
  have turned := view.rotation.register_strike outside
  unfold View.register
  rw [same]
  by_cases released : view.released = true
  · rw [if_pos released, if_pos released]
    rfl
  · rw [if_neg released, if_neg released]
    simp only [strike, inserted, turned]
    cases view.registry.insert id source with
    | error cause => rfl
    | ok registry => cases view.rotation.register id <;> rfl

omit [Producer σ α] in
theorem Idles.register (idles : view.Idles gone place) {id : SourceId} {source : SourceRef}
    {later : View} (outside : id ∉ gone) (other : source ≠ place)
    (registered : view.register id source = .ok later) : later.Idles gone place := by
  obtain ⟨_, _, _, rotation, turned, rfl⟩ := register_cases registered
  exact ⟨idles.knows.append outside other, idles.idle.register turned⟩

theorem requireSegment_strike (base : σ) (idles : view.Idles gone place) {id : SourceId}
    (segment : UInt32) (outside : id ∉ gone) :
    (view.strike gone).requireSegment (sources.set place base) id segment =
      (view.requireSegment sources id segment).map fun sources => sources.set place base := by
  unfold requireSegment
  have named : (view.strike gone).registry.source? id = view.registry.source? id :=
    Registry.source?_strike outside
  rw [named]
  cases found : view.registry.source? id with
  | none => rfl
  | some source =>
    have other := idles.knows.source_ne found outside
    exact congrArg Except.ok (Producer.modify_set sources base _ other)

theorem resize_strike (base : σ) (idles : view.Idles gone place) (size : Nat) :
    (view.strike gone).resize (sources.set place base) size =
      (view.resize sources size).set place base := by
  have known := idles.knows.same
  unfold resize strike Registry.strike
  generalize view.registry.entries = entries at known
  induction entries generalizing sources with
  | nil => rfl
  | cons entry entries ih =>
    obtain ⟨first, later⟩ := List.forall_mem_cons.mp known
    rw [List.foldl_cons, ← ih _ later]
    by_cases struck : entry.id ∈ gone
    · have here := first.mp struck
      subst here
      rw [List.filter_cons_of_neg (by simpa using struck), Producer.set_modify_self]
    · rw [List.filter_cons_of_pos (by simpa using struck), List.foldl_cons,
        Producer.modify_set _ _ _ (mt first.mpr struck)]

theorem releaseEach_strike (base : σ) (entries : List Registration)
    (known : ∀ entry ∈ entries, entry.id ∈ gone ↔ entry.source = place) :
    releaseEach (entries.filter fun entry => entry.id ∉ gone) (sources.set place base) =
      ((releaseEach entries sources).1.filter fun released => released.1.id ∉ gone,
        (releaseEach entries sources).2.set place base) := by
  induction entries generalizing sources with
  | nil => rfl
  | cons entry entries ih =>
    obtain ⟨first, later⟩ := List.forall_mem_cons.mp known
    have rest := ih (Producer.releaseAt sources entry.source).2 later
    by_cases struck : entry.id ∈ gone
    · have here := first.mp struck
      subst here
      rw [List.filter_cons_of_neg (by simpa using struck), ← Producer.set_releaseAt_self, rest,
        releaseEach, List.filter_cons_of_neg (by simpa using struck)]
    · rw [List.filter_cons_of_pos (by simpa using struck), releaseEach,
        Producer.releaseAt_set _ _ (mt first.mpr struck), rest, releaseEach,
        List.filter_cons_of_pos (by simpa using struck)]

theorem map_fst_releaseEach (entries : List Registration) :
    (releaseEach entries sources).1.map Prod.fst = entries := by
  induction entries generalizing sources with
  | nil => rfl
  | cons entry entries ih => rw [releaseEach, List.map_cons, ih]

/-- The release of the view releases the others alike. -/
theorem release_strike (base : σ) (idles : view.Idles gone place) :
    let effect := view.release sources
    let struck := (view.strike gone).release (sources.set place base)
    struck.view = effect.view.strike gone ∧ struck.sources = effect.sources.set place base ∧
      struck.journal = effect.journal.filter (fun activity => activity.source? ≠ some place) ∧
      effect.view.Idles gone place ∧ (gone = [] → struck.value = effect.value) := by
  have same : (view.strike gone).released = view.released := rfl
  have entries : (view.strike gone).registry.entries =
      view.registry.entries.filter fun entry => entry.id ∉ gone := rfl
  unfold release
  rw [same, entries, releaseEach_strike sources base _ idles.knows.same]
  by_cases released : view.released = true
  · simp only [if_pos released]
    exact ⟨trivial, trivial, rfl, idles, fun _ => trivial⟩
  · simp only [if_neg released]
    refine ⟨rfl, trivial, ?_, ⟨idles.knows, idles.idle⟩, ?_⟩
    · rw [List.filter_map]
      refine congrArg _ (List.filter_congr fun done mem => ?_)
      have listed : done.1 ∈ view.registry.entries := by
        rw [← map_fst_releaseEach sources view.registry.entries]
        exact List.mem_map_of_mem mem
      have known := idles.knows.same done.1 listed
      simp [Activity.source?, known]
    · rintro rfl
      simp

/-- Why a view failed does not depend on a source that it does not know. -/
theorem failure?_set (base : σ) (idles : view.Idles [] place) :
    view.failure? (sources.set place base) = view.failure? sources := by
  refine congrArg List.getLast? (List.filterMap_congr fun entry mem => ?_)
  have other : place ≠ entry.source := fun same =>
    List.not_mem_nil ((idles.knows.same entry mem).mpr same.symm)
  simp only [failureOf?, Producer.failureAt?, List.getElem?_set_ne other]

/-- A view that is released pulls nothing. -/
theorem answers_release (view : View) (place : SourceRef) :
    (view.release sources).journal.filterMap (Activity.answer? place) = [] := by
  unfold release
  split
  · rfl
  · exact Activity.answers_map_released place _

end View

end FairMerge
