import FairMerge.Proofs.PlainPass

/-! # Views without flags

Which sources count as ready shows in nothing that a view answers, as long as it is informed of its
sources. So two views that differ in the flags only answer alike and differ in the flags only
afterwards, and a notification that is owed to nobody changes flags at most. -/

namespace FairMerge

/-! ### Views without flags -/

/-- The view when it is forgotten which sources count as ready. -/
def View.forget (view : View) : View := { view with rotation := view.rotation.forget }

/-- Two operations answer alike and leave the same, but for the flags of the view. -/
structure Effect.Alike {β : Type} (effect other : Effect Source β) : Prop where
  value : effect.value = other.value
  view : effect.view.forget = other.view.forget
  sources : effect.sources = other.sources

namespace View

/-- Views that differ in what is forgotten differ in the rotation. -/
theorem eq_of_forget_eq {view other : View} (same : view.forget = other.forget) :
    ∃ rotation, other = { view with rotation } ∧ view.rotation.forget = rotation.forget := by
  obtain ⟨registry, rotation, queue, faults, sequence, released, published⟩ := view
  obtain ⟨registry', rotation', queue', faults', sequence', released', published'⟩ := other
  simp only [forget, mk.injEq] at same
  obtain ⟨rfl, turn, rfl, rfl, rfl, rfl, rfl⟩ := same
  exact ⟨rotation', rfl, turn⟩

/-- A registered source that is not attached has not been announced. -/
def Discreet (view : View) (ref : ViewRef) (sources : List Source) : Prop :=
  view.rotation.Discreet view.registry ref sources

/-- The view is informed of its sources, of which no memory source can fail, and every source that
it may pull announces itself through the notifier of its registration. -/
structure Poised (view : View) (ref : ViewRef) (sources : List Source) : Prop where
  informed : view.Informed ref (fun _ => True) none sources
  discreet : view.Discreet ref sources

/-- A refill when exactly those count as ready that have something to announce. -/
def plainRefill (view : View) (ref : ViewRef) (sources : List Source) : View × List Source :=
  if view.released then (view, sources)
  else
    let pass := Pass.plain view.registry ref view.queue.room view.rotation sources
    ({ view with rotation := pass.2.1, queue := view.queue.append pass.1 }, pass.2.2)

variable {view other : View} {ref : ViewRef} {sources : List Source}

/-- Who may be pulled after a refill might have been before it: a source that failed meanwhile was
pulled. -/
theorem eligible_of_refill {id : SourceId}
    (after : (view.refill sources).view.rotation.Eligible id) : view.rotation.Eligible id := by
  cases released : view.released with
  | true =>
    rwa [refill_of_released released] at after
  | false =>
    obtain ⟨pass, course, filled⟩ := refill_of_unreleased released sources
    rw [filled] at after
    rcases after with ready | holds
    · rcases isReady_of_absorb ready with still | ⟨fault, failed, rfl⟩
      · exact course.eligible (.inl still)
      · obtain ⟨pull, mem, met⟩ := List.mem_filterMap.mp failed
        obtain ⟨cause, _, rfl⟩ := Option.map_eq_some_iff.mp met
        exact course.eligible_of_pull pull mem
    · rw [holder_absorb] at holds
      exact course.eligible (.inr holds)

theorem Discreet.refill (discreet : view.Discreet ref sources) :
    (view.refill sources).view.Discreet ref (view.refill sources).sources := by
  have served := Effect.served fun place => view.refill_touches sources place
  rw [Discreet, registry_refill]
  exact Rotation.Discreet.mono discreet (fun _ => eligible_of_refill) served

theorem Attached.discreet (attached : view.Attached ref sources) : view.Discreet ref sources :=
  fun entry registered _ => attached entry registered

namespace Poised

theorem aware (poised : view.Poised ref sources) (open' : view.released = false) :
    view.rotation.Aware view.registry ref sources := by
  intro id something
  obtain ⟨source, listed, loaded⟩ := Registry.has_iff.mp something
  exact poised.informed.ready open' _ (Registry.mem_of_source? listed) loaded
    (Option.some_ne_none _).symm

/-- A refill, seen without the flags, depends on nothing that is forgotten. -/
theorem refill_eq (poised : view.Poised ref sources) :
    ((view.refill sources).view.forget, (view.refill sources).sources) =
      view.forget.plainRefill ref sources := by
  cases released : view.released with
  | true =>
    rw [refill_of_released released, plainRefill, if_pos (by exact released)]
  | false =>
    obtain ⟨pass, course, filled⟩ := refill_of_unreleased released sources
    have sound := poised.informed.sound
    have plain := course.forget_eq poised.informed.tame sound.distinctIds sound.cycle sound.holder
      (poised.aware released) poised.discreet
    have faultless := course.faultless poised.informed.tame poised.discreet
    have closed : view.forget.released ≠ true := by simp [forget, released]
    rw [filled, plainRefill, if_neg closed]
    simp only [forget, absorb, faultless, plain]
    rfl

theorem refill (poised : view.Poised ref sources) :
    (view.refill sources).view.Poised ref (view.refill sources).sources :=
  ⟨poised.informed.refill.toInformed, poised.discreet.refill⟩

theorem pop {entry : Entry} {queue : Lookahead} (poised : view.Poised ref sources)
    (popped : view.queue.pop? = some (entry, queue)) : Poised { view with queue } ref sources where
  informed := { poised.informed with sound := poised.informed.sound.pop popped }
  discreet := poised.discreet

theorem next (poised : view.Poised ref sources) :
    (view.next sources).view.Poised ref (view.next sources).sources where
  informed := poised.informed.next.toInformed
  discreet := by
    have first := poised.refill
    rcases view.next_cases sources with ⟨_, result⟩ | ⟨entry, queue, popped, second, rfl, result⟩
    · rw [result]
      exact first.discreet
    · rw [result]
      exact (first.pop popped).discreet.refill

end Poised

theorem refill_alike (same : view.forget = other.forget) (poised : view.Poised ref sources)
    (poised' : other.Poised ref sources) : (view.refill sources).Alike (other.refill sources) := by
  have first := poised.refill_eq
  have second := poised'.refill_eq
  rw [← same, ← first, Prod.mk.injEq] at second
  exact ⟨rfl, second.1.symm, second.2.symm⟩

theorem publish_alike (same : view.forget = other.forget) :
    view.publish.forget = other.publish.forget :=
  congrArg publish same

theorem queue_alike (same : view.forget = other.forget) : view.queue = other.queue := by
  obtain ⟨rotation, rfl, _⟩ := eq_of_forget_eq same
  rfl

theorem stamp_alike (same : view.forget = other.forget) (entry : Entry) :
    view.stamp entry = other.stamp entry := by
  obtain ⟨rotation, rfl, _⟩ := eq_of_forget_eq same
  rfl

theorem consult_alike {β : Type} (same : view.forget = other.forget)
    (poised : view.Poised ref sources) (poised' : other.Poised ref sources) {answer : View → β}
    (blind : ∀ view other : View, view.forget = other.forget → answer view = answer other) :
    (view.consult sources answer).Alike (other.consult sources answer) := by
  have filled := refill_alike same poised poised'
  have reached := publish_alike filled.view
  exact ⟨blind _ _ reached, reached, filled.sources⟩

theorem next_alike (same : view.forget = other.forget) (poised : view.Poised ref sources)
    (poised' : other.Poised ref sources) : (view.next sources).Alike (other.next sources) := by
  have first := refill_alike same poised poised'
  have queues := queue_alike first.view
  have filled := poised.refill
  have filled' := poised'.refill
  rw [← first.sources] at filled'
  -- the same buffers wait after the first refill, so both views deliver or neither does
  rcases view.next_cases sources with ⟨stopped, result⟩ | ⟨entry, queue, popped, second, rfl, result⟩
  · rcases other.next_cases sources with ⟨_, result'⟩ | ⟨entry', queue', popped', _⟩
    · rw [result, result']
      exact ⟨rfl, publish_alike first.view, first.sources⟩
    · rw [← queues, stopped] at popped'
      cases popped'
  · rcases other.next_cases sources with
      ⟨stopped', _⟩ | ⟨entry', queue', popped', second', rfl, result'⟩
    · rw [← queues, popped] at stopped'
      cases stopped'
    · have both := popped'
      rw [← queues, popped] at both
      cases both
      have taken : forget { (view.refill sources).view with queue } =
          forget { (other.refill sources).view with queue } :=
        congrArg (fun view => { view with queue }) first.view
      have again := refill_alike taken (filled.pop popped) (filled'.pop popped')
      have reached := publish_alike again.view
      rw [result, result', ← first.sources]
      exact ⟨congrArg some (stamp_alike reached entry), congrArg View.handOut reached, again.sources⟩

theorem drain_alike (same : view.forget = other.forget) (poised : view.Poised ref sources)
    (poised' : other.Poised ref sources) (limit : Nat) :
    (view.drain sources limit).Alike (other.drain sources limit) := by
  induction limit generalizing view other sources with
  | zero => exact ⟨rfl, same, rfl⟩
  | succ limit ih =>
    have first := next_alike same poised poised'
    have later := poised'.next
    rw [← first.sources] at later
    rw [View.drain, View.drain, ← first.value]
    cases (view.next sources).value with
    | none => exact ⟨rfl, first.view, first.sources⟩
    | some entry =>
      have rest := ih first.view poised.next later
      rw [← first.sources]
      exact ⟨congrArg (entry :: ·) rest.value, rest.view, rest.sources⟩

theorem release_alike (same : view.forget = other.forget) (sources : List Source) :
    (view.release sources).Alike (other.release sources) := by
  obtain ⟨rotation, rfl, turn⟩ := eq_of_forget_eq same
  unfold View.release
  by_cases released : view.released = true
  · simp only [if_pos released]
    exact ⟨rfl, same, rfl⟩
  · simp only [if_neg released]
    exact ⟨rfl, by simp only [forget, publish, turn], rfl⟩

/-- A notification that the view was owed does the same with any flags. -/
theorem notify_alike {source : SourceRef} (same : view.forget = other.forget)
    (informed : view.Informed ref (fun _ => True) (some ⟨ref, source⟩) sources)
    (informed' : other.Informed ref (fun _ => True) (some ⟨ref, source⟩) sources)
    (attached : view.Attached ref sources) :
    (view.notify sources source).Alike (other.notify sources source) := by
  obtain ⟨rotation, rfl, turn⟩ := eq_of_forget_eq same
  unfold View.notify
  by_cases released : view.released = true
  · simp only [if_pos released]
    exact ⟨rfl, same, rfl⟩
  · simp only [if_neg released]
    cases found : view.registry.idOf? source with
    | none => exact ⟨rfl, same, rfl⟩
    | some id =>
      have heard : (view.hear id).forget = (hear { view with rotation } id).forget := by
        simp only [hear, forget, Rotation.forget_announce, turn]
      by_cases empty : view.queue.isEmpty = true
      · simp only [if_pos empty]
        have standing : (view.hear id).Attached ref sources := attached
        have standing' : (hear { view with rotation } id).Attached ref sources := attached
        refine consult_alike heard ⟨informed.hear found, standing.discreet⟩
          ⟨informed'.hear found, standing'.discreet⟩ ?_
        intro first second alike
        rw [queue_alike alike]
      · simp only [if_neg empty]
        exact ⟨rfl, heard, rfl⟩

end View

/-! ### Notifications that are owed to nobody -/

namespace View

variable {view : View} {ref : ViewRef} {sources : List Source} {id : SourceId} {source : SourceRef}

theorem Discreet.hear (discreet : view.Discreet ref sources) (sound : view.Sound)
    (found : view.registry.idOf? source = some id)
    (announced : ∀ entry ∈ view.registry.entries, entry.source = source →
      entry.IsAttached ref sources) : (view.hear id).Discreet ref sources := by
  intro entry registered eligible
  by_cases same : entry.source = source
  · exact announced entry registered same
  · have different : entry.id ≠ id := by
      rintro rfl
      exact same ((Registry.id_eq_iff_source_eq sound.distinctIds sound.distinctSources registered
        (Registry.mem_of_idOf? found)).mp rfl)
    refine discreet entry registered (eligible.imp_left fun ready => ?_)
    exact (Rotation.isReady_of_announce ready).resolve_right (Ne.symm different)

theorem Discreet.register {later : View} (discreet : view.Discreet ref sources) (sound : view.Sound)
    (registered : view.register id source = .ok later) : later.Discreet ref sources := by
  obtain ⟨_, fresh, _, rotation, turned, rfl⟩ := register_cases registered
  intro entry mem eligible
  have before : view.rotation.Eligible entry.id := by
    refine eligible.imp (Rotation.isReady_of_register turned) fun holds => ?_
    rwa [Rotation.holder_register turned] at holds
  rcases List.mem_append.mp mem with old | new
  · exact discreet entry old before
  · -- the new source is neither in the cycle nor does it hold a record
    rw [List.mem_singleton.mp new] at before
    rcases before with ready | holds
    · have known := Rotation.mem_ids_of_isReady ready
      rw [sound.cycle] at known
      exact absurd known fresh
    · exact absurd (sound.holder id holds) fresh

/-- If nothing waits in an attentive view, then a pass after an announcement gains nothing. -/
theorem Attentive.barren {pass : Pass Source} {room : Nat}
    (attentive : view.Attentive ref (fun _ => True) none sources) (open' : view.released = false)
    (empty : view.queue.entries = []) (discreet : (view.hear id).Discreet ref sources)
    (course : Pass.Course view.registry room (view.hear id).rotation sources pass) :
    Pass.Course.Barren (view.hear id).rotation sources pass := by
  refine course.barren fun other source listed eligible => ?_
  have registered := Registry.mem_of_source? listed
  have attached := discreet _ registered (eligible.elim .inr fun free => .inl free.2)
  obtain ⟨state, found, notifies⟩ := Registration.IsAttached.memory attached
  refine Source.pullAt_of_empty found ((attentive.tame _ state found).2 trivial) ?_
  by_contra full
  obtain ⟨holder, holds, different⟩ := attentive.held open' empty _ registered trivial
    ⟨state, found, notifies, full⟩ (Option.some_ne_none _).symm
  rw [show (view.hear id).rotation.holder = some holder from holds] at eligible
  rcases eligible with same | ⟨free, _⟩
  · exact different (Option.some.inj same)
  · cases free

/-- A notification that is owed to nobody changes flags at most. -/
theorem Attentive.notify_idle (attentive : view.Attentive ref (fun _ => True) none sources)
    (discreet : view.Discreet ref sources) (published : view.published = view.queue.length)
    (announced : ∀ entry ∈ view.registry.entries, entry.source = source →
      entry.IsAttached ref sources) :
    (view.notify sources source).Alike ⟨false, view, sources, []⟩ ∧
      (view.notify sources source).view.Discreet ref sources := by
  rcases view.notify_cases sources source with
    ⟨_, result⟩ | ⟨id, open', found, ⟨empty, result⟩ | ⟨_, result⟩⟩
  · rw [result]
    exact ⟨⟨rfl, rfl, rfl⟩, discreet⟩
  · have heard := discreet.hear attentive.sound found announced
    have unreleased : (view.hear id).released = false := open'
    obtain ⟨pass, course, filled⟩ := refill_of_unreleased unreleased sources
    have barren := attentive.barren open' empty heard course
    have reached : ((view.hear id).absorb pass).publish =
        { view with rotation := pass.rotation } := by
      simp only [View.publish, View.absorb, View.hear, barren.entries, barren.faults,
        Lookahead.append, List.append_nil, List.foldl_nil, List.reverse_nil, List.nil_append,
        published]
    have turn : pass.rotation.forget = view.rotation.forget :=
      barren.turn.trans (Rotation.forget_announce _ _)
    have kept : pass.rotation.Discreet view.registry ref sources :=
      Rotation.Discreet.mono heard (fun _ => course.eligible) (.refl sources)
    rw [result, consult, filled]
    simp only [reached, barren.sources]
    refine ⟨⟨?_, ?_, rfl⟩, kept⟩
    · simp [Lookahead.isEmpty, empty]
    · simp only [forget, turn]
  · rw [result]
    refine ⟨⟨rfl, ?_, rfl⟩, discreet.hear attentive.sound found announced⟩
    simp only [View.hear, forget, Rotation.forget_announce]

end View

end FairMerge
