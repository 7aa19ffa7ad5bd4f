import FairMerge.Proofs.Notifiers
import FairMerge.Proofs.SourceHistory

/-! # What lasts in a view

Commands change what waits in a view and whose turn it is, but only a registration adds to the
registry, and only a release sets the flag. So a registered source is always in the pool, and a view
is open until it is asked for its release. -/

namespace FairMerge

/-- The command does not register a source, nor does it release the view at the place. -/
def Command.spares {ν α : Type} (ref : ViewRef) : Command ν α → Bool
  | request view asked => !(view == ref && asked == .release)
  | register .. | add .. => false
  | _ => true

namespace Network

variable {σ α : Type} [Producer σ α] {network later : Network σ} {ref : ViewRef}

/-- If the view is there later, it was there with the same registrations, and released or not. -/
def Lasts (network later : Network σ) (ref : ViewRef) : Prop :=
  ∀ view, later.view? ref = some view → ∃ old, network.view? ref = some old ∧
    view.registry = old.registry ∧ view.released = old.released

omit [Producer σ α] in
theorem Lasts.refl (network : Network σ) (ref : ViewRef) : network.Lasts network ref :=
  fun view there => ⟨view, there, rfl, rfl⟩

omit [Producer σ α] in
theorem lasts_commit {β : Type} {target : ViewRef} {old : View} {effect : Effect σ β}
    {reply : β → Reply σ} (there : network.view? target = some old)
    (registry : effect.view.registry = old.registry)
    (released : effect.view.released = old.released) :
    network.Lasts (network.commit target effect reply).network ref := by
  intro view reached
  by_cases own : ref = target
  · subst own
    rw [eq_of_view?_setView reached]
    exact ⟨old, there, registry, released⟩
  · rw [commit, view?_setView_of_ne own] at reached
    exact ⟨view, reached, rfl, rfl⟩

theorem lasts_notify (network : Network σ) (notifier : Notifier) (ref : ViewRef) :
    network.Lasts (network.notify notifier).network ref := by
  unfold notify
  cases there : network.view? notifier.view with
  | none => exact .refl network ref
  | some old =>
    have heard : network.Lasts (network.commit notifier.view
        (old.notify network.sources notifier.source) fun _ => .flag true).network ref :=
      lasts_commit there (old.registry_notify _ _) (old.released_notify _ _)
    simp only
    split
    · unfold signalling
      split
      · exact heard
      · intro view reached
        rw [view?_setListener] at reached
        exact heard view reached
    · exact heard

theorem lasts_change (network : Network σ) (source : SourceRef) (step : σ → σ × Option Notifier)
    (reply : Reply σ) (ref : ViewRef) :
    network.Lasts (network.change source step reply).network ref := by
  unfold change
  cases network.sources[source]? with
  | none => exact .refl network ref
  | some state =>
    simp only [ringing]
    cases (step state).2 with
    | none => exact .refl network ref
    | some notifier => exact lasts_notify _ notifier ref

theorem lasts_answer {target : ViewRef} {old : View} (there : network.view? target = some old)
    {request : Request} (kept : target = ref → request ≠ .release) :
    network.Lasts (network.answer target old request).network ref := by
  cases request with
  | peek => exact lasts_commit there (old.registry_refill _) (old.released_refill _)
  | next => exact lasts_commit there (old.registry_next _) (old.released_next _)
  | drain limit => exact lasts_commit there (old.registry_drain _ _) (old.released_drain _ _)
  | availability credit => exact lasts_commit there (old.registry_refill _) (old.released_refill _)
  | release =>
    intro view reached
    have different : ref ≠ target := fun same => kept same.symm rfl
    rw [answer, commit, view?_setView_of_ne different] at reached
    exact ⟨view, reached, rfl, rfl⟩
  | requireSegment id segment =>
    simp only [answer]
    split <;> exact .refl network ref
  | _ => exact .refl network ref

/-- A command that neither registers a source nor releases the view lets it last. -/
theorem lasts_exec {command : Command Notifier α} (spares : command.spares ref = true) :
    network.Lasts (network.exec command).network ref := by
  cases command with
  | request target request =>
    simp only [exec]
    cases there : network.view? target with
    | none => exact .refl network ref
    | some old =>
      refine lasts_answer there fun same asked => ?_
      simp [Command.spares, same, asked] at spares
  | register | add => cases spares
  | attach source given => exact lasts_change network source _ _ ref
  | act source action => exact lasts_change network source _ _ ref
  | ring notifier => exact lasts_notify network notifier ref
  | announce target source =>
    simp only [exec]
    split
    · exact .refl network ref
    · exact lasts_notify network ⟨target, source⟩ ref
  | receive target | dropReceiver target =>
    simp only [exec]
    split
    · exact .refl network ref
    · intro view reached
      simp only [still, view?_setListener] at reached
      exact ⟨view, reached, rfl, rfl⟩
  | dropView target =>
    simp only [exec]
    split
    · exact .refl network ref
    · exact fun view reached => ⟨view, view?_of_dropped reached, rfl, rfl⟩
  | isAlive notifier => exact .refl network ref
  | pull source | sourceFailure source | releaseSource source | inspect source =>
    simp only [exec]
    split <;> exact .refl network ref

/-- The registrations of a view that is there later: it had each of them, or the source is in the
pool. It is released if it was, or since the command asked for that. -/
def Heir (network : Network σ) (command : Command Notifier α) (ref : ViewRef) (view : View) : Prop :=
  ∃ old, network.view? ref = some old ∧
    (∀ entry ∈ view.registry.entries, entry ∈ old.registry.entries ∨
      ∃ state, network.sources[entry.source]? = some state) ∧
    (view.released = old.released ∨ command = .request ref .release)

variable {command : Command Notifier α}

omit [Producer σ α] in
theorem Lasts.heir (lasts : network.Lasts later ref) {view : View}
    (reached : later.view? ref = some view) : network.Heir command ref view := by
  obtain ⟨old, there, registry, released⟩ := lasts view reached
  refine ⟨old, there, fun entry mem => .inl ?_, .inl released⟩
  rwa [← registry]

omit [Producer σ α] in
theorem present_of_register {target : ViewRef} {source : SourceRef} {id : SourceId}
    {registered : Network σ} (accepted : network.register target source id = .ok registered) :
    ∃ state, network.sources[source]? = some state := by
  unfold register at accepted
  split at accepted
  · exact ⟨_, by assumption⟩
  · cases accepted

omit [Producer σ α] in
theorem heir_of_register {target : ViewRef} {source : SourceRef} {id : SourceId}
    {registered : Network σ} {view : View}
    (accepted : network.register target source id = .ok registered)
    (lasts : registered.Lasts later ref) (reached : later.view? ref = some view) :
    network.Heir command ref view := by
  have present := present_of_register accepted
  obtain ⟨before, there, registry, released⟩ := lasts view reached
  obtain ⟨old, enrolled, found, renewed, rfl⟩ := register_cases accepted
  by_cases own : ref = target
  · subst own
    rw [eq_of_view?_setView there] at registry released
    obtain ⟨_, _, _, rotation, _, rfl⟩ := View.register_cases renewed
    refine ⟨old, found, fun entry mem => ?_, .inl released⟩
    rw [registry] at mem
    rcases List.mem_append.mp mem with known | new
    · exact .inl known
    · rw [List.mem_singleton.mp new]
      exact .inr present
  · rw [view?_setView_of_ne own] at there
    refine ⟨before, there, fun entry mem => .inl ?_, .inl released⟩
    rwa [← registry]

/-- What a command leaves a view with. -/
theorem heir_exec {view : View}
    (reached : (network.exec command).network.view? ref = some view) :
    network.Heir command ref view := by
  cases spares : command.spares ref with
  | true => exact (lasts_exec spares).heir reached
  | false =>
    cases command with
    | request target request =>
      obtain ⟨rfl, rfl⟩ : target = ref ∧ request = .release := by
        simpa [Command.spares] using spares
      simp only [exec] at reached
      cases there : network.view? target with
      | none =>
        rw [there] at reached
        exact (Lasts.refl network target).heir reached
      | some old =>
        refine ⟨old, there, fun entry mem => .inl ?_, .inr rfl⟩
        simp only [there, answer, commit] at reached
        rwa [eq_of_view?_setView reached, old.registry_release] at mem
    | register target source id =>
      rcases network.exec_register_cases target source id with
        ⟨reply, _, still⟩ | ⟨registered, accepted, performed⟩
      · rw [still] at reached
        exact (Lasts.refl network ref).heir reached
      · rw [performed] at reached
        exact heir_of_register accepted (.refl registered ref) reached
    | add target source =>
      rcases network.exec_add_cases target source with
        ⟨reply, _, still⟩ | ⟨_, _, registered, _, _, accepted, performed⟩
      · rw [still] at reached
        exact (Lasts.refl network ref).heir reached
      · rw [performed] at reached
        exact heir_of_register accepted (lasts_change registered source _ _ ref) reached
    | _ => cases spares

/-- Every registered source is in the pool. -/
def Housed (network : Network σ) : Prop :=
  ∀ ref view, network.view? ref = some view → ∀ entry ∈ view.registry.entries,
    ∃ state, network.sources[entry.source]? = some state

theorem housed_exec (housed : network.Housed) (command : Command Notifier α) :
    (network.exec command).network.Housed := by
  intro ref view reached entry registered
  obtain ⟨old, there, known, _⟩ := heir_exec reached
  have present : ∃ state, network.sources[entry.source]? = some state :=
    (known entry registered).elim (housed ref old there entry) id
  obtain ⟨state, found⟩ := present
  obtain ⟨later, stands, _⟩ := Producer.At.of_earlier
    (exec_touches (fun _ => True) network entry.source command fun _ _ => trivial) found
  exact ⟨later, stands⟩

end Network

namespace Session

variable {σ α : Type} [Producer σ α] (sources : List σ) (views : List (Config × Listener))
  (reactions : List (List (List (Command Nat α)))) (commands : List (Command Nat α)) (n : Nat)

/-- At every point of a session the registered sources are in the pool. -/
theorem housed_play :
    let session := start sources views reactions
    (session.reachedBy ((session.play commands).take n)).Housed := by
  intro session
  refine play_invariant (fun _ network _ => network.Housed) ?_ session ?_ commands n
  · intro past session task housed
    rcases session.perform_cases task.command with ⟨_, still⟩ | ⟨resolved, _, performed⟩
    · rw [still]
      exact housed
    · rw [performed]
      exact Network.housed_exec housed resolved
  · intro ref view there entry registered
    obtain ⟨config, built⟩ := ofConfig_of_view?_start there
    rw [(View.eq_empty_of_config built).1] at registered
    cases registered

/-- A view is open until it is asked for its release. -/
theorem open_play {ref : ViewRef} :
    let session := start sources views reactions
    let past := (session.play commands).take n
    (∀ record ∈ past, record.task.command ≠ .request ref .release) →
      ∀ view, (session.reachedBy past).view? ref = some view → view.released = false := by
  intro session past
  refine play_invariant (fun past network _ =>
    (∀ record ∈ past, record.task.command ≠ .request ref .release) →
      ∀ view, network.view? ref = some view → view.released = false) ?_ session ?_ commands n
  · intro past session task before unasked view reached
    have earlier := before fun record mem => unasked record (List.mem_append_left _ mem)
    have now : task.command ≠ .request ref .release :=
      unasked (session.recordOf task) (List.mem_append_right _ List.mem_cons_self)
    rcases session.perform_cases task.command with ⟨_, still⟩ | ⟨resolved, found, performed⟩
    · rw [still] at reached
      exact earlier view reached
    · rw [performed] at reached
      obtain ⟨old, there, _, same | asked⟩ := Network.heir_exec reached
      · exact same.trans (earlier old there)
      · exact absurd ((Command.eq_of_resolve? found ref).1 _ asked) now
  · intro _ view there
    obtain ⟨config, built⟩ := ofConfig_of_view?_start there
    rw [(View.eq_empty_of_config built).1]
    rfl

end Session

end FairMerge
