import FairMerge.Proofs.History

/-! # A notifier stands for a registration

Whoever holds a notifier got it when the source was registered with the view. Registrations are
never taken back, so as long as the view is there it has the source in its registry. -/

namespace FairMerge

/-- The registration that a command asks for, as its notifier names it. -/
def Command.registration? {ν α : Type} : Command ν α → Option Notifier
  | register view source _ => some ⟨view, source⟩
  | add view source => some ⟨view, source⟩
  | _ => none

variable {σ α : Type} [Producer σ α]

theorem View.lists_invariant (source : SourceRef) :
    View.Invariant σ fun view _ _ => source ∈ view.registry.sources where
  register := by
    intro view later log id other lists registered
    obtain ⟨_, _, _, rotation, _, rfl⟩ := register_cases registered
    rw [Registry.sources, List.map_append]
    exact List.mem_append_left _ lists
  announce lists _ _ := lists
  absorb lists _ _ := lists
  publish lists := lists
  pop lists _ := lists
  handOut lists := lists
  release _ lists _ := lists

namespace Network

variable {network : Network σ}

theorem lists_of_register {ref : ViewRef} {source : SourceRef} {id : SourceId}
    {registered : Network σ} (accepted : network.register ref source id = .ok registered) :
    ∀ view, registered.view? ref = some view → source ∈ view.registry.sources := by
  obtain ⟨old, later, _, renewed, rfl⟩ := register_cases accepted
  intro view reached
  rw [eq_of_view?_setView reached]
  obtain ⟨_, _, _, rotation, _, rfl⟩ := View.register_cases renewed
  simp [Registry.sources]

theorem reply_notify (notifier : Notifier) :
    ∃ flag, (network.notify notifier).reply = .flag flag := by
  unfold notify
  cases network.view? notifier.view with
  | none => exact ⟨false, rfl⟩
  | some view =>
    simp only
    split
    · unfold signalling
      split <;> exact ⟨true, rfl⟩
    · exact ⟨true, rfl⟩

theorem reply_change (source : SourceRef) (step : σ → σ × Option Notifier) (reply : Reply σ) :
    (network.change source step reply).reply = .missing ∨
      (network.change source step reply).reply = reply := by
  unfold change
  cases network.sources[source]? with
  | none => exact .inl rfl
  | some state =>
    right
    simp only [ringing]
    cases (step state).2 <;> rfl

theorem reply_answer_ne_registered {ref : ViewRef} {view : View} (request : Request)
    (notifier : Notifier) : (network.answer ref view request).reply ≠ .registered notifier := by
  cases request with
  | requireSegment id segment =>
    simp only [answer]
    split <;> simp [still]
  | release =>
    simp only [answer, commit]
    cases (view.release network.sources).value <;> simp
  | _ => simp [answer, commit, still]

/-- A notifier that a command hands out names the view and the source of the registration. -/
theorem registration?_of_registered {command : Command Notifier α} {notifier : Notifier}
    (replied : (network.exec command).reply = .registered notifier) :
    command.registration? = some notifier := by
  cases command with
  | register ref source id =>
    rcases network.exec_register_cases ref source id with
      ⟨reply, refused, still⟩ | ⟨registered, _, performed⟩
    · rw [still] at replied
      exact absurd replied (refused notifier)
    · rw [performed] at replied
      cases replied
      rfl
  | add ref source =>
    rcases network.exec_add_cases ref source with
      ⟨reply, refused, still⟩ | ⟨_, _, registered, _, _, _, performed⟩
    · rw [still] at replied
      exact absurd replied (refused notifier)
    · rw [performed] at replied
      rcases registered.reply_change source (Producer.attach ⟨ref, source⟩)
        (.registered ⟨ref, source⟩) with missing | same
      · rw [missing] at replied
        cases replied
      · rw [same] at replied
        cases replied
        rfl
  | request ref request =>
    simp only [exec] at replied
    cases found : network.view? ref with
    | none => simp [found, still] at replied
    | some view =>
      rw [found] at replied
      exact absurd replied (reply_answer_ne_registered request notifier)
  | attach source given | act source action =>
    simp only [exec] at replied
    rcases network.reply_change source _ .done with missing | same
    · rw [missing] at replied
      cases replied
    · rw [same] at replied
      cases replied
  | ring given =>
    simp only [exec] at replied
    obtain ⟨flag, same⟩ := network.reply_notify given
    rw [same] at replied
    cases replied
  | isAlive given => cases replied
  | releaseSource source =>
    simp only [exec] at replied
    split at replied
    · cases replied
    · cases failed : (Producer.releaseAt network.sources source).1 <;>
        simp [still, failed] at replied
  | _ =>
    simp only [exec] at replied
    split at replied <;> cases replied

/-- A command that hands out a notifier leaves the view with the source in its registry. -/
theorem lists_of_registered {command : Command Notifier α} {notifier : Notifier}
    (replied : (network.exec command).reply = .registered notifier) :
    ∀ view, (network.exec command).network.view? notifier.view = some view →
      notifier.source ∈ view.registry.sources := by
  have named := registration?_of_registered replied
  cases command with
  | register ref source id =>
    cases named
    rcases network.exec_register_cases ref source id with
      ⟨reply, refused, still⟩ | ⟨registered, accepted, performed⟩
    · rw [still] at replied
      exact absurd replied (refused _)
    · rw [performed]
      exact lists_of_register accepted
  | add ref source =>
    cases named
    rcases network.exec_add_cases ref source with
      ⟨reply, refused, still⟩ | ⟨_, _, registered, _, _, accepted, performed⟩
    · rw [still] at replied
      exact absurd replied (refused _)
    · have changed : Step.Upholds (fun view _ _ => source ∈ view.registry.sources) ref []
          (registered.change source (Producer.attach ⟨ref, source⟩)
            (.registered ⟨ref, source⟩)) :=
        upholds_change (View.lists_invariant source) (lists_of_register accepted) _ _ _
      rw [performed]
      exact changed
  | _ => cases named

end Network

theorem Command.mem_of_resolve?_attach {notifiers : List Notifier} {command : Command Nat α}
    {source : SourceRef} {notifier : Notifier}
    (found : command.resolve? (fun place => notifiers[place]?) = some (.attach source notifier)) :
    notifier ∈ notifiers := by
  cases command with
  | attach target place =>
    simp only [resolve?, Option.map_eq_some_iff] at found
    obtain ⟨_, there, same⟩ := found
    cases same
    exact List.mem_of_getElem? there
  | ring place | isAlive place =>
    simp only [resolve?, Option.map_eq_some_iff] at found
    obtain ⟨_, _, same⟩ := found
    cases same
  | _ =>
    simp only [resolve?, Option.some.injEq] at found
    cases found

/-- Only notifiers are looked up. -/
theorem Command.eq_of_resolve? {ν μ α : Type} {find? : ν → Option μ} {command : Command ν α}
    {resolved : Command μ α} (found : command.resolve? find? = some resolved) (ref : ViewRef) :
    (∀ request, resolved = .request ref request → command = .request ref request) ∧
      (resolved = .receive ref → command = .receive ref) := by
  cases command with
  | attach | ring | isAlive =>
    simp only [resolve?, Option.map_eq_some_iff] at found
    obtain ⟨_, _, rfl⟩ := found
    simp
  | _ =>
    simp only [resolve?, Option.some.injEq] at found
    subst found
    simp

/-- The notifiers stand for registrations, as far as their views are there. -/
def Network.Stands (network : Network σ) (notifiers : List Notifier) : Prop :=
  ∀ notifier ∈ notifiers, ∀ view, network.view? notifier.view = some view →
    notifier.source ∈ view.registry.sources

theorem Session.stands_perform {session : Session σ α}
    (stands : session.network.Stands session.notifiers) (command : Command Nat α) :
    (session.perform command).network.Stands
      (session.reach (session.perform command)).notifiers := by
  rcases session.perform_cases command with ⟨_, still⟩ | ⟨resolved, _, performed⟩
  · rw [still]
    exact stands
  · rw [performed]
    have old : (session.network.exec resolved).network.Stands session.notifiers := by
      intro notifier mem
      have upholds : Step.Upholds (fun view _ _ => notifier.source ∈ view.registry.sources)
          notifier.view [] (session.network.exec resolved) :=
        Network.upholds_exec (View.lists_invariant notifier.source) (stands notifier mem) resolved
      exact upholds
    unfold reach
    split
    · rename_i notifier replied
      intro given mem
      rcases List.mem_append.mp mem with mem | mem
      · exact old given mem
      · rw [List.mem_singleton.mp mem]
        exact Network.lists_of_registered replied
    · exact old

end FairMerge
