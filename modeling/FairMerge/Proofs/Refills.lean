import FairMerge.Proofs.Ringing

/-! # The refills of a command

A view refills when its consumer asks it for something, and when a notification finds it empty. A
delivery refills twice, and a series of deliveries as often as it takes deliveries. These relations
name every state in which a view refills while a command is carried out, with the pool at that
time: what the command pulls is pulled in one of these passes, and none of them is led astray by an
identifier that is not registered. -/

namespace FairMerge

variable {σ α : Type} [Producer σ α]

namespace Pass.Course

variable {registry : Registry} {room : Nat} {rotation : Rotation} {sources : List σ} {pass : Pass σ}

/-- Whoever is chosen in a pass is registered, as long as the cycle and the registry have the same
identifiers. -/
theorem halt_ne_unregistered (course : Course registry room rotation sources pass)
    (cycle : rotation.ids = registry.ids)
    (held : ∀ id, rotation.holder = some id → id ∈ registry.ids) (id : SourceId) :
    pass.halt ≠ .unregistered id := by
  induction course with
  | full | idle | blocked => simp
  | astray chosen missing =>
    have known := Rotation.mem_of_choice chosen
    rw [cycle] at known
    exact absurd (known.elim (fun mem => mem) (held _)) (Registry.source?_eq_none_iff.mp missing)
  | @taken _ _ _ _ _ _ delivery _ chosen found _ _ ih =>
    apply ih
    · simpa using cycle
    · intro holder holds
      rw [Rotation.holder_settle_yielded chosen] at holds
      split at holds
      · cases holds
        exact Registry.mem_ids_of_source? found
      · cases holds
  | skipped _ _ _ _ _ _ ih => exact ih (by simpa using cycle) (by simpa using held)

end Pass.Course

/-! ### The refills of a view -/

namespace View

/-- The pass that a refill of the view makes, unless the view is released. -/
def pass (view : View) (sources : List σ) : Pass σ :=
  .run view.registry view.queue.room view.rotation sources

/-- While the first view answers the request, it is refilled in the second state. -/
inductive Refills : View → List σ → Request → View → List σ → Prop
  | peek {view : View} {sources : List σ} : Refills view sources .peek view sources
  | availability {view : View} {sources : List σ} {credit : Bool} :
    Refills view sources (.availability credit) view sources
  | next {view : View} {sources : List σ} : Refills view sources .next view sources
  | again {view : View} {sources : List σ} {entry : Entry} {queue : Lookahead}
    (popped : (view.refill sources).view.queue.pop? = some (entry, queue)) :
    Refills view sources .next { (view.refill sources).view with queue }
      (view.refill sources).sources
  | drain {view state : View} {sources pool : List σ} {limit : Nat}
    (refills : Refills view sources .next state pool) :
    Refills view sources (.drain (limit + 1)) state pool
  | later {view state : View} {sources pool : List σ} {entry : Entry} {limit : Nat}
    (taken : (view.next sources).value = some entry)
    (refills : Refills (view.next sources).view (view.next sources).sources (.drain limit) state
      pool) :
    Refills view sources (.drain (limit + 1)) state pool

variable {view state : View} {sources pool : List σ} {request : Request} {pull : Pull}

theorem Sound.halt_ne_unregistered (sound : view.Sound) (sources : List σ) (id : SourceId) :
    (view.pass sources).halt ≠ .unregistered id :=
  (Pass.course_run ..).halt_ne_unregistered sound.cycle sound.holder id

theorem Refills.sound (refills : view.Refills sources request state pool) (sound : view.Sound) :
    state.Sound := by
  induction refills with
  | peek | availability | next => exact sound
  | again popped => exact (sound.refill _).pop popped
  | drain _ ih => exact ih sound
  | @later view _ sources _ _ _ _ _ ih =>
    exact ih (@Invariant.next _ _ _ _ sound_invariant view [] sound sources)

/-- What the view pulls in a refill is pulled in the pass. -/
theorem mem_pulls_of_refill (pulled : .pulled pull ∈ (view.refill sources).journal) :
    pull ∈ (view.pass sources).pulls := by
  unfold refill at pulled
  split at pulled
  · cases pulled
  · obtain ⟨_, mem, same⟩ := List.mem_map.mp pulled
    cases same
    exact mem

theorem refills_of_next (pulled : .pulled pull ∈ (view.next sources).journal) :
    ∃ state pool, view.Refills sources .next state pool ∧ pull ∈ (state.pass pool).pulls := by
  rcases view.next_cases sources with ⟨_, result⟩ | ⟨entry, queue, popped, second, rfl, result⟩
  · rw [result] at pulled
    exact ⟨view, sources, .next, mem_pulls_of_refill pulled⟩
  · rw [result] at pulled
    rcases List.mem_append.mp pulled with pulled | delivered
    · rcases List.mem_append.mp pulled with first | second
      · exact ⟨view, sources, .next, mem_pulls_of_refill first⟩
      · exact ⟨_, _, .again popped, mem_pulls_of_refill second⟩
    · cases List.mem_singleton.mp delivered

theorem refills_of_drain {limit : Nat} (pulled : .pulled pull ∈ (view.drain sources limit).journal) :
    ∃ state pool, view.Refills sources (.drain limit) state pool ∧
      pull ∈ (state.pass pool).pulls := by
  induction limit generalizing view sources with
  | zero => cases pulled
  | succ limit ih =>
    have first (now : .pulled pull ∈ (view.next sources).journal) :
        ∃ state pool, view.Refills sources (.drain (limit + 1)) state pool ∧
          pull ∈ (state.pass pool).pulls := by
      obtain ⟨state, pool, refills, mem⟩ := refills_of_next now
      exact ⟨state, pool, .drain refills, mem⟩
    rw [View.drain] at pulled
    cases taken : (view.next sources).value with
    | none =>
      rw [taken] at pulled
      exact first pulled
    | some entry =>
      simp only [taken] at pulled
      rcases List.mem_append.mp pulled with now | afterwards
      · exact first now
      · obtain ⟨state, pool, refills, mem⟩ := ih afterwards
        exact ⟨state, pool, .later taken refills, mem⟩

theorem not_pulled_of_release : .pulled pull ∉ (view.release sources).journal := by
  unfold View.release
  split
  · exact List.not_mem_nil
  · simp

end View

/-! ### The refills of a network -/

namespace Network

/-- While the command is carried out, a view is refilled in this state from this pool. -/
inductive Refills (network : Network σ) : Command Notifier α → View → List σ → Prop
  | request {ref : ViewRef} {view state : View} {pool : List σ} {request : Request}
    (there : network.view? ref = some view)
    (refills : view.Refills network.sources request state pool) :
    Refills network (.request ref request) state pool
  | notify {command : Command Notifier α} {notifier : Notifier} {heard : Network σ} {view : View}
    {id : SourceId} (rings : network.Rings command notifier heard)
    (there : heard.view? notifier.view = some view) (open' : view.released = false)
    (known : view.registry.idOf? notifier.source = some id) (empty : view.queue.entries = []) :
    Refills network command (view.hear id) heard.sources

variable {network : Network σ} {command : Command Notifier α} {state : View} {pool : List σ}

/-- If the views are sound, they are refilled in sound states. -/
theorem Refills.sound (refills : network.Refills command state pool)
    (sound : ∀ ref view, network.view? ref = some view → view.Sound) : state.Sound := by
  cases refills with
  | request there refills => exact refills.sound (sound _ _ there)
  | @notify _ notifier heard view id rings there =>
    refine View.Sound.hear ?_ id
    cases rings with
    | ring | announce | act | attach => exact sound _ _ there
    | @add ref source id registered state _ found own accepted named =>
      obtain ⟨old, later, found, renewed, rfl⟩ := register_cases accepted
      change (network.setView ref later).view? notifier.view = some view at there
      by_cases own : notifier.view = ref
      · subst own
        rw [eq_of_view?_setView there]
        exact (sound _ old found).register renewed
      · rw [view?_setView_of_ne own] at there
        exact sound _ view there

variable {target : ViewRef} {pull : Pull}

theorem mem_of_mem_map_view {ref : ViewRef} {activity : Activity} {journal : List Activity}
    (mem : .view target activity ∈ journal.map (Event.view ref)) : activity ∈ journal := by
  obtain ⟨_, mem, same⟩ := List.mem_map.mp mem
  cases same
  exact mem

theorem refills_of_answer {ref : ViewRef} {view : View} {request : Request}
    (pulled : .view target (.pulled pull) ∈ (network.answer ref view request).events) :
    ∃ state pool, view.Refills network.sources request state pool ∧
      pull ∈ (state.pass pool).pulls := by
  cases request with
  | peek =>
    exact ⟨view, _, .peek, View.mem_pulls_of_refill (mem_of_mem_map_view pulled)⟩
  | availability credit =>
    exact ⟨view, _, .availability, View.mem_pulls_of_refill (mem_of_mem_map_view pulled)⟩
  | next => exact View.refills_of_next (mem_of_mem_map_view pulled)
  | drain limit => exact View.refills_of_drain (mem_of_mem_map_view pulled)
  | release => exact absurd (mem_of_mem_map_view pulled) View.not_pulled_of_release
  | requireSegment id segment =>
    simp only [answer] at pulled
    split at pulled <;> cases pulled
  | _ => cases pulled

theorem refills_of_notify {notifier : Notifier}
    (pulled : .view target (.pulled pull) ∈ (network.notify notifier).events) :
    ∃ view id, network.view? notifier.view = some view ∧ view.released = false ∧
      view.registry.idOf? notifier.source = some id ∧ view.queue.entries = [] ∧
      pull ∈ ((view.hear id).pass network.sources).pulls := by
  unfold notify at pulled
  cases there : network.view? notifier.view with
  | none =>
    rw [there] at pulled
    cases pulled
  | some view =>
    simp only [there] at pulled
    have own : .pulled pull ∈ (view.notify network.sources notifier.source).journal := by
      split at pulled
      · unfold signalling at pulled
        split at pulled
        · exact mem_of_mem_map_view pulled
        · rcases List.mem_append.mp pulled with mem | signal
          · exact mem_of_mem_map_view mem
          · cases List.mem_singleton.mp signal
      · exact mem_of_mem_map_view pulled
    rcases view.notify_cases network.sources notifier.source with
      ⟨_, result⟩ | ⟨id, open', known, ⟨empty, result⟩ | ⟨_, result⟩⟩
    · rw [result] at own
      cases own
    · rw [result] at own
      exact ⟨view, id, rfl, open', known, empty, View.mem_pulls_of_refill own⟩
    · rw [result] at own
      cases own

/-- If anything happens after a change of a source, the change names a notifier. -/
theorem named_of_change {source : SourceRef} {step : σ → σ × Option Notifier} {reply : Reply σ}
    {event : Event} (occurred : event ∈ (network.change source step reply).events) :
    ∃ state notifier, network.sources[source]? = some state ∧ (step state).2 = some notifier := by
  unfold change at occurred
  cases found : network.sources[source]? with
  | none =>
    rw [found] at occurred
    cases occurred
  | some state =>
    simp only [found] at occurred
    cases named : (step state).2 with
    | none =>
      rw [named] at occurred
      cases occurred
    | some notifier => exact ⟨state, notifier, rfl, named⟩

/-- A command that pulls for a view is a request, or it rings a notifier. -/
theorem request_or_rings (pulled : .view target (.pulled pull) ∈ (network.exec command).events) :
    (∃ ref request, command = .request ref request) ∨
      ∃ notifier heard, network.Rings command notifier heard := by
  cases command with
  | request ref request => exact .inl ⟨ref, request, rfl⟩
  | ring notifier => exact .inr ⟨notifier, network, .ring notifier⟩
  | attach source given =>
    obtain ⟨state, notifier, found, named⟩ := named_of_change pulled
    exact .inr ⟨notifier, _, .attach found named⟩
  | act source action =>
    obtain ⟨state, notifier, found, named⟩ := named_of_change pulled
    exact .inr ⟨notifier, _, .act found named⟩
  | announce ref source =>
    simp only [exec] at pulled
    cases there : network.view? ref with
    | none =>
      rw [there] at pulled
      cases pulled
    | some view => exact .inr ⟨_, network, .announce source there⟩
  | register ref source id =>
    simp only [exec] at pulled
    split at pulled <;> cases pulled
  | add ref source =>
    rcases network.exec_add_cases ref source with
      ⟨reply, _, still⟩ | ⟨state, id, registered, found, own, accepted, performed⟩
    · rw [still] at pulled
      cases pulled
    · rw [performed] at pulled
      obtain ⟨state', notifier, found', named⟩ := named_of_change pulled
      rw [sources_of_register network accepted, found, Option.some.injEq] at found'
      subst found'
      exact .inr ⟨notifier, _, .add found own accepted named⟩
  | isAlive notifier => cases pulled
  | pull source =>
    simp only [exec] at pulled
    split at pulled
    · cases pulled
    · cases List.mem_singleton.mp pulled
  | _ =>
    simp only [exec] at pulled
    split at pulled <;> cases pulled

/-- What a command pulls for a view is pulled in one of the passes of its refills. -/
theorem refills_of_exec (pulled : .view target (.pulled pull) ∈ (network.exec command).events) :
    ∃ state pool, network.Refills command state pool ∧ pull ∈ (state.pass pool).pulls := by
  rcases request_or_rings pulled with ⟨ref, request, rfl⟩ | ⟨notifier, heard, rings⟩
  · simp only [exec] at pulled
    cases there : network.view? ref with
    | none =>
      rw [there] at pulled
      cases pulled
    | some view =>
      rw [there] at pulled
      obtain ⟨state, pool, refills, mem⟩ := refills_of_answer pulled
      exact ⟨state, pool, .request there refills, mem⟩
  · obtain ⟨reply, same⟩ := rings.exec_eq
    rw [same] at pulled
    obtain ⟨view, id, there, open', known, empty, mem⟩ := refills_of_notify pulled
    exact ⟨_, _, .notify rings there open' known empty, mem⟩

end Network

end FairMerge
