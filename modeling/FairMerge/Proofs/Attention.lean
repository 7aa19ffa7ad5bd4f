import FairMerge.Proofs.MemoryQueue
import FairMerge.Proofs.SlotSteps

/-! # Views attend to their sources

A queue-backed source rings only when its queue stops being empty. That is enough: as long as its
queue is not empty the rotation counts it as ready, and as long as nothing waits in the view, either
no source has anything or an open record holds them back.

Between the moment a source changes and the moment its notifier has rung this need not be so for
that source. The statements below therefore name the notifier that is still owed. -/

namespace FairMerge

open Producer (Served Serves)

namespace Source

/-- The notifier's source has something to announce through it. -/
def Loaded (sources : List Source) (notifier : Notifier) : Prop :=
  ∃ memory, sources[notifier.source]? = some (.memory memory) ∧
    memory.notifier? = some notifier ∧ memory.queue ≠ []

/-- Released memory sources are empty, and at the calm places no failure is armed. -/
def Tame (calm : SourceRef → Prop) (sources : List Source) : Prop :=
  ∀ place memory, sources[place]? = some (.memory memory) →
    memory.Settled ∧ (calm place → memory.pullFault? = none)

/-- Only listed sources are announced to the view through the notifiers of memory sources. -/
def Wired (ref : ViewRef) (listed : List SourceRef) (sources : List Source) : Prop :=
  ∀ (place : SourceRef) (memory : MemorySource) (source : SourceRef),
    sources[place]? = some (.memory memory) → memory.notifier? = some ⟨ref, source⟩ →
    source ∈ listed

/-- What an unsuccessful pull tells of a memory source. It is empty, or its armed failure is gone. -/
def Explains (sources later : List Source) (pull : Pull) : Prop :=
  ∀ memory, later[pull.source]? = some (.memory memory) →
    (pull.answer = .nothing → memory.queue = []) ∧
    ∀ cause, pull.answer = .failed cause → memory.pullFault? = none ∧
      ∃ before, sources[pull.source]? = some (.memory before) ∧ before.pullFault? ≠ none

variable {calm : SourceRef → Prop} {sources later : List Source} {notifier : Notifier} {pull : Pull}

/-- Serving loads no source. -/
theorem Loaded.of_served (loaded : Loaded later notifier) (served : Served sources later) :
    Loaded sources notifier := by
  obtain ⟨memory, found, attached, full⟩ := loaded
  obtain ⟨before, _, present, spent⟩ := served_memory served found
  refine ⟨before, present, spent.notifier ▸ attached, ?_⟩
  intro empty
  have suffix := spent.queue
  rw [empty] at suffix
  exact full (List.suffix_nil.mp suffix)

theorem Tame.serve (tame : Tame calm sources) (served : Served sources later) :
    Tame calm later := by
  intro place memory found
  obtain ⟨before, _, present, spent⟩ := served_memory served found
  obtain ⟨settled, unarmed⟩ := tame place before present
  exact ⟨spent.settled settled, fun quiet => spent.disarmed (unarmed quiet)⟩

theorem Tame.mono {calm' : SourceRef → Prop} (tame : Tame calm sources)
    (fewer : ∀ place, calm' place → calm place) : Tame calm' sources := by
  intro place memory found
  obtain ⟨settled, unarmed⟩ := tame place memory found
  exact ⟨settled, fun quiet => unarmed (fewer place quiet)⟩

theorem Wired.serve {ref : ViewRef} {listed : List SourceRef} (wired : Wired ref listed sources)
    (served : Served sources later) : Wired ref listed later := by
  intro place memory source found attached
  obtain ⟨before, _, present, spent⟩ := served_memory served found
  rw [spent.notifier] at attached
  exact wired place before source present attached

theorem Explains.extend {first last : List Source} (explains : Explains sources later pull)
    (before : Served first sources) (after : Served later last) : Explains first last pull := by
  intro memory found
  obtain ⟨between, _, present, spent⟩ := served_memory after found
  obtain ⟨empty, disarmed⟩ := explains between present
  constructor
  · intro dry
    have suffix := spent.queue
    rw [empty dry] at suffix
    exact List.suffix_nil.mp suffix
  · intro cause failed
    obtain ⟨unarmed, armed, standing, fault⟩ := disarmed cause failed
    obtain ⟨origin, _, original, spent'⟩ := served_memory before standing
    refine ⟨spent.disarmed unarmed, origin, original, ?_⟩
    intro never
    exact fault (spent'.disarmed never)

theorem explains_pullAt {id : SourceId} {source : SourceRef} {answer : Answer}
    (tame : Tame calm sources) (pulled : Producer.pullAt sources source = (answer, later)) :
    Explains sources later ⟨id, source, answer⟩ := by
  intro memory found
  obtain ⟨before, present, pull⟩ := pullAt_memory pulled found
  rcases before.pull_cases with ⟨released, result⟩ | ⟨_, reason, cause, armed, result⟩ |
    ⟨_, _, empty, result⟩ | ⟨_, _, given, queue, dataCount, _, result⟩
  · rw [result] at pull
    cases pull
    exact ⟨fun _ => (tame source memory present).1 released, fun cause failed => by cases failed⟩
  · rw [result] at pull
    cases pull
    refine ⟨fun dry => (by cases dry), fun _ _ => ⟨rfl, before, present, ?_⟩⟩
    rw [armed]
    exact Option.some_ne_none reason
  · rw [result] at pull
    cases pull
    exact ⟨fun _ => empty, fun cause failed => by cases failed⟩
  · rw [result] at pull
    cases pull
    exact ⟨fun dry => (by cases dry), fun cause failed => by cases failed⟩

end Source

open Source (Loaded Tame Wired Explains)

/-- What the unsuccessful pulls of a pass tell still holds when it is over. -/
theorem Pass.Course.explains {calm : SourceRef → Prop} {registry : Registry} {room : Nat}
    {rotation : Rotation} {sources : List Source} {pass : Pass Source}
    (course : Course registry room rotation sources pass) (tame : Tame calm sources) :
    ∀ pull ∈ pass.pulls, Explains sources pass.sources pull := by
  induction course with
  | full | idle | astray =>
    intro pull mem
    cases mem
  | taken _ _ pulled rest ih | skipped _ _ _ pulled _ rest ih =>
    have served := Producer.served_pullAt pulled
    intro pull mem
    rcases List.mem_cons.mp mem with rfl | mem
    · exact (Source.explains_pullAt tame pulled).extend (.refl _) rest.served
    · exact (ih (tame.serve served) pull mem).extend served (.refl _)
  | blocked _ _ pulled =>
    intro pull mem
    rw [List.mem_singleton.mp mem]
    exact Source.explains_pullAt tame pulled

/-! ### What a view knows of its sources -/

namespace View

/-- The view counts every loaded source as ready, but for the one whose notifier is owed. -/
structure Informed (view : View) (ref : ViewRef) (calm : SourceRef → Prop) (owed : Option Notifier)
    (sources : List Source) : Prop where
  sound : view.Sound
  tame : Tame calm sources
  wired : Wired ref view.registry.sources sources
  ready : view.released = false → ∀ entry ∈ view.registry.entries,
    Loaded sources ⟨ref, entry.source⟩ → owed ≠ some ⟨ref, entry.source⟩ →
    view.rotation.isReady entry.id = true

/-- Besides, if nothing waits then a loaded source that cannot fail is held back by an open record
of another one. -/
structure Attentive (view : View) (ref : ViewRef) (calm : SourceRef → Prop)
    (owed : Option Notifier) (sources : List Source) : Prop
    extends Informed view ref calm owed sources where
  held : view.released = false → view.queue.entries = [] → ∀ entry ∈ view.registry.entries,
    calm entry.source → Loaded sources ⟨ref, entry.source⟩ → owed ≠ some ⟨ref, entry.source⟩ →
    ∃ other, view.rotation.holder = some other ∧ other ≠ entry.id

variable {view : View} {ref : ViewRef} {calm : SourceRef → Prop} {owed : Option Notifier}
  {sources : List Source}

/-- A source that is loaded after a pass, and gave nothing in it, failed in it. -/
theorem Informed.failed_of_loaded {room : Nat} {rotation : Rotation} {pass : Pass Source}
    {entry : Registration} {pull : Pull} (informed : view.Informed ref calm owed sources)
    (course : Pass.Course view.registry room rotation sources pass)
    (registered : entry ∈ view.registry.entries)
    (loaded : Loaded pass.sources ⟨ref, entry.source⟩) (mem : pull ∈ pass.pulls)
    (same : pull.id = entry.id) (dry : pull.entry? = none) :
    (∃ cause, pull.answer = .failed cause) ∧ ¬ calm entry.source := by
  have found := course.registered pull mem
  rw [same, Registry.source?_of_mem informed.sound.distinctIds registered] at found
  obtain ⟨memory, present, _, full⟩ := loaded
  have explains := course.explains informed.tame pull mem
  rw [Option.some.inj found] at present ⊢
  obtain ⟨empty, failing⟩ := explains memory present
  obtain ⟨id, source, answer⟩ := pull
  cases answer with
  | delivery delivery => cases dry
  | nothing => exact absurd (empty rfl) full
  | failed cause =>
    refine ⟨⟨cause, rfl⟩, fun quiet => ?_⟩
    obtain ⟨_, before, original, armed⟩ := failing cause rfl
    exact armed ((informed.tame _ before original).2 quiet)

/-- Whatever a view was told, after a pass it knows of every loaded source, and if it could not get
anything then no calm source has anything that it may take. -/
theorem Informed.absorb {pass : Pass Source} (informed : view.Informed ref calm none sources)
    (open' : view.released = false)
    (course : Pass.Course view.registry view.queue.room view.rotation sources pass) :
    (view.absorb pass).Attentive ref calm none pass.sources := by
  have before : ∀ entry ∈ view.registry.entries, Loaded pass.sources ⟨ref, entry.source⟩ →
      view.rotation.isReady entry.id = true := fun entry registered loaded =>
    informed.ready open' entry registered (loaded.of_served course.served)
      (Option.some_ne_none _).symm
  refine ⟨⟨informed.sound.absorb open' course, informed.tame.serve course.served,
    informed.wired.serve course.served, ?_⟩, ?_⟩
  · intro _ entry registered loaded _
    rcases course.ready_or_dry (before entry registered loaded) with ready | ⟨pull, mem, same, dry⟩
    · exact isReady_absorb ready
    · obtain ⟨⟨cause, failed⟩, _⟩ :=
        informed.failed_of_loaded course registered loaded mem same dry
      have fault : (⟨entry.id, cause⟩ : Fault) ∈ pass.faults :=
        List.mem_filterMap.mpr ⟨pull, mem, by simp [Pull.error?, failed, same]⟩
      apply isReady_absorb_of_fault fault
      rw [course.ids_eq, informed.sound.cycle]
      exact List.mem_map_of_mem registered
  · intro _ empty entry registered quiet loaded _
    have never : ∀ pull ∈ pass.pulls, pull.id = entry.id → pull.entry? ≠ none :=
      fun pull mem same dry =>
        (informed.failed_of_loaded course registered loaded mem same dry).2 quiet
    rw [queue_absorb, Lookahead.entries_append, List.append_eq_nil_iff] at empty
    obtain ⟨room, large⟩ := informed.sound.room_of_empty empty.1
    rw [large] at course
    rcases course.halts informed.sound.cycle informed.sound.holder empty.2 with
      ⟨unchosen, _⟩ | ⟨id, source, answer, holds, _, _, fruitless, same, pulls⟩
    · -- nobody was left to choose, so the source gave nothing, but it has something
      rcases course.ready_or_dry (before entry registered loaded) with
        ready | ⟨pull, mem, same, dry⟩
      · rw [(Rotation.choice_eq_none_iff.mp unchosen).2 entry.id] at ready
        cases ready
      · exact absurd dry (never pull mem same)
    · refine ⟨id, ?_, fun equal => ?_⟩
      · rw [holder_absorb, same, Rotation.holder_settle_dry, Rotation.holder_select, holds]
      · refine never ⟨id, source, answer⟩ ?_ equal (Pull.entry?_of_no_delivery fruitless)
        rw [pulls]
        exact List.mem_singleton_self _

theorem Informed.refill (informed : view.Informed ref calm none sources) :
    (view.refill sources).view.Attentive ref calm none (view.refill sources).sources := by
  cases released : view.released with
  | true =>
    rw [refill_of_released released]
    refine ⟨informed, fun open' => ?_⟩
    rw [released] at open'
    cases open'
  | false =>
    obtain ⟨pass, course, filled⟩ := refill_of_unreleased released sources
    rw [filled]
    exact informed.absorb released course

theorem Attentive.publish (attentive : view.Attentive ref calm none sources) :
    view.publish.Attentive ref calm none sources :=
  { attentive with sound := attentive.sound.publish }

theorem Informed.consult {β : Type} (informed : view.Informed ref calm none sources)
    (answer : View → β) :
    (view.consult sources answer).view.Attentive ref calm none
      (view.consult sources answer).sources :=
  informed.refill.publish

theorem Informed.next (informed : view.Informed ref calm none sources) :
    (view.next sources).view.Attentive ref calm none (view.next sources).sources := by
  have first := informed.refill
  rcases view.next_cases sources with ⟨_, result⟩ | ⟨entry, queue, popped, second, rfl, result⟩
  · rw [result]
    exact first.publish
  · rw [result]
    have taken : Informed { (view.refill sources).view with queue } ref calm none
        (view.refill sources).sources :=
      { first.toInformed with sound := first.sound.pop popped }
    have refilled := taken.refill.publish
    exact { refilled with sound := refilled.sound.handOut }

theorem Attentive.drain (attentive : view.Attentive ref calm none sources) (limit : Nat) :
    (view.drain sources limit).view.Attentive ref calm none (view.drain sources limit).sources := by
  induction limit generalizing view sources with
  | zero => exact attentive
  | succ limit ih =>
    have first := attentive.toInformed.next
    rw [View.drain]
    cases taken : (view.next sources).value with
    | none => simpa [taken] using first
    | some entry => simpa [taken] using ih first

/-- Hearing an announcement settles the notifier that was owed. -/
theorem Informed.hear {id : SourceId} {source : SourceRef}
    (informed : view.Informed ref calm (some ⟨ref, source⟩) sources)
    (found : view.registry.idOf? source = some id) :
    (view.hear id).Informed ref calm none sources where
  sound := informed.sound.hear id
  tame := informed.tame
  wired := informed.wired
  ready := by
    intro open' entry registered loaded _
    by_cases same : entry.source = source
    · rw [← same, Registry.idOf?_of_mem informed.sound.distinctSources registered] at found
      rw [← Option.some.inj found]
      apply Rotation.isReady_announce_self
      rw [informed.sound.cycle]
      exact List.mem_map_of_mem registered
    · refine Rotation.isReady_announce (informed.ready open' entry registered loaded ?_)
      intro equal
      exact same (congrArg Notifier.source (Option.some.inj equal)).symm

theorem Attentive.notify {source : SourceRef}
    (attentive : view.Attentive ref calm (some ⟨ref, source⟩) sources) :
    (view.notify sources source).view.Attentive ref calm none
      (view.notify sources source).sources := by
  rcases view.notify_cases sources source with
    ⟨deaf, result⟩ | ⟨id, _, found, ⟨_, result⟩ | ⟨waiting, result⟩⟩
  · rw [result]
    have other : view.released = false → ∀ entry ∈ view.registry.entries,
        some (Notifier.mk ref source) ≠ some ⟨ref, entry.source⟩ := by
      intro open' entry registered equal
      rcases deaf with released | unknown
      · rw [open'] at released
        cases released
      · refine Registry.idOf?_eq_none_iff.mp unknown ?_
        have same : source = entry.source := congrArg Notifier.source (Option.some.inj equal)
        rw [same]
        exact List.mem_map_of_mem registered
    refine { attentive with ready := ?_, held := ?_ }
    · intro open' entry registered loaded _
      exact attentive.ready open' entry registered loaded (other open' entry registered)
    · intro open' empty entry registered quiet loaded _
      exact attentive.held open' empty entry registered quiet loaded (other open' entry registered)
  · rw [result]
    exact (attentive.hear found).consult _
  · rw [result]
    exact ⟨attentive.hear found, fun _ empty => absurd empty waiting⟩

theorem Attentive.release (attentive : view.Attentive ref calm none sources) :
    (view.release sources).view.Attentive ref calm none (view.release sources).sources := by
  have served : Served sources (view.release sources).sources :=
    Effect.served fun place => view.release_touches sources place
  unfold View.release at served ⊢
  cases released : view.released with
  | true => simpa using attentive
  | false =>
    simp only [released, if_neg Bool.false_ne_true] at served ⊢
    refine ⟨⟨attentive.sound.release.publish, attentive.tame.serve served,
      attentive.wired.serve served, ?_⟩, ?_⟩
    · intro open'
      cases open'
    · intro open'
      cases open'

/-- The pool may change behind the view, as long as that loads no source whose notifier is not
owed. -/
theorem Attentive.change {later : List Source} (attentive : view.Attentive ref calm none sources)
    (tame : Tame calm later) (wired : Wired ref view.registry.sources later)
    (fewer : ∀ source, Loaded later ⟨ref, source⟩ → owed ≠ some ⟨ref, source⟩ →
      Loaded sources ⟨ref, source⟩) :
    view.Attentive ref calm owed later where
  sound := attentive.sound
  tame := tame
  wired := wired
  ready open' entry registered loaded settled :=
    attentive.ready open' entry registered (fewer _ loaded settled) (Option.some_ne_none _).symm
  held open' empty entry registered quiet loaded settled :=
    attentive.held open' empty entry registered quiet (fewer _ loaded settled)
      (Option.some_ne_none _).symm

theorem Attentive.serve {later : List Source} (attentive : view.Attentive ref calm none sources)
    (served : Served sources later) : view.Attentive ref calm none later :=
  attentive.change (attentive.tame.serve served) (attentive.wired.serve served)
    fun _ loaded _ => loaded.of_served served

/-- No source that a view registers is attached to the new registration yet. -/
theorem Attentive.register {later : View} {id : SourceId} {source : SourceRef}
    (attentive : view.Attentive ref calm none sources)
    (registered : view.register id source = .ok later) :
    later.Attentive ref calm none sources := by
  have sound := attentive.sound.register registered
  obtain ⟨_, _, freshSource, rotation, turned, rfl⟩ := register_cases registered
  have unattached : ¬ Loaded sources ⟨ref, source⟩ := by
    rintro ⟨memory, found, attached, _⟩
    exact freshSource (attentive.wired source memory source found attached)
  have old : ∀ entry ∈ view.registry.entries ++ [⟨id, source⟩],
      Loaded sources ⟨ref, entry.source⟩ → entry ∈ view.registry.entries := by
    intro entry mem loaded
    rcases List.mem_append.mp mem with mem | mem
    · exact mem
    · rw [List.mem_singleton.mp mem] at loaded
      exact absurd loaded unattached
  refine ⟨⟨sound, attentive.tame, ?_, ?_⟩, ?_⟩
  · intro place memory source found attached
    rw [Registry.sources, List.map_append]
    exact List.mem_append_left _ (attentive.wired place memory source found attached)
  · intro open' entry mem loaded settled
    exact Rotation.isReady_register turned
      (attentive.ready open' entry (old entry mem loaded) loaded settled)
  · intro open' empty entry mem quiet loaded settled
    rw [Rotation.holder_register turned]
    exact attentive.held open' empty entry (old entry mem loaded) quiet loaded settled

end View

/-! ### Sources that change -/

namespace Source

variable {calm : SourceRef → Prop} {sources : List Source} {ref : ViewRef} {place : SourceRef}
  {state : Source}

/-- A memory source that is in the pool after one source changed was there before, or it is the one
that changed. -/
theorem memory_of_set {new : Source} {target : SourceRef} {memory : MemorySource}
    (found : (sources.set place new)[target]? = some (.memory memory)) :
    (target = place ∧ new = .memory memory) ∨
      (target ≠ place ∧ sources[target]? = some (.memory memory)) := by
  by_cases same : target = place
  · subst same
    have inside : target < sources.length := by
      have := (List.getElem?_eq_some_iff.mp found).1
      simpa using this
    rw [List.getElem?_set_self inside, Option.some.injEq] at found
    exact .inl ⟨rfl, found⟩
  · rw [List.getElem?_set_ne (Ne.symm same)] at found
    exact .inr ⟨same, found⟩

theorem act_of_memory {action : Action} {memory : MemorySource}
    (became : (Producer.act action state).1 = .memory memory) :
    ∃ before, state = .memory before ∧
      Undergone before action memory (Producer.act action state).2 := by
  cases state with
  | memory before =>
    obtain ⟨later, result, undergone⟩ := act_memory action before
    rw [result] at became
    cases became
    exact ⟨before, rfl, undergone⟩
  | script before => cases action <;> cases became

theorem attach_of_memory {given : Notifier} {memory : MemorySource}
    (became : (Producer.attach given state).1 = .memory memory) :
    ∃ before, state = .memory before ∧ memory = { before with notifier? := some given } ∧
      (before.queue ≠ [] → (Producer.attach given state).2 = some given) := by
  cases state with
  | memory before =>
    cases became
    refine ⟨before, rfl, rfl, fun full => ?_⟩
    change (if before.queue.isEmpty then none else some given) = some given
    rw [if_neg]
    simpa using full
  | script before => cases became

theorem Tame.act {action : Action} (tame : Tame calm sources) (found : sources[place]? = some state)
    (harmless : calm place → action.armsPull = false) :
    Tame calm (sources.set place (Producer.act action state).1) := by
  intro target memory present
  rcases memory_of_set present with ⟨rfl, became⟩ | ⟨_, present⟩
  · obtain ⟨before, rfl, undergone⟩ := act_of_memory became
    obtain ⟨settled, unarmed⟩ := tame target before found
    constructor
    · intro released
      rw [undergone.released] at released
      rw [undergone.queue, if_pos released]
      exact settled released
    · intro quiet
      rw [undergone.unarmed (harmless quiet)]
      exact unarmed quiet
  · exact tame target memory present

theorem Tame.attach {given : Notifier} (tame : Tame calm sources)
    (found : sources[place]? = some state) :
    Tame calm (sources.set place (Producer.attach given state).1) := by
  intro target memory present
  rcases memory_of_set present with ⟨rfl, became⟩ | ⟨_, present⟩
  · obtain ⟨before, rfl, rfl, _⟩ := attach_of_memory became
    exact tame target before found
  · exact tame target memory present

theorem Wired.act {action : Action} {listed : List SourceRef} (wired : Wired ref listed sources)
    (found : sources[place]? = some state) :
    Wired ref listed (sources.set place (Producer.act action state).1) := by
  intro target memory source present attached
  rcases memory_of_set present with ⟨rfl, became⟩ | ⟨_, present⟩
  · obtain ⟨before, rfl, undergone⟩ := act_of_memory became
    rw [undergone.notifier] at attached
    exact wired target before source found attached
  · exact wired target memory source present attached

theorem Wired.attach {given : Notifier} {listed : List SourceRef} (wired : Wired ref listed sources)
    (known : given.view = ref → given.source ∈ listed) :
    Wired ref listed (sources.set place (Producer.attach given state).1) := by
  intro target memory source present attached
  rcases memory_of_set present with ⟨rfl, became⟩ | ⟨_, present⟩
  · obtain ⟨before, rfl, rfl, _⟩ := attach_of_memory became
    cases attached
    exact known rfl
  · exact wired target memory source present attached

/-- An action loads no source without naming its notifier. -/
theorem Loaded.of_act {action : Action} {notifier : Notifier}
    (loaded : Loaded (sources.set place (Producer.act action state).1) notifier)
    (found : sources[place]? = some state)
    (settled : (Producer.act action state).2 ≠ some notifier) :
    Loaded sources notifier := by
  obtain ⟨memory, present, attached, full⟩ := loaded
  rcases memory_of_set present with ⟨same, became⟩ | ⟨_, present⟩
  · obtain ⟨before, rfl, undergone⟩ := act_of_memory became
    rw [undergone.notifier] at attached
    refine ⟨before, same ▸ found, attached, fun empty => settled ?_⟩
    rw [undergone.rung empty full, attached]
  · exact ⟨memory, present, attached, full⟩

/-- A source that gets a notifier while it has something names it. -/
theorem Loaded.of_attach {given notifier : Notifier}
    (loaded : Loaded (sources.set place (Producer.attach given state).1) notifier)
    (settled : (Producer.attach given state).2 ≠ some notifier) : Loaded sources notifier := by
  obtain ⟨memory, present, attached, full⟩ := loaded
  rcases memory_of_set present with ⟨_, became⟩ | ⟨_, present⟩
  · obtain ⟨before, rfl, rfl, rung⟩ := attach_of_memory became
    cases attached
    exact absurd (rung full) settled
  · exact ⟨memory, present, attached, full⟩

end Source

/-! ### In a session -/

/-- The view in the slot is attentive, if there is one. -/
def Slot.Attentive (ref : ViewRef) (calm : SourceRef → Prop) (owed : Option Notifier) (slot : Slot)
    (sources : List Source) : Prop :=
  ∀ view, slot.view? = some view → view.Attentive ref calm owed sources

theorem Slot.attentive_invariant {ref : ViewRef} {calm : SourceRef → Prop}
    {command : Command Notifier Source.Action}
    (harmless : ∀ place action, command = .act place action → calm place →
      action.armsPull = false) :
    Slot.Invariant ref command (Slot.Attentive ref calm) where
  serve attentive served view seen := (attentive view seen).serve served
  consult answer _ attentive := by
    rintro _ ⟨⟩
    exact (attentive _ rfl).toInformed.consult answer
  next _ attentive := by
    rintro _ ⟨⟩
    exact (attentive _ rfl).toInformed.next
  drain limit _ attentive := by
    rintro _ ⟨⟩
    exact (attentive _ rfl).drain limit
  release _ attentive := by
    rintro _ ⟨⟩
    exact (attentive _ rfl).release
  register attentive registered := by
    rintro _ ⟨⟩
    exact (attentive _ rfl).register registered
  act := by
    intro slot sources place action state acts attentive found view seen
    have before := attentive view seen
    exact before.change (before.tame.act found (harmless place action acts))
      (before.wired.act found)
      fun source loaded settled => loaded.of_act found settled
  attach := by
    intro slot sources place given state known attentive found view seen
    have before := attentive view seen
    exact before.change (before.tame.attach found)
      (before.wired.attach fun own => known own view seen)
      fun source loaded settled => loaded.of_attach settled
  ring attentive view seen :=
    have before := attentive view seen
    before.change before.tame before.wired fun _ loaded _ => loaded
  deaf := by
    intro slot sources notifier elsewhere attentive view seen
    have before := attentive view seen
    have other : ∀ source, some notifier ≠ some ⟨ref, source⟩ := by
      rintro source ⟨⟩
      rcases elsewhere with foreign | gone
      · exact foreign rfl
      · rw [gone] at seen
        cases seen
    exact { before with
      ready := fun open' entry registered loaded _ =>
        before.ready open' entry registered loaded (other _)
      held := fun open' empty entry registered quiet loaded _ =>
        before.held open' empty entry registered quiet loaded (other _) }
  notify attentive := by
    rintro _ ⟨⟩
    exact (attentive _ rfl).notify
  receive _ attentive _ view seen := attentive view seen
  disconnect attentive _ view seen := attentive view seen
  drop _ := by
    rintro _ ⟨⟩

/-- No failure was armed at the place in the records. -/
def Record.Calm (past : List (Record Source Source.Action)) (place : SourceRef) : Prop :=
  ∀ action ∈ Record.actions place past, action.armsPull = false

instance (past : List (Record Source Source.Action)) (place : SourceRef) :
    Decidable (Record.Calm past place) :=
  inferInstanceAs (Decidable (∀ action ∈ Record.actions place past, _))

/-- The source is a memory source that announces itself through the notifier of the registration. -/
def Registration.IsAttached (entry : Registration) (ref : ViewRef) (sources : List Source) : Prop :=
  (Source.memoryAt sources entry.source).bind MemorySource.notifier? = some ⟨ref, entry.source⟩

instance (entry : Registration) (ref : ViewRef) (sources : List Source) :
    Decidable (entry.IsAttached ref sources) :=
  inferInstanceAs (Decidable (_ = _))

namespace Registration.IsAttached

variable {entry : Registration} {ref : ViewRef} {sources later : List Source}

theorem memory (attached : entry.IsAttached ref sources) :
    ∃ state, sources[entry.source]? = some (.memory state) ∧
      state.notifier? = some ⟨ref, entry.source⟩ := by
  obtain ⟨state, found, notifies⟩ := Option.bind_eq_some_iff.mp attached
  exact ⟨state, Source.memoryAt_eq_some_iff.mp found, notifies⟩

/-- Serving takes a notifier from no source. -/
theorem serve (attached : entry.IsAttached ref sources) (served : Served sources later) :
    entry.IsAttached ref later := by
  obtain ⟨state, found, notifies⟩ := attached.memory
  obtain ⟨answers, servedAt⟩ := served entry.source
  obtain ⟨source, present, serves⟩ := servedAt.of_earlier found
  obtain ⟨after, rfl, spent⟩ := Source.serves_memory serves
  rw [IsAttached, Source.memoryAt_eq_some_iff.mpr present, Option.bind_some, spent.notifier,
    notifies]

/-- Serving gives no source a notifier. -/
theorem of_served (attached : entry.IsAttached ref later) (served : Served sources later) :
    entry.IsAttached ref sources := by
  obtain ⟨state, found, notifies⟩ := attached.memory
  obtain ⟨before, _, present, spent⟩ := Source.served_memory served found
  rw [IsAttached, Source.memoryAt_eq_some_iff.mpr present, Option.bind_some, ← spent.notifier,
    notifies]

end Registration.IsAttached

/-- Every registered source is a memory source that announces itself through the notifier of its
registration. -/
def View.Attached (view : View) (ref : ViewRef) (sources : List Source) : Prop :=
  ∀ entry ∈ view.registry.entries,
    (Source.memoryAt sources entry.source).bind MemorySource.notifier? = some ⟨ref, entry.source⟩

instance (view : View) (ref : ViewRef) (sources : List Source) :
    Decidable (view.Attached ref sources) :=
  inferInstanceAs (Decidable (∀ entry ∈ view.registry.entries, _))

theorem View.Attached.memory {view : View} {ref : ViewRef} {sources : List Source}
    {entry : Registration} (attached : view.Attached ref sources)
    (registered : entry ∈ view.registry.entries) :
    ∃ state, sources[entry.source]? = some (.memory state) ∧
      state.notifier? = some ⟨ref, entry.source⟩ :=
  Registration.IsAttached.memory (attached entry registered)

theorem View.Attached.serve {view : View} {ref : ViewRef} {sources later : List Source}
    (attached : view.Attached ref sources) (served : Served sources later) :
    view.Attached ref later := fun entry registered =>
  Registration.IsAttached.serve (attached entry registered) served

/-- A source that is attached to its registration is loaded as long as its queue is not empty. -/
theorem View.Attached.loaded {view : View} {ref : ViewRef} {sources : List Source}
    {entry : Registration} (attached : view.Attached ref sources)
    (registered : entry ∈ view.registry.entries) (full : Source.queueAt sources entry.source ≠ []) :
    Loaded sources ⟨ref, entry.source⟩ := by
  obtain ⟨state, found, notifies⟩ := attached.memory registered
  rw [Source.queueAt_eq found] at full
  exact ⟨state, found, notifies, full⟩

theorem View.Attentive.mono {view : View} {ref : ViewRef} {calm calm' : SourceRef → Prop}
    {owed : Option Notifier} {sources : List Source}
    (attentive : view.Attentive ref calm owed sources) (fewer : ∀ place, calm' place → calm place) :
    view.Attentive ref calm' owed sources :=
  { attentive with
    tame := attentive.tame.mono fewer
    held := fun open' empty entry registered quiet =>
      attentive.held open' empty entry registered (fewer _ quiet) }

namespace Session

/-- The memory sources of a pool have undergone nothing yet. -/
def Fresh (sources : List Source) : Prop :=
  ∀ memory, Source.memory memory ∈ sources → ∃ id buffers, memory = .ofBuffers id buffers

theorem fresh_map (made : List (SourceId × List Buffer)) :
    Fresh (made.map fun (id, buffers) => .memory (.ofBuffers id buffers)) := by
  intro memory mem
  obtain ⟨⟨id, buffers⟩, _, same⟩ := List.mem_map.mp mem
  cases same
  exact ⟨id, buffers, rfl⟩

theorem attentive_start {sources : List Source} (fresh : Fresh sources)
    {views : List (Config × Listener)} {reactions : List (List (List (Command Nat Source.Action)))}
    {ref : ViewRef} {view : View}
    (found : (start sources views reactions).network.view? ref = some view)
    (calm : SourceRef → Prop) : view.Attentive ref calm none sources := by
  obtain ⟨config, built⟩ := ofConfig_of_view?_start found
  have sound := View.sound_of_config built
  obtain ⟨rfl, _⟩ := View.eq_empty_of_config built
  refine ⟨⟨sound, ?_, ?_, ?_⟩, ?_⟩
  · intro place memory present
    obtain ⟨id, buffers, rfl⟩ := fresh memory (List.mem_of_getElem? present)
    exact ⟨MemorySource.settled_ofBuffers id buffers, fun _ =>
      MemorySource.pullFault?_ofBuffers id buffers⟩
  · intro place memory source present attached
    obtain ⟨id, buffers, rfl⟩ := fresh memory (List.mem_of_getElem? present)
    rw [MemorySource.notifier?_ofBuffers] at attached
    cases attached
  · intro _ entry registered
    cases registered
  · intro _ _ entry registered
    cases registered

/-- At every point of a session that starts with fresh memory sources, every notifier stands for a
registration and every view is attentive to its sources. -/
theorem attentive_play {sources : List Source} (fresh : Fresh sources)
    (views : List (Config × Listener)) (reactions : List (List (List (Command Nat Source.Action))))
    (commands : List (Command Nat Source.Action)) (n : Nat) :
    let session := start sources views reactions
    let past := (session.play commands).take n
    (session.reachedBy past).Stands (session.handedOut past) ∧
      ∀ ref, (session.reachedBy past).Keeps (Slot.Attentive ref (Record.Calm past)) ref none := by
  refine play_invariant (fun past network notifiers => network.Stands notifiers ∧
    ∀ ref, network.Keeps (Slot.Attentive ref (Record.Calm past)) ref none) ?_
    (start sources views reactions) ⟨?_, ?_⟩ commands n
  · rintro past session task ⟨stands, attentive⟩
    refine ⟨stands_perform stands task.command, fun ref => ?_⟩
    have extended : ∀ place, Record.actions place (past ++ [session.recordOf task]) =
        Record.actions place past ++ task.command.actions place := by
      simp [Record.actions, recordOf]
    have still : session.network.Keeps
        (Slot.Attentive ref (Record.Calm (past ++ [session.recordOf task]))) ref none := by
      intro slot present view seen
      apply (attentive ref slot present view seen).mono
      intro place calm action mem
      apply calm action
      rw [extended]
      exact List.mem_append_left _ mem
    refine keeps_perform (fun resolved found => Slot.attentive_invariant ?_) stands still
    rintro place action rfl calm
    apply calm action
    rw [extended, ← Command.actions_of_resolve? found]
    exact List.mem_append_right _ (by simp [Command.actions])
  · intro notifier mem
    cases mem
  · intro ref slot present view seen
    have found : (start sources views reactions).network.view? ref = some view := by
      rw [Network.view?, present]
      exact seen
    exact attentive_start fresh found _

end Session

end FairMerge
