import FairMerge.Proofs.Lasting
import FairMerge.Proofs.Ledger
import FairMerge.Proofs.Moments
import FairMerge.Proofs.Refills
import FairMerge.Source

/-! # Enrolment

A view knows its sources in several places: the registry in both directions, the cycle of the
rotation with its flags, the cursor, the choice that is pending, the holder of an open record, the
entries that wait, and the faults. Only a registration adds to what is known, and it adds to the
registry and to the cycle at once, so the places agree at all times. -/

namespace FairMerge

namespace Pass.Course

variable {σ α : Type} [Producer σ α] {registry : Registry} {room : Nat} {rotation : Rotation}
  {sources : List σ} {pass : Pass σ}

/-- A pass settles every choice that it makes. -/
theorem pending_eq_none (course : Course registry room rotation sources pass)
    (cycle : rotation.ids = registry.ids)
    (held : ∀ id, rotation.holder = some id → id ∈ registry.ids)
    (settled : rotation.pending = none) : pass.rotation.pending = none := by
  have straight := course.halt_ne_unregistered cycle held
  clear cycle held
  induction course with
  | full => exact settled
  | idle unchosen => exact unchosen
  | astray => exact absurd rfl (straight _)
  | taken _ _ _ _ ih => exact ih (by simp) straight
  | skipped _ _ _ _ _ _ ih => exact ih (by simp) straight
  | blocked => simp

/-- Only a registered source passes the turn on. -/
theorem cursor_mem (course : Course registry room rotation sources pass)
    (known : ∀ id, rotation.cursor = some id → id ∈ registry.ids) :
    ∀ id, pass.rotation.cursor = some id → id ∈ registry.ids := by
  induction course with
  | full | idle | astray => exact known
  | @taken _ rotation _ _ chosenId _ delivery _ chosen found _ _ ih =>
    apply ih
    intro id passed
    rw [Rotation.cursor_settle_yielded chosen] at passed
    split at passed
    · exact known id passed
    · cases passed
      exact Registry.mem_ids_of_source? found
  | skipped _ _ _ _ _ _ ih => exact ih (by simpa using known)
  | blocked => simpa using known

/-- Only a registered source fails in a pass. -/
theorem fault_mem (course : Course registry room rotation sources pass) {fault : Fault}
    (failed : fault ∈ pass.faults) : fault.id ∈ registry.ids := by
  obtain ⟨pull, pulled, named⟩ := List.mem_filterMap.mp failed
  obtain ⟨cause, _, rfl⟩ := Option.map_eq_some_iff.mp named
  exact Registry.mem_ids_of_source? (course.registered pull pulled)

end Pass.Course

namespace View

/-! ### The places agree -/

/-- What a view knows of its sources in one place agrees with what it knows in the others: the
registry is the same read either way, it lists its identifiers without repetition and so does the
cycle, and no other identifier is ready, has the turn, is pending, holds a record, waits with a
buffer, or has failed. -/
structure Enrolled (view : View) : Prop where
  inverse : ∀ id source,
    view.registry.source? id = some source ↔ view.registry.idOf? source = some id
  distinct : view.sourceIds.Nodup
  listed : ∀ id, id ∈ view.sourceIds ↔ ∃ source, view.registry.source? id = some source
  cycle : view.rotation.ids = view.sourceIds
  ready : ∀ id, view.rotation.isReady id = true → id ∈ view.sourceIds
  cursor : ∀ id, view.rotation.cursor = some id → id ∈ view.sourceIds
  pending : ∀ id, view.rotation.pending = some id → id ∈ view.sourceIds
  holder : ∀ id, view.rotation.holder = some id → id ∈ view.sourceIds
  waiting : ∀ entry ∈ view.queue.entries, entry.source ∈ view.sourceIds
  failed : ∀ fault ∈ view.faults, fault.id ∈ view.sourceIds

/-- Between operations no choice is pending, and whoever had the turn or failed is registered. -/
structure Tidy (view : View) : Prop where
  sound : view.Sound
  pending : view.rotation.pending = none
  cursor : ∀ id, view.rotation.cursor = some id → id ∈ view.registry.ids
  failed : ∀ fault ∈ view.faults, fault.id ∈ view.registry.ids

variable {σ α : Type} [Producer σ α]

theorem tidy_invariant : Invariant σ fun view _ _ => view.Tidy where
  register := by
    intro view later log id source tidy registered
    have sound := tidy.sound.register registered
    obtain ⟨_, _, _, rotation, turned, rfl⟩ := register_cases registered
    have longer {other : SourceId} (mem : other ∈ view.registry.ids) :
        other ∈ Registry.ids ⟨view.registry.entries ++ [⟨id, source⟩]⟩ := by
      rw [Registry.ids, List.map_append]
      exact List.mem_append_left _ mem
    -- the new source comes last, and has neither had the turn nor failed
    unfold Rotation.register at turned
    split at turned
    · cases turned
    · cases turned
      exact ⟨sound, tidy.pending, fun other passed => longer (tidy.cursor other passed),
        fun fault mem => longer (tidy.failed fault mem)⟩
  announce tidy _ _ := ⟨tidy.sound.hear _, tidy.pending, tidy.cursor, tidy.failed⟩
  absorb := by
    intro view hand log sources pass tidy open' course
    refine ⟨tidy.sound.absorb open' course, ?_, ?_, ?_⟩
    · exact (foldl_announce Rotation.pending (fun _ _ => rfl) pass.faults pass.rotation).trans
        (course.pending_eq_none tidy.sound.cycle tidy.sound.holder tidy.pending)
    · intro id passed
      rw [absorb, foldl_announce Rotation.cursor (fun _ _ => rfl)] at passed
      exact course.cursor_mem tidy.cursor id passed
    · intro fault mem
      rcases List.mem_append.mp mem with new | old
      · exact course.fault_mem (List.mem_reverse.mp new)
      · exact tidy.failed fault old
  publish tidy := ⟨tidy.sound.publish, tidy.pending, tidy.cursor, tidy.failed⟩
  pop tidy popped := ⟨tidy.sound.pop popped, tidy.pending, tidy.cursor, tidy.failed⟩
  handOut tidy := ⟨tidy.sound.handOut, tidy.pending, tidy.cursor, tidy.failed⟩
  release _ tidy _ := ⟨tidy.sound.release.publish, tidy.pending, tidy.cursor, tidy.failed⟩

theorem tidy_of_config {config : Config} {view : View} (built : View.ofConfig config = .ok view) :
    view.Tidy := by
  refine ⟨sound_of_config built, ?_, ?_, ?_⟩
  all_goals rw [(eq_empty_of_config built).1]
  · rfl
  · simp [empty, Rotation.empty]
  · simp [empty]

theorem Tidy.enrolled {view : View} (tidy : view.Tidy) (filed : view.Filed none []) :
    view.Enrolled where
  inverse id source := by
    constructor
    · intro found
      exact Registry.idOf?_of_mem tidy.sound.distinctSources (Registry.mem_of_source? found)
    · intro found
      exact Registry.source?_of_mem tidy.sound.distinctIds (Registry.mem_of_idOf? found)
  distinct := tidy.sound.distinctIds
  listed id := by
    rw [← Option.ne_none_iff_exists', ne_eq, Registry.source?_eq_none_iff, not_not]
    rfl
  cycle := tidy.sound.cycle
  ready id ready := by
    have mem := Rotation.mem_ids_of_isReady ready
    rwa [tidy.sound.cycle] at mem
  cursor := tidy.cursor
  pending id waits := by
    rw [tidy.pending] at waits
    cases waits
  holder := tidy.sound.holder
  waiting entry mem := filed entry mem
  failed := tidy.failed

/-! ### Registration -/

/-- The view with a source registered besides, which comes last in the cycle and is not ready. -/
def enrol (view : View) (id : SourceId) (source : SourceRef) : View :=
  { view with
    registry := ⟨view.registry.entries ++ [⟨id, source⟩]⟩
    rotation := { view.rotation with members := view.rotation.members ++ [⟨id, false⟩] } }

/-- How a registration with a sound view goes: the checks are made in this order, and the cycle
never objects to what the registry admits. -/
theorem Sound.register_eq {view : View} (sound : view.Sound) (id : SourceId) (source : SourceRef) :
    view.register id source =
      if view.released then .error .released
      else if id ∈ view.sourceIds then .error (.duplicateId id)
      else match view.registry.idOf? source with
        | some existing => .error (.duplicateSource existing)
        | none => .ok (view.enrol id source) := by
  unfold View.register
  split
  · rfl
  · by_cases taken : id ∈ view.sourceIds
    · have found : ∃ other, view.registry.source? id = some other := by
        rw [← Option.ne_none_iff_exists']
        exact mt Registry.source?_eq_none_iff.mp (not_not.mpr taken)
      obtain ⟨other, found⟩ := found
      simp only [Registry.insert, found, if_pos taken]
    · have free : id ∉ view.rotation.ids := by
        rw [sound.cycle]
        exact taken
      simp only [Registry.insert, Registry.source?_eq_none_iff.mpr taken, if_neg taken]
      cases view.registry.idOf? source with
      | some existing => rfl
      | none =>
        simp only [Rotation.register, if_neg free]
        rfl

end View

namespace Network

variable {σ α : Type} [Producer σ α] {network : Network σ} {ref : ViewRef}

/-- How a registration of a source in the pool goes. -/
theorem exec_register {view : View} {source : SourceRef} {state : σ}
    (found : network.view? ref = some view) (sound : view.Sound)
    (present : network.sources[source]? = some state) (id : SourceId) :
    network.exec (.register ref source id : Command Notifier α) =
      if view.released then network.still (.refused .released)
      else if id ∈ view.sourceIds then network.still (.refused (.duplicateId id))
      else match view.registry.idOf? source with
        | some existing => network.still (.refused (.duplicateSource existing))
        | none => (network.setView ref (view.enrol id source)).still (.registered ⟨ref, source⟩) := by
  simp only [exec, register, found, present, sound.register_eq]
  by_cases released : view.released = true
  · simp only [if_pos released]
  · by_cases taken : id ∈ view.sourceIds
    · simp only [if_neg released, if_pos taken]
    · simp only [if_neg released, if_neg taken]
      cases view.registry.idOf? source <;> rfl

end Network

/-! ### The order of registration -/

/-- The registration with a view that a command asks for, under the identifier given or under the
one that the source has of its own. -/
def Command.asked? {ν σ α : Type} [Producer σ α] (sources : List σ) (ref : ViewRef) :
    Command ν α → Option Registration
  | register view source id => if view = ref then some ⟨id, source⟩ else none
  | add view source =>
    if view = ref then
      (sources[source]?.bind Producer.ownId?).map fun id => ⟨id, source⟩
    else none
  | _ => none

/-- The registration with a view that a command brings about, according to its answer. -/
def Command.enrolled {ν σ α : Type} [Producer σ α] (sources : List σ) (ref : ViewRef)
    (command : Command ν α) (reply : Reply σ) : List Registration :=
  match reply with
  | .registered _ => (command.asked? sources ref).toList
  | _ => []

/-- The registrations with a view that the records tell of, in order. The first command found the
pool given. -/
def Record.enrolments {σ α : Type} [Producer σ α] (ref : ViewRef) :
    List σ → List (Record σ α) → List Registration
  | _, [] => []
  | sources, record :: later =>
    record.task.command.enrolled sources ref record.step.reply ++
      enrolments ref record.step.network.sources later

section

variable {ν μ σ α : Type} [Producer σ α] {sources : List σ} {ref : ViewRef} {command : Command ν α}

theorem Command.asked?_of_spares (spares : command.spares ref = true) :
    command.asked? sources ref = none := by
  cases command with
  | register | add => cases spares
  | _ => rfl

theorem Command.enrolled_of_unasked (unasked : command.asked? sources ref = none)
    (reply : Reply σ) : command.enrolled sources ref reply = [] := by
  unfold enrolled
  split
  · rw [unasked]
    rfl
  · rfl

theorem Command.enrolled_of_refused {reply : Reply σ}
    (refused : ∀ notifier, reply ≠ .registered notifier) :
    command.enrolled sources ref reply = [] := by
  unfold enrolled
  split
  · exact absurd rfl (refused _)
  · rfl

theorem Command.asked?_of_resolve? {find? : ν → Option μ} {resolved : Command μ α}
    (found : command.resolve? find? = some resolved) :
    resolved.asked? sources ref = command.asked? sources ref := by
  cases command with
  | attach | ring | isAlive =>
    simp only [resolve?, Option.map_eq_some_iff] at found
    obtain ⟨_, _, rfl⟩ := found
    rfl
  | _ =>
    simp only [resolve?, Option.some.injEq] at found
    subst found
    rfl

theorem Command.enrolled_of_resolve? {find? : ν → Option μ} {resolved : Command μ α}
    (found : command.resolve? find? = some resolved) (reply : Reply σ) :
    resolved.enrolled sources ref reply = command.enrolled sources ref reply := by
  unfold enrolled
  rw [asked?_of_resolve? found]

theorem Record.enrolments_append_singleton (past : List (Record σ α)) (record : Record σ α) :
    enrolments ref sources (past ++ [record]) = enrolments ref sources past ++
      record.task.command.enrolled
        (past.getLast?.elim sources fun last => last.step.network.sources) ref
        record.step.reply := by
  induction past generalizing sources with
  | nil => simp [enrolments]
  | cons first past ih =>
    rw [List.cons_append, enrolments, ih, enrolments, List.append_assoc, List.getLast?_cons]
    cases past.getLast? <;> rfl

end

namespace Network

variable {σ α : Type} [Producer σ α] {network later : Network σ} {ref : ViewRef} {view : View}

theorem Lasts.entries_eq {command : Command Notifier α} {reply : Reply σ}
    (lasts : network.Lasts later ref) (unasked : command.asked? network.sources ref = none)
    (reached : later.view? ref = some view) :
    ∃ old, network.view? ref = some old ∧ view.registry.entries = old.registry.entries ++
      command.enrolled network.sources ref reply := by
  obtain ⟨old, there, registry, _⟩ := lasts view reached
  exact ⟨old, there, by rw [registry, Command.enrolled_of_unasked unasked, List.append_nil]⟩

omit [Producer σ α] in
/-- A registration that succeeds comes last in the registry. -/
theorem entries_of_register {target : ViewRef} {source : SourceRef} {id : SourceId}
    {registered : Network σ} (accepted : network.register target source id = .ok registered)
    (reached : registered.view? ref = some view) :
    ∃ old, network.view? ref = some old ∧ view.registry.entries = old.registry.entries ++
      (if target = ref then some ⟨id, source⟩ else none : Option Registration).toList := by
  obtain ⟨old, later, found, renewed, rfl⟩ := register_cases accepted
  by_cases own : target = ref
  · subst own
    rw [eq_of_view?_setView reached]
    obtain ⟨_, _, _, rotation, _, rfl⟩ := View.register_cases renewed
    exact ⟨old, found, by rw [if_pos rfl]; rfl⟩
  · rw [view?_setView_of_ne (Ne.symm own)] at reached
    exact ⟨view, reached, by rw [if_neg own]; simp⟩

theorem reply_change_of_present {source : SourceRef} {state : σ}
    (found : network.sources[source]? = some state) {step : σ → σ × Option Notifier}
    {reply : Reply σ} : (network.change source step reply).reply = reply := by
  simp only [change, found, ringing]
  cases (step state).2 <;> rfl

/-- A release registers nothing. -/
theorem entries_release {target : ViewRef}
    (reached : (network.exec
      (.request target .release : Command Notifier α)).network.view? target = some view) :
    ∃ old, network.view? target = some old ∧ view.registry.entries = old.registry.entries := by
  simp only [exec] at reached
  cases there : network.view? target with
  | none =>
    rw [there] at reached
    have gone : network.view? target = some view := reached
    rw [there] at gone
    cases gone
  | some old =>
    simp only [there, answer, commit] at reached
    exact ⟨old, rfl, by rw [eq_of_view?_setView reached, old.registry_release]⟩

/-- What is refused leaves the registries as they are. -/
theorem entries_of_refused {command : Command Notifier α} {reply : Reply σ}
    (refused : ∀ notifier, reply ≠ .registered notifier) (reached : network.view? ref = some view) :
    ∃ old, network.view? ref = some old ∧ view.registry.entries = old.registry.entries ++
      command.enrolled network.sources ref reply :=
  ⟨view, reached, by rw [Command.enrolled_of_refused refused, List.append_nil]⟩

theorem entries_add {target : ViewRef} {source : SourceRef}
    (reached : (network.exec
      (.add target source : Command Notifier α)).network.view? ref = some view) :
    ∃ old, network.view? ref = some old ∧ view.registry.entries = old.registry.entries ++
      (.add target source : Command Notifier α).enrolled network.sources ref
        (network.exec (.add target source : Command Notifier α)).reply := by
  rcases network.exec_add_cases target source with
    ⟨reply, refused, still⟩ | ⟨state, id, registered, found, own, accepted, performed⟩
  · rw [still] at reached ⊢
    exact entries_of_refused refused reached
  · rw [performed] at reached ⊢
    have known : network.sources[source]?.bind Producer.ownId? = some id := by
      rw [found, Option.bind_some, own]
    rw [← sources_of_register network accepted] at found
    obtain ⟨between, there, registry, _⟩ := lasts_change registered source _ _ ref view reached
    obtain ⟨old, there', entries⟩ := entries_of_register accepted there
    refine ⟨old, there', ?_⟩
    rw [registry, entries, reply_change_of_present found, Command.enrolled, Command.asked?, known]
    rfl

/-- What a command brings about comes last in the registry, and nothing else changes there. -/
theorem entries_exec {command : Command Notifier α}
    (reached : (network.exec command).network.view? ref = some view) :
    ∃ old, network.view? ref = some old ∧ view.registry.entries = old.registry.entries ++
      command.enrolled network.sources ref (network.exec command).reply := by
  cases spares : command.spares ref with
  | true => exact (lasts_exec spares).entries_eq (Command.asked?_of_spares spares) reached
  | false =>
    cases command with
    | request target request =>
      obtain ⟨rfl, rfl⟩ : target = ref ∧ request = .release := by
        simpa [Command.spares] using spares
      obtain ⟨old, there, same⟩ := entries_release reached
      have unasked : (Command.request target .release : Command Notifier α).asked? network.sources
          target = none := rfl
      exact ⟨old, there, by rw [same, Command.enrolled_of_unasked unasked, List.append_nil]⟩
    | register target source id =>
      rcases network.exec_register_cases target source id with
        ⟨reply, refused, still⟩ | ⟨registered, accepted, performed⟩
      · rw [still] at reached ⊢
        exact entries_of_refused refused reached
      · rw [performed] at reached ⊢
        exact entries_of_register accepted reached
    | add target source => exact entries_add reached
    | _ => cases spares

end Network

namespace Session

variable {σ α : Type} [Producer σ α] (sources : List σ) (views : List (Config × Listener))
  (reactions : List (List (List (Command Nat α)))) (commands : List (Command Nat α)) (n : Nat)
  {ref : ViewRef} {view : View}

/-- At every point of a session the registry of a view lists what was registered with it, in that
order. -/
theorem entries_play :
    let session := start sources views reactions
    let past := (session.play commands).take n
    (session.reachedBy past).view? ref = some view →
      view.registry.entries = Record.enrolments ref sources past := by
  intro session past found
  refine (play_invariant (fun past network _ => network = session.reachedBy past ∧
    ∀ view, network.view? ref = some view →
      view.registry.entries = Record.enrolments ref sources past) ?_ session ⟨rfl, ?_⟩
    commands n).2 view found
  · rintro past current task ⟨network, before⟩
    refine ⟨by simp [recordOf], fun view reached => ?_⟩
    have pool : (past.getLast?.elim sources fun last => last.step.network.sources) =
        current.network.sources := by
      rw [network, reachedBy]
      cases past.getLast? <;> rfl
    rw [Record.enrolments_append_singleton, pool]
    simp only [recordOf]
    rcases current.perform_cases task.command with ⟨_, still⟩ | ⟨resolved, found, performed⟩
    · rw [still] at reached ⊢
      rw [before view reached]
      simp [Network.still, Command.enrolled]
    · rw [performed] at reached ⊢
      obtain ⟨old, there, entries⟩ := Network.entries_exec reached
      rw [entries, before old there, Command.enrolled_of_resolve? found]
  · intro view there
    obtain ⟨config, built⟩ := ofConfig_of_view?_start there
    rw [(View.eq_empty_of_config built).1]
    rfl

theorem tidy_play :
    let session := start sources views reactions
    (session.reachedBy ((session.play commands).take n)).view? ref = some view → view.Tidy :=
  fun found => holds_of_view View.tidy_invariant (fun _ _ => View.tidy_of_config) sources views
    reactions commands n found

theorem enrolled_play :
    let session := start sources views reactions
    (session.reachedBy ((session.play commands).take n)).view? ref = some view →
      view.Enrolled := by
  intro session found
  have filed := holds_of_view View.filed_invariant (fun _ _ => View.filed_of_config) sources views
    reactions commands n found
  exact (tidy_play sources views reactions commands n found).enrolled
    fun entry mem => filed entry (List.mem_append_right _ mem)

end Session

/-- At every point of a session, whatever the sources answer: a registration is refused if the view
is released, else if the identifier is taken, else if the source is registered already, and then
the error names its identifier; a refusal changes nothing at all, and otherwise the registration
adds to the end of the registry and of the cycle. The view knows its sources in all places alike,
and its registry lists what was registered with it, in that order. Every refill that a command
makes pulls registered sources only: no pass is led astray. -/
theorem registration_exact {σ α : Type} [Producer σ α] (sources : List σ)
    (views : List (Config × Listener)) (reactions : List (List (List (Command Nat α))))
    (commands : List (Command Nat α)) (n : Nat) :
    let session := Session.start sources views reactions
    let past := (session.play commands).take n
    let reached := session.reachedBy past
    (∀ ref view, reached.view? ref = some view →
      (∀ id source state, reached.sources[source]? = some state →
        reached.exec (.register ref source id : Command Notifier α) =
          if view.released then reached.still (.refused .released)
          else if id ∈ view.sourceIds then reached.still (.refused (.duplicateId id))
          else match view.registry.idOf? source with
            | some existing => reached.still (.refused (.duplicateSource existing))
            | none =>
              (reached.setView ref (view.enrol id source)).still (.registered ⟨ref, source⟩)) ∧
      view.Enrolled ∧ view.registry.entries = Record.enrolments ref sources past) ∧
    ∀ command : Command Notifier α,
      (∀ state pool, reached.Refills command state pool →
        ∀ id, (state.pass pool).halt ≠ .unregistered id) ∧
      ∀ ref pull, .view ref (.pulled pull) ∈ (reached.exec command).events →
        ∃ state pool, reached.Refills command state pool ∧ pull ∈ (state.pass pool).pulls := by
  intro session past reached
  have tidy {ref : ViewRef} {view : View} (found : reached.view? ref = some view) : view.Tidy :=
    Session.tidy_play sources views reactions commands n found
  refine ⟨fun ref view found => ⟨fun id source state present => ?_, ?_, ?_⟩,
    fun command => ⟨fun state pool refills => ?_, fun ref pull pulled => ?_⟩⟩
  · exact Network.exec_register found (tidy found).sound present id
  · exact Session.enrolled_play sources views reactions commands n found
  · exact Session.entries_play sources views reactions commands n found
  · exact (refills.sound fun _ _ found => (tidy found).sound).halt_ne_unregistered pool
  · exact Network.refills_of_exec pulled

namespace Crowded

/-- The first source has more than the view admits, the other two have nothing. -/
def sources : List Source := [.memory (.ofBuffers ⟨7⟩ [.data [1], .data [2], .data [3]]),
  .memory (.empty ⟨3⟩), .memory (.empty ⟨7⟩)]

def session : Session Source Source.Action := .start sources [(⟨1⟩, .ofCallback)] []

/-- The second source is registered before the first, and not under the identifier of its own. -/
def commands : List (Command Nat Source.Action) := [.register 0 1 ⟨5⟩, .add 0 0]

def reached : Network Source := session.reachedBy ((session.play commands).take 2)

def pull : Pull := ⟨⟨7⟩, 0, .delivery ⟨.data [2], 1, .data, 1⟩⟩

end Crowded

open Crowded in
/-- A source that is registered is refused for the identifier first, if that is taken too. Taking
the waiting buffer pulls the next one. -/
theorem registration_exact_crowded :
    ∃ view, reached.view? 0 = some view ∧
      reached.exec (.register 0 0 ⟨5⟩ : Command Notifier Source.Action) =
        reached.still (.refused (.duplicateId ⟨5⟩)) ∧
      reached.exec (.register 0 0 ⟨9⟩ : Command Notifier Source.Action) =
        reached.still (.refused (.duplicateSource ⟨7⟩)) ∧
      reached.exec (.register 0 2 ⟨9⟩ : Command Notifier Source.Action) =
        (reached.setView 0 (view.enrol ⟨9⟩ 2)).still (.registered ⟨0, 2⟩) ∧
      view.Enrolled ∧ view.registry.entries = [⟨⟨5⟩, 1⟩, ⟨⟨7⟩, 0⟩] ∧
      (∀ id, (view.pass reached.sources).halt ≠ .unregistered id) ∧
      ∃ state pool,
        reached.Refills (.request 0 .next : Command Notifier Source.Action) state pool ∧
        pull ∈ (state.pass pool).pulls := by
  have there : (reached.view? 0).any (fun view =>
      decide (view.released = false ∧ view.sourceIds = [⟨5⟩, ⟨7⟩] ∧
        view.registry.idOf? 0 = some ⟨7⟩ ∧ view.registry.idOf? 2 = none)) = true := by
    decide +kernel
  have present : (reached.sources[0]?).isSome ∧ (reached.sources[2]?).isSome := by decide +kernel
  have pulled : .view 0 (.pulled pull) ∈
      (reached.exec (.request 0 .next : Command Notifier Source.Action)).events := by
    decide +kernel
  have listed : Record.enrolments 0 sources ((session.play commands).take 2) =
      [⟨⟨5⟩, 1⟩, ⟨⟨7⟩, 0⟩] := by
    decide +kernel
  obtain ⟨view, found, known⟩ := (Option.any_eq_true _ _).mp there
  obtain ⟨open', ids, seven, new⟩ := of_decide_eq_true known
  obtain ⟨first, stands⟩ := Option.isSome_iff_exists.mp present.1
  obtain ⟨third, stands'⟩ := Option.isSome_iff_exists.mp present.2
  obtain ⟨exact, passes⟩ := registration_exact sources [(⟨1⟩, .ofCallback)] [] commands 2
  obtain ⟨registers, enrolled, entries⟩ := exact 0 view found
  refine ⟨view, found, ?_, ?_, ?_, enrolled, entries.trans listed, ?_, ?_⟩
  · refine (registers ⟨5⟩ 0 first stands).trans ?_
    rw [open', ids]
    rfl
  · refine (registers ⟨9⟩ 0 first stands).trans ?_
    rw [open', ids, seven]
    rfl
  · refine (registers ⟨9⟩ 2 third stands').trans ?_
    rw [open', ids, new]
    rfl
  · exact (passes (.request 0 .next)).1 view reached.sources (.request found .next)
  · exact (passes (.request 0 .next)).2 0 pull pulled

end FairMerge
