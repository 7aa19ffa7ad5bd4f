import FairMerge.Proofs.Moments
import FairMerge.Proofs.PublicCount
import FairMerge.Proofs.Twins

/-! # Spurious notifications

Anybody may tell a view at any time that a source has data, whether it has or not. If the sources of
the view announce themselves, then notifications that are put into a session besides are not heard:
the view counts a source as ready that is not, or it refills where nothing is to be had, and that is
all. The session goes on as it would have without them, inside its callbacks too. -/

namespace FairMerge

/-! ### Sessions with notifications put in -/

/-- Whether the command is a notification. -/
def Command.notifies {ν α : Type} : Command ν α → Bool
  | ring _ | announce .. => true
  | _ => false

/-- The notifier that a notification stands for, if notifiers are handed out as listed. -/
def Command.notice? {α : Type} (issued : List Notifier) : Command Nat α → Option Notifier
  | ring place => issued[place]?
  | announce view source => some ⟨view, source⟩
  | _ => none

/-- At this point of the session the command is a notification of the view at the place, or of
nobody. -/
def Session.Notifies {σ α : Type} (ref : ViewRef) (session : Session σ α)
    (command : Command Nat α) : Prop :=
  command.notifies = true ∧ ∀ notifier ∈ command.notice? session.notifiers, notifier.view = ref

/-- If the view at the place has registered the source, then the source is attached. So this fails
just between the registration of the source and its attachment. -/
def Network.Settled (network : Network Source) (ref : ViewRef) (source : SourceRef) : Prop :=
  ∀ view ∈ network.view? ref, ∀ entry ∈ view.registry.entries, entry.source = source →
    entry.IsAttached ref network.sources

/-- At this point of the session the command is a notification of the view that does not come
between the registration of the source that it names and the attachment. -/
def Session.Admits (ref : ViewRef) (session : Session Source Source.Action)
    (command : Command Nat Source.Action) : Prop :=
  session.Notifies ref command ∧
    ∀ notifier ∈ command.notice? session.notifiers, session.network.Settled ref notifier.source

/-- From this point of the session on, the second list of tasks is the first one with commands put
in, each at a point of the session that allows it. Commands may be put in between the tasks and also
into what callbacks play; the other session tells what they are to play then. -/
inductive Session.Interspersed {σ α : Type} [Producer σ α]
    (allowed : Session σ α → Command Nat α → Prop) :
    Session σ α → Session σ α → List (Task α) → List (Task α) → Prop where
  | done (session other : Session σ α) : Interspersed allowed session other [] []
  | extra {session other : Session σ α} {task : Task α} {tasks noisy : List (Task α)} :
    allowed session task.command → Interspersed allowed session other tasks noisy →
    Interspersed allowed session other tasks (task :: noisy)
  | same {session other : Session σ α} {task : Task α} {tasks noisy : List (Task α)} :
    (session.perform task.command).call? = none →
    Interspersed allowed (session.reach (session.perform task.command)) other tasks noisy →
    Interspersed allowed session other (task :: tasks) (task :: noisy)
  | called {session other : Session σ α} {task : Task α} {tasks noisy : List (Task α)}
      {call : Call} : (session.perform task.command).call? = some call →
    Interspersed allowed ((session.reach (session.perform task.command)).spend call.view)
      (other.spend call.view)
      ((session.reaction call.view).map (Task.mk (task.depth + 1)) ++ tasks)
      ((other.reaction call.view).map (Task.mk (task.depth + 1)) ++ noisy) →
    Interspersed allowed session other (task :: tasks) (task :: noisy)

/-- The record leaves all sources of the view attached, unless it is of a registration that still
has to be followed by the attachment. -/
def Record.Prompt (ref : ViewRef) (record : Record Source Source.Action) : Prop :=
  record.task.command.registers = false → record.step.network.Attached ref

instance (ref : ViewRef) (session : Session Source Source.Action)
    (command : Command Nat Source.Action) : Decidable (session.Notifies ref command) :=
  inferInstanceAs (Decidable (_ ∧ ∀ notifier ∈ _, _))

instance (network : Network Source) (ref : ViewRef) (source : SourceRef) :
    Decidable (network.Settled ref source) :=
  inferInstanceAs (Decidable (∀ view ∈ _, ∀ entry ∈ _, _ → _))

instance (ref : ViewRef) (session : Session Source Source.Action)
    (command : Command Nat Source.Action) : Decidable (session.Admits ref command) :=
  inferInstanceAs (Decidable (_ ∧ ∀ notifier ∈ _, _))

instance (ref : ViewRef) (record : Record Source Source.Action) : Decidable (record.Prompt ref) :=
  inferInstanceAs (Decidable (_ → _))

/-! ### Sessions that show the same -/

/-- The networks have the same sources and differ in flags of the view at most, and the answer to no
request shows that, whatever has to be refilled for it. -/
structure Network.Indistinct (ref : ViewRef) (network other : Network Source) : Prop
    extends Network.Twins ref network other where
  answers : ∀ target request,
    (network.exec (.request target request)).Alike ref (other.exec (.request target request))

/-- The records are of the same command, which does the same in both. -/
structure Record.Echoes (ref : ViewRef) (record other : Record Source Source.Action) : Prop where
  task : record.task = other.task
  step : record.step.Alike ref other.step
  notifiers : record.notifiers = other.notifiers
  after : record.step.network.Indistinct ref other.step.network

/-- The record is of a notification that signals nobody and leaves the network as it was, but for
flags of the view. -/
structure Record.Unheard (ref : ViewRef) (network : Network Source)
    (record : Record Source Source.Action) : Prop where
  notice : record.task.command.notifies = true
  signals : Event.signals record.step.events = []
  call : record.step.call? = none
  after : network.Indistinct ref record.step.network

/-- From the network on, the second run is the first one with unheard notifications put in. -/
inductive Record.Echo (ref : ViewRef) :
    Network Source → List (Record Source Source.Action) → List (Record Source Source.Action) →
      Prop where
  | done (network : Network Source) : Echo ref network [] []
  | same {network : Network Source} {record other : Record Source Source.Action}
    {plain loud : List (Record Source Source.Action)} : record.Echoes ref other →
    Echo ref record.step.network plain loud →
    Echo ref network (record :: plain) (other :: loud)
  | extra {network : Network Source} {record : Record Source Source.Action}
    {plain loud : List (Record Source Source.Action)} : record.Unheard ref network →
    Echo ref network plain loud → Echo ref network plain (record :: loud)

/-- The same listeners are signalled in both runs, in the same order. -/
theorem Record.Echo.signals {ref : ViewRef} {network : Network Source}
    {plain loud : List (Record Source Source.Action)} (echo : Echo ref network plain loud) :
    Event.signals (events plain) = Event.signals (events loud) := by
  induction echo with
  | done => rfl
  | same echoes _ ih =>
    have own := echoes.step.signals
    simp only [events, List.flatMap_cons, Event.signals_append] at ih ⊢
    rw [own, ih]
  | extra unheard _ ih =>
    have silent := unheard.signals
    simp only [events, List.flatMap_cons, Event.signals_append] at ih ⊢
    rw [silent, List.nil_append, ih]

/-! ### One notification -/

/-- The step hands out no notifier, signals nobody and changes flags of the view at most. -/
structure Step.Hushed (ref : ViewRef) (network : Network Source) (step : Step Source) : Prop where
  unissued : ∀ notifier, step.reply ≠ .registered notifier
  signals : Event.signals step.events = []
  call : step.call? = none
  twins : network.Twins ref step.network
  discreet : ∀ view, step.network.view? ref = some view → view.Discreet ref step.network.sources

namespace Network

variable {network : Network Source} {ref : ViewRef} {source : SourceRef}

theorem Twins.setView_self {view view' : View} (found : network.view? ref = some view)
    (same : view.forget = view'.forget) : network.Twins ref (network.setView ref view') := by
  have set := (Twins.refl ref network).setView same (absurd rfl)
  rwa [network.setView_self found] at set

/-- Twins have registered the same sources, and the same ones of them are attached. -/
theorem Twins.settled {other : Network Source} (twins : network.Twins ref other)
    (settled : network.Settled ref source) : other.Settled ref source := by
  intro view' there' entry registered own
  rcases twins.views ref with ⟨_, none⟩ | ⟨view, seen', there, seen, same, _⟩
  · rw [none] at there'
    cases there'
  · rw [seen] at there'
    cases there'
    obtain ⟨rotation, rfl, _⟩ := View.eq_of_forget_eq same
    rw [← twins.sources]
    exact settled view there entry registered own

theorem Calm.hushed_still {reply : Reply Source} (calm : network.Calm ref)
    (unissued : ∀ notifier, reply ≠ .registered notifier) :
    (network.still reply).Hushed ref network :=
  ⟨unissued, rfl, rfl, .refl ref network, calm.discreet⟩

/-- A notification of a calm network is not heard, unless its source is still to be attached. -/
theorem Calm.hushed_notify {config? : Option Config} (calm : network.Calm ref)
    (counted : network.Keeps (fun _ slot _ => slot.Counted config?) ref none)
    (settled : network.Settled ref source) :
    (network.notify ⟨ref, source⟩).Hushed ref network := by
  cases found : network.view? ref with
  | none =>
    simp only [notify, found]
    exact calm.hushed_still (by simp)
  | some view =>
    obtain ⟨listener, there⟩ := view?_eq_some_iff.mp found
    obtain ⟨_, _, counts⟩ := counted _ there view rfl
    obtain ⟨⟨value, same, sources⟩, discreet⟩ := (calm.heeds.attentive found).notify_idle
      (calm.discreet view found) counts.published (settled view found)
    have unalarmed : network.notify ⟨ref, source⟩ = network.commit ref
        (view.notify network.sources source) fun _ => .flag true := by
      simp only [notify, found]
      rw [if_neg (by rw [value]; exact Bool.false_ne_true)]
    rw [unalarmed]
    refine ⟨by simp [commit], Event.signals_map_view ref _, rfl, ?_, ?_⟩
    · simp only [commit, sources]
      exact Twins.setView_self found same.symm
    · intro later reached
      rw [eq_of_view?_setView reached]
      simp only [commit, sources]
      exact discreet

end Network

/-! ### One command of both sessions -/

/-- Which notifiers a command names does not matter for what it arms and registers. -/
theorem Command.traits_of_resolve? {find? : Nat → Option Notifier}
    {command : Command Nat Source.Action} {resolved : Command Notifier Source.Action}
    (found : command.resolve? find? = some resolved) :
    resolved.armsPull = command.armsPull ∧ resolved.registers = command.registers := by
  cases command with
  | attach | ring | isAlive =>
    obtain ⟨_, _, rfl⟩ := Option.map_eq_some_iff.mp found
    exact ⟨rfl, rfl⟩
  | _ =>
    cases found
    exact ⟨rfl, rfl⟩

namespace Session

section

variable {session : Session Source Source.Action} {ref : ViewRef}
  {command : Command Nat Source.Action}

/-- As long as no failure is armed, the view stays attentive to its sources. -/
theorem heeds_perform (stands : session.network.Stands session.notifiers)
    (heeds : session.network.Heeds ref none) (harmless : command.armsPull = false) :
    (session.perform command).network.Heeds ref none := by
  refine keeps_perform (fun resolved found => Slot.attentive_invariant ?_) stands heeds
  rintro place action rfl _
  exact (Command.traits_of_resolve? found).1.trans harmless

/-- A registration alone announces no source. -/
theorem discreet_of_registers (calm : session.network.Calm ref)
    (registers : command.registers = true) :
    ∀ view, (session.perform command).network.view? ref = some view →
      view.Discreet ref (session.perform command).network.sources := by
  cases command with
  | register target source id =>
    have played : session.perform (.register target source id) =
        session.network.exec (.register target source id) := rfl
    rw [played]
    rcases session.network.exec_register_cases target source id with
      ⟨reply, _, still⟩ | ⟨registered, accepted, performed⟩
    · rw [still]
      exact calm.discreet
    · rw [performed]
      obtain ⟨old, later, found, renewed, rfl⟩ := Network.register_cases accepted
      intro view reached
      by_cases own : ref = target
      · subst own
        rw [Network.eq_of_view?_setView reached]
        exact (calm.discreet old found).register (calm.heeds.attentive found).sound renewed
      · have there : (session.network.setView target later).view? ref = some view := reached
        rw [Network.view?_setView_of_ne own] at there
        exact calm.discreet view there
  | _ => cases registers

/-- Calm lasts, unless a source is announced before it is attached. -/
theorem calm_perform (stands : session.network.Stands session.notifiers)
    (calm : session.network.Calm ref) (harmless : command.armsPull = false)
    (attached : command.registers = false → (session.perform command).network.Attached ref) :
    (session.perform command).network.Calm ref where
  heeds := heeds_perform stands calm.heeds harmless
  discreet := by
    cases registers : command.registers with
    | true => exact discreet_of_registers calm registers
    | false => exact fun view reached => (attached registers view reached).discreet

end

/-- The sessions are at the same point, but for flags of the view and for what callbacks will
play. -/
structure Abreast (plain loud : Session Source Source.Action) (ref : ViewRef)
    (config? : Option Config) : Prop where
  twins : plain.network.Twins ref loud.network
  notifiers : plain.notifiers = loud.notifiers
  stands : plain.network.Stands plain.notifiers
  standing : loud.network.Stands loud.notifiers
  calm : plain.network.Calm ref
  calming : loud.network.Calm ref
  counted : loud.network.Keeps (fun _ slot _ => slot.Counted config?) ref none

namespace Abreast

variable {plain loud : Session Source Source.Action} {ref : ViewRef} {config? : Option Config}
  {command : Command Nat Source.Action}

theorem indistinct (abreast : plain.Abreast loud ref config?) :
    plain.network.Indistinct ref loud.network where
  toTwins := abreast.twins
  answers := Network.alike_request abreast.twins abreast.calm abreast.calming

/-- Each takes what the next call of a callback plays. -/
theorem spend (abreast : plain.Abreast loud ref config?) (view : ViewRef) :
    (plain.spend view).Abreast (loud.spend view) ref config? :=
  { abreast with }

/-- What waits is counted after every command. -/
theorem counted_perform (abreast : plain.Abreast loud ref config?)
    (command : Command Nat Source.Action) :
    (loud.perform command).network.Keeps (fun _ slot _ => slot.Counted config?) ref none :=
  keeps_perform (fun resolved _ => Slot.counted_invariant ref resolved config?) abreast.standing
    abreast.counted

/-- A command that both sessions play does the same in both. -/
theorem alike_perform (abreast : plain.Abreast loud ref config?)
    (harmless : command.armsPull = false)
    (attached : command.registers = false → (plain.perform command).network.Attached ref) :
    (plain.perform command).Alike ref (loud.perform command) := by
  unfold perform at attached ⊢
  rw [← abreast.notifiers]
  cases found : command.resolve? fun place => plain.notifiers[place]? with
  | none => exact Network.alike_still abreast.twins _
  | some resolved =>
    rw [found] at attached
    refine Network.alike_exec abreast.twins abreast.calm abreast.calming
      ((Command.traits_of_resolve? found).1.trans harmless) ?_ fun leaves =>
        attached ((Command.traits_of_resolve? found).2.symm.trans leaves)
    rintro place given rfl
    have handed := Command.mem_of_resolve?_attach found
    exact ⟨abreast.stands given handed, abreast.standing given (abreast.notifiers ▸ handed)⟩

/-- A command that both sessions play leaves them at the same point. -/
theorem perform (abreast : plain.Abreast loud ref config?)
    (harmless : command.armsPull = false)
    (attached : command.registers = false → (plain.perform command).network.Attached ref) :
    (plain.reach (plain.perform command)).Abreast (loud.reach (loud.perform command)) ref
      config? := by
  have alike := abreast.alike_perform harmless attached
  refine ⟨alike.network, ?_, stands_perform abreast.stands command,
    stands_perform abreast.standing command, calm_perform abreast.stands abreast.calm harmless
      attached, calm_perform abreast.standing abreast.calming harmless fun leaves =>
        alike.network.attached (attached leaves), abreast.counted_perform command⟩
  simp only [reach, alike.reply, abreast.notifiers]

/-- A notification that one of the sessions plays besides is not heard. -/
theorem hushed_perform (abreast : plain.Abreast loud ref config?)
    (admits : plain.Admits ref command) : (loud.perform command).Hushed ref loud.network := by
  have missing : (loud.network.still .missing).Hushed ref loud.network :=
    abreast.calming.hushed_still (by simp)
  obtain ⟨⟨notifies, meant⟩, settled⟩ := admits
  rw [abreast.notifiers] at meant settled
  cases command with
  | announce target source =>
    have own : target = ref := meant ⟨target, source⟩ rfl
    subst own
    have performed : loud.perform (.announce target source) =
        loud.network.exec (.announce target source) := rfl
    rw [performed, Network.exec]
    cases found : loud.network.view? target with
    | none => exact missing
    | some view =>
      have hushed := abreast.calming.hushed_notify abreast.counted
        (abreast.twins.settled (settled _ rfl))
      exact { hushed with unissued := by simp }
  | ring place =>
    cases handed : loud.notifiers[place]? with
    | none =>
      have performed : loud.perform (.ring place) = loud.network.still .missing := by
        simp only [Session.perform, Command.resolve?, handed, Option.map_none]
      rw [performed]
      exact missing
    | some notifier =>
      have performed : loud.perform (.ring place) = loud.network.notify notifier := by
        simp only [Session.perform, Command.resolve?, handed, Option.map_some, Network.exec]
      obtain ⟨target, source⟩ := notifier
      have own : target = ref := meant ⟨target, source⟩ handed
      subst own
      rw [performed]
      exact abreast.calming.hushed_notify abreast.counted
        (abreast.twins.settled (settled ⟨target, source⟩ handed))
  | _ => cases notifies

/-- A notification that one of the sessions plays besides leaves them at the same point. -/
theorem notice (abreast : plain.Abreast loud ref config?) (admits : plain.Admits ref command) :
    plain.Abreast (loud.reach (loud.perform command)) ref config? := by
  have hushed := abreast.hushed_perform admits
  have harmless : command.armsPull = false := by
    have notifies := admits.1.1
    cases command with
    | act place action => cases notifies
    | _ => rfl
  have heeds := heeds_perform abreast.standing abreast.calming.heeds harmless
  refine ⟨abreast.twins.trans hushed.twins, ?_, abreast.stands,
    stands_perform abreast.standing command, abreast.calm, ⟨heeds, hushed.discreet⟩,
    abreast.counted_perform command⟩
  rw [abreast.notifiers, notifiers_reach_of_unissued loud hushed.unissued]

end Abreast

/-! ### Whole sessions -/

/-- From the same point on, the second session echoes the first one, if what it plays is what the
first one plays with notifications put in. -/
theorem echo_run {ref : ViewRef} {config? : Option Config}
    {plain loud other : Session Source Source.Action} {tasks noisy : List (Task Source.Action)}
    (padding : Interspersed (Admits ref) plain other tasks noisy)
    (abreast : plain.Abreast loud ref config?) (reactions : other.reactions = loud.reactions)
    (prompt : ∀ record ∈ plain.run tasks,
      record.task.command.armsPull = false ∧ record.Prompt ref) :
    Record.Echo ref plain.network (plain.run tasks) (loud.run noisy) := by
  induction padding generalizing loud with
  | done plain other =>
    rw [run, run]
    exact .done plain.network
  | @extra plain other task tasks noisy admits _ ih =>
    have hushed := abreast.hushed_perform admits
    have abreast := abreast.notice admits
    rw [loud.run_cons_of_uncalled task noisy hushed.call]
    exact .extra ⟨admits.1.1, hushed.signals, hushed.call, abreast.indistinct⟩
      (ih abreast reactions prompt)
  | @same plain other task tasks noisy uncalled _ ih =>
    rw [plain.run_cons_of_uncalled task tasks uncalled] at prompt ⊢
    obtain ⟨harmless, attached⟩ := prompt _ (List.mem_cons_self ..)
    have alike := abreast.alike_perform harmless attached
    have next := abreast.perform harmless attached
    rw [loud.run_cons_of_uncalled task noisy (alike.call.symm.trans uncalled)]
    refine .same ⟨rfl, alike, next.notifiers, next.indistinct⟩ (ih next reactions ?_)
    exact fun record mem => prompt record (List.mem_cons_of_mem _ mem)
  | @called plain other task tasks noisy call called _ ih =>
    rw [plain.run_cons_of_called task tasks called] at prompt ⊢
    obtain ⟨harmless, attached⟩ := prompt _ (List.mem_cons_self ..)
    have alike := abreast.alike_perform harmless attached
    have next := abreast.perform harmless attached
    rw [loud.run_cons_of_called task noisy (alike.call.symm.trans called)]
    refine .same ⟨rfl, alike, next.notifiers, next.indistinct⟩ ?_
    -- the callback plays first, with what was put into it
    have played : other.reaction call.view = loud.reaction call.view := by
      rw [reaction, reaction, reactions]
    have spent : (other.spend call.view).reactions = (loud.spend call.view).reactions := by
      rw [Session.spend, Session.spend, reactions]
    rw [played] at ih
    exact ih (next.spend call.view) spent fun record mem =>
      prompt record (List.mem_cons_of_mem _ mem)

/-- Sessions over the same fresh sources and the same views start at the same point. -/
theorem abreast_start {sources : List Source} (fresh : Fresh sources)
    (views : List (Config × Listener)) (ref : ViewRef)
    (reactions padded : List (List (List (Command Nat Source.Action)))) :
    (start sources views reactions).Abreast (start sources views padded) ref
      (views[ref]?.map Prod.fst) := by
  have none : ∀ notifier ∈ ([] : List Notifier), ∀ view, (start sources views padded).network.view?
      notifier.view = some view → notifier.source ∈ view.registry.sources := by
    intro notifier mem
    cases mem
  have there {slot : Slot} {view : View}
      (present : (start sources views padded).network.slots[ref]? = some slot)
      (seen : slot.view? = some view) :
      (start sources views padded).network.view? ref = some view := by
    rw [Network.view?, present]
    exact seen
  have calm : (start sources views padded).network.Calm ref := by
    refine ⟨fun slot present view seen => attentive_start fresh (there present seen) _, ?_⟩
    intro view found entry registered
    obtain ⟨config, built⟩ := ofConfig_of_view?_start found
    rw [(View.eq_empty_of_config built).1] at registered
    cases registered
  refine ⟨.refl ref _, rfl, none, none, calm, calm, ?_⟩
  intro slot present view seen
  exact counted_play sources views padded [] 0 (there present seen)

end Session

/-- Take a session over fresh memory sources, in which no failure of a pull is ever armed and the
sources that the view registers are attached right away: after every command but a registration, all
of them announce themselves to the view through the notifiers of their registrations. Put into it,
and into what its callbacks play, any number of notifications that are meant for the view, wherever
and of whatever source, only not between the registration of the source and its attachment.

Then the second session is the first one with these notifications put in. They signal nobody, and
each leaves the sources and the listeners as they were, and the view too but for its flags. Every
other command gets the same answer as in the first session, signals the same listeners, calls the
same callback and leaves the same sources. Whatever a view could be asked at any moment, it would
answer the same in both, also where it had to refill first. -/
theorem notices_harmless (sources : List Source) (views : List (Config × Listener)) (ref : ViewRef)
    (reactions padded : List (List (List (Command Nat Source.Action))))
    (commands noisy : List (Command Nat Source.Action)) :
    let plain := Session.start sources views reactions
    let loud := Session.start sources views padded
    Session.Fresh sources →
      (∀ record ∈ plain.play commands,
        record.task.command.armsPull = false ∧ record.Prompt ref) →
      Session.Interspersed (Session.Admits ref) plain loud (commands.map (Task.mk 0))
        (noisy.map (Task.mk 0)) →
      Record.Echo ref plain.network (plain.play commands) (loud.play noisy) := by
  intro plain loud fresh prompt padding
  exact Session.echo_run padding (Session.abreast_start fresh views ref reactions padded) rfl prompt

namespace Hubbub

/-- The last source is registered nowhere. -/
def sources : List Source := [
  .memory (.ofBuffers ⟨7⟩ [.fragment [1], .data [2]]),
  .memory (.ofBuffers ⟨8⟩ []),
  .memory (.ofBuffers ⟨9⟩ [.event [3]])]

def plain : Session Source Source.Action :=
  .start sources [(⟨2⟩, .ofCallback)] [[[.request 0 .stats]]]

/-- The callback is disturbed while it looks at the counters, and once more when it has nothing left
to play. -/
def loud : Session Source Source.Action :=
  .start sources [(⟨2⟩, .ofCallback)]
    [[[.ring 0, .request 0 .stats, .announce 0 2], [.announce 0 1]]]

def commands : List (Command Nat Source.Action) := [
  .register 0 0 ⟨5⟩, .attach 0 0, .add 0 1, .request 0 .next, .request 0 .next,
  .act 1 (.memory (.push (.data [4]))), .request 0 .next]

/-- Sources are announced before they are registered, while they have nothing, while buffers wait
and while none do. -/
def noisy : List (Command Nat Source.Action) := [
  .announce 0 0, .register 0 0 ⟨5⟩, .announce 0 2, .attach 0 0, .add 0 1, .announce 0 1,
  .request 0 .next, .request 0 .next, .ring 0, .act 1 (.memory (.push (.data [4]))),
  .request 0 .next, .ring 1]

end Hubbub

open Hubbub in
/-- Eight notifications are put in. After the sixth command of the second session the view counts a
source as ready that it does not in the first. -/
theorem notices_harmless_hubbub :
    (loud.play noisy).length = (plain.play commands).length + 8 ∧
      loud.reachedBy ((loud.play noisy).take 9) ≠ plain.reachedBy ((plain.play commands).take 4) ∧
      Record.Echo 0 plain.network (plain.play commands) (loud.play noisy) := by
  refine ⟨by decide +kernel, by decide +kernel, ?_⟩
  refine notices_harmless sources [(⟨2⟩, .ofCallback)] 0 [[[.request 0 .stats]]]
    [[[.ring 0, .request 0 .stats, .announce 0 2], [.announce 0 1]]] commands noisy
    (Session.fresh_map [(⟨7⟩, [.fragment [1], .data [2]]), (⟨8⟩, []), (⟨9⟩, [.event [3]])])
    (by decide +kernel) ?_
  refine .extra (by decide +kernel) (.same (by decide +kernel) (.extra (by decide +kernel) ?_))
  refine .called (show _ = some ⟨0, 1⟩ by decide +kernel) ?_
  -- the callback looks at the counters
  refine .extra (by decide +kernel) (.same (by decide +kernel) (.extra (by decide +kernel) ?_))
  refine .same (by decide +kernel) (.extra (by decide +kernel) ?_)
  refine .same (by decide +kernel) (.same (by decide +kernel) (.extra (by decide +kernel) ?_))
  refine .called (show _ = some ⟨0, 2⟩ by decide +kernel) ?_
  refine .extra (by decide +kernel) (.same (by decide +kernel) (.extra (by decide +kernel) ?_))
  exact .done _ _

namespace Early

/-- The callback supplies the source once more and takes two buffers. -/
def session : Session Source Source.Action :=
  .start [.memory (.ofBuffers ⟨7⟩ [.data [1]])] [(⟨2⟩, .ofCallback)]
    [[[.act 0 (.memory (.push (.data [2]))), .request 0 .next, .request 0 .next]]]

def commands : List (Command Nat Source.Action) := [
  .register 0 0 ⟨7⟩, .attach 0 0, .request 0 .next]

/-- The source is announced between its registration and its attachment. -/
def noisy : List (Command Nat Source.Action) := [
  .register 0 0 ⟨7⟩, .announce 0 0, .attach 0 0, .request 0 .next]

/-- The answers to all commands but notifications. -/
def replies (records : List (Record Source Source.Action)) : List (Reply Source) :=
  (records.filter fun record => !record.task.command.notifies).map fun record => record.step.reply

end Early

open Early in
/-- Between the registration of a source and its attachment a notification is heard: the view
signals its listener then, once more when the source is attached, and the buffer that the callback
supplies is delivered later. -/
theorem notices_heard_early :
    Session.Fresh session.network.sources ∧
      (∀ record ∈ session.play commands,
        record.task.command.armsPull = false ∧ record.Prompt 0) ∧
      Session.Interspersed (Session.Notifies 0) session session (commands.map (Task.mk 0))
        (noisy.map (Task.mk 0)) ∧
      replies (session.play commands) = [.registered ⟨0, 0⟩, .done, .done,
        .delivery (some ⟨.data [1], 1, .data, 0⟩), .delivery (some ⟨.data [2], 0, .none, 1⟩),
        .delivery none] ∧
      replies (session.play noisy) = [.registered ⟨0, 0⟩, .done,
        .delivery (some ⟨.data [1], 0, .none, 0⟩), .delivery none, .done,
        .delivery (some ⟨.data [2], 0, .none, 1⟩)] ∧
      Event.signals (Record.events (session.play commands)) = [0] ∧
      Event.signals (Record.events (session.play noisy)) = [0, 0] ∧
      ¬Record.Echo 0 session.network (session.play commands) (session.play noisy) := by
  have once : Event.signals (Record.events (session.play commands)) = [0] := by decide +kernel
  have twice : Event.signals (Record.events (session.play noisy)) = [0, 0] := by decide +kernel
  refine ⟨Session.fresh_map [(⟨7⟩, [.data [1]])], by decide +kernel, ?_, by decide +kernel,
    by decide +kernel, once, twice, fun echo => ?_⟩
  · refine .same (by decide +kernel) (.extra (by decide +kernel) ?_)
    refine .called (show _ = some ⟨0, 1⟩ by decide +kernel) ?_
    refine .same (by decide +kernel) (.same (by decide +kernel) (.same (by decide +kernel) ?_))
    exact .same (by decide +kernel) (.done _ _)
  · have same := echo.signals
    rw [once, twice] at same
    cases same

end FairMerge
