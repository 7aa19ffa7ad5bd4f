import FairMerge.Proofs.Enrolment
import FairMerge.Proofs.Queries
import FairMerge.Proofs.Ringing

/-! # Where notifications go

A notifier stands for one registration: it tells the view of that registration that the source of
that registration has data, whoever rings it. So to ring it comes to the same as to announce the
source to the view, and it reaches no other view. Once the view is gone it reaches nobody, and a
source that the view does not know is not heard. -/

namespace FairMerge

/-- The view that an event is about. -/
def Event.ref? : Event → Option ViewRef
  | view ref _ => some ref
  | signalled ref => some ref
  | drawn _ _ => none

/-- The notifier that the command handed out. -/
def Record.issued? {σ α : Type} (record : Record σ α) : Option Notifier :=
  match record.step.reply with
  | .registered notifier => some notifier
  | _ => none

/-- The notifiers that were handed out, the oldest first. -/
def Record.issued {σ α : Type} (records : List (Record σ α)) : List Notifier :=
  records.filterMap issued?

variable {σ α : Type} [Producer σ α]

/-- The view when it has been told that the source with the identifier has data. -/
def View.told (view : View) (sources : List σ) (id : SourceId) : View :=
  if view.released then view
  else if view.queue.isEmpty then (view.hear id).queried sources
  else view.hear id

/-- The step is what it is to tell the notifier's view that the notifier's source has data, but for
the answer. -/
structure Step.Tells (network : Network σ) (notifier : Notifier) (step : Step σ) : Prop where
  /-- If the view is there, this is the announcement of the source to it. -/
  there : ∀ view, network.view? notifier.view = some view →
    let announced := network.exec (.announce notifier.view notifier.source)
    step.network = announced.network ∧ step.events = announced.events ∧
      step.call? = announced.call?
  /-- If it is gone, nothing happens. -/
  gone : network.view? notifier.view = none →
    step.network = network ∧ step.events = [] ∧ step.call? = none
  /-- Other views and their listeners stay as they are. -/
  others : ∀ ref, ref ≠ notifier.view → step.network.slots[ref]? = network.slots[ref]?
  /-- Whatever happens is done by the view or to its listener. -/
  own : ∀ event ∈ step.events, event.ref? = some notifier.view

namespace View

variable {view : View} {sources : List σ} {source : SourceRef} {id : SourceId}

/-- A source that is registered is heard under its identifier. -/
theorem view_notify_eq (registered : view.registry.idOf? source = some id) :
    (view.notify sources source).view = view.told sources id := by
  rcases view.notify_cases sources source with
    ⟨deaf, result⟩ | ⟨other, open', found, ⟨empty, result⟩ | ⟨full, result⟩⟩
  · rw [result, told, if_pos]
    rcases deaf with released | unknown
    · exact released
    · rw [registered] at unknown
      cases unknown
  · rw [registered, Option.some.injEq] at found
    subst found
    rw [result, told, if_neg (by simp [open']), if_pos (by simp [Lookahead.isEmpty, empty])]
    rfl
  · rw [registered, Option.some.injEq] at found
    subst found
    rw [result, told, if_neg (by simp [open']), if_neg (by simpa [Lookahead.isEmpty] using full)]

/-- A source that is not registered is not heard. -/
theorem notify_of_unregistered (unknown : view.registry.idOf? source = none) :
    view.notify sources source = ⟨false, view, sources, []⟩ := by
  rcases view.notify_cases sources source with ⟨_, result⟩ | ⟨id, _, found, _⟩
  · exact result
  · rw [unknown] at found
    cases found

end View

namespace Network

variable {network heard : Network σ} {notifier : Notifier} {ref : ViewRef} {source : SourceRef}

omit [Producer σ α] in
theorem ref?_of_mem_map_view {log : List Activity} {event : Event}
    (mem : event ∈ log.map (Event.view ref)) : event.ref? = some ref := by
  obtain ⟨activity, _, rfl⟩ := List.mem_map.mp mem
  rfl

theorem ref?_of_mem_notify {event : Event} (mem : event ∈ (network.notify notifier).events) :
    event.ref? = some notifier.view := by
  unfold notify at mem
  cases there : network.view? notifier.view with
  | none =>
    rw [there] at mem
    cases mem
  | some view =>
    simp only [there] at mem
    split at mem
    · unfold signalling at mem
      split at mem
      · exact ref?_of_mem_map_view mem
      · rcases List.mem_append.mp mem with own | signal
        · exact ref?_of_mem_map_view own
        · rw [List.mem_singleton.mp signal]
          rfl
    · exact ref?_of_mem_map_view mem

theorem tells_notify (reply : Reply σ) :
    Step.Tells network notifier { network.notify notifier with reply } where
  there view found := by
    refine ⟨?_, ?_, ?_⟩ <;> simp only [exec, found]
  gone lost := by
    simp only [notify, lost]
    exact ⟨rfl, rfl, rfl⟩
  others ref different := by
    cases found : network.view? notifier.view with
    | none => simp only [notify, found, still]
    | some view => rw [slots_notify found, if_neg (Ne.symm different)]
  own _ mem := ref?_of_mem_notify mem

/-- A command that rings a notifier tells its view, and does nothing else after that. -/
theorem Rings.tells {command : Command Notifier α} (rings : network.Rings command notifier heard) :
    (network.exec command).Tells heard notifier := by
  obtain ⟨reply, same⟩ := rings.exec_eq
  rw [same]
  exact tells_notify reply

theorem view?_notify {view : View} (found : network.view? notifier.view = some view) :
    (network.notify notifier).network.view? notifier.view =
      some (view.notify network.sources notifier.source).view := by
  obtain ⟨listener, slot⟩ := view?_eq_some_iff.mp found
  rw [view?, slots_notify found, if_pos rfl, slot]
  rfl

/-- Whoever rings a notifier is told whether its view is there. -/
theorem reply_ring (network : Network σ) (notifier : Notifier) :
    (network.notify notifier).reply = .flag (network.view? notifier.view).isSome := by
  unfold notify
  cases network.view? notifier.view with
  | none => rfl
  | some view =>
    simp only
    split
    · unfold signalling
      split <;> rfl
    · rfl

/-- To announce a source that the view does not know changes nothing. -/
theorem announce_of_unregistered {view : View} (found : network.view? ref = some view)
    (unknown : view.registry.idOf? source = none) :
    network.exec (.announce ref source : Command Notifier α) = network.still .done := by
  simp only [exec, found, notify, View.notify_of_unregistered unknown, commit,
    Bool.false_eq_true, if_false]
  exact congrArg (fun later => (later : Network σ).still .done) (setView_self found)

/-- A view that is gone does not come back. -/
theorem gone_exec {command : Command Notifier α} (gone : network.view? ref = none) :
    (network.exec command).network.view? ref = none := by
  rw [Option.eq_none_iff_forall_ne_some]
  intro view reached
  obtain ⟨old, there, _⟩ := heir_exec reached
  rw [gone] at there
  cases there

end Network

/-! ### In a session -/

/-- Only notifiers are looked up, so a command asks for the same registration with any of them. -/
theorem Command.registration?_of_resolve? {ν μ : Type} {find? : ν → Option μ}
    {command : Command ν α} {resolved : Command μ α}
    (found : command.resolve? find? = some resolved) :
    resolved.registration? = command.registration? := by
  cases command with
  | attach | ring | isAlive =>
    obtain ⟨_, _, rfl⟩ := Option.map_eq_some_iff.mp found
    rfl
  | _ =>
    cases found
    rfl

namespace Session

variable (sources : List σ) (views : List (Config × Listener))
  (reactions : List (List (List (Command Nat α)))) (commands : List (Command Nat α))

/-- The notifiers of a session are those that its records handed out. -/
theorem handedOut_play (n : Nat) :
    let session := start sources views reactions
    session.handedOut ((session.play commands).take n) =
      Record.issued ((session.play commands).take n) := by
  intro session
  refine play_invariant (fun past _ notifiers => notifiers = Record.issued past) ?_ session rfl
    commands n
  intro past current task before
  rw [Record.issued, List.filterMap_append, ← Record.issued, ← before]
  simp only [List.filterMap_cons, List.filterMap_nil, Record.issued?, recordOf, reach]
  split <;> simp_all

/-- A notifier that is handed out names the registration that the command asked for. -/
theorem registration?_of_issued (session : Session σ α) {n : Nat} {record : Record σ α}
    {notifier : Notifier} (played : (session.play commands)[n]? = some record)
    (replied : record.step.reply = .registered notifier) :
    record.task.command.registration? = some notifier := by
  obtain ⟨current, _, _, same⟩ := session.record_play commands played
  rw [same] at replied
  rcases current.perform_cases record.task.command with ⟨_, still⟩ | ⟨resolved, found, performed⟩
  · have missing : (current.perform record.task.command).reply = .registered notifier := replied
    rw [still] at missing
    cases missing
  · have granted : (current.perform record.task.command).reply = .registered notifier := replied
    rw [performed] at granted
    rw [← Command.registration?_of_resolve? found]
    exact Network.registration?_of_registered granted

/-- As long as the view of a notifier is there, it knows the source by an identifier under which it
was registered. -/
theorem idOf?_of_issued {n : Nat} {notifier : Notifier} {view : View} :
    let session := start sources views reactions
    let past := (session.play commands).take n
    notifier ∈ Record.issued past → (session.reachedBy past).view? notifier.view = some view →
      ∃ id, view.registry.idOf? notifier.source = some id ∧
        ⟨id, notifier.source⟩ ∈ Record.enrolments notifier.view sources past := by
  intro session past issued found
  have stands : (session.reachedBy past).Stands (session.handedOut past) := by
    refine play_invariant (fun _ network notifiers => network.Stands notifiers) ?_ session ?_
      commands n
    · exact fun _ _ task stands => stands_perform stands task.command
    · exact fun _ mem => absurd mem List.not_mem_nil
  have listed : session.handedOut past = Record.issued past :=
    handedOut_play sources views reactions commands n
  rw [← listed] at issued
  have known : view.registry.idOf? notifier.source ≠ none := by
    rw [Ne, Registry.idOf?_eq_none_iff, not_not]
    exact stands notifier issued view found
  obtain ⟨id, named⟩ := Option.ne_none_iff_exists'.mp known
  refine ⟨id, named, ?_⟩
  have entries : view.registry.entries = Record.enrolments notifier.view sources past :=
    entries_play sources views reactions commands n found
  rw [← entries]
  exact Registry.mem_of_idOf? named

/-- A view does not know a source that was never registered with it. -/
theorem idOf?_of_unenrolled {n : Nat} {ref : ViewRef} {source : SourceRef} {view : View} :
    let session := start sources views reactions
    let past := (session.play commands).take n
    (session.reachedBy past).view? ref = some view →
      (∀ entry ∈ Record.enrolments ref sources past, entry.source ≠ source) →
      view.registry.idOf? source = none := by
  intro session past found never
  have entries : view.registry.entries = Record.enrolments ref sources past :=
    entries_play sources views reactions commands n found
  rw [Registry.idOf?_eq_none_iff]
  intro listed
  obtain ⟨entry, mem, same⟩ := List.mem_map.mp listed
  rw [entries] at mem
  exact never entry mem same

/-- A view that is gone stays away. -/
theorem gone_play (session : Session σ α) {ref : ViewRef} {m n : Nat} (le : m ≤ n)
    (gone : (session.reachedBy ((session.play commands).take m)).view? ref = none) :
    (session.reachedBy ((session.play commands).take n)).view? ref = none := by
  refine session.play_persists commands (fun _ network => network.view? ref = none) ?_ le gone
  intro past current task before
  rcases current.perform_cases task.command with ⟨_, still⟩ | ⟨resolved, _, performed⟩
  · rw [still]
    exact before
  · rw [performed]
    exact Network.gone_exec before

end Session

/-- In a session, whatever the sources do and whatever callbacks do in turn, notifications go to the
view and the source of a registration.

The notifiers are handed out by the registrations that succeed, one each and in that order, and each
names the view and the source of its registration. To ring one has the answer whether the view is
there. If it is, this does to the network, to the listeners and in the journal what it does to
announce the source to the view: the view is told of the source under an identifier under which it
was registered with that view. Whoever rings a notifier, by a command, by attaching it or by acting
on a source that holds it, no other view and no other listener changes by that. Once the view is
gone it stays away, and then the answer is no and nothing happens. To announce a source to a view
with which it was never registered, or only in vain, changes nothing. -/
theorem notifiers_routed {σ α : Type} [Producer σ α] (sources : List σ)
    (views : List (Config × Listener)) (reactions : List (List (List (Command Nat α))))
    (commands : List (Command Nat α)) :
    let session := Session.start sources views reactions
    let records := session.play commands
    (∀ (n : Nat) (record : Record σ α), records[n]? = some record →
      let past := records.take n
      let before := session.reachedBy past
      (∀ notifier, record.step.reply = .registered notifier →
        record.task.command.registration? = some notifier) ∧
      (∀ place notifier, record.task.command = .ring place →
        (Record.issued past)[place]? = some notifier →
          record.step.reply = .flag (before.view? notifier.view).isSome ∧
          record.step.Tells before notifier ∧
          ∀ view, before.view? notifier.view = some view →
            ∃ id, ⟨id, notifier.source⟩ ∈ Record.enrolments notifier.view sources past ∧
              record.step.network.view? notifier.view = some (view.told before.sources id)) ∧
      (∀ resolved notifier heard,
        record.task.command.resolve? (fun place => (Record.issued past)[place]?) = some resolved →
        before.Rings resolved notifier heard → record.step.Tells heard notifier) ∧
      ∀ ref source, record.task.command = .announce ref source → before.view? ref ≠ none →
        (∀ entry ∈ Record.enrolments ref sources past, entry.source ≠ source) →
          record.step = before.still .done) ∧
    ∀ (ref : ViewRef) (m n : Nat), m ≤ n →
      (session.reachedBy (records.take m)).view? ref = none →
        (session.reachedBy (records.take n)).view? ref = none := by
  intro session records
  constructor
  · intro n record played past before
    obtain ⟨current, network, notifiers, same⟩ := session.record_play commands played
    have issued : current.notifiers = Record.issued past :=
      notifiers.trans (Session.handedOut_play sources views reactions commands n)
    have here : current.network = before := network
    have step : record.step = current.perform record.task.command := congrArg Record.step same
    refine ⟨fun notifier => Session.registration?_of_issued commands session played, ?_, ?_, ?_⟩
    · intro place notifier asked handed
      have rung : record.step = before.notify notifier := by
        rw [step, asked, Session.perform, Command.resolve?, issued, handed, here]
        rfl
      rw [rung]
      refine ⟨before.reply_ring notifier, Network.tells_notify _, fun view found => ?_⟩
      obtain ⟨id, named, enrolled⟩ := Session.idOf?_of_issued sources views reactions commands
        (List.mem_of_getElem? handed) found
      refine ⟨id, enrolled, ?_⟩
      rw [Network.view?_notify found, View.view_notify_eq named]
    · intro resolved notifier heard found rings
      have performed : record.step = before.exec resolved := by
        rw [step, Session.perform, issued, found, here]
      rw [performed]
      exact rings.tells
    · intro ref source asked present never
      obtain ⟨view, found⟩ := Option.ne_none_iff_exists'.mp present
      have unknown := Session.idOf?_of_unenrolled sources views reactions commands found never
      have performed : record.step = before.exec (.announce ref source) := by
        rw [step, asked, Session.perform, here]
        rfl
      rw [performed, Network.announce_of_unregistered found unknown]
  · intro ref m n le gone
    exact session.gone_play commands le gone

namespace Crosswise

/-- The first source is registered with both views, under two identifiers, and the second one in
vain. The second source is given the notifier of the first one, and the first view is dropped. -/
def sources : List Source := [.memory (.ofBuffers ⟨7⟩ [.data [1]]), .memory (.ofBuffers ⟨8⟩ [])]

def session : Session Source Source.Action :=
  .start sources [(⟨2⟩, .ofCallback), (⟨2⟩, .ofCallback)] []

def commands : List (Command Nat Source.Action) := [
  .register 0 0 ⟨5⟩, .register 1 0 ⟨6⟩, .register 0 1 ⟨5⟩, .attach 1 1,
  .act 1 (.memory (.push (.data [2]))), .announce 0 1, .ring 0, .dropView 0, .ring 0]

/-- The network before a command. -/
def before (n : Nat) : Network Source := session.reachedBy ((session.play commands).take n)

theorem exists_record (n : Nat) (command : Command Nat Source.Action)
    (asked : ((session.play commands)[n]?).map (fun record => record.task.command) = some command) :
    ∃ record, (session.play commands)[n]? = some record ∧ record.task.command = command :=
  Option.map_eq_some_iff.mp asked

end Crosswise

open Crosswise in
/-- What the second source pushes is heard by the second view, as news of the first source. -/
theorem notifiers_routed_crossed :
    (∃ record heard, (session.play commands)[4]? = some record ∧
      record.task.command = .act 1 (.memory (.push (.data [2]))) ∧
      record.step.Tells heard ⟨1, 0⟩) ∧
    (∃ record, (session.play commands)[5]? = some record ∧
      record.task.command = .announce 0 1 ∧ record.step = (before 5).still .done) ∧
    (∃ record view id, (session.play commands)[6]? = some record ∧
      record.task.command = .ring 0 ∧ record.step.reply = .flag true ∧
      (before 6).view? 0 = some view ∧
      ⟨id, 0⟩ ∈ Record.enrolments 0 sources ((session.play commands).take 6) ∧
      record.step.network.view? 0 = some (view.told (before 6).sources id)) ∧
    (∃ record, (session.play commands)[8]? = some record ∧ record.task.command = .ring 0 ∧
      record.step.reply = .flag false ∧ record.step.Tells (before 8) ⟨0, 0⟩) ∧
    (before 9).view? 0 = none := by
  obtain ⟨routed, gone⟩ := notifiers_routed sources [(⟨2⟩, .ofCallback), (⟨2⟩, .ofCallback)] []
    commands
  refine ⟨?_, ?_, ?_, ?_, ?_⟩
  · obtain ⟨record, played, asked⟩ := exists_record 4
      (.act 1 (.memory (.push (.data [2])))) (by decide +kernel)
    have rings : ((before 4).sources[1]?).any (fun state => decide
        ((Producer.act (.memory (.push (.data [2]))) state).2 = some ⟨1, 0⟩)) = true := by
      decide +kernel
    obtain ⟨state, found, named⟩ := (Option.any_eq_true _ _).mp rings
    have resolved : record.task.command.resolve? (fun place =>
        (Record.issued ((session.play commands).take 4))[place]?) =
          some (.act 1 (.memory (.push (.data [2])))) := by
      rw [asked]
      rfl
    exact ⟨record, _, played, asked, (routed 4 record played).2.2.1 _ _ _ resolved
      (.act found (of_decide_eq_true named))⟩
  · obtain ⟨record, played, asked⟩ := exists_record 5 (.announce 0 1) (by decide +kernel)
    have present : ((before 5).view? 0).isSome = true := by decide +kernel
    have never : ((Record.enrolments 0 sources ((session.play commands).take 5)).all
        fun entry => entry.source != 1) = true := by
      decide +kernel
    refine ⟨record, played, asked, (routed 5 record played).2.2.2 0 1 asked ?_ ?_⟩
    · exact Option.isSome_iff_ne_none.mp present
    · intro entry mem
      exact bne_iff_ne.mp (List.all_eq_true.mp never entry mem)
  · obtain ⟨record, played, asked⟩ := exists_record 6 (.ring 0) (by decide +kernel)
    have present : ((before 6).view? 0).isSome = true := by decide +kernel
    obtain ⟨view, found⟩ := Option.isSome_iff_exists.mp present
    obtain ⟨answered, _, told⟩ := (routed 6 record played).2.1 0 ⟨0, 0⟩ asked (by decide +kernel)
    obtain ⟨id, enrolled, reached⟩ := told view found
    refine ⟨record, view, id, played, asked, ?_, found, enrolled, reached⟩
    rw [answered]
    exact congrArg Reply.flag present
  · obtain ⟨record, played, asked⟩ := exists_record 8 (.ring 0) (by decide +kernel)
    have absent : ((before 8).view? 0).isSome = false := by decide +kernel
    obtain ⟨answered, tells, _⟩ := (routed 8 record played).2.1 0 ⟨0, 0⟩ asked (by decide +kernel)
    refine ⟨record, played, asked, ?_, tells⟩
    rw [answered]
    exact congrArg Reply.flag absent
  · have absent : ((before 8).view? 0).isSome = false := by decide +kernel
    exact gone 0 8 9 (by decide)
      (Option.isNone_iff_eq_none.mp (Option.isSome_eq_false_iff.mp absent))

end FairMerge
