import FairMerge.Proofs.Attention
import FairMerge.Proofs.Returns

/-! # No wake-up is lost

The consumer of a channel sleeps until it reads a message and then takes deliveries until there is
none. Signals are given only when buffers begin to wait, and a full channel absorbs them. Still,
while the consumer sleeps and no message waits for it there is nothing that it could take. -/

namespace FairMerge

/-- What the consumer of a view is doing. -/
inductive Phase where
  /-- It sleeps until a message comes. -/
  | idle
  /-- It has read a message, and takes deliveries until there is none. -/
  | busy
deriving DecidableEq

/-- Whether a message was read. -/
def Reply.isMessage {σ : Type} : Reply σ → Bool
  | flag true => true
  | _ => false

namespace Phase

variable {σ α : Type}

/-- The phase after a record. There is none if the consumer asked for a delivery in its sleep or
looked into the view in another way. -/
def after? (ref : ViewRef) (phase : Phase) (record : Record σ α) : Option Phase :=
  match record.task.command with
  | .request target request =>
    if target = ref then
      match request with
      | .next =>
        match phase with
        | idle => none
        | busy => some (if record.step.reply.isEnd then idle else busy)
      | .peek | .drain _ | .availability _ => none
      | _ => some phase
    else some phase
  | .receive target =>
    some (if target = ref && record.step.reply.isMessage then busy else phase)
  | _ => some phase

/-- The phase that the records lead to. -/
def of? (ref : ViewRef) (records : List (Record σ α)) : Option Phase :=
  records.foldlM (after? ref) idle

theorem of?_append_singleton (ref : ViewRef) (past : List (Record σ α)) (record : Record σ α) :
    of? ref (past ++ [record]) = (of? ref past).bind fun phase => phase.after? ref record := by
  simp [of?]

end Phase

/-- If buffers wait in the view of the slot then a message waits in its channel. -/
def Slot.Alert (slot : Slot) : Prop :=
  ∀ view capacity waiting, slot = ⟨some view, .channel (capacity + 1) waiting true⟩ →
    view.released = false → view.queue.entries ≠ [] → 0 < waiting

/-- After a signal a message waits in any channel that has room for one. -/
theorem Listener.waiting_of_signal {listener : Listener} {capacity waiting : Nat}
    (signalled : listener.signal = .channel (capacity + 1) waiting true) : 0 < waiting := by
  cases listener with
  | callback calls => cases signalled
  | channel room before connected =>
    simp only [signal] at signalled
    split at signalled
    · cases signalled
      exact Nat.succ_pos before
    · rename_i full
      cases signalled
      simp only [Bool.true_and, decide_eq_true_eq, Nat.not_lt] at full
      exact Nat.lt_of_lt_of_le (Nat.succ_pos capacity) full

variable {σ α : Type} [Producer σ α]

/-- A view asks for a signal whenever buffers begin to wait. -/
theorem Slot.Alert.notify {view : View} {listener : Listener}
    (alert : Slot.Alert ⟨some view, listener⟩) (sources : List σ) (source : SourceRef) :
    Slot.Alert ⟨some (view.notify sources source).view,
      if (view.notify sources source).value then listener.signal else listener⟩ := by
  rintro later capacity waiting same open' full
  rcases view.notify_cases sources source with
    ⟨_, result⟩ | ⟨id, _, _, ⟨_, result⟩ | ⟨before, result⟩⟩
  · rw [result, if_neg Bool.false_ne_true] at same
    exact alert later capacity waiting same open' full
  · rw [result] at same
    have reached : ((view.hear id).consult sources fun reached => !reached.queue.isEmpty).view =
        later := Option.some.inj (congrArg Slot.view? same)
    have signals : ((view.hear id).consult sources fun reached => !reached.queue.isEmpty).value =
        true := by
      change (!((view.hear id).consult sources fun reached =>
        !reached.queue.isEmpty).view.queue.isEmpty) = true
      rw [reached]
      simpa [Lookahead.isEmpty] using full
    rw [if_pos signals] at same
    exact Listener.waiting_of_signal (congrArg Slot.listener same)
  · rw [result, if_neg Bool.false_ne_true] at same
    cases same
    exact alert view capacity waiting rfl open' before

/-- As long as the consumer sleeps, every step leaves a message where buffers wait. -/
theorem Slot.alert_invariant {ref : ViewRef} {command : Command Notifier α}
    (sleeps : ∀ request, command = .request ref request → request ≠ .next ∧ request ≠ .peek ∧
      (∀ limit, request ≠ .drain limit) ∧ ∀ credit, request ≠ .availability credit)
    (unread : command ≠ .receive ref) :
    Slot.Invariant (σ := σ) ref command fun _ slot _ => slot.Alert where
  serve alert _ := alert
  consult _ asked _ := by
    rcases asked with peeks | ⟨credit, asks⟩
    · exact absurd rfl (sleeps _ peeks).2.1
    · exact absurd rfl ((sleeps _ asks).2.2.2 credit)
  next asked _ := absurd rfl (sleeps _ asked).1
  drain limit asked _ := absurd rfl ((sleeps _ asked).2.2.1 limit)
  release := by
    rintro view listener sources _ _ later capacity waiting same open' _
    cases same
    unfold View.release at open'
    split at open'
    · rename_i released
      exact absurd released (ne_true_of_eq_false open')
    · cases open'
  register := by
    rintro view later listener sources id source alert registered
    obtain ⟨_, _, _, rotation, _, rfl⟩ := View.register_cases registered
    rintro _ capacity waiting ⟨⟩ open' full
    exact alert view capacity waiting rfl open' full
  act _ alert _ := alert
  attach _ alert _ := alert
  ring alert := alert
  deaf _ alert := alert
  notify alert := alert.notify _ _
  receive reads _ _ := absurd reads unread
  disconnect := by
    rintro view? listener later sources _ gone view capacity waiting same
    cases listener with
    | callback calls => cases gone
    | channel room before connected =>
      cases gone
      cases same
  drop := by
    rintro slot sources _ view capacity waiting same
    cases same

/-! ### The steps of the consumer -/

namespace Phase

variable {ref : ViewRef} {record : Record σ α}

omit [Producer σ α] in
/-- The consumer falls asleep only when there is no delivery. -/
theorem next_of_busy (after : busy.after? ref record = some idle) :
    record.task.command = .request ref .next ∧ record.step.reply.isEnd = true := by
  unfold after? at after
  split at after
  · rename_i target request same
    split at after
    · rename_i own
      subst own
      split at after
      · refine ⟨same, ?_⟩
        by_cases ended : record.step.reply.isEnd = true
        · exact ended
        · simp [ended] at after
      all_goals cases after
    · cases after
  · simp at after
  · cases after

omit [Producer σ α] in
/-- In its sleep the consumer asks for nothing, and reads no message. -/
theorem still_of_idle (after : idle.after? ref record = some idle) :
    (∀ request, record.task.command = .request ref request → request ≠ .next ∧ request ≠ .peek ∧
      (∀ limit, request ≠ .drain limit) ∧ ∀ credit, request ≠ .availability credit) ∧
    (record.task.command = .receive ref → record.step.reply.isMessage = false) := by
  constructor
  · intro request same
    rw [after?, same] at after
    simp only [if_true] at after
    cases request with
    | next | peek | drain | availability => cases after
    | _ => simp
  · intro same
    rw [after?, same] at after
    simpa using after

end Phase

namespace Network

variable {network : Network σ} {ref : ViewRef}

/-- Once a view answers that there is no delivery, nothing waits in it. -/
theorem keeps_alert_next (ended : (network.exec (.request ref .next)).reply.isEnd = true) :
    (network.exec (.request ref .next)).network.Keeps (fun _ slot _ => slot.Alert) ref none := by
  simp only [exec] at ended ⊢
  cases found : network.view? ref with
  | none =>
    rintro slot present view capacity waiting rfl
    have seen : network.view? ref = some view := view?_eq_some_iff.mpr ⟨_, present⟩
    rw [found] at seen
    cases seen
  | some view =>
    rw [found] at ended
    rintro slot present later capacity waiting rfl _ full
    have reached := eq_of_view?_setView (view?_eq_some_iff.mpr ⟨_, present⟩)
    rcases view.next_cases network.sources with ⟨empty, result⟩ | ⟨entry, _, _, _, _, result⟩
    · rw [reached, result] at full
      exact absurd (Lookahead.pop?_eq_none_iff.mp empty) full
    · simp [answer, commit, result, Reply.isEnd] at ended

omit [Producer σ α] in
/-- Looking for a message where there is none changes nothing. -/
theorem receive?_eq_self {listener later : Listener}
    (nothing : listener.receive? = some (false, later)) : later = listener := by
  cases listener with
  | callback calls => cases nothing
  | channel capacity waiting connected =>
    cases waiting with
    | zero =>
      cases nothing
      rfl
    | succ waiting => cases nothing

theorem keeps_alert_receive (keeps : network.Keeps (fun _ slot _ => slot.Alert) ref none)
    (empty : (network.exec (.receive ref)).reply.isMessage = false) :
    (network.exec (.receive ref)).network.Keeps (fun _ slot _ => slot.Alert) ref none := by
  simp only [exec] at empty ⊢
  cases read : network.slots[ref]?.bind fun slot => slot.listener.receive? with
  | none => exact keeps
  | some pair =>
    obtain ⟨received, later⟩ := pair
    obtain ⟨⟨view?, listener⟩, there, got⟩ := Option.bind_eq_some_iff.mp read
    rw [read] at empty
    cases received with
    | true => cases empty
    | false =>
      intro slot present
      change (network.setListener ref later).slots[ref]? = some slot at present
      rw [slots_setListener, if_pos rfl, there, receive?_eq_self got] at present
      cases present
      exact keeps _ there

end Network

namespace Session

/-- At every point of a session at which the consumer sleeps, a message waits where buffers do. -/
theorem alert_play (sources : List σ) (views : List (Config × Listener))
    (reactions : List (List (List (Command Nat α)))) (commands : List (Command Nat α)) (n : Nat)
    (ref : ViewRef) :
    let session := start sources views reactions
    let past := (session.play commands).take n
    Phase.of? ref past = some .idle →
      (session.reachedBy past).Keeps (fun _ slot _ => slot.Alert) ref none := by
  intro session past asleep
  refine (play_invariant (fun past network notifiers => network.Stands notifiers ∧
    (Phase.of? ref past = some .idle → network.Keeps (fun _ slot _ => slot.Alert) ref none)) ?_
    session ⟨?_, ?_⟩ commands n).2 asleep
  · rintro past session task ⟨stands, alert⟩
    refine ⟨stands_perform stands task.command, fun asleep => ?_⟩
    rw [Phase.of?_append_singleton] at asleep
    obtain ⟨phase, before, after⟩ := Option.bind_eq_some_iff.mp asleep
    cases phase with
    | busy =>
      obtain ⟨same, ended⟩ := Phase.next_of_busy after
      change task.command = _ at same
      change (session.perform task.command).reply.isEnd = true at ended
      rw [same] at ended ⊢
      exact Network.keeps_alert_next ended
    | idle =>
      obtain ⟨sleeps, unread⟩ := Phase.still_of_idle after
      by_cases reads : task.command = .receive ref
      · have empty := unread reads
        change (session.perform task.command).reply.isMessage = false at empty
        rw [reads] at empty ⊢
        exact Network.keeps_alert_receive (alert before) empty
      · refine keeps_perform (fun resolved found => ?_) stands (alert before)
        obtain ⟨asks, receives⟩ := Command.eq_of_resolve? found ref
        exact Slot.alert_invariant (fun request same => sleeps request (asks request same))
          fun same => reads (receives same)
  · intro notifier mem
    cases mem
  · rintro _ slot present view capacity waiting rfl _ full
    obtain ⟨config, built⟩ := ofConfig_of_view?_start (Network.view?_eq_some_iff.mpr ⟨_, present⟩)
    rw [(View.eq_empty_of_config built).1] at full
    exact absurd rfl full

end Session

/-- Suppose that a view has a channel with a reader, that it is not released, that its sources are
memory sources which announce themselves through the notifiers of their registrations, and that no
failure of a pull was ever armed in them. Whatever everybody else did: when the consumer sleeps and
no message waits for it, no buffer waits in the view, and either none waits in a source or a record
is open whose source has nothing. -/
theorem no_wakeup_lost {sources : List Source} (fresh : Session.Fresh sources)
    (views : List (Config × Listener)) (reactions : List (List (List (Command Nat Source.Action))))
    (commands : List (Command Nat Source.Action)) (n : Nat) (ref : ViewRef) (view : View)
    (capacity : Nat) :
    let session := Session.start sources views reactions
    let past := (session.play commands).take n
    let reached := session.reachedBy past
    reached.slots[ref]? = some ⟨some view, .channel (capacity + 1) 0 true⟩ →
    view.released = false →
    view.Attached ref reached.sources →
    (∀ entry ∈ view.registry.entries, Record.Calm past entry.source) →
    Phase.of? ref past = some .idle →
      view.queue.entries = [] ∧
      ((∀ entry ∈ view.registry.entries, Source.queueAt reached.sources entry.source = []) ∨
        ∃ entry ∈ view.registry.entries, view.rotation.holder = some entry.id ∧
          Source.queueAt reached.sources entry.source = []) := by
  intro session past reached there open' attached calm asleep
  have empty : view.queue.entries = [] := by
    by_cases waiting : view.queue.entries = []
    · exact waiting
    · have alert := Session.alert_play sources views reactions commands n ref asleep _ there
      exact absurd (alert view capacity 0 rfl open' waiting) (Nat.lt_irrefl 0)
  refine ⟨empty, ?_⟩
  have attentive : view.Attentive ref (Record.Calm past) none reached.sources :=
    (Session.attentive_play fresh views reactions commands n).2 ref _ there view rfl
  -- a source that has something is held back by the open record of another one
  have held : ∀ entry ∈ view.registry.entries,
      Source.queueAt reached.sources entry.source ≠ [] →
      ∃ other, view.rotation.holder = some other ∧ other ≠ entry.id := by
    intro entry registered full
    exact attentive.held open' empty entry registered (calm entry registered)
      (attached.loaded registered full) (Option.some_ne_none _).symm
  by_cases dry : ∀ entry ∈ view.registry.entries,
      Source.queueAt reached.sources entry.source = []
  · exact .inl dry
  · right
    simp only [not_forall] at dry
    obtain ⟨entry, registered, full⟩ := dry
    obtain ⟨other, holds, _⟩ := held entry registered full
    obtain ⟨holder, listed, rfl⟩ := List.mem_map.mp (attentive.sound.holder other holds)
    refine ⟨holder, listed, holds, ?_⟩
    by_cases nothing : Source.queueAt reached.sources holder.source = []
    · exact nothing
    · obtain ⟨third, holds', different⟩ := held holder listed nothing
      rw [holds, Option.some.injEq] at holds'
      exact absurd holds'.symm different

namespace Sleeping

/-- The first source begins a record that it cannot go on with, while the second has data. -/
def session : Session Source Source.Action :=
  .start [.memory (.ofBuffers ⟨5⟩ [.fragment [1]]), .memory (.ofBuffers ⟨6⟩ [.data [9]])]
    [(⟨2⟩, .ofChannel 1)] []

/-- The consumer reads the message that the first source caused, and takes what there is. -/
def commands : List (Command Nat Source.Action) := [
  .add 0 0, .add 0 1, .receive 0, .request 0 .next, .request 0 .next]

def past : List (Record Source Source.Action) := (session.play commands).take 5

end Sleeping

open Sleeping in
/-- The consumer sleeps although the second source has data, for the record of the first is open. -/
theorem no_wakeup_lost_stalled :
    ∃ view, (session.reachedBy past).slots[0]? = some ⟨some view, .channel 1 0 true⟩ ∧
      view.queue.entries = [] ∧ Source.queueAt (session.reachedBy past).sources 1 = [.data [9]] ∧
      ∃ entry ∈ view.registry.entries, view.rotation.holder = some entry.id ∧
        Source.queueAt (session.reachedBy past).sources entry.source = [] := by
  have there : ((session.reachedBy past).slots[0]?).any (fun slot =>
      slot.listener = .channel 1 0 true && slot.view?.any fun view =>
        !view.released && decide (view.Attached 0 (session.reachedBy past).sources) &&
          decide (∀ entry ∈ view.registry.entries, Record.Calm past entry.source) &&
          view.registry.entries.contains ⟨⟨6⟩, 1⟩) = true := by
    decide +kernel
  obtain ⟨⟨_, _⟩, found, facts⟩ := (Option.any_eq_true _ _).mp there
  simp only [Bool.and_eq_true, Bool.not_eq_true', decide_eq_true_eq, Option.any_eq_true,
    List.contains_iff_mem] at facts
  obtain ⟨rfl, view, rfl, ⟨⟨open', attached⟩, calm⟩, second⟩ := facts
  have fresh := Session.fresh_map [(⟨5⟩, [.fragment [1]]), (⟨6⟩, [.data [9]])]
  obtain ⟨empty, dry | stalled⟩ := no_wakeup_lost fresh [(⟨2⟩, .ofChannel 1)] [] commands 5 0 view 0
    found open' attached calm (by decide +kernel)
  · have left : Source.queueAt (session.reachedBy past).sources 1 ≠ [] := by
      decide +kernel
    exact absurd (dry _ second) left
  · exact ⟨view, found, empty, by decide +kernel, stalled⟩

end FairMerge
