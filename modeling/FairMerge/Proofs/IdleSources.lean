import FairMerge.Proofs.Routing
import FairMerge.Proofs.Strike

/-! # Idle sources

A source that is registered and never heard of changes nothing in a merge. The sources registered
after it stand one place further on and the cycle is longer, and yet every choice, every pull and
every delivery is what it would be without the source, and nobody ever asks the source for a
buffer. -/

namespace FairMerge

/-- The source that the command names. -/
def Command.source? {ν α : Type} : Command ν α → Option SourceRef
  | register _ source _ | attach source _ | add _ source | announce _ source | act source _
  | pull source | sourceFailure source | releaseSource source | inspect source => some source
  | request .. | ring _ | isAlive _ | receive _ | dropReceiver _ | dropView _ => none

/-- The source that an event is about, unless it is a delivery or a signal. -/
def Event.source? : Event → Option SourceRef
  | view _ activity => activity.source?
  | signalled _ => none
  | drawn source _ => some source

/-- Whether the answer to the request goes through all sources of the view. -/
def Request.tallies : Request → Bool
  | sourceIds | stats | failure | release => true
  | _ => false

/-- Whether the command asks the view for an answer that goes through all its sources. -/
def Command.tallies {ν α : Type} (ref : ViewRef) : Command ν α → Bool
  | request target asked => target == ref && asked.tallies
  | _ => false

/-- The source of which the command asks the view to require a segment. -/
def Command.demanded? {ν α : Type} (ref : ViewRef) : Command ν α → Option SourceId
  | request target (.requireSegment id _) => if target = ref then some id else none
  | _ => none

variable {σ α : Type} [Producer σ α]

/-- The command leaves the registration with the view alone: it does not name the source, it does
not use the identifier with the view, and it does not tell the view that the source has data. -/
structure Network.Avoids (network : Network σ) (ref : ViewRef) (extra : Registration)
    (command : Command Notifier α) : Prop where
  source : command.source? ≠ some extra.source
  id : ∀ entry ∈ command.asked? network.sources ref, entry.id ≠ extra.id
  segment : command.demanded? ref ≠ some extra.id
  unrung : ∀ heard, ¬ network.Rings command ⟨ref, extra.source⟩ heard

/-- The notifier that the command rings, if it rings one. -/
def Network.rung? (network : Network σ) : Command Notifier α → Option Notifier
  | .ring notifier => some notifier
  | .announce ref source => (network.view? ref).map fun _ => ⟨ref, source⟩
  | .act source action => network.sources[source]?.bind fun state => (Producer.act action state).2
  | .attach source given =>
    network.sources[source]?.bind fun state => (Producer.attach given state).2
  | .add ref source =>
    network.sources[source]?.bind fun state =>
      (Producer.ownId? state).bind fun id =>
        (network.register ref source id).toOption.bind fun _ =>
          (Producer.attach ⟨ref, source⟩ state).2
  | _ => none

namespace Network

variable {network : Network σ} {ref : ViewRef} {extra : Registration} {command : Command Notifier α}
  {notifier : Notifier}

theorem rung?_eq_some_iff :
    network.rung? command = some notifier ↔ ∃ heard, network.Rings command notifier heard := by
  constructor
  · intro rung
    cases command with
    | ring given =>
      cases rung
      exact ⟨network, .ring _⟩
    | announce target source =>
      obtain ⟨view, there, rfl⟩ := Option.map_eq_some_iff.mp rung
      exact ⟨network, .announce source there⟩
    | act source action =>
      obtain ⟨state, found, named⟩ := Option.bind_eq_some_iff.mp rung
      exact ⟨_, .act found named⟩
    | attach source given =>
      obtain ⟨state, found, named⟩ := Option.bind_eq_some_iff.mp rung
      exact ⟨_, .attach found named⟩
    | add target source =>
      obtain ⟨state, found, rung⟩ := Option.bind_eq_some_iff.mp rung
      obtain ⟨id, own, rung⟩ := Option.bind_eq_some_iff.mp rung
      obtain ⟨registered, accepted, named⟩ := Option.bind_eq_some_iff.mp rung
      cases granted : network.register target source id with
      | error reply =>
        rw [granted] at accepted
        cases accepted
      | ok registered => exact ⟨_, .add found own granted named⟩
    | _ => cases rung
  · rintro ⟨heard, rings⟩
    cases rings with
    | ring => rfl
    | announce source there => simp only [rung?, there, Option.map_some]
    | act found named | attach found named => simp only [rung?, found, Option.bind_some, named]
    | add found own accepted named =>
      simp only [rung?, found, own, accepted, Option.bind_some, Except.toOption, named]

theorem avoids_iff :
    network.Avoids ref extra command ↔
      command.source? ≠ some extra.source ∧
      (∀ entry ∈ command.asked? network.sources ref, entry.id ≠ extra.id) ∧
      command.demanded? ref ≠ some extra.id ∧
      network.rung? command ≠ some ⟨ref, extra.source⟩ := by
  rw [Ne, Ne, Ne, rung?_eq_some_iff, not_exists]
  constructor
  · intro avoids
    exact ⟨avoids.source, avoids.id, avoids.segment, avoids.unrung⟩
  · rintro ⟨source, id, segment, unrung⟩
    exact ⟨source, id, segment, unrung⟩

end Network

instance (network : Network σ) (ref : ViewRef) (extra : Registration)
    (command : Command Notifier α) : Decidable (network.Avoids ref extra command) :=
  decidable_of_iff' _ Network.avoids_iff

/-! ### Networks without the source -/

/-- The identifiers that are struck from a view when the registration is taken back. -/
def Registration.struck (extra : Registration) (ref target : ViewRef) : List SourceId :=
  if target = ref then [extra.id] else []

theorem Registration.not_mem_struck (extra : Registration) {ref target : ViewRef} {id : SourceId}
    (other : target = ref → id ≠ extra.id) : id ∉ extra.struck ref target := by
  unfold struck
  split
  · rename_i same
    exact fun listed => other same (List.mem_singleton.mp listed)
  · exact List.not_mem_nil

/-- The slot with sources struck from its view. -/
def Slot.strike (gone : List SourceId) (slot : Slot) : Slot :=
  { slot with view? := slot.view?.map (View.strike gone) }

/-- The network without the registration, and with the source as it was. -/
def Network.strike (ref : ViewRef) (extra : Registration) (base : σ) (network : Network σ) :
    Network σ where
  sources := network.sources.set extra.source base
  slots := network.slots.modify ref (Slot.strike [extra.id])

/-- No view but the one at the place knows the source, and that one keeps nothing for it. -/
def Network.Idles (network : Network σ) (ref : ViewRef) (extra : Registration) : Prop :=
  ∀ target view, network.view? target = some view →
    view.Idles (extra.struck ref target) extra.source

/-- A step leaves the source idle and does not pull it, though the source may be told a buffer size
or be released, as all sources of its view are. Without the source the step comes to the same. -/
structure Step.Spares (ref : ViewRef) (extra : Registration) (base : σ) (tallied : Bool)
    (step struck : Step σ) : Prop where
  network : struck.network = step.network.strike ref extra base
  idles : step.network.Idles ref extra
  reply : tallied = false → struck.reply = step.reply
  events : struck.events = step.events.filter fun event => event.source? ≠ some extra.source
  unpulled : Event.answers extra.source step.events = []
  call : struck.call? = step.call?

theorem Activity.answer?_eq_none {activity : Activity} {place : SourceRef}
    (apart : activity.source? ≠ some place) : activity.answer? place = none := by
  cases activity with
  | pulled pull => exact if_neg fun same => apart (congrArg some same)
  | delivered | released => rfl

@[simp] theorem Effect.value_strike {β : Type} (gone : List SourceId) (place : SourceRef) (base : σ)
    (effect : Effect σ β) : (effect.strike gone place base).value = effect.value := rfl

@[simp] theorem View.strike_nil (view : View) : view.strike [] = view := by
  simp [strike, Registry.strike, Rotation.strike]

@[simp] theorem Slot.strike_nil (slot : Slot) : slot.strike [] = slot := by
  have same : (View.strike [] : View → View) = id := funext View.strike_nil
  simp [strike, same]

namespace Network

variable {network : Network σ} {ref target : ViewRef} {extra : Registration} {base : σ}
  {tallied : Bool} {view : View}

section

omit [Producer σ α]

theorem slots_strike : (network.strike ref extra base).slots[target]? =
    network.slots[target]?.map (Slot.strike (extra.struck ref target)) := by
  unfold strike Registration.struck
  by_cases own : target = ref
  · subst own
    rw [List.getElem?_modify_eq, if_pos rfl]
    rfl
  · rw [List.getElem?_modify_ne _ _ (Ne.symm own), if_neg own]
    cases network.slots[target]? <;> simp

theorem view?_strike : (network.strike ref extra base).view? target =
    (network.view? target).map (View.strike (extra.struck ref target)) := by
  unfold view?
  rw [slots_strike]
  cases network.slots[target]? <;> rfl

theorem source_strike {source : SourceRef} (other : source ≠ extra.source) :
    (network.strike ref extra base).sources[source]? = network.sources[source]? :=
  List.getElem?_set_ne (Ne.symm other)

/-- A listener is the same with the source struck from its view. -/
theorem listener_strike {τ : Type} (read : Listener → Option τ) :
    ((network.strike ref extra base).slots[target]?.bind fun slot => read slot.listener) =
      network.slots[target]?.bind fun slot => read slot.listener := by
  rw [slots_strike]
  cases network.slots[target]? <;> rfl

theorem setView_strike (network : Network σ) :
    (network.strike ref extra base).setView target (view.strike (extra.struck ref target)) =
      (network.setView target view).strike ref extra base := by
  have slots : ((network.strike ref extra base).setView target
      (view.strike (extra.struck ref target))).slots =
        ((network.setView target view).strike ref extra base).slots := by
    apply List.ext_getElem?
    intro place
    rw [slots_setView, slots_strike, slots_strike, slots_setView]
    by_cases here : target = place
    · subst here
      rw [if_pos rfl, if_pos rfl]
      cases network.slots[target]? <;> rfl
    · rw [if_neg here, if_neg here]
  exact congrArg (Network.mk _) slots

theorem setListener_strike (listener : Listener) :
    (network.strike ref extra base).setListener target listener =
      (network.setListener target listener).strike ref extra base := by
  have slots : ((network.strike ref extra base).setListener target listener).slots =
      ((network.setListener target listener).strike ref extra base).slots := by
    apply List.ext_getElem?
    intro place
    rw [slots_setListener, slots_strike, slots_strike, slots_setListener]
    by_cases here : target = place
    · subst here
      rw [if_pos rfl, if_pos rfl]
      cases network.slots[target]? <;> rfl
    · rw [if_neg here, if_neg here]
  exact congrArg (Network.mk _) slots

theorem Idles.setView (idles : network.Idles ref extra)
    (own : view.Idles (extra.struck ref target) extra.source) :
    (network.setView target view).Idles ref extra := by
  intro other later found
  by_cases here : other = target
  · subst here
    rwa [eq_of_view?_setView found]
  · rw [view?_setView_of_ne here] at found
    exact idles other later found

theorem Idles.setListener (idles : network.Idles ref extra) (listener : Listener) :
    (network.setListener target listener).Idles ref extra := by
  intro other later found
  rw [view?_setListener] at found
  exact idles other later found

theorem dropView_strike :
    (network.strike ref extra base).slots.modify target (fun slot => { slot with view? := none }) =
      (Network.strike ref extra base { network with
        slots := network.slots.modify target fun slot => { slot with view? := none } }).slots := by
  apply List.ext_getElem?
  intro place
  rw [slots_strike, List.getElem?_modify, List.getElem?_modify, slots_strike]
  cases network.slots[place]? with
  | none => rfl
  | some slot => by_cases here : target = place <;> simp [here, Slot.strike]

theorem Idles.dropView (idles : network.Idles ref extra) :
    Network.Idles { network with
      slots := network.slots.modify target fun slot => { slot with view? := none } } ref extra := by
  intro other view found
  by_cases here : target = other
  · subst here
    rw [view?, List.getElem?_modify_eq] at found
    cases there : network.slots[target]? <;> simp [there] at found
  · rw [view?, List.getElem?_modify_ne _ _ here] at found
    exact idles other view found

theorem spares_still (idles : network.Idles ref extra) {reply : Reply σ} :
    (network.still reply).Spares ref extra base tallied
      ((network.strike ref extra base).still reply) :=
  ⟨rfl, idles, fun _ => rfl, rfl, rfl, rfl⟩

theorem spares_setListener (idles : network.Idles ref extra) (listener : Listener)
    {reply : Reply σ} :
    ((network.setListener target listener).still reply).Spares ref extra base tallied
      (((network.strike ref extra base).setListener target listener).still reply) := by
  rw [setListener_strike]
  exact spares_still (idles.setListener listener)

/-- An operation of a view may release the source with the others. -/
theorem spares_commit_of {β : Type} {effect struck : Effect σ β} (reply : β → Reply σ)
    (idles : network.Idles ref extra)
    (later : struck.view = effect.view.strike (extra.struck ref target))
    (sources : struck.sources = effect.sources.set extra.source base)
    (kept : effect.view.Idles (extra.struck ref target) extra.source)
    (value : tallied = false → struck.value = effect.value)
    (journal : struck.journal =
      effect.journal.filter fun activity => activity.source? ≠ some extra.source)
    (unpulled : effect.journal.filterMap (Activity.answer? extra.source) = []) :
    (network.commit target effect reply).Spares ref extra base tallied
      ((network.strike ref extra base).commit target struck reply) := by
  have served : ({ network with sources := effect.sources } : Network σ).Idles ref extra := idles
  refine ⟨?_, served.setView kept, fun other => congrArg reply (value other), ?_, ?_, rfl⟩
  · simp only [commit, later, sources]
    exact setView_strike { network with sources := effect.sources }
  · simp only [commit, journal, List.filter_map]
    rfl
  · rw [commit, Event.answers_map_view, unpulled]

theorem spares_commit {β : Type} {effect struck : Effect σ β} (idles : network.Idles ref extra)
    (spares : Effect.Spares (extra.struck ref target) extra.source base effect struck)
    (reply : β → Reply σ) :
    (network.commit target effect reply).Spares ref extra base tallied
      ((network.strike ref extra base).commit target struck reply) := by
  obtain ⟨rfl, kept, apart⟩ := spares
  refine spares_commit_of reply idles rfl rfl kept (fun _ => rfl) ?_ ?_
  · exact (List.filter_eq_self.mpr fun activity done => decide_eq_true (apart activity done)).symm
  · rw [List.filterMap_eq_nil_iff]
    exact fun activity done => Activity.answer?_eq_none (apart activity done)

theorem spares_signalling {step struck : Step σ}
    (spares : step.Spares ref extra base tallied struck) :
    (signalling step target).Spares ref extra base tallied (signalling struck target) := by
  unfold signalling
  rw [spares.network, slots_strike]
  cases step.network.slots[target]? with
  | none => exact spares
  | some slot =>
    refine ⟨setListener_strike _, spares.idles.setListener _, spares.reply, ?_, ?_, rfl⟩
    · simp only [spares.events, List.filter_append]
      rfl
    · rw [Event.answers_append, spares.unpulled]
      rfl

end

theorem spares_notify {notifier : Notifier} (idles : network.Idles ref extra)
    (other : notifier ≠ ⟨ref, extra.source⟩) :
    (network.notify notifier).Spares ref extra base tallied
      ((network.strike ref extra base).notify notifier) := by
  obtain ⟨target, source⟩ := notifier
  unfold notify
  rw [view?_strike]
  cases found : network.view? target with
  | none => exact spares_still idles
  | some view =>
    have heard : Effect.Spares (extra.struck ref target) extra.source base
        (view.notify network.sources source)
        ((view.strike (extra.struck ref target)).notify (network.strike ref extra base).sources
          source) := by
      by_cases own : source = extra.source
      · -- the view is another one, which does not know the source
        subst own
        have different : target ≠ ref := fun same => other (congrArg (Notifier.mk · _) same)
        have spare := idles target view found
        rw [Registration.struck, if_neg different] at spare ⊢
        have unknown : view.registry.idOf? extra.source = none := by
          rw [Registry.idOf?_eq_none_iff]
          intro listed
          obtain ⟨entry, mem, same⟩ := List.mem_map.mp listed
          exact List.not_mem_nil ((spare.knows.same entry mem).mpr same)
        rw [View.strike_nil, View.notify_of_unregistered unknown,
          View.notify_of_unregistered unknown]
        refine ⟨?_, spare, List.forall_mem_nil _⟩
        exact congrArg (fun view => Effect.mk false view _ _) (View.strike_nil view).symm
      · exact View.notify_strike network.sources base (idles target view found) own
    have committed : (network.commit target (view.notify network.sources source)
        fun _ => .flag true).Spares ref extra base tallied _ :=
      spares_commit idles heard fun _ => .flag true
    have value := congrArg Effect.value heard.same
    dsimp only [Option.map_some]
    rw [value, Effect.value_strike]
    by_cases alarm : (view.notify network.sources source).value = true
    · rw [if_pos alarm, if_pos alarm]
      exact spares_signalling committed
    · rw [if_neg alarm, if_neg alarm]
      exact committed

theorem spares_ringing {notifier? : Option Notifier} (idles : network.Idles ref extra)
    (other : notifier? ≠ some ⟨ref, extra.source⟩) (reply : Reply σ) :
    (network.ringing notifier? reply).Spares ref extra base tallied
      ((network.strike ref extra base).ringing notifier? reply) := by
  cases notifier? with
  | none => exact spares_still idles
  | some notifier =>
    have rung : (network.notify notifier).Spares ref extra base tallied
        ((network.strike ref extra base).notify notifier) :=
      spares_notify idles fun same => other (congrArg some same)
    exact ⟨rung.network, rung.idles, fun _ => rfl, rung.events, rung.unpulled, rung.call⟩

/-- A change of another source, with the ringing after it, is the same without the source. -/
theorem spares_change {source : SourceRef} {step : σ → σ × Option Notifier}
    (idles : network.Idles ref extra) (other : source ≠ extra.source)
    (unrung : ∀ state, network.sources[source]? = some state →
      (step state).2 ≠ some ⟨ref, extra.source⟩) (reply : Reply σ) :
    (network.change source step reply).Spares ref extra base tallied
      ((network.strike ref extra base).change source step reply) := by
  unfold change
  rw [source_strike other]
  cases present : network.sources[source]? with
  | none => exact spares_still idles
  | some state =>
    have changed : ({ network with
        sources := network.sources.set source (step state).1 } : Network σ).Idles ref extra := idles
    have rung : Step.Spares ref extra base tallied _ _ :=
      spares_ringing changed (unrung state present) reply
    have pool := List.set_comm base (step state).1 (Ne.symm other) (l := network.sources)
    simp only [strike, pool] at rung ⊢
    exact rung

theorem spares_answer (idles : network.Idles ref extra) (found : network.view? target = some view)
    {request : Request}
    (own : ∀ segment, target = ref → request ≠ .requireSegment extra.id segment) :
    (network.answer target view request).Spares ref extra base
      ((.request target request : Command Notifier α).tallies ref)
      ((network.strike ref extra base).answer target (view.strike (extra.struck ref target))
        request) := by
  have idle := idles target view found
  -- a request whose answer goes through all sources is answered alike by the other views only
  have foreign (tallies : request.tallies = true)
      (other : (.request target request : Command Notifier α).tallies ref = false) :
      extra.struck ref target = [] := by
    rw [Command.tallies, tallies, Bool.and_true, beq_eq_false_iff_ne] at other
    exact if_neg other
  cases request with
  | peek | availability =>
    exact spares_commit idles (View.consult_strike network.sources base idle fun _ => rfl) _
  | next =>
    exact spares_commit idles (View.next_strike network.sources base idle) fun entry =>
      .delivery (entry.map Entry.delivery)
  | drain limit =>
    exact spares_commit idles (View.drain_strike network.sources base idle limit) fun entries =>
      .deliveries (entries.map Entry.delivery)
  | release =>
    obtain ⟨later, sources, journal, kept, value⟩ := View.release_strike network.sources base idle
    exact spares_commit_of (fun error? => error?.elim .done .refused) idles later sources kept
      (fun other => value (foreign rfl other)) journal
      (view.answers_release network.sources extra.source)
  | requireSegment id segment =>
    have outside : id ∉ extra.struck ref target :=
      extra.not_mem_struck fun same given => own segment same (by rw [given])
    have told := View.requireSegment_strike network.sources base idle segment outside
    have pool : (network.strike ref extra base).sources = network.sources.set extra.source base :=
      rfl
    simp only [answer, pool, told]
    cases view.requireSegment network.sources id segment with
    | error cause => exact spares_still idles
    | ok sources => exact ⟨rfl, idles, fun _ => rfl, rfl, rfl, rfl⟩
  | resize size =>
    refine ⟨?_, idles, fun _ => rfl, rfl, rfl, rfl⟩
    have told := View.resize_strike network.sources base idle size
    exact congrArg (fun sources => Network.mk sources _) told
  | sourceIds =>
    refine ⟨rfl, idles, fun other => ?_, rfl, rfl, rfl⟩
    rw [foreign rfl other, View.strike_nil]
    rfl
  | stats =>
    refine ⟨rfl, idles, fun other => ?_, rfl, rfl, rfl⟩
    rw [foreign rfl other, View.strike_nil]
    rfl
  | failure =>
    refine ⟨rfl, idles, fun other => ?_, rfl, rfl, rfl⟩
    rw [foreign rfl other] at idle ⊢
    rw [View.strike_nil]
    exact congrArg Reply.failure (View.failure?_set network.sources base idle)
  | _ => exact spares_still idles

/-- The registration of another source, under another identifier, goes the same way. -/
theorem register_strike (base : σ) {source : SourceRef} {id : SourceId}
    (idles : network.Idles ref extra) (other : source ≠ extra.source)
    (outside : id ∉ extra.struck ref target) :
    (network.strike ref extra base).register target source id =
        (network.register target source id).map (strike ref extra base) ∧
      ∀ registered, network.register target source id = .ok registered →
        registered.Idles ref extra := by
  unfold register
  rw [view?_strike, source_strike other]
  cases found : network.view? target with
  | none => exact ⟨rfl, by simp⟩
  | some view =>
    have idle := idles target view found
    cases network.sources[source]? with
    | none => exact ⟨rfl, by simp⟩
    | some state =>
      simp only [Option.map_some, View.register_strike idle outside other]
      cases renewed : view.register id source with
      | error cause => exact ⟨rfl, by simp⟩
      | ok later =>
        refine ⟨congrArg Except.ok (setView_strike network), ?_⟩
        rintro registered ⟨⟩
        exact idles.setView (idle.register outside other renewed)

/-! ### Kinds of commands -/

theorem Avoids.away {command : Command Notifier α} {source : SourceRef}
    (avoids : network.Avoids ref extra command) (named : command.source? = some source) :
    source ≠ extra.source := by
  rintro rfl
  exact avoids.source named

theorem spares_request {request : Request} (idles : network.Idles ref extra)
    (avoids : (network.strike ref extra base).Avoids ref extra
      (.request target request : Command Notifier α)) :
    (network.exec (.request target request : Command Notifier α)).Spares ref extra base
      ((.request target request : Command Notifier α).tallies ref)
      ((network.strike ref extra base).exec (.request target request : Command Notifier α)) := by
  simp only [exec, view?_strike]
  cases found : network.view? target with
  | none => exact spares_still idles
  | some view =>
    refine spares_answer idles found fun segment same asked => avoids.segment ?_
    rw [same, asked]
    exact if_pos rfl

theorem spares_register {source : SourceRef} {id : SourceId} (idles : network.Idles ref extra)
    (avoids : (network.strike ref extra base).Avoids ref extra
      (.register target source id : Command Notifier α)) :
    (network.exec (.register target source id : Command Notifier α)).Spares ref extra base tallied
      ((network.strike ref extra base).exec (.register target source id : Command Notifier α)) := by
  have outside : id ∉ extra.struck ref target :=
    extra.not_mem_struck fun own => avoids.id ⟨id, source⟩ (if_pos own)
  obtain ⟨same, kept⟩ := register_strike base idles (avoids.away rfl) outside
  simp only [exec, same]
  cases accepted : network.register target source id with
  | error reply => exact spares_still idles
  | ok registered => exact spares_still (kept registered accepted)

theorem spares_add {source : SourceRef} (idles : network.Idles ref extra)
    (avoids : (network.strike ref extra base).Avoids ref extra
      (.add target source : Command Notifier α)) :
    (network.exec (.add target source : Command Notifier α)).Spares ref extra base tallied
      ((network.strike ref extra base).exec (.add target source : Command Notifier α)) := by
  have other : source ≠ extra.source := avoids.away rfl
  have found : (network.strike ref extra base).sources[source]? = _ := source_strike other
  simp only [exec, found]
  cases own : network.sources[source]?.bind Producer.ownId? with
  | none => exact spares_still idles
  | some id =>
    have outside : id ∉ extra.struck ref target := by
      refine extra.not_mem_struck fun same => avoids.id ⟨id, source⟩ ?_
      rw [Command.asked?, if_pos same, found, own]
      rfl
    obtain ⟨same, kept⟩ := register_strike base idles other outside
    simp only [same]
    cases accepted : network.register target source id with
    | error reply => exact spares_still idles
    | ok registered =>
      refine spares_change (kept registered accepted) other (fun state present rung => ?_) _
      rw [sources_of_register network accepted] at present
      rw [present] at own
      have granted : (network.strike ref extra base).register target source id =
          .ok (registered.strike ref extra base) := by
        rw [same, accepted]
        rfl
      exact avoids.unrung _ (.add (found.trans present) own granted rung)

theorem spares_announce {source : SourceRef} (idles : network.Idles ref extra)
    (other : source ≠ extra.source) :
    (network.exec (.announce target source : Command Notifier α)).Spares ref extra base tallied
      ((network.strike ref extra base).exec (.announce target source : Command Notifier α)) := by
  simp only [exec, view?_strike]
  cases network.view? target with
  | none => exact spares_still idles
  | some view =>
    have apart : (⟨target, source⟩ : Notifier) ≠ ⟨ref, extra.source⟩ := fun same =>
      other (congrArg Notifier.source same)
    have heard : (network.notify ⟨target, source⟩).Spares ref extra base false _ :=
      spares_notify idles apart
    exact ⟨heard.network, heard.idles, fun _ => rfl, heard.events, heard.unpulled, heard.call⟩

theorem spares_pull {source : SourceRef} (idles : network.Idles ref extra)
    (other : source ≠ extra.source) :
    (network.exec (.pull source : Command Notifier α)).Spares ref extra base tallied
      ((network.strike ref extra base).exec (.pull source : Command Notifier α)) := by
  have pulled : Producer.pullAt (network.strike ref extra base).sources source = _ :=
    Producer.pullAt_set network.sources base other
  simp only [exec, source_strike other]
  cases network.sources[source]? with
  | none => exact spares_still idles
  | some state =>
    simp only [pulled]
    refine ⟨rfl, idles, fun _ => rfl, ?_, ?_, rfl⟩
    · simp [Event.source?, other]
    · simp [Event.answers, Event.answer?, other]

theorem spares_releaseSource {source : SourceRef} (idles : network.Idles ref extra)
    (other : source ≠ extra.source) :
    (network.exec (.releaseSource source : Command Notifier α)).Spares ref extra base tallied
      ((network.strike ref extra base).exec (.releaseSource source : Command Notifier α)) := by
  have released : Producer.releaseAt (network.strike ref extra base).sources source = _ :=
    Producer.releaseAt_set network.sources base other
  simp only [exec, source_strike other]
  cases network.sources[source]? with
  | none => exact spares_still idles
  | some state =>
    simp only [released]
    exact ⟨rfl, idles, fun _ => rfl, rfl, rfl, rfl⟩

theorem spares_receive (idles : network.Idles ref extra) (target : ViewRef) :
    (network.exec (.receive target : Command Notifier α)).Spares ref extra base tallied
      ((network.strike ref extra base).exec (.receive target : Command Notifier α)) := by
  simp only [exec]
  rw [listener_strike Listener.receive?]
  cases network.slots[target]?.bind fun slot => slot.listener.receive? with
  | none => exact spares_still idles
  | some read => exact spares_setListener idles read.2

theorem spares_dropReceiver (idles : network.Idles ref extra) (target : ViewRef) :
    (network.exec (.dropReceiver target : Command Notifier α)).Spares ref extra base tallied
      ((network.strike ref extra base).exec (.dropReceiver target : Command Notifier α)) := by
  simp only [exec]
  rw [listener_strike Listener.disconnect?]
  cases network.slots[target]?.bind fun slot => slot.listener.disconnect? with
  | none => exact spares_still idles
  | some later => exact spares_setListener idles later

theorem spares_dropView (idles : network.Idles ref extra) (target : ViewRef) :
    (network.exec (.dropView target : Command Notifier α)).Spares ref extra base tallied
      ((network.strike ref extra base).exec (.dropView target : Command Notifier α)) := by
  simp only [exec, view?_strike]
  cases network.view? target with
  | none => exact spares_still idles
  | some view =>
    refine ⟨?_, idles.dropView, fun _ => rfl, rfl, rfl, rfl⟩
    exact congrArg (Network.mk _) dropView_strike

/-- A command that leaves the registration alone does the same without it. -/
theorem spares_exec {command : Command Notifier α} (idles : network.Idles ref extra)
    (avoids : (network.strike ref extra base).Avoids ref extra command) :
    (network.exec command).Spares ref extra base (command.tallies ref)
      ((network.strike ref extra base).exec command) := by
  cases command with
  | request target request => exact spares_request idles avoids
  | register target source id => exact spares_register idles avoids
  | attach source notifier =>
    have other : source ≠ extra.source := avoids.away rfl
    refine spares_change idles other (fun state present rung => ?_) _
    exact avoids.unrung _ (.attach ((source_strike other).trans present) rung)
  | add target source => exact spares_add idles avoids
  | ring notifier =>
    refine spares_notify idles fun same => ?_
    subst same
    exact avoids.unrung _ (.ring _)
  | announce target source => exact spares_announce idles (avoids.away rfl)
  | isAlive notifier =>
    simp only [exec, view?_strike, Option.isSome_map]
    exact spares_still idles
  | act source action =>
    have other : source ≠ extra.source := avoids.away rfl
    refine spares_change idles other (fun state present rung => ?_) _
    exact avoids.unrung _ (.act ((source_strike other).trans present) rung)
  | pull source => exact spares_pull idles (avoids.away rfl)
  | releaseSource source => exact spares_releaseSource idles (avoids.away rfl)
  | sourceFailure source | inspect source =>
    simp only [exec, source_strike (avoids.away rfl)]
    cases network.sources[source]? <;> exact spares_still idles
  | receive target => exact spares_receive idles target
  | dropReceiver target => exact spares_dropReceiver idles target
  | dropView target => exact spares_dropView idles target

end Network

end FairMerge
