import FairMerge.Network.Command
import FairMerge.Network.Listener

/-! # Networks

A network is a pool of sources, the views that merge them, and the listener of each view. Whatever
happens in it is a command: `Network.exec` gives the network after it, the answer, and a journal of
what the views and sources did meanwhile.

A command signals at most one listener, and it does so last. So a callback that acts on the network
in turn finds it in the state in which the command leaves it. -/

namespace FairMerge

/-- A view with its listener. The view is missing if it was refused or dropped. -/
structure Slot where
  view? : Option View
  listener : Listener
deriving DecidableEq

/-- The state of a network. Sources and slots are referred to by their places. -/
structure Network (σ : Type) where
  sources : List σ
  slots : List Slot
deriving DecidableEq

/-- An entry of the journal. -/
inductive Event where
  /-- A view did something. -/
  | view (view : ViewRef) (activity : Activity)
  /-- The listener of a view was signalled. -/
  | signalled (view : ViewRef)
  /-- A source was pulled past every view. -/
  | drawn (source : SourceRef) (answer : Answer)
deriving DecidableEq

/-- A call of a view's callback, the first one having the number one. -/
structure Call where
  view : ViewRef
  number : Nat
deriving DecidableEq

/-- What a command does. -/
structure Step (σ : Type) where
  network : Network σ
  reply : Reply σ
  events : List Event
  /-- The callback that is called last. -/
  call? : Option Call

namespace Network

variable {σ α : Type} [Producer σ α]

/-- The view at a place. -/
def view? (network : Network σ) (view : ViewRef) : Option View :=
  network.slots[view]?.bind Slot.view?

/-- Replaces the view at a place. -/
def setView (network : Network σ) (view : ViewRef) (state : View) : Network σ :=
  { network with slots := network.slots.modify view fun slot => { slot with view? := some state } }

/-- Replaces the listener at a place. -/
def setListener (network : Network σ) (view : ViewRef) (listener : Listener) : Network σ :=
  { network with slots := network.slots.modify view fun slot => { slot with listener } }

/-- A network of fresh views. A view whose settings are refused leaves its slot empty. -/
def ofViews (sources : List σ) (views : List (Except Error View × Listener)) : Network σ where
  sources := sources
  slots := views.map fun (view, listener) => ⟨view.toOption, listener⟩

/-! ### Kinds of steps -/

/-- A step that answers and changes nothing. -/
def still (network : Network σ) (reply : Reply σ) : Step σ := ⟨network, reply, [], none⟩

/-- A step that leaves the sources and the view at a place as an operation of the view does. -/
def commit {β : Type} (network : Network σ) (view : ViewRef) (effect : Effect σ β)
    (reply : β → Reply σ) : Step σ where
  network := { network with sources := effect.sources }.setView view effect.view
  reply := reply effect.value
  events := effect.journal.map (Event.view view)
  call? := none

/-- Signals the listener of a view. -/
def signalling (step : Step σ) (view : ViewRef) : Step σ :=
  match step.network.slots[view]? with
  | none => step
  | some slot =>
    let listener := slot.listener.signal
    { step with
      network := step.network.setListener view listener
      events := step.events ++ [.signalled view]
      call? := listener.calls?.map (Call.mk view) }

/-! ### Requests to a view -/

/-- A view's answer to a request. -/
def answer (network : Network σ) (ref : ViewRef) (view : View) : Request → Step σ
  | .sourceIds => network.still (.ids view.sourceIds)
  | .peek => network.commit ref (view.peek network.sources) .id
  | .next =>
    network.commit ref (view.next network.sources) fun entry =>
      .delivery (entry.map Entry.delivery)
  | .drain limit =>
    network.commit ref (view.drain network.sources limit) fun entries =>
      .deliveries (entries.map Entry.delivery)
  | .availability credit =>
    network.commit ref (view.availability network.sources credit) .availability
  | .queued => network.still (.number view.queued)
  | .publicCount => network.still (.number view.published)
  | .requireSegment id segment =>
    match view.requireSegment network.sources id segment with
    | .error cause => network.still (.refused cause)
    | .ok sources => { network with sources }.still .done
  | .resize size => { network with sources := view.resize network.sources size }.still .done
  | .release =>
    network.commit ref (view.release network.sources) fun error? => error?.elim .done .refused
  | .isReleased => network.still (.flag view.released)
  | .capacity => network.still (.number view.capacity)
  | .failure => network.still (.failure (view.failure? network.sources))
  | .stats => network.still (.stats view.stats)
  | .capabilities => network.still (.capabilities Capability.ofMerge)
  | .supports capability => network.still (.flag (Capability.ofMerge.contains capability))
  | .unsupported operation => network.still (.refused operation.error)
  | .describe => network.still (.text view.describe)

/-! ### Notifiers and sources -/

/-- Tells a view that a source has data, and signals the listener if the view says so. A view that
is gone does not hear it, which is the answer. -/
def notify (network : Network σ) (notifier : Notifier) : Step σ :=
  match network.view? notifier.view with
  | none => network.still (.flag false)
  | some view =>
    let effect := view.notify network.sources notifier.source
    let heard := network.commit notifier.view effect fun _ => .flag true
    if effect.value then signalling heard notifier.view else heard

/-- Answers, then rings the notifier if there is one to ring. -/
def ringing (network : Network σ) (notifier? : Option Notifier) (reply : Reply σ) : Step σ :=
  match notifier? with
  | none => network.still reply
  | some notifier => { network.notify notifier with reply }

/-- Changes the source at a place, then rings the notifier that the change names. -/
def change (network : Network σ) (source : SourceRef) (step : σ → σ × Option Notifier)
    (reply : Reply σ) : Step σ :=
  match network.sources[source]? with
  | none => network.still .missing
  | some state =>
    let result := step state
    { network with sources := network.sources.set source result.1 }.ringing result.2 reply

/-- Registers a source with a view. -/
def register (network : Network σ) (view : ViewRef) (source : SourceRef) (id : SourceId) :
    Except (Reply σ) (Network σ) :=
  match network.view? view, network.sources[source]? with
  | some state, some _ =>
    match state.register id source with
    | .error cause => .error (.refused cause)
    | .ok state => .ok (network.setView view state)
  | _, _ => .error .missing

/-- Carries out a command. -/
def exec (network : Network σ) : Command Notifier α → Step σ
  | .request view request =>
    match network.view? view with
    | none => network.still .missing
    | some state => network.answer view state request
  | .register view source id =>
    match network.register view source id with
    | .error reply => network.still reply
    | .ok registered => registered.still (.registered ⟨view, source⟩)
  | .attach source notifier => network.change source (Producer.attach notifier) .done
  | .add view source =>
    match network.sources[source]?.bind Producer.ownId? with
    | none => network.still .missing
    | some id =>
      match network.register view source id with
      | .error reply => network.still reply
      | .ok registered =>
        registered.change source (Producer.attach ⟨view, source⟩) (.registered ⟨view, source⟩)
  | .ring notifier => network.notify notifier
  | .announce view source =>
    match network.view? view with
    | none => network.still .missing
    | some _ => { network.notify ⟨view, source⟩ with reply := .done }
  | .isAlive notifier => network.still (.flag (network.view? notifier.view).isSome)
  | .act source action => network.change source (Producer.act action) .done
  | .pull source =>
    match network.sources[source]? with
    | none => network.still .missing
    | some _ =>
      let result := Producer.pullAt network.sources source
      { network := { network with sources := result.2 }
        reply := .answer result.1
        events := [.drawn source result.1]
        call? := none }
  | .sourceFailure source =>
    match network.sources[source]? with
    | none => network.still .missing
    | some state => network.still (.failure (Producer.failure? state))
  | .releaseSource source =>
    match network.sources[source]? with
    | none => network.still .missing
    | some _ =>
      let result := Producer.releaseAt network.sources source
      { network with sources := result.2 }.still (result.1.elim .done .refused)
  | .inspect source =>
    match network.sources[source]? with
    | none => network.still .missing
    | some state => network.still (.source state)
  | .receive view =>
    match network.slots[view]?.bind fun slot => slot.listener.receive? with
    | none => network.still .missing
    | some (received, listener) => (network.setListener view listener).still (.flag received)
  | .dropReceiver view =>
    match network.slots[view]?.bind fun slot => slot.listener.disconnect? with
    | none => network.still .missing
    | some listener => (network.setListener view listener).still .done
  | .dropView view =>
    match network.view? view with
    | none => network.still .missing
    | some _ =>
      { network with
        slots := network.slots.modify view fun slot => { slot with view? := none } }.still .done

/-- Carries out commands one after the other. -/
def run (network : Network σ) : List (Command Notifier α) → List (Step σ)
  | [] => []
  | command :: commands =>
    let step := network.exec command
    step :: step.network.run commands

end Network

end FairMerge
