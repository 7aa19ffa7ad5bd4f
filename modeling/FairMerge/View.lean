import FairMerge.Pass
import FairMerge.View.Config
import FairMerge.View.Stats

/-! # Views

A view merges the buffers of its registered sources into one stream. It keeps a bounded number of
buffers ready for the consumer, refills them by a pass over the sources whenever the consumer asks
or a source announces data while none wait, and numbers what it delivers from zero without gaps.

The sources live in a pool that the view does not own: an operation that pulls or tells them takes
the pool and gives it back changed. -/

namespace FairMerge

/-- The state of a view. -/
structure View where
  registry : Registry
  rotation : Rotation
  /-- The buffers that wait for the consumer. -/
  queue : Lookahead
  /-- The errors that pulls of this view met, the latest first. -/
  faults : List Fault
  /-- The number of buffers delivered. It has no bound here; a counter of 64 bits is the same number
  as long as fewer than `2 ^ 64` were delivered. -/
  sequence : Nat
  /-- After release a view pulls and delivers nothing. -/
  released : Bool
  /-- The number of waiting buffers as it was last made public. -/
  published : Nat
deriving DecidableEq

/-- What a view does that concerns a source or the consumer. -/
inductive Activity where
  /-- It pulled a source. -/
  | pulled (pull : Pull)
  /-- It delivered to the consumer, and so many buffers were left waiting. -/
  | delivered (entry : Entry) (left : Nat)
  /-- It released a source, which failed with an error or did not. -/
  | released (registration : Registration) (error? : Option Error)
deriving DecidableEq

/-- What an operation of a view answers and leaves behind. -/
structure Effect (σ β : Type) where
  value : β
  view : View
  sources : List σ
  /-- What the view did, in order. -/
  journal : List Activity

namespace View

/-- A view without sources. -/
def empty (capacity : Nat) : View :=
  ⟨.empty, .empty, .empty capacity, [], 0, false, 0⟩

/-- A view with the settings given, if they are sound. -/
def ofConfig (config : Config) : Except Error View :=
  config.validate.map fun _ => empty config.capacity

instance : Inhabited View := ⟨empty Config.defaultCapacity⟩

/-! ### Registration -/

/-- Registers a source and puts it at the end of the rotation. A refused registration gives no new
state. -/
def register (view : View) (id : SourceId) (source : SourceRef) : Except Error View :=
  if view.released then .error .released
  else
    match view.registry.insert id source with
    | .error cause => .error cause
    | .ok registry =>
      (view.rotation.register id).map fun rotation => { view with registry, rotation }

/-- The registered identifiers, the oldest first. -/
def sourceIds (view : View) : List SourceId := view.registry.ids

/-! ### Refilling -/

variable {σ α : Type} [Producer σ α]

/-- Takes over what a pass brought. The sources that failed in it count as ready again, so that the
next pass asks them once more. -/
def absorb (view : View) (pass : Pass σ) : View :=
  { view with
    rotation := pass.faults.foldl (fun rotation fault => rotation.announce fault.id) pass.rotation
    queue := view.queue.append pass.entries
    faults := pass.faults.reverse ++ view.faults }

/-- Fills the room of the queue by a pass over the sources. A released view leaves them alone. -/
def refill (view : View) (sources : List σ) : Effect σ Unit :=
  if view.released then ⟨(), view, sources, []⟩
  else
    let pass := Pass.run view.registry view.queue.room view.rotation sources
    ⟨(), view.absorb pass, pass.sources, pass.pulls.map Activity.pulled⟩

/-- Makes the number of waiting buffers public. -/
def publish (view : View) : View := { view with published := view.queue.length }

/-- Refills, makes the count public and answers from the state reached. -/
def consult {β : Type} (view : View) (sources : List σ) (answer : View → β) : Effect σ β :=
  let filled := view.refill sources
  let reached := filled.view.publish
  ⟨answer reached, reached, filled.sources, filled.journal⟩

/-! ### The consumer's side -/

/-- The source that the next delivery comes from, if a buffer is waiting. -/
def peek (view : View) (sources : List σ) : Effect σ (Option SourceId) :=
  view.consult sources fun reached => reached.queue.head?.map Entry.source

/-- Takes the next delivery, with the source it comes from. The place that it frees is filled
before backlog and next kind are read, so a source that still has data shows in them. -/
def next (view : View) (sources : List σ) : Effect σ (Option Entry) :=
  let first := view.refill sources
  match first.view.queue.pop? with
  | none => ⟨none, first.view.publish, first.sources, first.journal⟩
  | some (entry, queue) =>
    let second := { first.view with queue }.refill first.sources
    let reached := second.view.publish
    let delivered : Entry := { entry with
      delivery := {
        buffer := entry.delivery.buffer
        backlog := reached.queue.dataBacklog
        nextKind := reached.queue.headKind
        sequence := reached.sequence } }
    ⟨some delivered, { reached with sequence := reached.sequence + 1 }, second.sources,
      first.journal ++ second.journal ++ [.delivered delivered reached.queue.length]⟩

/-- Takes deliveries until none is left, at most as many as the limit says. -/
def drain (view : View) (sources : List σ) : Nat → Effect σ (List Entry)
  | 0 => ⟨[], view, sources, []⟩
  | limit + 1 =>
    let first := view.next sources
    match first.value with
    | none => ⟨[], first.view, first.sources, first.journal⟩
    | some entry =>
      let rest := first.view.drain first.sources limit
      ⟨entry :: rest.value, rest.view, rest.sources, first.journal ++ rest.journal⟩

/-- Whether a buffer may be sent to a consumer with or without credit. An event at the head needs
no credit. -/
def availability (view : View) (sources : List σ) (credit : Bool) : Effect σ Availability :=
  view.consult sources fun reached =>
    if reached.queue.isEmpty then .unavailable
    else ⟨credit || reached.queue.headKind == .event, reached.queue.dataBacklog⟩

/-- The number of waiting buffers. -/
def queued (view : View) : Nat := view.queue.length

/-! ### The producers' side -/

/-- Hears that a source has data. The answer is whether the listener has to be signalled: it is if
nothing was waiting before and something is now. A source that is not registered is ignored, and so
is every source once the view is released. -/
def notify (view : View) (sources : List σ) (source : SourceRef) : Effect σ Bool :=
  if view.released then ⟨false, view, sources, []⟩
  else
    match view.registry.idOf? source with
    | none => ⟨false, view, sources, []⟩
    | some id =>
      let heard := { view with rotation := view.rotation.announce id }
      if heard.queue.isEmpty then
        heard.consult sources fun reached => !reached.queue.isEmpty
      else ⟨false, heard, sources, []⟩

/-! ### Administration -/

/-- Hands a segment request to the source registered under the identifier. -/
def requireSegment (view : View) (sources : List σ) (id : SourceId) (segment : UInt32) :
    Except Error (List σ) :=
  match view.registry.source? id with
  | none => .error (.unknownSource id)
  | some source => .ok (sources.modify source (Producer.requireSegment id segment))

/-- Tells every registered source the consumer's new buffer size. -/
def resize (view : View) (sources : List σ) (size : Nat) : List σ :=
  view.registry.entries.foldl
    (fun sources entry => sources.modify entry.source (Producer.resize size)) sources

/-- Releases sources one after the other, going on after a failure. With each stands its error, if
it failed. -/
def releaseEach : List Registration → List σ → List (Registration × Option Error) × List σ
  | [], sources => ([], sources)
  | entry :: entries, sources =>
    let result := Producer.releaseAt sources entry.source
    let rest := releaseEach entries result.2
    ((entry, result.1) :: rest.1, rest.2)

/-- Drops the waiting buffers and releases every source. The answer is the error of the first source
that failed. Only the first release does anything. -/
def release (view : View) (sources : List σ) : Effect σ (Option Error) :=
  if view.released then ⟨none, view, sources, []⟩
  else
    let result := releaseEach view.registry.entries sources
    ⟨result.1.findSome? Prod.snd,
      { view with released := true, queue := view.queue.clear }.publish, result.2,
      result.1.map fun (entry, error?) => .released entry error?⟩

/-- Why a registered source failed: by its own account, else by the last error that this view met
when it pulled the source. -/
def failureOf? (view : View) (sources : List σ) (entry : Registration) : Option Error :=
  (Producer.failureAt? sources entry.source).or
    ((view.faults.find? fun fault => fault.id == entry.id).map Fault.cause)

/-- Why the last of the failed sources failed, in the order of registration. -/
def failure? (view : View) (sources : List σ) : Option Error :=
  (view.registry.entries.filterMap (view.failureOf? sources)).getLast?

/-- The counters. -/
def stats (view : View) : Stats where
  sources := view.registry.length
  queued := view.queue.length
  dataBacklog := view.queue.dataBacklog
  nextSequence := view.sequence
  released := view.released

/-- The capacity that the view was made with. -/
def capacity (view : View) : Nat := view.queue.capacity

/-- The view's description shows the public count alone. -/
def describe (view : View) : String :=
  Description.bracedOpen "UnionView" [Description.field "queued" (Decimal.text view.published)]

end View

end FairMerge
