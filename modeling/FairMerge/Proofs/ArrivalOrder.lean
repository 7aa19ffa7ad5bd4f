import FairMerge.Proofs.TransientFaults

/-! # The order of arrival

While buffers wait for the consumer, a push adds to the queue of its source and, if the queue was
empty, makes a source ready, and that is all. What comes of many pushes is settled by what arrives
at each source: neither the order of pushes to different sources shows, nor whether buffers come one
by one or together. -/

namespace FairMerge

/-! ### Batches of calls -/

/-- A call that pushes into a queue-backed source. -/
inductive Push where
  | single (source : SourceRef) (buffer : Buffer)
  | several (source : SourceRef) (buffers : List Buffer)
deriving DecidableEq

namespace Push

/-- The place of the source. -/
def source : Push → SourceRef
  | single source _ | several source _ => source

/-- What is pushed, in order. -/
def buffers : Push → List Buffer
  | single _ buffer => [buffer]
  | several _ buffers => buffers

/-- The call as a command. -/
def command : Push → Command Notifier Source.Action
  | single source buffer => .act source (.memory (.push buffer))
  | several source buffers => .act source (.memory (.pushAll buffers))

/-- What the call brings to a place. -/
def brings (push : Push) (place : SourceRef) : List Buffer :=
  if push.source = place then push.buffers else []

end Push

/-- What a batch of calls brings to a place, in order. -/
def arrivals (batch : List Push) (place : SourceRef) : List Buffer :=
  batch.flatMap fun push => push.brings place

theorem arrivals_append (first second : List Push) (place : SourceRef) :
    arrivals (first ++ second) place = arrivals first place ++ arrivals second place :=
  List.flatMap_append

theorem arrivals_cons (push : Push) (batch : List Push) (place : SourceRef) :
    arrivals (push :: batch) place = push.brings place ++ arrivals batch place := rfl

theorem arrivals_eq_filter (batch : List Push) (place : SourceRef) :
    arrivals batch place = (batch.filter fun push => push.source = place).flatMap Push.buffers := by
  induction batch with
  | nil => rfl
  | cons push batch ih =>
    rw [arrivals_cons, ih]
    by_cases here : push.source = place <;> simp [Push.brings, here]

theorem arrivals_singles (source : SourceRef) (buffers : List Buffer) (place : SourceRef) :
    arrivals (buffers.map (Push.single source)) place =
      (Push.several source buffers).brings place := by
  rw [arrivals, List.flatMap_map]
  by_cases here : source = place
  · simp [Push.brings, Push.source, Push.buffers, here]
  · simp [Push.brings, Push.source, here]

/-- Buffers that arrive are brought by a call. -/
theorem arrivals_ne_nil_iff {batch : List Push} {place : SourceRef} :
    arrivals batch place ≠ [] ↔ ∃ push ∈ batch, push.buffers ≠ [] ∧ push.source = place := by
  simp only [arrivals, ne_eq, List.flatMap_eq_nil_iff, Push.brings, ite_eq_right_iff, not_forall,
    exists_prop, and_comm]

/-- One batch becomes another one when its calls are reordered such that the calls on each source
keep their order, when a call for several buffers is split into calls for single ones, and when such
calls are merged. -/
inductive Rearranged : List Push → List Push → Prop
  | reorder {batch other : List Push}
    (order : ∀ place, (batch.filter fun push => push.source = place) =
      other.filter fun push => push.source = place) : Rearranged batch other
  | split (before after : List Push) (source : SourceRef) (buffers : List Buffer) :
    Rearranged (before ++ .several source buffers :: after)
      (before ++ (buffers.map (Push.single source) ++ after))
  | merge (before after : List Push) (source : SourceRef) (buffers : List Buffer) :
    Rearranged (before ++ (buffers.map (Push.single source) ++ after))
      (before ++ .several source buffers :: after)
  | trans {batch middle other : List Push} (first : Rearranged batch middle)
    (second : Rearranged middle other) : Rearranged batch other

/-- A rearranged batch brings the same to every place. -/
theorem Rearranged.arrivals_eq {batch other : List Push} (rearranged : Rearranged batch other) :
    arrivals batch = arrivals other := by
  have parts (before after : List Push) (source : SourceRef) (buffers : List Buffer) :
      arrivals (before ++ .several source buffers :: after) =
        arrivals (before ++ (buffers.map (Push.single source) ++ after)) := by
    funext place
    rw [arrivals_append, arrivals_append, arrivals_append, arrivals_singles]
    rfl
  induction rearranged with
  | reorder order =>
    funext place
    rw [arrivals_eq_filter, arrivals_eq_filter, order]
  | split before after source buffers => exact parts before after source buffers
  | merge before after source buffers => exact (parts before after source buffers).symm
  | trans _ _ ih ih' => exact ih.trans ih'

/-! ### Arrivals at a source -/

namespace Source

/-- The source once the buffers have arrived. -/
def receive (buffers : List Buffer) : Source → Source
  | memory state => memory (if state.released then state else state.enqueueAll buffers)
  | script state => script state

/-- The notifier that rings when the buffers arrive. -/
def woken? (buffers : List Buffer) : Source → Option Notifier
  | memory state =>
    if state.released || !state.isEmpty || buffers.isEmpty then none else state.notifier?
  | script _ => none

variable {source : Source} {first second : List Buffer} {notifier : Notifier}

@[simp] theorem receive_nil (source : Source) : source.receive [] = source := by
  cases source with
  | memory state => simp [receive, MemorySource.enqueueAll]
  | script state => rfl

@[simp] theorem woken?_nil (source : Source) : source.woken? [] = none := by
  cases source <;> simp [woken?]

/-- A source keeps its notifier. -/
theorem notifier?_receive (source : Source) (buffers : List Buffer) :
    (source.receive buffers).memory?.bind MemorySource.notifier? =
      source.memory?.bind MemorySource.notifier? := by
  cases source with
  | memory state =>
    cases released : state.released <;>
      simp [receive, released, memory?, MemorySource.enqueueAll_eq]
  | script state => rfl

/-- Buffers may arrive in two parts. -/
theorem receive_append (source : Source) (first second : List Buffer) :
    source.receive (first ++ second) = (source.receive first).receive second := by
  cases source with
  | memory state =>
    cases released : state.released <;>
      simp [receive, released, MemorySource.enqueueAll_eq, Nat.add_assoc]
  | script state => rfl

/-- Whoever rings for all of them rings for the first or for the second part. -/
theorem woken?_append_iff : source.woken? (first ++ second) = some notifier ↔
    source.woken? first = some notifier ∨ (source.receive first).woken? second = some notifier := by
  cases source with
  | memory state =>
    cases released : state.released <;> cases first <;>
      simp [receive, woken?, released, MemorySource.enqueueAll_eq, MemorySource.isEmpty]
  | script state => simp [woken?, receive]

/-- Only a memory source rings, only for buffers, and its notifier does. -/
theorem memory_of_woken? {buffers : List Buffer} (rings : source.woken? buffers = some notifier) :
    ∃ state, source = memory state ∧ buffers ≠ [] ∧ state.notifier? = some notifier := by
  cases source with
  | memory state =>
    simp only [woken?, Option.ite_none_left_eq_some, Bool.or_eq_true, List.isEmpty_iff,
      not_or] at rings
    exact ⟨state, rfl, rings.1.2, rings.2⟩
  | script state => cases rings

/-- A push is an arrival. -/
theorem act_pushAll (source : Source) (buffers : List Buffer) :
    Producer.act (.memory (.pushAll buffers)) source =
      (source.receive buffers, source.woken? buffers) := by
  cases source with
  | memory state =>
    change Prod.map memory id (state.pushAll buffers) = _
    unfold MemorySource.pushAll
    cases released : state.released <;> cases empty : state.queue <;>
      simp [receive, woken?, released, empty, MemorySource.enqueueAll_eq, MemorySource.isEmpty]
  | script state => rfl

theorem act_push (source : Source) (buffer : Buffer) :
    Producer.act (.memory (.push buffer)) source =
      (source.receive [buffer], source.woken? [buffer]) := by
  rw [← act_pushAll]
  cases source <;> rfl

end Source

/-! ### Arrivals in a view and in a network -/

namespace Rotation

/-- The rotation once these sources are ready. -/
def rouse (heard : SourceId → Bool) (rotation : Rotation) : Rotation :=
  { rotation with
    members := rotation.members.map fun member =>
      { member with ready := member.ready || heard member.id } }

theorem rouse_never (rotation : Rotation) : rotation.rouse (fun _ => false) = rotation := by
  simp [rouse]

theorem rouse_rouse (rotation : Rotation) (first second : SourceId → Bool) :
    (rotation.rouse first).rouse second = rotation.rouse fun id => first id || second id := by
  simp [rouse, Function.comp_def, Bool.or_assoc]

theorem announce_eq_rouse (rotation : Rotation) (id : SourceId) :
    rotation.announce id = rotation.rouse (· == id) := by
  simp only [announce, setReady, rouse, mk.injEq, and_self, and_true]
  refine List.map_congr_left fun member _ => ?_
  by_cases same : member.id = id
  · simp [Member.mark, same]
  · have other : (member.id == id) = false := by simpa using same
    rw [Member.mark_of_ne same, other, Bool.or_false]

end Rotation

/-- What the sources are once the buffers have arrived. -/
def receiveAll (sources : List Source) (arriving : SourceRef → List Buffer) : List Source :=
  sources.mapIdx fun place source => source.receive (arriving place)

theorem getElem?_receiveAll (sources : List Source) (arriving : SourceRef → List Buffer)
    (place : SourceRef) :
    (receiveAll sources arriving)[place]? =
      sources[place]?.map (Source.receive (arriving place)) :=
  List.getElem?_mapIdx

theorem receiveAll_nothing (sources : List Source) :
    receiveAll sources (fun _ => []) = sources := by
  apply List.ext_getElem?
  intro place
  rw [getElem?_receiveAll]
  cases sources[place]? <;> simp

theorem receiveAll_receiveAll (sources : List Source) (first second : SourceRef → List Buffer) :
    receiveAll (receiveAll sources first) second =
      receiveAll sources fun place => first place ++ second place := by
  apply List.ext_getElem?
  intro place
  rw [getElem?_receiveAll, getElem?_receiveAll, getElem?_receiveAll, Option.map_map]
  exact congrArg (Option.map · _) (funext fun source => (source.receive_append _ _).symm)

namespace View

variable {view : View} {sources : List Source} {arriving : SourceRef → List Buffer} {id : SourceId}

/-- Whether the view hears of the source with the identifier when the buffers arrive. -/
def hears (view : View) (sources : List Source) (arriving : SourceRef → List Buffer)
    (id : SourceId) : Bool :=
  sources.zipIdx.any fun entry =>
    (entry.1.woken? (arriving entry.2)).any fun notifier =>
      view.registry.idOf? notifier.source == some id

theorem hears_iff : view.hears sources arriving id = true ↔
    ∃ (place : SourceRef) (source : Source) (notifier : Notifier),
      sources[place]? = some source ∧ source.woken? (arriving place) = some notifier ∧
      view.registry.idOf? notifier.source = some id := by
  simp only [hears, List.any_eq_true, Prod.exists, List.mem_zipIdx_iff_getElem?,
    Option.any_eq_true, beq_iff_eq]
  constructor
  · rintro ⟨source, place, present, notifier, rings, known⟩
    exact ⟨place, source, notifier, present, rings, known⟩
  · rintro ⟨place, source, notifier, present, rings, known⟩
    exact ⟨source, place, present, notifier, rings, known⟩

/-- The view once the buffers have arrived, if it has work for its consumer meanwhile. -/
def arrive (view : View) (sources : List Source) (arriving : SourceRef → List Buffer) : View :=
  if view.released then view
  else { view with rotation := view.rotation.rouse (view.hears sources arriving) }

/-- What arrives nowhere is not heard. -/
theorem arrive_nothing (view : View) (sources : List Source) :
    view.arrive sources (fun _ => []) = view := by
  have silent : view.hears sources (fun _ => []) = fun _ => false := by
    funext id
    rw [← Bool.not_eq_true, hears_iff]
    rintro ⟨_, source, _, _, rings, _⟩
    simp at rings
  rw [arrive, silent, Rotation.rouse_never]
  exact ite_self _

@[simp] theorem queue_arrive (view : View) (sources : List Source)
    (arriving : SourceRef → List Buffer) : (view.arrive sources arriving).queue = view.queue := by
  unfold arrive
  split <;> rfl

/-- What arrives in two parts is heard with the first or with the second part. -/
theorem hears_append (view : View) (sources : List Source)
    (first second : SourceRef → List Buffer) :
    (view.hears sources fun place => first place ++ second place) =
      fun id => view.hears sources first id || view.hears (receiveAll sources first) second id := by
  funext id
  rw [Bool.eq_iff_iff, Bool.or_eq_true, hears_iff, hears_iff, hears_iff]
  constructor
  · rintro ⟨place, source, notifier, present, rings, known⟩
    rcases Source.woken?_append_iff.mp rings with early | late
    · exact .inl ⟨place, source, notifier, present, early, known⟩
    · exact .inr ⟨place, _, notifier, by rw [getElem?_receiveAll, present]; rfl, late, known⟩
  · rintro (⟨place, source, notifier, present, early, known⟩ |
      ⟨place, later, notifier, present, late, known⟩)
    · exact ⟨place, source, notifier, present, Source.woken?_append_iff.mpr (.inl early), known⟩
    · rw [getElem?_receiveAll] at present
      obtain ⟨source, there, rfl⟩ := Option.map_eq_some_iff.mp present
      exact ⟨place, source, notifier, there, Source.woken?_append_iff.mpr (.inr late), known⟩

theorem arrive_arrive (view : View) (sources : List Source)
    (first second : SourceRef → List Buffer) :
    (view.arrive sources first).arrive (receiveAll sources first) second =
      view.arrive sources fun place => first place ++ second place := by
  unfold arrive
  cases released : view.released with
  | true => simp [released]
  | false =>
    simp only [Bool.false_eq_true, if_false, Rotation.rouse_rouse, hears_append]
    rfl

/-! One push at a time -/

variable {push : Push} {source : Source}

theorem hears_brings_iff : view.hears sources push.brings id = true ↔
    ∃ (source : Source) (notifier : Notifier), sources[push.source]? = some source ∧
      source.woken? push.buffers = some notifier ∧
      view.registry.idOf? notifier.source = some id := by
  rw [hears_iff]
  constructor
  · rintro ⟨place, source, notifier, present, rings, known⟩
    by_cases here : push.source = place
    · subst here
      rw [Push.brings, if_pos rfl] at rings
      exact ⟨source, notifier, present, rings, known⟩
    · rw [Push.brings, if_neg here] at rings
      simp at rings
  · rintro ⟨source, notifier, present, rings, known⟩
    exact ⟨_, source, notifier, present, by rwa [Push.brings, if_pos rfl], known⟩

theorem arrive_of_deaf (deaf : ∀ id, view.hears sources arriving id = false) :
    view.arrive sources arriving = view := by
  rw [arrive, funext deaf, Rotation.rouse_never]
  exact ite_self _

/-- While something waits, the view hears of a push and does nothing else. -/
theorem notify_of_push {notifier : Notifier} (waiting : view.queue.entries ≠ [])
    (present : sources[push.source]? = some source)
    (rings : source.woken? push.buffers = some notifier) (pool : List Source) :
    view.notify pool notifier.source = ⟨false, view.arrive sources push.brings, pool, []⟩ := by
  have hears (id : SourceId) : view.hears sources push.brings id = true ↔
      view.registry.idOf? notifier.source = some id := by
    rw [hears_brings_iff]
    constructor
    · rintro ⟨source', notifier', present', rings', known⟩
      rw [present, Option.some.injEq] at present'
      subst present'
      rw [rings, Option.some.injEq] at rings'
      subst rings'
      exact known
    · exact fun known => ⟨source, notifier, present, rings, known⟩
  rcases view.notify_cases pool notifier.source with
    ⟨ignored, result⟩ | ⟨id, open', known, ⟨empty, _⟩ | ⟨_, result⟩⟩
  · rw [result]
    rcases ignored with released | unknown
    · rw [arrive, if_pos released]
    · rw [arrive_of_deaf fun id => by rw [← Bool.not_eq_true, hears, unknown]; exact nofun]
  · exact absurd empty waiting
  · have alone : view.hears sources push.brings = (· == id) := by
      funext other
      rw [Bool.eq_iff_iff, hears, known, Option.some.injEq, beq_iff_eq, eq_comm]
    rw [result, arrive, if_neg (by simp [open']), alone, ← Rotation.announce_eq_rouse]
    rfl

end View

theorem receiveAll_brings (sources : List Source) (push : Push) :
    receiveAll sources push.brings = sources.modify push.source (Source.receive push.buffers) := by
  apply List.ext_getElem?
  intro place
  rw [getElem?_receiveAll, List.getElem?_modify]
  by_cases here : push.source = place <;> cases sources[place]? <;> simp [Push.brings, here]

namespace Network

/-- The network once the buffers have arrived, if the view at the place hears of it and has work for
its consumer meanwhile. -/
def arrive (network : Network Source) (ref : ViewRef) (view : View)
    (arriving : SourceRef → List Buffer) : Network Source :=
  { network with sources := receiveAll network.sources arriving }.setView ref
    (view.arrive network.sources arriving)

/-- If the source at a place is a memory source with a notifier, the notifier is one of the view. -/
def Reports (network : Network Source) (ref : ViewRef) (place : SourceRef) : Prop :=
  ∀ notifier ∈ (Source.memoryAt network.sources place).bind MemorySource.notifier?,
    notifier.view = ref

instance (network : Network Source) (ref : ViewRef) (place : SourceRef) :
    Decidable (network.Reports ref place) :=
  inferInstanceAs (Decidable (∀ notifier ∈ Option.bind _ _, _))

variable {network : Network Source} {ref : ViewRef} {view : View}

theorem arrive_arrive (first second : SourceRef → List Buffer) :
    (network.arrive ref view first).arrive ref (view.arrive network.sources first) second =
      network.arrive ref view fun place => first place ++ second place := by
  simp only [arrive, setView, receiveAll_receiveAll, View.arrive_arrive, List.modify_modify_eq,
    Function.comp_def]

theorem exec_push_eq_change (network : Network Source) (push : Push) :
    network.exec push.command = network.change push.source
      (fun source => (source.receive push.buffers, source.woken? push.buffers)) .done := by
  cases push with
  | single source buffer =>
    exact congrArg (network.change source · .done) (funext fun state => state.act_push buffer)
  | several source buffers =>
    exact congrArg (network.change source · .done) (funext fun state => state.act_pushAll buffers)

/-- A push that the view does not hear of leaves it as it is. -/
theorem arrive_of_silent {push : Push} (found : network.view? ref = some view)
    (silent : ∀ source ∈ network.sources[push.source]?, source.woken? push.buffers = none) :
    network.arrive ref view push.brings =
      { network with
        sources := network.sources.modify push.source (Source.receive push.buffers) } := by
  have deaf (id : SourceId) : view.hears network.sources push.brings id = false := by
    rw [← Bool.not_eq_true, View.hears_brings_iff]
    rintro ⟨source, notifier, present, rings, _⟩
    rw [silent source present] at rings
    cases rings
  rw [arrive, View.arrive_of_deaf deaf, receiveAll_brings]
  exact setView_self found

/-- While something waits in the view, a push brings its buffers and does nothing else. -/
theorem exec_push {push : Push} (found : network.view? ref = some view)
    (waiting : view.queue.entries ≠ [])
    (reports : push.buffers ≠ [] → network.Reports ref push.source) :
    (network.exec push.command).network = network.arrive ref view push.brings ∧
      (network.exec push.command).events = [] ∧ (network.exec push.command).call? = none := by
  rw [exec_push_eq_change, change]
  cases present : network.sources[push.source]? with
  | none =>
    rw [arrive_of_silent found (by simp [present]), List.modify_eq_set_getElem?, present]
    exact ⟨rfl, rfl, rfl⟩
  | some source =>
    have placed : network.sources.modify push.source (Source.receive push.buffers) =
        network.sources.set push.source (source.receive push.buffers) := by
      rw [List.modify_eq_set_getElem?, present]
      rfl
    cases rings : source.woken? push.buffers with
    | none =>
      rw [arrive_of_silent found (by simp [present, rings]), placed]
      simp only [rings, ringing, still, and_self]
    | some notifier =>
      obtain ⟨state, rfl, buffers, notifies⟩ := Source.memory_of_woken? rings
      have here : notifier.view = ref := reports buffers notifier (by
        rw [Source.memoryAt_eq_some_iff.mpr present]
        exact notifies)
      subst here
      have reached (pool : List Source) :
          ({ network with sources := pool } : Network Source).view? notifier.view = some view :=
        found
      simp only [rings, ringing, notify, reached, View.notify_of_push waiting present rings, arrive,
        receiveAll_brings, placed]
      exact ⟨rfl, rfl, rfl⟩

theorem arrive_nothing (found : network.view? ref = some view) :
    network.arrive ref view (fun _ => []) = network := by
  rw [arrive, receiveAll_nothing, View.arrive_nothing]
  exact setView_self found

theorem view?_arrive (found : network.view? ref = some view)
    (arriving : SourceRef → List Buffer) :
    (network.arrive ref view arriving).view? ref = some (view.arrive network.sources arriving) :=
  view?_setView_self found

theorem Reports.arrive {place : SourceRef} (reports : network.Reports ref place)
    (view : View) (arriving : SourceRef → List Buffer) :
    (network.arrive ref view arriving).Reports ref place := by
  have same : (Source.memoryAt (receiveAll network.sources arriving) place).bind
      MemorySource.notifier? =
        (Source.memoryAt network.sources place).bind MemorySource.notifier? := by
    rw [Source.memoryAt, getElem?_receiveAll, Source.memoryAt]
    cases network.sources[place]? with
    | none => rfl
    | some source => exact source.notifier?_receive _
  intro notifier member
  exact reports notifier (same ▸ member)

/-- Pushes one after the other. -/
def pushes (network : Network Source) (batch : List Push) : List (Step Source) :=
  network.run (batch.map Push.command)

theorem pushes_cons (network : Network Source) (push : Push) (batch : List Push) :
    network.pushes (push :: batch) =
      network.exec push.command :: (network.exec push.command).network.pushes batch := rfl

/-- While something waits in the view, a batch brings its buffers and does nothing else. -/
theorem reachedBy_pushes {batch : List Push} (found : network.view? ref = some view)
    (waiting : view.queue.entries ≠ [])
    (reports : ∀ push ∈ batch, push.buffers ≠ [] → network.Reports ref push.source) :
    network.reachedBy (network.pushes batch) = network.arrive ref view (arrivals batch) ∧
      ∀ step ∈ network.pushes batch, step.events = [] ∧ step.call? = none := by
  induction batch generalizing network view with
  | nil => exact ⟨(arrive_nothing found).symm, List.forall_mem_nil _⟩
  | cons push batch ih =>
    obtain ⟨first, rest⟩ := List.forall_mem_cons.mp reports
    obtain ⟨left, idle⟩ := exec_push found waiting first
    have waiting' : (view.arrive network.sources push.brings).queue.entries ≠ [] := by
      rwa [View.queue_arrive]
    obtain ⟨reached, idle'⟩ := ih (view?_arrive found push.brings) waiting'
      fun later made some => (rest later made some).arrive view push.brings
    rw [pushes_cons, reachedBy_cons, List.forall_mem_cons, left, reached, arrive_arrive]
    exact ⟨rfl, idle, idle'⟩

/-- Suppose that something waits in a view and that the sources of a batch of pushes notify this
view or nobody. In whatever state the network is, a rearranged batch leaves the same views,
listeners and sources as the batch, and neither signals a listener or pulls a source. -/
theorem pushes_rearranged {batch other : List Push} (found : network.view? ref = some view)
    (waiting : view.queue.entries ≠ [])
    (reports : ∀ push ∈ batch, network.Reports ref push.source)
    (rearranged : Rearranged batch other) :
    network.reachedBy (network.pushes other) = network.reachedBy (network.pushes batch) ∧
      ∀ step ∈ network.pushes batch ++ network.pushes other,
        step.events = [] ∧ step.call? = none := by
  have same := rearranged.arrivals_eq
  have reports' : ∀ push ∈ other, push.buffers ≠ [] → network.Reports ref push.source := by
    intro push made some
    obtain ⟨before, made', _, there⟩ := arrivals_ne_nil_iff.mp
      (same ▸ arrivals_ne_nil_iff.mpr ⟨push, made, some, rfl⟩)
    exact there ▸ reports before made'
  obtain ⟨left, idle⟩ := reachedBy_pushes found waiting fun push made _ => reports push made
  obtain ⟨left', idle'⟩ := reachedBy_pushes found waiting reports'
  rw [left, left', same]
  exact ⟨rfl, List.forall_mem_append.mpr ⟨idle, idle'⟩⟩

end Network

namespace Crossed

/-- The third source rings the notifier of the second one, the fourth one is released, and the last
one has no notifier. -/
def commands : List (Command Nat Source.Action) := [
  .add 0 0, .add 0 1, .register 0 2 ⟨7⟩, .attach 2 1, .add 0 3, .releaseSource 3,
  .register 0 4 ⟨9⟩]

def session : Session Source Source.Action := .start
  [.memory (.ofBuffers ⟨5⟩ [.data [1]]), .memory (.empty ⟨6⟩), .memory (.empty ⟨7⟩),
    .memory (.empty ⟨8⟩), .memory (.empty ⟨9⟩)]
  [(⟨3⟩, .ofCallback)] []

def reached : Network Source := session.reachedBy ((session.play commands).take 7)

def batch : List Push := [
  .several 2 [.data [2], .data [3]], .single 0 (.data [4]), .single 3 (.data [5]),
  .single 4 (.event [6])]

def other : List Push := [
  .single 3 (.data [5]), .single 2 (.data [2]), .single 0 (.data [4]), .single 2 (.data [3]),
  .single 4 (.event [6])]

theorem rearranged : Rearranged batch other := by
  refine .trans (.split [] _ 2 [.data [2], .data [3]]) (.reorder fun place => ?_)
  match place with
  | 0 | 1 | 2 | 3 | 4 | _ + 5 => rfl

end Crossed

open Crossed in
/-- Either batch makes the first source ready, and the second one, in whose name the third one
rings. -/
theorem pushes_rearranged_crossed :
    ∃ view after, reached.view? 0 = some view ∧ view.queue.entries ≠ [] ∧
      reached.reachedBy (reached.pushes other) = reached.reachedBy (reached.pushes batch) ∧
      (∀ step ∈ reached.pushes batch ++ reached.pushes other,
        step.events = [] ∧ step.call? = none) ∧
      (reached.reachedBy (reached.pushes batch)).view? 0 = some after ∧
      view.rotation.members.filter Member.ready = [] ∧
      after.rotation.members.filter Member.ready = [⟨⟨5⟩, true⟩, ⟨⟨6⟩, true⟩] := by
  have before : (reached.view? 0).any (fun view => decide (view.queue.entries ≠ [] ∧
      view.rotation.members.filter Member.ready = [])) = true := by
    decide +kernel
  have afterwards : ((reached.reachedBy (reached.pushes batch)).view? 0).any (fun view => decide (
      view.rotation.members.filter Member.ready = [⟨⟨5⟩, true⟩, ⟨⟨6⟩, true⟩])) = true := by
    decide +kernel
  obtain ⟨view, found, facts⟩ := (Option.any_eq_true _ _).mp before
  obtain ⟨waiting, idle⟩ := of_decide_eq_true facts
  obtain ⟨after, left, heard⟩ := (Option.any_eq_true _ _).mp afterwards
  have reports : ∀ push ∈ batch, reached.Reports 0 push.source := by decide +kernel
  obtain ⟨same, silent⟩ := Network.pushes_rearranged found waiting reports rearranged
  exact ⟨view, after, found, waiting, same, silent, left, idle, of_decide_eq_true heard⟩

end FairMerge
