import FairMerge.Proofs.Enrolment
import FairMerge.Proofs.MemoryQueue
import FairMerge.Proofs.Moments
import FairMerge.Proofs.Tint

/-! # Administration

A consumer may ask a view about itself, and let it hand hints on to the sources: which segment is
needed next, and how large the buffers should be. None of this concerns the stream. A session in
which such calls are left out goes on as it would have with them, and a hint reaches the sources
that it is meant for and no others. -/

namespace FairMerge

/-! ### Sessions without administration -/

section

variable {σ : Type} (change : σ → σ)

/-- The network with every source changed. -/
def Network.map (network : Network σ) : Network σ :=
  { network with sources := network.sources.map change }

/-- The answer with the source that it shows changed. -/
def Reply.map : Reply σ → Reply σ
  | .source state => .source (change state)
  | reply => reply

/-- The step with every source changed. -/
def Step.map (step : Step σ) : Step σ :=
  { step with network := step.network.map change, reply := step.reply.map change }

/-- The record with every source changed. -/
def Record.map {α : Type} (record : Record σ α) : Record σ α :=
  { record with step := record.step.map change }

end

/-- The session with some commands left out of what its callbacks will play. -/
def Session.keeping {σ α : Type} (session : Session σ α) (kept : Command Nat α → Bool) :
    Session σ α :=
  { session with reactions := session.reactions.map (List.map (List.filter kept)) }

variable {σ α : Type} [Producer σ α] {change : σ → σ}

namespace Network

variable (network : Network σ)

omit [Producer σ α] in
theorem tinted_const : network.tinted (fun _ => change) = network.map change := by
  have same : network.sources.mapIdx (fun _ => change) = network.sources.map change := by
    apply List.ext_getElem?
    intro place
    rw [List.getElem?_mapIdx, List.getElem?_map]
  rw [tinted, same, map]

theorem exec_inspect (source : SourceRef) :
    network.exec (.inspect source : Command Notifier α) =
      network.still (network.sources[source]?.elim .missing .source) := by
  simp only [exec]
  cases network.sources[source]? <;> rfl

variable (tinting : Producer.Tint fun _ => change)
include tinting

theorem map_map : (network.map change).map change = network.map change := by
  have again : change ∘ change = change := funext (tinting.again 0)
  simp only [map, List.map_map, again]

/-- A command does the same to changed sources as to the plain ones. -/
theorem exec_map (command : Command Notifier α) :
    ((network.map change).exec command).map change = (network.exec command).map change := by
  cases administers : command.administers with
  | true =>
    have plain := network.aside_exec tinting administers
    have changed := (network.map change).aside_exec tinting administers
    have reply := network.reply_administration tinting administers
    have own := plain.network
    have other := changed.network
    simp only [tinted_const, map_map network tinting] at own other reply
    simp only [Step.map, reply, changed.events, changed.call, plain.events, plain.call, own, other]
  | false =>
    cases inspects : command.inspects with
    | false =>
      have same := network.exec_tinted tinting administers inspects
      rw [tinted_const] at same
      simp only [same, Step.map, Step.tinted, tinted_const, map_map _ tinting]
    | true =>
      cases command with
      | inspect source =>
        simp only [exec_inspect, Step.map, still, map_map network tinting]
        simp only [map, List.getElem?_map]
        cases network.sources[source]? with
        | none => rfl
        | some state =>
          simp only [Option.map_some, Option.elim_some, Reply.map, tinting.again 0 state]
      | _ => cases inspects

end Network

namespace Session

variable {full lean : Session σ α} {kept : Command Nat α → Bool}

/-- The sessions are at the same point but for what the change covers, and of what the callbacks
will play the second one keeps a part. -/
structure Level (change : σ → σ) (kept : Command Nat α → Bool) (full lean : Session σ α) :
    Prop where
  network : full.network.map change = lean.network.map change
  notifiers : full.notifiers = lean.notifiers
  scripts : ∀ view call, lean.script view call = (full.script view call).filter kept

omit [Producer σ α] in
theorem notifiers_reach (change : σ → σ) (session : Session σ α) (step : Step σ) :
    (session.reach (step.map change)).notifiers = (session.reach step).notifiers := by
  unfold reach Step.map
  cases step.reply <;> rfl

/-- Administration gives hints at most. -/
theorem aside_perform (session : Session σ α) (tinting : Producer.Tint fun _ => change)
    {command : Command Nat α} (administers : command.administers = true) :
    (session.perform command).Aside (fun _ => change) session.network := by
  rcases session.perform_cases command with ⟨_, still⟩ | ⟨resolved, found, performed⟩
  · rw [still]
    exact session.network.aside_still (by simp)
  · rw [performed]
    apply session.network.aside_exec tinting
    rwa [Command.administers_of_resolve? found]

namespace Level

variable (level : Level change kept full lean)
include level

omit [Producer σ α] in
theorem spend (view : ViewRef) : Level change kept (full.spend view) (lean.spend view) :=
  { level with
    scripts := scripts_spend (fun played others => others = played.filter _) level.scripts view }

omit [Producer σ α] in
theorem reaction (view : ViewRef) : lean.reaction view = (full.reaction view).filter kept := by
  rw [reaction_eq_script, reaction_eq_script, level.scripts]

omit [Producer σ α] in
/-- Sessions that are level stay level if they do the same but for what the change covers. -/
theorem reach {step step' : Step σ} (same : step.map change = step'.map change) :
    Level change kept (full.reach step) (lean.reach step') := by
  refine ⟨congrArg Step.network same, ?_, level.scripts⟩
  rw [← notifiers_reach change full step, same, ← notifiers_reach change lean step']
  simp only [Session.reach, level.notifiers]

variable (tinting : Producer.Tint fun _ => change)
include tinting

theorem perform (command : Command Nat α) :
    (full.perform command).map change = (lean.perform command).map change := by
  unfold Session.perform
  rw [level.notifiers]
  cases command.resolve? fun place => lean.notifiers[place]? with
  | none => exact congrArg (fun network => Step.mk network .missing [] none) level.network
  | some resolved =>
    rw [← full.network.exec_map tinting, level.network, lean.network.exec_map tinting]

/-- A session stays level with one that leaves an administrative command out. -/
theorem skip {command : Command Nat α} (administers : command.administers = true) :
    (full.perform command).call? = none ∧
      Level change kept (full.reach (full.perform command)) lean := by
  have aside := full.aside_perform tinting administers
  have covered := aside.network
  rw [Network.tinted_const, Network.tinted_const] at covered
  refine ⟨aside.call, covered.trans level.network, ?_, level.scripts⟩
  rw [← level.notifiers, notifiers_reach_of_unissued full aside.unissued]

end Level

/-- From the same point on, the second session plays what it keeps of the first one. -/
theorem run_kept (tinting : Producer.Tint fun _ => change)
    (erased : ∀ command, kept command = false → command.administers = true)
    (level : Level change kept full lean) (tasks : List (Task α)) :
    ((full.run tasks).filter fun record => kept record.task.command).map (Record.map change) =
      (lean.run (tasks.filter fun task => kept task.command)).map (Record.map change) := by
  fun_induction run full tasks generalizing lean with
  | case1 full =>
    rw [List.filter_nil, List.filter_nil, run]
  | case2 full task tasks step reached =>
    rename_i unnested nested
    rw [List.filter_cons, List.filter_cons]
    cases keeps : kept task.command with
    | false =>
      obtain ⟨uncalled, next⟩ := level.skip tinting (erased _ keeps)
      have uncalled : step.call? = none := uncalled
      simp only [uncalled, Bool.false_eq_true, if_false]
      exact unnested next
    | true =>
      have same := level.perform tinting task.command
      have next := level.reach same
      have called : (lean.perform task.command).call? = step.call? :=
        (congrArg Step.call? same).symm
      have recorded : (full.recordOf task).map change = (lean.recordOf task).map change := by
        simp only [Record.map, recordOf, same, next.notifiers]
      simp only [if_true]
      cases calls : step.call? with
      | none =>
        rw [lean.run_cons_of_uncalled task _ (called.trans calls), List.map_cons, List.map_cons]
        exact congr (congrArg List.cons recorded) (unnested next)
      | some call =>
        -- the callback plays first, or what is kept of it
        have inner := nested call (next.spend call.view)
        rw [List.filter_append, List.filter_map] at inner
        rw [lean.run_cons_of_called task _ (called.trans calls), List.map_cons, List.map_cons]
        dsimp only
        rw [next.reaction]
        exact congr (congrArg List.cons recorded) inner

omit [Producer σ α] in
/-- Leaving commands out of what callbacks play leaves them out of each call. -/
theorem script_keeping (session : Session σ α) (kept : Command Nat α → Bool) (view : ViewRef)
    (call : Nat) :
    (session.keeping kept).script view call = (session.script view call).filter kept :=
  session.script_map List.filter_nil view call

end Session

/-! ### What a source is told -/

/-- What a memory source was told by its consumers. -/
structure Hints where
  segments : List SegmentRequest
  bufferSize? : Option Nat

namespace MemorySource

/-- The hints that the source has taken. -/
def hints (source : MemorySource) : Hints := ⟨source.segments, source.bufferSize?⟩

/-- The source takes segment requests and buffer sizes, the latest last. -/
structure Hears (source : MemorySource) (segments : List SegmentRequest) (sizes : List Nat)
    (later : MemorySource) : Prop where
  segments : later.segments = source.segments ++ segments
  size : later.bufferSize? = sizes.getLast?.or source.bufferSize?

theorem Hears.trans {first second third : MemorySource} {segments segments' : List SegmentRequest}
    {sizes sizes' : List Nat} (before : first.Hears segments sizes second)
    (later : second.Hears segments' sizes' third) :
    first.Hears (segments ++ segments') (sizes ++ sizes') third where
  segments := by rw [later.segments, before.segments, List.append_assoc]
  size := by rw [later.size, before.size, List.getLast?_append, Option.or_assoc]

theorem hears_of_hints_eq {source later : MemorySource} (same : later.hints = source.hints) :
    source.Hears [] [] later where
  segments := by rw [List.append_nil]; exact congrArg Hints.segments same
  size := congrArg Hints.bufferSize? same

theorem hints_ofBuffers (id : SourceId) (buffers : List Buffer) :
    (ofBuffers id buffers).hints = ⟨[], none⟩ := by
  simp [hints, ofBuffers, enqueueAll_eq, empty]

/-- The source with other hints. -/
def withHints (hints : Hints) (source : MemorySource) : MemorySource :=
  { source with segments := hints.segments, bufferSize? := hints.bufferSize? }

variable (hints : Hints) (source : MemorySource)

theorem pull_withHints :
    (source.withHints hints).pull = (source.pull.1, source.pull.2.withHints hints) := by
  obtain ⟨_, queue, _, _, _, pullFault?, _, _, _, _, released, _⟩ := source
  cases released with
  | true => rfl
  | false =>
    cases pullFault? with
    | some reason => rfl
    | none => cases queue <;> rfl

theorem pushAll_withHints (buffers : List Buffer) :
    (source.withHints hints).pushAll buffers =
      ((source.pushAll buffers).1.withHints hints, (source.pushAll buffers).2) := by
  unfold pushAll
  simp only [enqueueAll_eq, withHints, isEmpty]
  split <;> rfl

theorem act_withHints (action : Action) :
    (source.withHints hints).act action =
      ((source.act action).1.withHints hints, (source.act action).2) := by
  cases action with
  | push buffer => exact source.pushAll_withHints hints [buffer]
  | pushAll buffers => exact source.pushAll_withHints hints buffers
  | failPull | failRelease | recordFailure => rfl

end MemorySource

namespace Source

/-- The source with other hints, if it takes any. -/
def withHints (hints : Hints) : Source → Source
  | memory state => memory (state.withHints hints)
  | script state => script state

/-- The hints that the source at a place has taken. -/
def hintsAt (sources : List Source) (place : SourceRef) : Hints :=
  (memoryAt sources place).elim ⟨[], none⟩ MemorySource.hints

theorem mapIdx_hintsAt (sources : List Source) :
    sources.mapIdx (fun place => withHints (hintsAt sources place)) = sources := by
  apply List.ext_getElem?
  intro place
  rw [List.getElem?_mapIdx]
  cases found : sources[place]? with
  | none => rfl
  | some state =>
    cases state with
    | script state => rfl
    | memory state =>
      rw [hintsAt, memoryAt_eq_some_iff.mpr found]
      rfl

/-- The source as if it had not been given hints. -/
def unhinted : Source → Source := withHints ⟨[], none⟩

/-- No operation of a source looks at the hints. -/
theorem tint_withHints (hints : SourceRef → Hints) :
    Producer.Tint fun place => withHints (hints place) where
  pull place state := by
    cases state with
    | script state => rfl
    | memory state =>
      rw [withHints, pull_memory, pull_memory, state.pull_withHints]
      rfl
  failure place state := by cases state <;> rfl
  release place state := by cases state <;> rfl
  ownId place state := by cases state <;> rfl
  attach place notifier state := by cases state <;> rfl
  act place action state := by
    cases action with
    | script action => cases state <;> rfl
    | memory action =>
      cases state with
      | script state => rfl
      | memory state =>
        have acted := state.act_withHints (hints place) action
        exact congrArg (Prod.map memory id) acted
  requireSegment place id segment state := by cases state <;> rfl
  resize place size state := by cases state <;> rfl
  again place state := by cases state <;> rfl

end Source

/-- The segment requests that the command hands to the source at a place: the view asked has to know
it under the identifier. -/
def Network.segmentsFor {σ ν α : Type} (place : SourceRef) (network : Network σ) :
    Command ν α → List SegmentRequest
  | .request ref (.requireSegment id segment) =>
    if (network.view? ref).any fun view => ⟨id, place⟩ ∈ view.registry.entries then [⟨id, segment⟩]
    else []
  | _ => []

/-- The buffer sizes that the command tells the source at a place: the view asked has to know it. -/
def Network.sizesFor {σ ν α : Type} (place : SourceRef) (network : Network σ) :
    Command ν α → List Nat
  | .request ref (.resize size) =>
    if (network.view? ref).any fun view => place ∈ view.registry.sources then [size] else []
  | _ => []

/-- What the commands of the records come to in the networks that they find, in order. The first one
finds the network given. -/
def Record.gather {σ α β : Type} (read : Network σ → Command Nat α → List β) :
    Network σ → List (Record σ α) → List β
  | _, [] => []
  | network, record :: later =>
    read network record.task.command ++ gather read record.step.network later

theorem Record.gather_append_singleton {σ α β : Type} (read : Network σ → Command Nat α → List β)
    (network : Network σ) (past : List (Record σ α)) (record : Record σ α) :
    gather read network (past ++ [record]) = gather read network past ++
      read (past.getLast?.elim network fun last => last.step.network) record.task.command := by
  induction past generalizing network with
  | nil => simp [gather]
  | cons first past ih =>
    rw [List.cons_append, gather, ih, gather, List.append_assoc, List.getLast?_cons]
    cases past.getLast? <;> rfl

namespace Network

variable {network : Network Source} {command : Command Notifier Source.Action} {place : SourceRef}
  {before after : MemorySource}

/-- A command that is no administration leaves the hints of a source as they are. -/
theorem hints_exec (merges : command.administers = false)
    (found : network.sources[place]? = some (.memory before))
    (reached : (network.exec command).network.sources[place]? = some (.memory after)) :
    after.hints = before.hints := by
  cases inspects : command.inspects with
  | true =>
    cases command with
    | inspect source =>
      rw [exec_inspect] at reached
      cases found.symm.trans reached
      rfl
    | _ => cases inspects
  | false =>
    -- the network is tinted with the hints that it has, so the step leaves it tinted with them
    have same := network.exec_tinted (Source.tint_withHints (Source.hintsAt network.sources)) merges
      inspects
    rw [tinted, Source.mapIdx_hintsAt] at same
    have tinted := congrArg (fun step => step.network.sources[place]?) same
    simp only [Step.tinted, Network.tinted, List.getElem?_mapIdx, reached, Option.map_some,
      Option.some.injEq, Source.withHints, Source.memory.injEq] at tinted
    rw [tinted, Source.hintsAt, Source.memoryAt_eq_some_iff.mpr found]
    rfl

variable {view : View} {ref : ViewRef}

/-- A request for a segment is refused exactly if the view does not know the identifier. -/
theorem exec_requireSegment {σ α : Type} [Producer σ α] (network : Network σ)
    (seen : network.view? ref = some view) (id : SourceId) (segment : UInt32) :
    let step := network.exec (.request ref (.requireSegment id segment) : Command Notifier α)
    if id ∈ view.sourceIds then step.reply = .done
    else step = network.still (.refused (.unknownSource id)) := by
  simp only [exec, seen, answer, View.requireSegment]
  split
  · rename_i known
    cases named : view.registry.source? id with
    | none => exact absurd known (Registry.source?_eq_none_iff.mp named)
    | some source => rfl
  · rename_i unknown
    rw [Registry.source?_eq_none_iff.mpr unknown]

/-- A request for a segment reaches the source that is registered under the identifier. -/
theorem hears_requireSegment {id : SourceId} {segment : UInt32} (sound : view.Sound)
    (found : network.sources[place]? = some (.memory before))
    (reached : (network.answer ref view (.requireSegment id segment)).network.sources[place]? =
      some (.memory after)) :
    before.Hears (if ⟨id, place⟩ ∈ view.registry.entries then [⟨id, segment⟩] else []) []
      after := by
  have known : ⟨id, place⟩ ∈ view.registry.entries ↔ view.registry.source? id = some place :=
    ⟨Registry.source?_of_mem sound.distinctIds, Registry.mem_of_source?⟩
  simp only [known]
  simp only [answer, View.requireSegment] at reached
  cases named : view.registry.source? id with
  | none =>
    rw [named] at reached
    cases found.symm.trans reached
    exact MemorySource.hears_of_hints_eq rfl
  | some source =>
    simp only [named, still] at reached
    by_cases here : source = place
    · subst here
      rw [List.getElem?_modify_eq, found] at reached
      cases reached
      rw [if_pos rfl]
      exact ⟨rfl, rfl⟩
    · rw [List.getElem?_modify_ne _ _ here] at reached
      cases found.symm.trans reached
      rw [if_neg (by simpa using here)]
      exact MemorySource.hears_of_hints_eq rfl

/-- A buffer size reaches the sources that are registered. -/
theorem hears_resize (size : Nat) (entries : List Registration) {sources : List Source}
    (found : sources[place]? = some (.memory before))
    (reached : (entries.foldl (fun sources entry =>
      sources.modify entry.source (Producer.resize size)) sources)[place]? =
        some (.memory after)) :
    before.Hears [] (if place ∈ entries.map Registration.source then [size] else []) after := by
  induction entries generalizing sources before with
  | nil =>
    cases found.symm.trans reached
    exact MemorySource.hears_of_hints_eq rfl
  | cons entry entries ih =>
    rw [List.foldl_cons] at reached
    by_cases here : entry.source = place
    · subst here
      have told : (sources.modify entry.source (Producer.resize size))[entry.source]? =
          some (.memory { before with bufferSize? := some size }) := by
        rw [List.getElem?_modify_eq, found]
        rfl
      have later := ih told reached
      refine ⟨later.segments, ?_⟩
      rw [later.size, List.map_cons, if_pos (List.mem_cons_self ..)]
      split <;> rfl
    · have kept : (sources.modify entry.source (Producer.resize size))[place]? =
          some (.memory before) := by
        rw [List.getElem?_modify_ne _ _ here, found]
      have later := ih kept reached
      simpa [Ne.symm here] using later

/-- A command hands a source the hints that are meant for it. -/
theorem hears_exec (sound : ∀ ref view, network.view? ref = some view → view.Sound)
    (found : network.sources[place]? = some (.memory before))
    (reached : (network.exec command).network.sources[place]? = some (.memory after)) :
    before.Hears (network.segmentsFor place command) (network.sizesFor place command) after := by
  cases administers : command.administers with
  | false =>
    have kept := MemorySource.hears_of_hints_eq (hints_exec administers found reached)
    cases command with
    | request ref asked =>
      cases asked with
      | peek | next | drain | availability | release => exact kept
      | _ => cases administers
    | _ => exact kept
  | true =>
    cases command with
    | request ref asked =>
      simp only [exec] at reached
      cases seen : network.view? ref with
      | none =>
        rw [seen] at reached
        cases found.symm.trans reached
        have silent := MemorySource.hears_of_hints_eq (rfl : before.hints = before.hints)
        cases asked <;> simpa [segmentsFor, sizesFor, seen] using silent
      | some view =>
        rw [seen] at reached
        cases asked with
        | peek | next | drain | availability | release => cases administers
        | requireSegment id segment =>
          have heard := hears_requireSegment (sound ref view seen) found reached
          simpa [segmentsFor, sizesFor, seen] using heard
        | resize size =>
          have heard := hears_resize size view.registry.entries found reached
          simpa [segmentsFor, sizesFor, seen, Registry.sources] using heard
        | _ =>
          cases found.symm.trans reached
          exact MemorySource.hears_of_hints_eq rfl
    | _ => cases administers

end Network

namespace Session

variable {session : Session Source Source.Action} {place : SourceRef} {before : MemorySource}

/-- A command that is played hands a source the hints that are meant for it. -/
theorem hears_perform (command : Command Nat Source.Action)
    (sound : ∀ ref view, session.network.view? ref = some view → view.Sound)
    (found : session.network.sources[place]? = some (.memory before)) :
    ∃ after, (session.perform command).network.sources[place]? = some (.memory after) ∧
      before.Hears (session.network.segmentsFor place command)
        (session.network.sizesFor place command) after := by
  obtain ⟨state, reached, became⟩ := (session.touches_perform command place).of_earlier found
  obtain ⟨after, rfl, _⟩ := Source.becomes_memory became
  refine ⟨after, reached, ?_⟩
  rcases session.perform_cases command with ⟨lost, still⟩ | ⟨resolved, named, performed⟩
  · rw [still] at reached
    cases found.symm.trans reached
    have silent := MemorySource.hears_of_hints_eq (rfl : before.hints = before.hints)
    cases command with
    | attach | ring | isAlive => exact silent
    | _ => cases lost
  · rw [performed] at reached
    have heard := Network.hears_exec sound found reached
    cases command with
    | attach | ring | isAlive =>
      obtain ⟨_, _, rfl⟩ := Option.map_eq_some_iff.mp named
      exact heard
    | request ref asked =>
      cases named
      cases asked <;> exact heard
    | _ =>
      cases named
      exact heard

/-- At every point of a session a memory source has taken the hints that were meant for it. -/
theorem hears_play {sources : List Source} {views : List (Config × Listener)}
    {reactions : List (List (List (Command Nat Source.Action)))}
    {commands : List (Command Nat Source.Action)}
    (present : sources[place]? = some (.memory before)) (n : Nat) :
    let session := start sources views reactions
    let past := (session.play commands).take n
    ∃ after, (session.reachedBy past).sources[place]? = some (.memory after) ∧
      before.Hears (Record.gather (Network.segmentsFor place) session.network past)
        (Record.gather (Network.sizesFor place) session.network past) after := by
  induction n with
  | zero => exact ⟨before, present, (List.append_nil _).symm, rfl⟩
  | succ n ih =>
    intro session past
    obtain ⟨source, found, heard⟩ := ih
    cases played : (session.play commands)[n]? with
    | none =>
      have ended : past = (session.play commands).take n := by
        simp [past, List.take_add_one, played]
      rw [ended]
      exact ⟨source, found, heard⟩
    | some record =>
      obtain ⟨current, network, _, same⟩ := session.record_play commands played
      have sound (ref : ViewRef) (view : View) (seen : current.network.view? ref = some view) :
          view.Sound := by
        rw [network] at seen
        exact (tidy_play sources views reactions commands n seen).sound
      obtain ⟨after, reached, told⟩ := hears_perform record.task.command sound
        (by rw [network]; exact found)
      have more : past = (session.play commands).take n ++ [record] := by
        simp [past, List.take_add_one, played]
      refine ⟨after, ?_, ?_⟩
      · rw [session.reachedBy_take_succ played, same]
        exact reached
      · rw [more, Record.gather_append_singleton, Record.gather_append_singleton]
        rw [network] at told
        exact heard.trans told

end Session

/-- Administrative calls leave the stream alone. Leave out of a session, and of what its callbacks
play, any of the calls by which a view is asked about itself or has to hand a hint on: the others
do what they did, get the same answers and signal the same listeners, and whatever is to be seen of
views, listeners and sources at any point is the same but for the hints. For the calls left out did
nothing but change hints.

And a hint goes where it is meant to go. At every point, also after a release, the segments asked of
a memory source are those of the requests that named an identifier under which the view asked knew
the source then, in order, and its buffer size is the last one that was told to a view that knew the
source then. A request that names any other identifier is refused and reaches nobody. -/
theorem administration_apart (sources : List Source) (views : List (Config × Listener))
    (reactions : List (List (List (Command Nat Source.Action))))
    (commands : List (Command Nat Source.Action)) (kept : Command Nat Source.Action → Bool) :
    let full := Session.start sources views reactions
    let lean := full.keeping kept
    (∀ command, kept command = false → command.administers = true) →
      ((full.play commands).filter fun record => kept record.task.command).map
            (Record.map Source.unhinted) =
          (lean.play (commands.filter kept)).map (Record.map Source.unhinted) ∧
        ∀ n,
          let past := (full.play commands).take n
          let reached := full.reachedBy past
          (∀ place id built, sources[place]? = some (.memory (.ofBuffers id built)) →
            ∃ source, reached.sources[place]? = some (.memory source) ∧
              source.segments = Record.gather (Network.segmentsFor place) full.network past ∧
              source.bufferSize? =
                (Record.gather (Network.sizesFor place) full.network past).getLast?) ∧
          ∀ record, (full.play commands)[n]? = some record →
            (record.task.command.administers = true →
              record.step.network.map Source.unhinted = reached.map Source.unhinted ∧
                record.step.events = [] ∧ record.step.call? = none) ∧
            ∀ ref view id segment,
              record.task.command = .request ref (.requireSegment id segment) →
                reached.view? ref = some view →
                  if id ∈ view.sourceIds then record.step.reply = .done
                  else record.step = reached.still (.refused (.unknownSource id)) := by
  intro full lean erased
  have tinting : Producer.Tint fun _ => Source.unhinted := Source.tint_withHints fun _ => _
  refine ⟨?_, fun n => ⟨?_, fun record played => ⟨?_, ?_⟩⟩⟩
  · have level : Session.Level Source.unhinted kept full lean :=
      ⟨rfl, rfl, full.script_keeping kept⟩
    have same := Session.run_kept tinting erased level (commands.map (Task.mk 0))
    rwa [List.filter_map] at same
  · intro place id built present
    obtain ⟨source, found, heard⟩ := Session.hears_play present n
    have fresh := MemorySource.hints_ofBuffers id built
    refine ⟨source, found, ?_, ?_⟩
    · rw [heard.segments, show (MemorySource.ofBuffers id built).segments = [] from
        congrArg Hints.segments fresh, List.nil_append]
    · rw [heard.size, show (MemorySource.ofBuffers id built).bufferSize? = none from
        congrArg Hints.bufferSize? fresh, Option.or_none]
  · intro administers
    obtain ⟨current, network, _, same⟩ := full.record_play commands played
    have aside := current.aside_perform tinting administers
    have covered := aside.network
    rw [Network.tinted_const, Network.tinted_const, network] at covered
    rw [same]
    exact ⟨covered, aside.events, aside.call⟩
  · intro ref view id segment asked seen
    obtain ⟨current, network, _, same⟩ := full.record_play commands played
    have step : record.step = current.network.exec (.request ref (.requireSegment id segment)) := by
      rw [same]
      simp only [Session.recordOf, asked]
      rfl
    rw [← network] at seen
    rw [step, ← network]
    exact current.network.exec_requireSegment seen id segment

namespace Meddled

/-- Both views know the first source, each under an identifier of its own. -/
def sources : List Source := [
  .memory (.ofBuffers ⟨7⟩ [.data [1], .fragment [2]]),
  .script (.ofAnswers [.delivery ⟨.event [3], 0, .none, 0⟩] none none)]

/-- The callback of the first view asks for counters before it takes a buffer. -/
def session : Session Source Source.Action :=
  .start sources [(⟨2⟩, .ofCallback), (⟨1⟩, .ofChannel 1)]
    [[[.request 0 .stats, .request 0 .next, .request 0 (.resize 8)]]]

def commands : List (Command Nat Source.Action) := [
  .request 0 (.requireSegment ⟨5⟩ 1), .register 0 0 ⟨5⟩, .attach 0 0, .register 1 0 ⟨6⟩,
  .register 0 1 ⟨9⟩, .request 0 (.requireSegment ⟨6⟩ 2), .request 1 (.requireSegment ⟨6⟩ 3),
  .request 1 .peek, .request 0 (.requireSegment ⟨9⟩ 4), .request 0 .failure, .request 0 .release,
  .request 1 (.resize 9), .request 0 (.requireSegment ⟨5⟩ 5), .request 1 .describe,
  .request 1 .publicCount, .request 1 .next]

/-- Everything but administration. -/
def kept (command : Command Nat Source.Action) : Bool := !command.administers

end Meddled

open Meddled in
/-- More than half of what is played is left out. Of the five segments asked for, the first source
is asked for the two that name an identifier it has in the view asked, one of them after it was
released. -/
theorem administration_apart_meddled :
    (session.play commands).length = 19 ∧
      ((session.keeping kept).play (commands.filter kept)).length = 8 ∧
      ((session.play commands).filter fun record => kept record.task.command).map
          (Record.map Source.unhinted) =
        ((session.keeping kept).play (commands.filter kept)).map (Record.map Source.unhinted) ∧
      ∃ source, (session.reachedBy (session.play commands)).sources[0]? = some (.memory source) ∧
        source.segments = [⟨⟨6⟩, 3⟩, ⟨⟨5⟩, 5⟩] ∧ source.bufferSize? = some 9 := by
  have apart := administration_apart sources [(⟨2⟩, .ofCallback), (⟨1⟩, .ofChannel 1)]
    [[[.request 0 .stats, .request 0 .next, .request 0 (.resize 8)]]] commands kept
  obtain ⟨same, told⟩ := apart fun command erased => by simpa [kept] using erased
  obtain ⟨source, found, segments, size⟩ := (told 19).1 0 ⟨7⟩ [.data [1], .fragment [2]] rfl
  have asked : Record.gather (Network.segmentsFor 0) session.network
      ((session.play commands).take 19) = [⟨⟨6⟩, 3⟩, ⟨⟨5⟩, 5⟩] := by decide +kernel
  have sizes : Record.gather (Network.sizesFor 0) session.network
      ((session.play commands).take 19) = [8, 9] := by decide +kernel
  have all : (session.play commands).take 19 = session.play commands :=
    List.take_of_length_le (by decide +kernel)
  refine ⟨by decide +kernel, by decide +kernel, same, source, ?_, segments.trans asked, ?_⟩
  · rw [← all]
    exact found
  · exact size.trans (congrArg List.getLast? sizes)

end FairMerge
