import FairMerge.Proofs.IdleSources
import FairMerge.Proofs.Moments

/-! # Runs with an idle source

A source may be registered at any point of a session. If nobody ever hears of it after that, the
session goes on as it would have without it: what was to be played is played, with the same answers,
the same signals and the same pulls. Only the notifiers handed out from then on are found one place
further on, since the source has one of its own. -/

namespace FairMerge

/-! ### The registration -/

variable {σ α : Type} [Producer σ α]

/-- The command registers the source with the view, and rings nobody meanwhile. -/
structure Network.Enrols (network : Network σ) (ref : ViewRef) (extra : Registration)
    (command : Command Notifier α) : Prop where
  asked : command.asked? network.sources ref = some extra
  granted : (network.exec command).reply = .registered ⟨ref, extra.source⟩
  quiet : ∀ notifier heard, ¬ network.Rings command notifier heard

omit [Producer σ α] in
theorem Registry.strike_append (registry : Registry) {id : SourceId} (fresh : id ∉ registry.ids)
    (source : SourceRef) : strike [id] ⟨registry.entries ++ [⟨id, source⟩]⟩ = registry := by
  have others : ∀ entry ∈ registry.entries, decide (entry.id ∉ [id]) = true := by
    intro entry mem
    have different : entry.id ≠ id := fun same => fresh (same ▸ List.mem_map_of_mem mem)
    simpa using different
  rw [strike, List.filter_append, List.filter_eq_self.mpr others]
  simp

omit [Producer σ α] in
theorem Rotation.strike_of_register {rotation next : Rotation} {id : SourceId}
    (registered : rotation.register id = .ok next) : next.strike [id] = rotation := by
  unfold register at registered
  split at registered
  · cases registered
  · rename_i fresh
    cases registered
    have others : ∀ member ∈ rotation.members, decide (member.id ∉ [id]) = true := by
      intro member mem
      have different : member.id ≠ id := fun same => fresh (same ▸ List.mem_map_of_mem mem)
      simpa using different
    rw [strike, List.filter_append, List.filter_eq_self.mpr others]
    simp

namespace View

variable {view later : View} {id : SourceId} {source : SourceRef}

omit [Producer σ α] in
theorem idles_of_unknown (unknown : source ∉ view.registry.sources) : view.Idles [] source := by
  refine ⟨⟨fun entry mem => ?_, by simp⟩, by constructor <;> simp⟩
  apply iff_of_false List.not_mem_nil
  intro same
  exact unknown (same ▸ List.mem_map_of_mem mem)

omit [Producer σ α] in
/-- To strike a source that was just registered is to take its registration back. -/
theorem strike_of_register (registered : view.register id source = .ok later) :
    later.strike [id] = view := by
  obtain ⟨_, freshId, _, rotation, turned, rfl⟩ := register_cases registered
  have entries := view.registry.strike_append freshId source
  have members := Rotation.strike_of_register turned
  simp only [strike, entries, members]

omit [Producer σ α] in
/-- A source that was just registered is idle. -/
theorem idles_of_register (tidy : view.Tidy) (registered : view.register id source = .ok later) :
    later.Idles [id] source := by
  obtain ⟨_, freshId, freshSource, rotation, turned, rfl⟩ := register_cases registered
  have knows : Registry.Knows ⟨view.registry.entries ++ [⟨id, source⟩]⟩ [id] source := by
    constructor
    · intro entry mem
      rcases List.mem_append.mp mem with old | new
      · apply iff_of_false
        · exact fun same => freshId (List.mem_singleton.mp same ▸ List.mem_map_of_mem old)
        · exact fun same => freshSource (same ▸ List.mem_map_of_mem old)
      · rw [List.mem_singleton.mp new]
        simp
    · have none : (view.registry.entries.countP fun entry => entry.id ∈ [id]) = 0 := by
        rw [List.countP_eq_zero]
        intro entry mem same
        exact freshId (List.mem_singleton.mp (of_decide_eq_true same) ▸ List.mem_map_of_mem mem)
      rw [List.countP_append, none]
      simp
  refine ⟨knows, ?_⟩
  have unready : rotation.isReady id = false := by
    rw [← Bool.not_eq_true]
    intro ready
    have listed := Rotation.mem_ids_of_isReady (Rotation.isReady_of_register turned ready)
    exact freshId (tidy.sound.cycle ▸ listed)
  have apart {other : SourceId} (inside : other ∈ [id]) : other = id := List.mem_singleton.mp inside
  unfold Rotation.register at turned
  split at turned
  · cases turned
  · cases turned
    refine ⟨fun other inside => ?_, fun other inside last => ?_, fun other _ waits => ?_,
      fun other inside held => ?_⟩
    · rw [apart inside]
      exact unready
    · exact freshId (apart inside ▸ tidy.cursor other last)
    · rw [tidy.pending] at waits
      cases waits
    · exact freshId (apart inside ▸ tidy.sound.holder other held)

end View

namespace Network

variable {network registered : Network σ} {ref : ViewRef} {extra : Registration} {base : σ}

omit [Producer σ α] in
/-- What was just registered may be struck again. -/
theorem strike_of_register {pool : List σ}
    (accepted : network.register ref extra.source extra.id = .ok registered)
    (same : pool.set extra.source base = network.sources) :
    Network.strike ref extra base { registered with sources := pool } = network := by
  obtain ⟨old, later, found, renewed, rfl⟩ := register_cases accepted
  have back := View.strike_of_register renewed
  have slots : (network.setView ref later).slots.modify ref (Slot.strike [extra.id]) =
      network.slots := by
    obtain ⟨listener, there⟩ := view?_eq_some_iff.mp found
    apply List.ext_getElem?
    intro place
    rw [List.getElem?_modify, slots_setView]
    by_cases here : ref = place
    · subst here
      simp [there, Slot.strike, back]
    · simp [here]
  simp only [strike, same, slots]

omit [Producer σ α] in
theorem idles_of_register (tidy : ∀ view, network.view? ref = some view → view.Tidy)
    (unknown : ∀ target view, network.view? target = some view →
      extra.source ∉ view.registry.sources)
    (accepted : network.register ref extra.source extra.id = .ok registered) :
    registered.Idles ref extra := by
  obtain ⟨old, later, found, renewed, rfl⟩ := register_cases accepted
  intro target view reached
  unfold Registration.struck
  by_cases own : target = ref
  · subst own
    rw [eq_of_view?_setView reached, if_pos rfl]
    exact View.idles_of_register (tidy old found) renewed
  · rw [view?_setView_of_ne own] at reached
    rw [if_neg own]
    exact View.idles_of_unknown (unknown target view reached)

/-- What a registration that rings nobody comes to: the source may have been given the notifier, and
that is all that has become of it. -/
theorem Enrols.cases {command : Command Notifier α} (enrols : network.Enrols ref extra command) :
    ∃ registered pool base, network.sources[extra.source]? = some base ∧
      network.register ref extra.source extra.id = .ok registered ∧
      pool.set extra.source base = network.sources ∧ network.exec command =
        ({ registered with sources := pool } : Network σ).still
          (.registered ⟨ref, extra.source⟩) := by
  obtain ⟨asked, granted, quiet⟩ := enrols
  have set_self {base : σ} (present : network.sources[extra.source]? = some base) :
      network.sources.set extra.source base = network.sources := by
    obtain ⟨within, rfl⟩ := List.getElem?_eq_some_iff.mp present
    exact List.set_getElem_self within
  cases command with
  | register target source id =>
    rw [Command.asked?, Option.ite_none_right_eq_some, Option.some.injEq] at asked
    obtain ⟨own, same⟩ := asked
    subst own same
    rcases network.exec_register_cases target source id with
      ⟨reply, refused, still⟩ | ⟨registered, accepted, performed⟩
    · rw [still] at granted
      exact absurd granted (refused _)
    · obtain ⟨base, present⟩ := present_of_register accepted
      refine ⟨registered, registered.sources, base, present, accepted, ?_, performed⟩
      rw [sources_of_register network accepted]
      exact set_self present
  | add target source =>
    rw [Command.asked?, Option.ite_none_right_eq_some, Option.map_eq_some_iff] at asked
    obtain ⟨own, id, known, same⟩ := asked
    subst own same
    rcases network.exec_add_cases target source with
      ⟨reply, refused, still⟩ | ⟨base, id', registered, present, named, accepted, performed⟩
    · rw [still] at granted
      exact absurd granted (refused _)
    · obtain rfl : id' = id := by
        rwa [present, Option.bind_some, named, Option.some.injEq] at known
      have there := present
      rw [← sources_of_register network accepted] at there
      have unrung : (Producer.attach ⟨target, source⟩ base).2 = none := by
        rw [Option.eq_none_iff_forall_ne_some]
        exact fun notifier rung => quiet notifier _ (.add present named accepted rung)
      refine ⟨registered, registered.sources.set source (Producer.attach ⟨target, source⟩ base).1,
        base, present, accepted, ?_, ?_⟩
      · rw [List.set_set, sources_of_register network accepted]
        exact set_self present
      · rw [performed]
        simp only [change, there, unrung, ringing]
  | _ => cases asked

end Network

theorem Command.source?_of_asked? {ν : Type} {sources : List σ} {ref : ViewRef}
    {command : Command ν α} {entry : Registration}
    (asked : command.asked? sources ref = some entry) : command.source? = some entry.source := by
  cases command with
  | register target source id =>
    obtain ⟨_, same⟩ := Option.ite_none_right_eq_some.mp asked
    cases same
    rfl
  | add target source =>
    rw [asked?, Option.ite_none_right_eq_some, Option.map_eq_some_iff] at asked
    obtain ⟨_, id, _, rfl⟩ := asked
    rfl
  | _ => cases asked

/-- A source that is registered was named. -/
theorem Record.source?_of_mem_enrolments {sources : List σ} {ref : ViewRef}
    {records : List (Record σ α)} {entry : Registration}
    (listed : entry ∈ enrolments ref sources records) :
    ∃ record ∈ records, record.task.command.source? = some entry.source := by
  induction records generalizing sources with
  | nil => cases listed
  | cons record records ih =>
    rcases List.mem_append.mp listed with here | later
    · refine ⟨record, List.mem_cons_self .., ?_⟩
      unfold Command.enrolled at here
      split at here
      · exact Command.source?_of_asked? (Option.mem_toList.mp here)
      · cases here
    · obtain ⟨other, mem, named⟩ := ih later
      exact ⟨other, List.mem_cons_of_mem _ mem, named⟩

/-! ### Notifiers in their new places -/

/-- Where something stands in a list once one thing more was put in at the place. -/
def shifted (place other : Nat) : Nat := if other < place then other else other + 1

/-- The command with the notifiers that it names where they are once one more was handed out at the
place. -/
def Command.shift (place : Nat) : Command Nat α → Command Nat α
  | attach source notifier => attach source (shifted place notifier)
  | ring notifier => ring (shifted place notifier)
  | isAlive notifier => isAlive (shifted place notifier)
  | command => command

def Task.shift (place : Nat) (task : Task α) : Task α :=
  { task with command := task.command.shift place }

/-- The session whose callbacks find the notifiers that they name in their new places. -/
def Session.shift (place : Nat) (session : Session σ α) : Session σ α :=
  { session with reactions := session.reactions.map (List.map (List.map (Command.shift place))) }

/-- The session that goes on when the records are made, with what the callbacks will play then. -/
def Session.resume (session : Session σ α) (past : List (Record σ α))
    (later : List (List (List (Command Nat α)))) : Session σ α :=
  ⟨session.reachedBy past, session.handedOut past, later⟩

omit [Producer σ α] in
theorem getElem?_shifted {τ : Type} (first rest : List τ) (more : τ) (place : Nat) :
    (first ++ more :: rest)[shifted first.length place]? = (first ++ rest)[place]? := by
  unfold shifted
  split
  · rename_i before
    rw [List.getElem?_append_left before, List.getElem?_append_left before]
  · rename_i behind
    have le : first.length ≤ place := Nat.le_of_not_lt behind
    rw [List.getElem?_append_right (by omega), List.getElem?_append_right le,
      Nat.sub_add_comm le, List.getElem?_cons_succ]

namespace Command

omit [Producer σ α] in
/-- A command names the same notifiers in their new places. -/
theorem resolve?_shift (first rest : List Notifier) (more : Notifier) (command : Command Nat α) :
    (command.shift first.length).resolve? (fun place => (first ++ more :: rest)[place]?) =
      command.resolve? fun place => (first ++ rest)[place]? := by
  cases command with
  | attach | ring | isAlive =>
    simp only [shift, resolve?, getElem?_shifted]
  | _ => rfl

omit [Producer σ α] in
theorem tallies_of_resolve? {ν μ : Type} {find? : ν → Option μ} {ref : ViewRef}
    {command : Command ν α} {resolved : Command μ α}
    (found : command.resolve? find? = some resolved) :
    resolved.tallies ref = command.tallies ref := by
  cases command with
  | attach | ring | isAlive =>
    obtain ⟨_, _, rfl⟩ := Option.map_eq_some_iff.mp found
    rfl
  | _ =>
    cases found
    rfl

end Command

/-! ### Counters -/

/-- The answer with one more source in the counters that it shows. -/
def Reply.counting : Reply σ → Reply σ
  | stats counters => stats { counters with sources := counters.sources + 1 }
  | reply => reply

/-- The counters of the view differ in the number of sources, by the one source. -/
theorem Network.reply_stats {network : Network σ} {ref : ViewRef} {extra : Registration} {base : σ}
    (idles : network.Idles ref extra) :
    (network.exec (.request ref .stats : Command Notifier α)).reply =
      ((network.strike ref extra base).exec
        (.request ref .stats : Command Notifier α)).reply.counting := by
  simp only [exec, view?_strike]
  cases found : network.view? ref with
  | none => rfl
  | some view =>
    have idle := idles ref view found
    rw [Registration.struck, if_pos rfl] at idle ⊢
    have length : view.stats.sources = (view.strike [extra.id]).stats.sources + 1 :=
      Registry.length_strike idle.knows
    exact congrArg (fun sources => Reply.stats { view.stats with sources }) length

/-! ### Sessions side by side -/

/-- The second session has the source besides, idle, and its notifier behind the ones that had been
handed out. -/
structure Session.Beside (ref : ViewRef) (extra : Registration) (base : σ) (handed : List Notifier)
    (plain crowded : Session σ α) : Prop where
  network : plain.network = crowded.network.strike ref extra base
  idles : crowded.network.Idles ref extra
  notifiers : ∃ rest, plain.notifiers = handed ++ rest ∧
    crowded.notifiers = handed ++ ⟨ref, extra.source⟩ :: rest
  scripts : ∀ view call,
    crowded.script view call = (plain.script view call).map (Command.shift handed.length)

/-- The second record is that of the same command in the network that has the source besides. The
command comes to the same, and of the counters of the view it shows one source more. -/
structure Record.Alongside (ref : ViewRef) (extra : Registration) (base : σ)
    (handed : List Notifier) (record other : Record σ α) : Prop where
  task : other.task = record.task.shift handed.length
  spares : other.step.Spares ref extra base (record.task.command.tallies ref) record.step
  stats : record.task.command = .request ref .stats →
    other.step.reply = record.step.reply.counting
  notifiers : ∃ rest, record.notifiers = handed ++ rest ∧
    other.notifiers = handed ++ ⟨ref, extra.source⟩ :: rest

/-- Whatever the session plays leaves the registration with the view alone. -/
def Session.Avoids (session : Session σ α) (ref : ViewRef) (extra : Registration)
    (tasks : List (Task α)) : Prop :=
  ∀ n record, (session.run tasks)[n]? = some record →
    let past := (session.run tasks).take n
    ∀ resolved,
      record.task.command.resolve? (fun place => (session.handedOut past)[place]?) = some resolved →
        (session.reachedBy past).Avoids ref extra resolved

/-- A session plays finitely many commands, so this can be checked. -/
theorem Session.avoids_iff {session : Session σ α} {ref : ViewRef} {extra : Registration}
    {tasks : List (Task α)} :
    session.Avoids ref extra tasks ↔
      ∀ n < (session.run tasks).length, ∀ record ∈ (session.run tasks)[n]?,
        let past := (session.run tasks).take n
        ∀ resolved ∈ record.task.command.resolve? fun place => (session.handedOut past)[place]?,
          (session.reachedBy past).Avoids ref extra resolved := by
  constructor
  · intro avoids n _ record played past resolved found
    exact avoids n record played resolved found
  · intro avoids n record played past resolved found
    have within := (List.getElem?_eq_some_iff.mp played).1
    exact avoids n within record played resolved found

instance (session : Session σ α) (ref : ViewRef) (extra : Registration) (tasks : List (Task α)) :
    Decidable (session.Avoids ref extra tasks) :=
  decidable_of_iff' _ Session.avoids_iff

namespace Session

variable {plain crowded : Session σ α} {ref : ViewRef} {extra : Registration} {base : σ}
  {handed : List Notifier} {tasks : List (Task α)}

theorem unissued_of_tallies (session : Session σ α) {command : Command Nat α}
    (tallies : command.tallies ref = true) (notifier : Notifier) :
    (session.perform command).reply ≠ .registered notifier := by
  intro replied
  rcases session.perform_cases command with ⟨_, still⟩ | ⟨resolved, found, performed⟩
  · rw [still] at replied
    cases replied
  · rw [performed] at replied
    have asked := Network.registration?_of_registered replied
    rw [Command.registration?_of_resolve? found] at asked
    cases command with
    | request => cases asked
    | _ => cases tallies

namespace Beside

variable (beside : Beside ref extra base handed plain crowded)
include beside

omit [Producer σ α] in
theorem spend (view : ViewRef) :
    Beside ref extra base handed (plain.spend view) (crowded.spend view) :=
  { beside with
    scripts := scripts_spend (fun played others => others = played.map _) beside.scripts view }

omit [Producer σ α] in
theorem reaction (view : ViewRef) :
    crowded.reaction view = (plain.reaction view).map (Command.shift handed.length) := by
  rw [reaction_eq_script, reaction_eq_script, beside.scripts]

omit [Producer σ α] in
theorem resolve? (command : Command Nat α) :
    (command.shift handed.length).resolve? (fun place => crowded.notifiers[place]?) =
      command.resolve? fun place => plain.notifiers[place]? := by
  obtain ⟨rest, same, more⟩ := beside.notifiers
  rw [same, more]
  exact command.resolve?_shift handed rest _

/-- A command that leaves the source alone goes the same way in both sessions. -/
theorem perform {command : Command Nat α}
    (avoids : ∀ resolved,
      command.resolve? (fun place => plain.notifiers[place]?) = some resolved →
        plain.network.Avoids ref extra resolved) :
    (crowded.perform (command.shift handed.length)).Spares ref extra base (command.tallies ref)
      (plain.perform command) := by
  unfold Session.perform
  rw [beside.resolve?]
  cases found : command.resolve? fun place => plain.notifiers[place]? with
  | none =>
    rw [beside.network]
    exact Network.spares_still beside.idles
  | some resolved =>
    have alone := avoids resolved found
    rw [beside.network] at alone
    rw [beside.network, ← Command.tallies_of_resolve? found]
    exact Network.spares_exec beside.idles alone

theorem stats :
    (crowded.perform (.request ref .stats)).reply =
      (plain.perform (.request ref .stats)).reply.counting := by
  have counted : (crowded.network.exec (.request ref .stats : Command Notifier α)).reply =
      ((crowded.network.strike ref extra base).exec
        (.request ref .stats : Command Notifier α)).reply.counting :=
    Network.reply_stats beside.idles
  rw [← beside.network] at counted
  exact counted

/-- Sessions that go the same way stay side by side. -/
theorem reach {command : Command Nat α}
    (spares : (crowded.perform (command.shift handed.length)).Spares ref extra base
      (command.tallies ref) (plain.perform command)) :
    Beside ref extra base handed (plain.reach (plain.perform command))
      (crowded.reach (crowded.perform (command.shift handed.length))) := by
  refine ⟨spares.network, spares.idles, ?_, beside.scripts⟩
  obtain ⟨rest, same, more⟩ := beside.notifiers
  cases tallies : command.tallies ref with
  | true =>
    have shifts : (command.shift handed.length).tallies ref = true := by
      cases command with
      | request => exact tallies
      | _ => cases tallies
    refine ⟨rest, ?_, ?_⟩
    · rw [notifiers_reach_of_unissued plain (plain.unissued_of_tallies tallies), same]
    · rw [notifiers_reach_of_unissued crowded (crowded.unissued_of_tallies shifts), more]
  | false =>
    have reply := spares.reply tallies
    simp only [Session.reach, same, more, reply]
    split
    · exact ⟨rest ++ [_], List.append_assoc .., List.append_assoc ..⟩
    · exact ⟨rest, rfl, rfl⟩

/-- The records of the command in the two sessions. -/
theorem alongside {task : Task α}
    (avoids : ∀ resolved,
      task.command.resolve? (fun place => plain.notifiers[place]?) = some resolved →
        plain.network.Avoids ref extra resolved) :
    (plain.recordOf task).Alongside ref extra base handed
      (crowded.recordOf (task.shift handed.length)) where
  task := rfl
  spares := beside.perform avoids
  stats asked := by
    have counted := beside.stats
    have asked : task.command = .request ref .stats := asked
    simp only [recordOf, Task.shift, asked]
    exact counted
  notifiers := (beside.reach (beside.perform avoids)).notifiers

end Beside

namespace Avoids

variable {session next : Session σ α} {task : Task α} {later : List (Task α)}

theorem head (avoids : session.Avoids ref extra (task :: tasks)) {resolved : Command Notifier α}
    (found : task.command.resolve? (fun place => session.notifiers[place]?) = some resolved) :
    session.network.Avoids ref extra resolved :=
  avoids 0 (session.recordOf task) (by rw [run]; rfl) resolved found

theorem tail (avoids : session.Avoids ref extra tasks)
    (played : session.run tasks = session.recordOf task :: next.run later)
    (network : next.network = (session.perform task.command).network)
    (notifiers : next.notifiers = (session.reach (session.perform task.command)).notifiers) :
    next.Avoids ref extra later := by
  intro n record found past resolved named
  have follows := avoids (n + 1) record (by rw [played]; exact found) resolved
  rw [played, List.take_succ_cons, reachedBy_cons, handedOut_cons] at follows
  have reached : next.reachedBy past =
      (session.reach (session.perform task.command)).reachedBy past := by
    rw [reachedBy, network]
    rfl
  have handed : next.handedOut past =
      (session.reach (session.perform task.command)).handedOut past := by
    rw [handedOut, notifiers]
    rfl
  rw [reached]
  rw [handed] at named
  exact follows named

end Avoids

/-- Sessions that start side by side play the same, record by record. -/
theorem run_beside (beside : Beside ref extra base handed plain crowded)
    (avoids : plain.Avoids ref extra tasks) :
    List.Forall₂ (Record.Alongside ref extra base handed) (plain.run tasks)
      (crowded.run (tasks.map (Task.shift handed.length))) := by
  fun_induction run plain tasks generalizing crowded with
  | case1 plain =>
    rw [List.map_nil, run]
    exact .nil
  | case2 plain task tasks step reached =>
    rename_i unnested nested
    have first := beside.alongside fun _ => avoids.head
    have next : Beside ref extra base handed reached
        (crowded.reach (crowded.perform (task.shift handed.length).command)) :=
      beside.reach first.spares
    have same : step.call? = (crowded.perform (task.shift handed.length).command).call? :=
      first.spares.call
    rw [List.map_cons]
    cases calls : step.call? with
    | none =>
      rw [crowded.run_cons_of_uncalled _ _ (same.symm.trans calls)]
      have rest := avoids.tail (plain.run_cons_of_uncalled task tasks calls) rfl rfl
      exact .cons first (unnested next rest)
    | some call =>
      -- the callback plays first, and finds the notifiers in their new places
      rw [crowded.run_cons_of_called _ _ (same.symm.trans calls)]
      have rest := avoids.tail (plain.run_cons_of_called task tasks calls) rfl rfl
      have inner := nested call (next.spend call.view) rest
      rw [List.map_append, List.map_map] at inner
      dsimp only
      rw [next.reaction, List.map_map]
      exact .cons first inner

/-- A source that was just registered is there besides. -/
theorem beside_of_enrols {session : Session σ α} {enrolling : Command Nat α}
    {resolved : Command Notifier α}
    (found : enrolling.resolve? (fun place => session.notifiers[place]?) = some resolved)
    (enrols : session.network.Enrols ref extra resolved)
    (tidy : ∀ view, session.network.view? ref = some view → view.Tidy)
    (unknown : ∀ target view, session.network.view? target = some view →
      extra.source ∉ view.registry.sources) :
    let step := (session.shift session.notifiers.length).perform enrolling
    ∃ base, session.network.sources[extra.source]? = some base ∧
      Beside ref extra base session.notifiers session
        ((session.shift session.notifiers.length).reach step) ∧
      step.events = [] ∧ step.call? = none := by
  intro step
  obtain ⟨registered, pool, base, present, accepted, restored, same⟩ := enrols.cases
  have performed : step = ({ registered with sources := pool } : Network σ).still
      (.registered ⟨ref, extra.source⟩) := by
    rw [← same]
    simp only [step, Session.perform]
    rw [show (session.shift session.notifiers.length).notifiers = session.notifiers from rfl, found]
    rfl
  rw [performed]
  have idles : registered.Idles ref extra := Network.idles_of_register tidy unknown accepted
  refine ⟨base, present, ⟨?_, idles, ?_, ?_⟩, rfl, rfl⟩
  · exact (Network.strike_of_register accepted restored).symm
  · exact ⟨[], (List.append_nil _).symm, rfl⟩
  · exact session.script_map List.map_nil

theorem resume_cons (session : Session σ α) (task : Task α) (past : List (Record σ α))
    (later : List (List (List (Command Nat α)))) :
    session.resume (session.recordOf task :: past) later =
      (session.reach (session.perform task.command)).resume past later := by
  rw [resume, reachedBy_cons, handedOut_cons]
  rfl

/-- From any point on, a session goes on as another session that starts there. -/
theorem run_resume (session : Session σ α) (tasks : List (Task α)) (n : Nat) :
    ∃ later rest, session.run tasks = (session.run tasks).take n ++
      (session.resume ((session.run tasks).take n) later).run rest := by
  fun_induction run session tasks generalizing n with
  | case1 session =>
    refine ⟨[], [], ?_⟩
    rw [run, List.take_nil]
    rfl
  | case2 session task tasks step reached =>
    rename_i unnested nested
    cases n with
    | zero =>
      refine ⟨session.reactions, task :: tasks, ?_⟩
      show _ = session.run (task :: tasks)
      rw [run]
    | succ n =>
      -- taking a reaction changes neither the network nor the notifiers
      have follows (records : List (Record σ α))
          (goes : ∃ later rest, records = records.take n ++
            (reached.resume (records.take n) later).run rest) :
          ∃ later rest, session.recordOf task :: records =
            session.recordOf task :: records.take n ++
              (session.resume (session.recordOf task :: records.take n) later).run rest := by
        obtain ⟨later, rest, goes⟩ := goes
        refine ⟨later, rest, ?_⟩
        rw [resume_cons, List.cons_append]
        exact congrArg (List.cons _) goes
      cases step.call? with
      | none => exact follows _ (unnested n)
      | some call => exact follows _ (nested call n)

end Session

omit [Producer σ α] in
theorem Record.Alongside.unpulled {ref : ViewRef} {extra : Registration} {base : σ}
    {handed : List Notifier} {records others : List (Record σ α)}
    (alongside : List.Forall₂ (Record.Alongside ref extra base handed) records others) :
    Event.answers extra.source (Record.events others) = [] := by
  induction alongside with
  | nil => rfl
  | cons first _ ih =>
    rw [Record.events, List.flatMap_cons, Event.answers_append, first.spares.unpulled]
    exact ih

/-- A source that is registered and never heard of changes nothing in a merge, whatever the sources
do.

Take a session at any point, also inside a callback, and let a source that was never registered be
registered there, by a command that rings nobody, under an identifier that the view admits. If what
is played from then on leaves the source alone, and so does the identifier with that view, and if
nobody rings for it, then the same is played, record by record, as without the registration. Every
command has the same answer, does and signals the same and calls the same callback, and it leaves
the same network but for the registration and for what the source was told with the others of its
view. Only the answers that go through all sources of the view may show the source: the identifiers,
the counters, the failures and what a release met with; and the counters show one source more and
are the same otherwise. The source is never pulled. -/
theorem idle_source_invisible {σ α : Type} [Producer σ α] (sources : List σ)
    (views : List (Config × Listener)) (reactions : List (List (List (Command Nat α))))
    (commands : List (Command Nat α)) (n : Nat) :
    let session := Session.start sources views reactions
    let past := (session.play commands).take n
    (∃ later tasks, session.play commands = past ++ (session.resume past later).run tasks) ∧
      ∀ (later : List (List (List (Command Nat α)))) (tasks : List (Task α)) (ref : ViewRef)
        (extra : Registration) (enrolling : Task α) (resolved : Command Notifier α),
        let plain := session.resume past later
        let handed := plain.notifiers
        let crowded := plain.shift handed.length
        (∀ target, ∀ entry ∈ Record.enrolments target sources past, entry.source ≠ extra.source) →
        enrolling.command.resolve? (fun place => handed[place]?) = some resolved →
        plain.network.Enrols ref extra resolved →
        plain.Avoids ref extra tasks →
        ∃ base first others, plain.network.sources[extra.source]? = some base ∧
          crowded.run (enrolling :: tasks.map (Task.shift handed.length)) = first :: others ∧
          first.step.events = [] ∧
          List.Forall₂ (Record.Alongside ref extra base handed) (plain.run tasks) others ∧
          Event.answers extra.source (Record.events (first :: others)) = [] := by
  intro session past
  refine ⟨session.run_resume _ n, ?_⟩
  intro later tasks ref extra enrolling resolved plain handed crowded unused found enrols avoids
  have tidy (view : View) (seen : plain.network.view? ref = some view) : view.Tidy :=
    Session.tidy_play sources views reactions commands n seen
  have unknown (target : ViewRef) (view : View) (seen : plain.network.view? target = some view) :
      extra.source ∉ view.registry.sources :=
    Registry.idOf?_eq_none_iff.mp
      (Session.idOf?_of_unenrolled sources views reactions commands seen (unused target))
  obtain ⟨base, present, beside, silent, uncalled⟩ :=
    Session.beside_of_enrols found enrols tidy unknown
  have others := Session.run_beside beside avoids
  have played := crowded.run_cons_of_uncalled enrolling (tasks.map (Task.shift handed.length))
    uncalled
  refine ⟨base, _, _, present, played, silent, others, ?_⟩
  rw [Record.events, List.flatMap_cons, Event.answers_append]
  have first : (crowded.recordOf enrolling).step.events = [] := silent
  rw [first]
  exact Record.Alongside.unpulled others

namespace Bystander

/-- All three sources have something. -/
def sources : List Source := [.memory (.ofBuffers ⟨5⟩ [.data [1], .data [2]]),
  .memory (.ofBuffers ⟨6⟩ [.data [9]]), .memory (.ofBuffers ⟨7⟩ [.data [3], .data [4]])]

/-- The callback takes a buffer, registers the third source and rings its notifier. -/
def reactions : List (List (List (Command Nat Source.Action))) :=
  [[[.request 0 .next, .register 0 2 ⟨7⟩, .ring 1]]]

def session : Session Source Source.Action := .start sources [(⟨1⟩, .ofCallback)] reactions

def commands : List (Command Nat Source.Action) := [
  .register 0 0 ⟨5⟩, .attach 0 0, .request 0 .peek, .request 0 .next, .request 0 .next,
  .request 0 (.availability true), .request 0 .stats]

/-- The session once the first source is registered. -/
def plain : Session Source Source.Action :=
  session.resume ((session.play commands).take 1) reactions

def tasks : List (Task Source.Action) := (commands.drop 1).map (Task.mk 0)

/-- The second source is registered then, and never heard of again. -/
def crowded : List (Record Source Source.Action) :=
  (plain.shift plain.notifiers.length).run
    (⟨0, .register 0 1 ⟨6⟩⟩ :: tasks.map (Task.shift plain.notifiers.length))

end Bystander

open Bystander in
/-- The second source has something, which nobody asks for. The third source is the third of three
in the cycle then, and its notifier is the third one. -/
theorem idle_source_invisible_bystander :
    (∃ base first others, plain.network.sources[1]? = some base ∧ crowded = first :: others ∧
      first.step.events = [] ∧
      List.Forall₂ (Record.Alongside 0 ⟨⟨6⟩, 1⟩ base plain.notifiers) (plain.run tasks) others ∧
      Event.answers 1 (Record.events (first :: others)) = []) ∧
    ((plain.run tasks).getLast?.map fun record => record.step.reply) =
        some (.stats ⟨2, 1, 1, 3, false⟩) ∧
      (crowded.getLast?.map fun record => record.step.reply) =
        some (.stats ⟨3, 1, 1, 3, false⟩) := by
  have unused (target : ViewRef) : ∀ entry ∈ Record.enrolments target sources
      ((session.play commands).take 1), entry.source ≠ 1 := by
    intro entry listed same
    obtain ⟨record, played, named⟩ := Record.source?_of_mem_enrolments listed
    have others : ∀ record ∈ (session.play commands).take 1,
        record.task.command.source? ≠ some 1 := by decide +kernel
    exact others record played (same ▸ named)
  have enrols : plain.network.Enrols 0 ⟨⟨6⟩, 1⟩
      (.register 0 1 ⟨6⟩ : Command Notifier Source.Action) :=
    ⟨rfl, by decide +kernel, fun _ _ rings => by cases rings⟩
  have avoids : plain.Avoids 0 ⟨⟨6⟩, 1⟩ tasks := by decide +kernel
  have invisible := (idle_source_invisible sources [(⟨1⟩, .ofCallback)] reactions commands 1).2
    reactions tasks 0 ⟨⟨6⟩, 1⟩ ⟨0, .register 0 1 ⟨6⟩⟩ (.register 0 1 ⟨6⟩) unused rfl enrols avoids
  exact ⟨invisible, by decide +kernel, by decide +kernel⟩

end FairMerge
