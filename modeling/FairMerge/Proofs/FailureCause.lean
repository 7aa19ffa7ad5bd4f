import FairMerge.Proofs.Ledger
import FairMerge.Proofs.MemoryQueue
import FairMerge.Proofs.Moments
import FairMerge.Proofs.Notifiers

/-! # A failure stays visible

Of a failure two records are kept: what the source itself says, and what the pulls of the view met.
The first comes before the second, the source registered last before the others, and neither the
recovery of a source nor the release of the view takes anything back. -/

namespace FairMerge

/-- The failure that the source at a place of the pool reports of itself. -/
def Producer.ownCause? {σ α : Type} [Producer σ α] (sources : List σ) (place : SourceRef) :
    Option Error :=
  match sources[place]? with
  | none => none
  | some source => Producer.failure? source

theorem Producer.failureAt?_eq {σ α : Type} [Producer σ α] (sources : List σ) (place : SourceRef) :
    failureAt? sources place = ownCause? sources place := by
  unfold failureAt? ownCause?
  cases sources[place]? <;> rfl

/-- The fault that the pull met. -/
def Pull.fault? (pull : Pull) : Option Fault := pull.error?.map (Fault.mk pull.id)

/-- The error of the pull, if it was one of the source at the place. -/
def Pull.errorAt? (place : SourceRef) (pull : Pull) : Option Error :=
  if pull.source = place then pull.error? else none

/-- The errors that pulls of the source at the place met, the oldest first. -/
def Activity.errors (place : SourceRef) (log : List Activity) : List Error :=
  (pulls log).filterMap (Pull.errorAt? place)

theorem Activity.errors_append (place : SourceRef) (log later : List Activity) :
    errors place (log ++ later) = errors place log ++ errors place later := by
  rw [errors, pulls_append, List.filterMap_append]
  rfl

namespace View

variable {σ α : Type} [Producer σ α] {view : View} {log : List Activity}

/-- The view has the faults that its pulls met, the latest first. -/
def Blamed (view : View) (log : List Activity) : Prop :=
  view.faults = ((Activity.pulls log).filterMap Pull.fault?).reverse

theorem blamed_invariant : Invariant σ fun view _ log => view.Blamed log where
  register := by
    intro view later log id source blamed registered
    obtain ⟨_, _, _, rotation, _, rfl⟩ := register_cases registered
    exact blamed
  announce blamed _ _ := blamed
  absorb := by
    intro view hand log sources pass blamed _ _
    rw [Blamed, Activity.pulls_append, Activity.pulls_map_pulled, List.filterMap_append,
      List.reverse_append]
    exact congrArg (pass.faults.reverse ++ ·) blamed
  publish blamed := blamed
  pop blamed _ := blamed
  handOut := by
    intro view log entry blamed
    rw [Blamed, Activity.pulls_append, Activity.pulls_delivered, List.append_nil]
    exact blamed
  release := by
    intro view log sources blamed _
    rw [Blamed, Activity.pulls_append, Activity.pulls_map_released, List.append_nil]
    exact blamed

/-- The last fault with the identifier of a registered source is the last error that pulls of the
source met. -/
theorem Blamed.latest (blamed : view.Blamed log) (sound : view.Sound) (named : view.Named log)
    {entry : Registration} (registered : entry ∈ view.registry.entries) :
    (view.faults.find? fun fault => fault.id == entry.id).map Fault.cause =
      (Activity.errors entry.source log).getLast? := by
  rw [blamed, ← List.getLast?_filter, ← List.getLast?_map, List.filter_filterMap,
    List.map_filterMap]
  congr 1
  refine List.filterMap_congr fun pull mem => ?_
  have same : pull.id = entry.id ↔ pull.source = entry.source :=
    Registry.id_eq_iff_source_eq sound.distinctIds sound.distinctSources (named pull mem) registered
  rw [Pull.fault?, Pull.errorAt?]
  cases met : pull.error? with
  | none => simp
  | some cause =>
    by_cases here : pull.source = entry.source
    · simp [here, same.mpr here, Option.filter]
    · simp [here, mt same.mp here, Option.filter]

/-- Why a registered source counts as failed: by its own account, else by the last error that a pull
of it met in the log. -/
def cause? (sources : List σ) (log : List Activity) (entry : Registration) : Option Error :=
  (Producer.ownCause? sources entry.source).or (Activity.errors entry.source log).getLast?

/-- The view answers with the cause of the last source, in the order of registration, that has
one. -/
theorem failure?_eq (blamed : view.Blamed log) (sound : view.Sound) (named : view.Named log)
    (sources : List σ) :
    view.failure? sources = view.registry.entries.reverse.findSome? (cause? sources log) := by
  rw [failure?, ← List.getLast?_filterMap]
  congr 1
  refine List.filterMap_congr fun entry registered => ?_
  rw [failureOf?, blamed.latest sound named registered, Producer.failureAt?_eq, cause?]

theorem failure?_eq_some_iff (blamed : view.Blamed log) (sound : view.Sound)
    (named : view.Named log) {sources : List σ} {cause : Error} :
    view.failure? sources = some cause ↔ ∃ before entry after,
      view.registry.entries = before ++ entry :: after ∧
        cause? sources log entry = some cause ∧
        ∀ other ∈ after, cause? sources log other = none := by
  rw [failure?_eq blamed sound named, List.findSome?_eq_some_iff]
  constructor
  · rintro ⟨after, entry, before, split, caused, rest⟩
    refine ⟨before.reverse, entry, after.reverse, ?_, caused, ?_⟩
    · rw [← List.reverse_reverse view.registry.entries, split]
      simp
    · intro other mem
      exact rest other (List.mem_reverse.mp mem)
  · rintro ⟨before, entry, after, split, caused, rest⟩
    refine ⟨after.reverse, entry, before.reverse, ?_, caused, ?_⟩
    · rw [split]
      simp
    · intro other mem
      exact rest other (List.mem_reverse.mp mem)

theorem failure?_eq_none_iff (blamed : view.Blamed log) (sound : view.Sound)
    (named : view.Named log) {sources : List σ} :
    view.failure? sources = none ↔
      ∀ entry ∈ view.registry.entries, cause? sources log entry = none := by
  rw [failure?_eq blamed sound named, List.findSome?_eq_none_iff]
  simp only [List.mem_reverse]

theorem failure?_ne_none_iff (blamed : view.Blamed log) (sound : view.Sound)
    (named : view.Named log) {sources : List σ} :
    view.failure? sources ≠ none ↔
      ∃ entry ∈ view.registry.entries, cause? sources log entry ≠ none := by
  rw [Ne, failure?_eq_none_iff blamed sound named]
  simp only [not_forall, exists_prop, Ne]

/-- A pull that failed is a cause for its source. -/
theorem cause?_ne_none_of_error {pull : Pull} (mem : pull ∈ Activity.pulls log)
    (met : pull.error? ≠ none) (sources : List σ) :
    cause? sources log ⟨pull.id, pull.source⟩ ≠ none := by
  obtain ⟨cause, failed⟩ := Option.ne_none_iff_exists'.mp met
  have listed : cause ∈ Activity.errors pull.source log :=
    List.mem_filterMap.mpr ⟨pull, mem, by rw [Pull.errorAt?, if_pos rfl, failed]⟩
  intro unblamed
  obtain ⟨_, none⟩ := Option.or_eq_none_iff.mp unblamed
  rw [List.getLast?_eq_none_iff.mp none] at listed
  cases listed

/-- A cause does not go away unless the source takes it back. -/
theorem cause?_ne_none_of_earlier {sources later : List σ} {new : List Activity}
    {entry : Registration} (caused : cause? sources log entry ≠ none)
    (kept : Producer.ownCause? sources entry.source ≠ none →
      Producer.ownCause? later entry.source ≠ none) :
    cause? later (log ++ new) entry ≠ none := by
  intro none
  obtain ⟨unfailed, unblamed⟩ := Option.or_eq_none_iff.mp none
  rw [List.getLast?_eq_none_iff, Activity.errors_append, List.append_eq_nil_iff] at unblamed
  apply caused
  rw [cause?, unblamed.1, List.getLast?_nil, Option.or_none]
  by_cases failed : Producer.ownCause? sources entry.source = .none
  · exact failed
  · exact absurd unfailed (kept failed)

end View

/-! ### Sources that take nothing back -/

namespace Source

variable {source state : Source}

theorem failure?_pull (failed : Producer.failure? source ≠ none) :
    Producer.failure? (Producer.pull source).2 ≠ none := by
  cases source with
  | memory memory =>
    change memory.pull.2.failure? ≠ none
    unfold MemorySource.pull
    split
    · exact failed
    · split
      · exact Option.some_ne_none _
      · split <;> exact failed
  | script script =>
    change script.pull.2.failure? ≠ none
    unfold ScriptedSource.pull
    split <;> exact failed

theorem failure?_act (failed : Producer.failure? source ≠ none) (action : Action) :
    Producer.failure? (Producer.act action source).1 ≠ none := by
  cases source with
  | script script => cases action <;> exact failed
  | memory memory =>
    have pushAll (buffers : List Buffer) : (memory.pushAll buffers).1.failure? ≠ none := by
      unfold MemorySource.pushAll
      split
      · exact failed
      · rw [MemorySource.enqueueAll_eq]
        exact failed
    cases action with
    | script action => exact failed
    | memory action =>
      cases action with
      | push buffer => exact pushAll [buffer]
      | pushAll buffers => exact pushAll buffers
      | failPull | failRelease => exact failed
      | recordFailure cause => exact Option.some_ne_none cause

/-- A queue-backed source and a scripted one go on to report a failure once they have. -/
theorem failure?_of_serves {answers : List Answer} (served : Producer.Serves source answers state)
    (failed : Producer.failure? source ≠ none) : Producer.failure? state ≠ none := by
  induction served with
  | refl => exact failed
  | pull _ ih => exact failure?_pull ih
  | @release _ state _ ih => cases state <;> exact ih
  | @requireSegment _ state _ _ _ ih => cases state <;> exact ih
  | @resize _ state _ _ ih => cases state <;> exact ih

theorem failure?_of_becomes {issued : Notifier → Prop} {answers : List Answer}
    {actions : List Action} (became : Producer.Becomes issued source answers actions state)
    (failed : Producer.failure? source ≠ none) : Producer.failure? state ≠ none := by
  induction became with
  | refl => exact failed
  | serve _ served ih => exact failure?_of_serves served ih
  | act action _ ih => exact failure?_act ih action
  | @attach _ _ state _ _ _ ih => cases state <;> exact ih

end Source

/-- In a session, a source goes on to report a failure. -/
theorem Session.ownCause?_play (session : Session Source Source.Action)
    (commands : List (Command Nat Source.Action)) {m n : Nat} (le : m ≤ n) {place : SourceRef}
    (failed : Producer.ownCause?
      (session.reachedBy ((session.play commands).take m)).sources place ≠ none) :
    Producer.ownCause? (session.reachedBy ((session.play commands).take n)).sources place ≠
      none := by
  refine session.play_persists commands
    (fun _ network => Producer.ownCause? network.sources place ≠ none) ?_ le failed
  intro past current task failed
  rcases current.perform_cases task.command with ⟨_, still⟩ | ⟨resolved, _, performed⟩
  · rw [still]
    exact failed
  · rw [performed]
    cases found : current.network.sources[place]? with
    | none =>
      rw [Producer.ownCause?, found] at failed
      exact absurd rfl failed
    | some source =>
      obtain ⟨state, later, became⟩ := Producer.At.of_earlier
        (Network.exec_touches (fun _ => True) current.network place resolved fun _ _ => trivial)
        found
      rw [Producer.ownCause?, found] at failed
      rw [Producer.ownCause?, later]
      exact Source.failure?_of_becomes became failed

namespace Session

variable {σ α : Type} [Producer σ α] (sources : List σ) (views : List (Config × Listener))
  (reactions : List (List (List (Command Nat α)))) (commands : List (Command Nat α))

/-- At every point of a session the faults of a view are the errors of its pulls. -/
theorem blamed_play (n : Nat) {ref : ViewRef} {view : View} :
    let session := start sources views reactions
    let past := (session.play commands).take n
    (session.reachedBy past).view? ref = some view →
      view.Blamed (Record.activities ref past) ∧ view.Sound ∧
        view.Named (Record.activities ref past) := by
  intro session past there
  refine ⟨?_, ?_, ?_⟩
  · refine holds_of_view View.blamed_invariant (fun config view built => ?_) sources views
      reactions commands n there
    rw [(View.eq_empty_of_config built).1]
    rfl
  · exact holds_of_view View.sound_invariant (fun _ _ built => View.sound_of_config built) sources
      views reactions commands n there
  · exact holds_of_view View.named_invariant (fun _ _ _ pull mem => by cases mem) sources views
      reactions commands n there

/-- A view that has an answer has one later, unless a source took its failure back. -/
theorem failure?_play {ref : ViewRef} {m n : Nat} {view later : View} (le : m ≤ n) :
    let session := start sources views reactions
    let reached (n : Nat) := session.reachedBy ((session.play commands).take n)
    (reached m).view? ref = some view → (reached n).view? ref = some later →
    (∀ entry ∈ view.registry.entries,
      Producer.ownCause? (reached m).sources entry.source ≠ none →
        Producer.ownCause? (reached n).sources entry.source ≠ none) →
    view.failure? (reached m).sources ≠ none → later.failure? (reached n).sources ≠ none := by
  intro session reached there there' unretracted answered
  obtain ⟨blamed, sound, named⟩ := blamed_play sources views reactions commands m there
  obtain ⟨blamed', sound', named'⟩ := blamed_play sources views reactions commands n there'
  obtain ⟨entry, registered, caused⟩ :=
    (View.failure?_ne_none_iff blamed sound named).mp answered
  have listed : ∀ found, (reached m).view? ref = some found →
      entry.source ∈ found.registry.sources := by
    intro found same
    rw [there, Option.some.injEq] at same
    subst same
    exact List.mem_map_of_mem registered
  -- the source is still registered, and a cause is a matter of the source alone
  obtain ⟨entry', registered', same⟩ := List.mem_map.mp <|
    session.holds_of_earlier commands (View.lists_invariant entry.source) le listed later there'
  refine (View.failure?_ne_none_iff blamed' sound' named').mpr ⟨entry', registered', ?_⟩
  obtain ⟨new, extended⟩ := Record.activities_take ref (session.play commands) le
  rw [extended, View.cause?, same]
  exact View.cause?_ne_none_of_earlier caused (unretracted entry registered)

end Session

/-- At every point of a session a view answers with the cause of the last of its sources, in the
order of registration, that has one: the failure that the source itself reports, else the last error
that a pull of the source by this view met. It has none only if no registered source has one; so it
has one after any of its pulls failed, and once it has one it always has, unless a source that
reported a failure no longer does. Queue-backed and scripted sources always do. -/
theorem failure_visible :
    (∀ {σ α : Type} [Producer σ α] (sources : List σ) (views : List (Config × Listener))
        (reactions : List (List (List (Command Nat α)))) (commands : List (Command Nat α))
        (ref : ViewRef) (m : Nat) (view : View),
      let session := Session.start sources views reactions
      let past (n : Nat) := (session.play commands).take n
      let reached (n : Nat) := session.reachedBy (past n)
      let log (n : Nat) := Record.activities ref (past n)
      let cause? (entry : Registration) := View.cause? (reached m).sources (log m) entry
      (reached m).view? ref = some view →
        ∃ answer, (reached m).exec (.request ref .failure) = (reached m).still (.failure answer) ∧
          (∀ cause, answer = some cause ↔ ∃ before entry after,
            view.registry.entries = before ++ entry :: after ∧ cause? entry = some cause ∧
              ∀ other ∈ after, cause? other = none) ∧
          (answer = none ↔ ∀ entry ∈ view.registry.entries, cause? entry = none) ∧
          (∀ pull ∈ Activity.pulls (log m), pull.error? ≠ none → answer ≠ none) ∧
          ∀ n later, m ≤ n → (reached n).view? ref = some later → answer ≠ none →
            (∀ entry ∈ view.registry.entries,
              Producer.ownCause? (reached m).sources entry.source ≠ none →
                Producer.ownCause? (reached n).sources entry.source ≠ none) →
            ∃ cause, (reached n).exec (.request ref .failure) =
              (reached n).still (.failure (some cause))) ∧
    ∀ (session : Session Source Source.Action) (commands : List (Command Nat Source.Action))
        (m n : Nat) (place : SourceRef), m ≤ n →
      let reached (n : Nat) := session.reachedBy ((session.play commands).take n)
      Producer.ownCause? (reached m).sources place ≠ none →
        Producer.ownCause? (reached n).sources place ≠ none := by
  constructor
  · intro σ α _ sources views reactions commands ref m view session past reached log cause? there
    obtain ⟨blamed, sound, named⟩ :=
      Session.blamed_play sources views reactions commands m there
    have answers (n : Nat) (view : View) (there : (reached n).view? ref = some view) :
        (reached n).exec (.request ref .failure) =
          (reached n).still (.failure (view.failure? (reached n).sources)) := by
      simp only [Network.exec, there, Network.answer]
    refine ⟨_, answers m view there, fun cause => View.failure?_eq_some_iff blamed sound named,
      View.failure?_eq_none_iff blamed sound named, ?_, ?_⟩
    · intro pull mem met none
      exact View.cause?_ne_none_of_error mem met (reached m).sources
        ((View.failure?_eq_none_iff blamed sound named).mp none _ (named pull mem))
    · intro n later le there' answered unretracted
      obtain ⟨cause, visible⟩ := Option.ne_none_iff_exists'.mp <|
        Session.failure?_play sources views reactions commands le there there' unretracted answered
      exact ⟨cause, by rw [answers n later there', visible]⟩
  · intro session commands m n place le reached failed
    exact session.ownCause?_play commands le failed

namespace Recovered

/-- The first source fails once, and then it delivers. The second one fails too, and it gives a
reason of its own. -/
def sources : List Source := [
  .script (.ofAnswers [.failed (.pull ⟨9⟩ "lost"), .delivery ⟨.data [1], 0, .none, 0⟩] none none),
  .script (.ofAnswers [.failed (.pull ⟨8⟩ "torn")] (some (.pull ⟨8⟩ "worn")) none),
  .memory (.ofBuffers ⟨5⟩ [.data [2]])]

def session : Session Source Source.Action := .start sources [(⟨2⟩, .ofCallback)] []

def commands : List (Command Nat Source.Action) := [
  .register 0 0 ⟨9⟩, .announce 0 0, .request 0 .next, .register 0 1 ⟨8⟩, .announce 0 1, .add 0 2,
  .request 0 .release]

def reached (n : Nat) : Network Source := session.reachedBy ((session.play commands).take n)

def log (n : Nat) : List Activity := Record.activities 0 ((session.play commands).take n)

end Recovered

open Recovered in
/-- The failure of the first source is visible until it has delivered. Then the second one has
failed as well, and what it says of itself comes before what its pull met. A failure is still
visible after the release. -/
theorem failure_visible_recovered :
    (reached 2).exec (.request 0 .failure) =
        (reached 2).still (.failure (some (.pull ⟨9⟩ "lost"))) ∧
      ((session.play commands)[2]?).map (fun record => record.step.reply) =
        some (.delivery (some ⟨.data [1], 0, .none, 0⟩)) ∧
      Activity.errors 1 (log 5) = [.pull ⟨8⟩ "torn"] ∧
      (reached 5).exec (.request 0 .failure) =
        (reached 5).still (.failure (some (.pull ⟨8⟩ "worn"))) ∧
      ∃ cause, (reached 7).exec (.request 0 .failure) =
        (reached 7).still (.failure (some cause)) := by
  have first : ((reached 2).view? 0).map (fun view => view.registry.entries) = some [⟨⟨9⟩, 0⟩] := by
    decide +kernel
  have second : ((reached 5).view? 0).map (fun view => view.registry.entries) =
      some [⟨⟨9⟩, 0⟩, ⟨⟨8⟩, 1⟩] := by
    decide +kernel
  have lasts : ((reached 7).view? 0).isSome = true := by
    decide +kernel
  obtain ⟨early, there, listed⟩ := Option.map_eq_some_iff.mp first
  obtain ⟨view, there', listed'⟩ := Option.map_eq_some_iff.mp second
  obtain ⟨later, there''⟩ := Option.isSome_iff_exists.mp lasts
  obtain ⟨lost, answered, met, _⟩ :=
    failure_visible.1 sources [(⟨2⟩, .ofCallback)] [] commands 0 2 early there
  obtain ⟨worn, answered', own, _, _, visible⟩ :=
    failure_visible.1 sources [(⟨2⟩, .ofCallback)] [] commands 0 5 view there'
  obtain rfl : lost = some (.pull ⟨9⟩ "lost") :=
    (met (.pull ⟨9⟩ "lost")).mpr ⟨[], ⟨⟨9⟩, 0⟩, [], listed, by decide +kernel, by simp⟩
  obtain rfl : worn = some (.pull ⟨8⟩ "worn") :=
    (own (.pull ⟨8⟩ "worn")).mpr ⟨[⟨⟨9⟩, 0⟩], ⟨⟨8⟩, 1⟩, [], listed', by decide +kernel, by simp⟩
  refine ⟨answered, by decide +kernel, by decide +kernel, answered', ?_⟩
  exact visible 7 later (by decide) there'' (Option.some_ne_none _) fun entry _ =>
    failure_visible.2 session commands 5 7 entry.source (by decide)

end FairMerge
