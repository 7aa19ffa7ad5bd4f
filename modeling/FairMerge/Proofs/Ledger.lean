import FairMerge.Proofs.History

/-! # The ledger of a view

The journal tells which buffers a view gathered from its sources and which it delivered. Whatever
was gathered is delivered, waits in the look-ahead queue, or was dropped when the view was released:
one equation between sequences, which every step of a view keeps. -/

namespace FairMerge

/-- A buffer with the identifier of the source that it came from. -/
def Entry.piece (entry : Entry) : SourceId × Buffer := (entry.source, entry.delivery.buffer)

/-- The buffers of the entries that came from one source. -/
def Entry.buffersFrom (id : SourceId) (entries : List Entry) : List Buffer :=
  (entries.filter fun entry => entry.source = id).map fun entry => entry.delivery.buffer

/-- What comes from one source is read off the pieces. -/
theorem Entry.buffersFrom_eq (id : SourceId) (entries : List Entry) :
    buffersFrom id entries =
      ((entries.map piece).filter fun pair => pair.1 = id).map Prod.snd := by
  rw [buffersFrom, List.filter_map, List.map_map]
  rfl

theorem Entry.buffersFrom_append (id : SourceId) (first second : List Entry) :
    buffersFrom id (first ++ second) = buffersFrom id first ++ buffersFrom id second := by
  simp [buffersFrom]

namespace Activity

/-- The pull that the activity is. -/
def pull? : Activity → Option Pull
  | pulled pull => some pull
  | _ => none

/-- What the activity delivered. -/
def delivery? : Activity → Option Entry
  | delivered entry _ => some entry
  | _ => none

/-- The pulls of a view, in order. -/
def pulls (log : List Activity) : List Pull := log.filterMap pull?

/-- What a view delivered, in order. -/
def deliveries (log : List Activity) : List Entry := log.filterMap delivery?

/-- What a view got from its pulls, in order. -/
def gathered (log : List Activity) : List Entry := (pulls log).filterMap Pull.entry?

@[simp] theorem pulls_append (log later : List Activity) :
    pulls (log ++ later) = pulls log ++ pulls later :=
  List.filterMap_append

@[simp] theorem deliveries_append (log later : List Activity) :
    deliveries (log ++ later) = deliveries log ++ deliveries later :=
  List.filterMap_append

@[simp] theorem gathered_append (log later : List Activity) :
    gathered (log ++ later) = gathered log ++ gathered later := by
  simp [gathered]

@[simp] theorem pulls_map_pulled (pulls' : List Pull) : pulls (pulls'.map pulled) = pulls' := by
  induction pulls' with
  | nil => rfl
  | cons pull rest ih => exact congrArg (pull :: ·) ih

@[simp] theorem deliveries_map_pulled (pulls' : List Pull) :
    deliveries (pulls'.map pulled) = [] := by
  induction pulls' with
  | nil => rfl
  | cons pull rest ih => exact ih

@[simp] theorem pulls_delivered (entry : Entry) (left : Nat) :
    pulls [delivered entry left] = [] := rfl

@[simp] theorem deliveries_delivered (entry : Entry) (left : Nat) :
    deliveries [delivered entry left] = [entry] := rfl

@[simp] theorem gathered_delivered (entry : Entry) (left : Nat) :
    gathered [delivered entry left] = [] := rfl

@[simp] theorem pulls_map_released (entries : List (Registration × Option Error)) :
    pulls (entries.map fun (entry, error?) => released entry error?) = [] := by
  induction entries with
  | nil => rfl
  | cons entry rest ih => exact ih

@[simp] theorem deliveries_map_released (entries : List (Registration × Option Error)) :
    deliveries (entries.map fun (entry, error?) => released entry error?) = [] := by
  induction entries with
  | nil => rfl
  | cons entry rest ih => exact ih

end Activity

namespace View

variable {σ α : Type} [Producer σ α]

/-- Every gathered buffer is delivered, in the view's hand, waiting, or was dropped by release. -/
def Balanced (view : View) (hand : Option Entry) (log : List Activity) : Prop :=
  ∃ dropped, (view.released = false → dropped = []) ∧
    (Activity.deliveries log).map Entry.piece ++
        (hand.toList ++ view.queue.entries).map Entry.piece ++ dropped =
      (Activity.gathered log).map Entry.piece

theorem balanced_invariant :
    Invariant σ fun view hand log => view.Sound ∧ view.Balanced hand log where
  register := by
    rintro view later log id source ⟨sound, balanced⟩ registered
    refine ⟨sound.register registered, ?_⟩
    obtain ⟨_, _, _, rotation, _, rfl⟩ := register_cases registered
    exact balanced
  announce := fun ⟨sound, balanced⟩ _ _ => ⟨sound.hear _, balanced⟩
  absorb := by
    rintro view hand log sources pass ⟨sound, dropped, kept, balance⟩ open' course
    refine ⟨sound.absorb open' course, [], fun _ => rfl, ?_⟩
    rw [kept open', List.append_nil] at balance
    have brought : Activity.gathered (pass.pulls.map Activity.pulled) = pass.entries := by
      simp [Activity.gathered, Pass.entries]
    simp only [Activity.deliveries_append, Activity.deliveries_map_pulled, Activity.gathered_append,
      brought, queue_absorb, Lookahead.entries_append, List.map_append, List.append_nil,
      ← balance, List.append_assoc]
  publish := fun ⟨sound, balanced⟩ => ⟨sound.publish, balanced⟩
  pop := by
    rintro view log entry queue ⟨sound, dropped, kept, balance⟩ popped
    refine ⟨sound.pop popped, dropped, kept, ?_⟩
    rw [(Lookahead.pop?_eq_some_iff.mp popped).1] at balance
    exact balance
  handOut := by
    rintro view log entry ⟨sound, dropped, kept, balance⟩
    refine ⟨sound.handOut, dropped, kept, ?_⟩
    rw [Activity.deliveries_append, Activity.deliveries_delivered, Activity.gathered_append,
      Activity.gathered_delivered, List.append_nil, ← balance]
    simp [stamp, View.handOut, Entry.piece]
  release := by
    rintro view log _ ⟨sound, dropped, kept, balance⟩ open'
    refine ⟨sound.release.publish, view.queue.entries.map Entry.piece, ?_, ?_⟩
    · intro unreleased
      cases unreleased
    · rw [kept open', List.append_nil] at balance
      simpa [publish, Lookahead.clear, Activity.gathered] using balance

theorem balanced_of_config {config : Config} {view : View}
    (built : View.ofConfig config = .ok view) : view.Sound ∧ view.Balanced none [] := by
  refine ⟨sound_of_config built, [], fun _ => rfl, ?_⟩
  rw [(eq_empty_of_config built).1]
  rfl

/-- Whatever is delivered, in the view's hand, or waiting came from registered sources. -/
def Filed (view : View) (hand : Option Entry) (log : List Activity) : Prop :=
  ∀ entry ∈ Activity.deliveries log ++ (hand.toList ++ view.queue.entries),
    entry.source ∈ view.registry.ids

theorem filed_invariant : Invariant σ fun view hand log => view.Filed hand log where
  register := by
    intro view later log id source filed registered
    obtain ⟨_, _, _, rotation, _, rfl⟩ := register_cases registered
    intro entry mem
    rw [Registry.ids, List.map_append]
    exact List.mem_append_left _ (filed entry mem)
  announce filed _ _ := filed
  absorb := by
    intro view hand log sources pass filed _ course entry mem
    rw [Activity.deliveries_append, Activity.deliveries_map_pulled, List.append_nil, queue_absorb,
      Lookahead.entries_append, ← List.append_assoc, ← List.append_assoc] at mem
    rcases List.mem_append.mp mem with mem | mem
    · rw [List.append_assoc] at mem
      exact filed entry mem
    · obtain ⟨pull, pulled, given⟩ := List.mem_filterMap.mp mem
      have listed := Registry.mem_ids_of_source? (course.registered pull pulled)
      obtain ⟨id, source, answer⟩ := pull
      cases answer with
      | delivery delivery =>
        cases given
        exact listed
      | nothing | failed => cases given
  publish filed := filed
  pop := by
    intro view log entry queue filed popped
    rw [Filed, (Lookahead.pop?_eq_some_iff.mp popped).1] at filed
    exact filed
  handOut := by
    intro view log entry filed other mem
    rw [Activity.deliveries_append, Activity.deliveries_delivered, List.append_assoc] at mem
    rcases List.mem_append.mp mem with mem | mem
    · exact filed other (List.mem_append_left _ mem)
    · rcases List.mem_cons.mp mem with rfl | mem
      · exact filed entry (List.mem_append_right _ (List.mem_cons_self ..))
      · exact filed other (List.mem_append_right _ (List.mem_cons_of_mem _ mem))
  release := by
    intro view log sources filed _ entry mem
    rw [Activity.deliveries_append, Activity.deliveries_map_released, List.append_nil] at mem
    rcases List.mem_append.mp mem with mem | mem
    · exact filed entry (List.mem_append_left _ mem)
    · cases mem

theorem filed_of_config {config : Config} {view : View} (built : View.ofConfig config = .ok view) :
    view.Filed none [] := by
  rw [(eq_empty_of_config built).1]
  intro entry mem
  cases mem

/-- Every pull was of a source that is registered under the identifier of the pull. -/
def Named (view : View) (log : List Activity) : Prop :=
  ∀ pull ∈ Activity.pulls log, ⟨pull.id, pull.source⟩ ∈ view.registry.entries

theorem named_invariant : Invariant σ fun view _ log => view.Named log where
  register := by
    intro view later log id source named registered
    obtain ⟨_, _, _, rotation, _, rfl⟩ := register_cases registered
    intro pull mem
    exact List.mem_append_left _ (named pull mem)
  announce named _ _ := named
  absorb := by
    intro view hand log sources pass named _ course pull mem
    rw [Activity.pulls_append, Activity.pulls_map_pulled] at mem
    rcases List.mem_append.mp mem with mem | mem
    · exact named pull mem
    · exact Registry.mem_of_source? (course.registered pull mem)
  publish named := named
  pop named _ := named
  handOut := by
    intro view log entry named pull mem
    rw [Activity.pulls_append, Activity.pulls_delivered, List.append_nil] at mem
    exact named pull mem
  release := by
    intro view log sources named _ pull mem
    rw [Activity.pulls_append, Activity.pulls_map_released, List.append_nil] at mem
    exact named pull mem

end View

end FairMerge
