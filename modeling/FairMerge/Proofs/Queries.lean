import FairMerge.Proofs.History

/-! # Queries

A consumer may ask a view what comes next without taking it. The view refills, makes the number of
waiting buffers public and answers from the state reached, so the answer is a reading of the view
that the query leaves. -/

namespace FairMerge

/-- What a consumer asks without taking anything. -/
inductive Query where
  | peek
  | availability (credit : Bool)
deriving DecidableEq

namespace Query

/-- The query as a request. -/
def request : Query → Request
  | peek => .peek
  | availability credit => .availability credit

/-- The answer that a view gives as it is, without a refill. -/
def read {σ : Type} (view : View) : Query → Reply σ
  | peek => .id (view.queue.head?.map Entry.source)
  | availability credit => .availability <|
    if view.queue.isEmpty then .unavailable
    else ⟨credit || view.queue.headKind == .event, view.queue.dataBacklog⟩

end Query

variable {σ α : Type} [Producer σ α]

/-- The view that answers a query: it is refilled, and the number of waiting buffers is public. -/
def View.queried (view : View) (sources : List σ) : View := (view.refill sources).view.publish

namespace Network

/-- The network after a query. -/
def queried (network : Network σ) (ref : ViewRef) (view : View) : Network σ :=
  { network with sources := (view.refill network.sources).sources }.setView ref
    (view.queried network.sources)

variable {network : Network σ} {ref : ViewRef} {view : View}

theorem view?_queried (found : network.view? ref = some view) :
    (network.queried ref view).view? ref = some (view.queried network.sources) :=
  view?_setView_self found

/-- Every query leaves the same network, and the answers are read from the same view. -/
theorem exec_query (found : network.view? ref = some view) (query : Query) :
    let step := network.exec (.request ref query.request : Command Notifier α)
    step.network = network.queried ref view ∧
      step.reply = query.read (view.queried network.sources) := by
  rw [exec, found]
  cases query <;> exact ⟨rfl, rfl⟩

/-- An answer to a query is read from the view that is there afterwards. -/
theorem read_of_query {query : Query} :
    let step := network.exec (.request ref query.request : Command Notifier α)
    step.reply ≠ .missing →
      ∃ later, step.network.view? ref = some later ∧ step.reply = query.read later := by
  intro step answered
  cases found : network.view? ref with
  | none =>
    simp only [step, exec, found] at answered
    exact absurd rfl answered
  | some view =>
    obtain ⟨left, told⟩ := exec_query (α := α) found query
    refine ⟨_, ?_, told⟩
    rw [show step.network = _ from left]
    exact view?_queried found

end Network

end FairMerge
