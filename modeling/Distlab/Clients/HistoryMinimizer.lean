import Distlab.Clients.HistoryRuns
import Distlab.Clients.LinearizabilityChecker
import Distlab.Foundations.Looping

/-!
# The minimizer of non-linearizable histories

The minimizer deletes completed operations of a history, in the order of their
invocations, and starts over after each deletion that keeps the history non-linearizable.
What is left is a history of its own: the events of the kept operations are replayed in
the order of their numbers.
-/

set_option autoImplicit false

namespace Distlab.Clients

open Foundations

/-- What the minimizer raises. -/
inductive HistoryMinimizationError where
  /-- `ValueError`: "history must be non-linearizable before minimization". -/
  | linearizable
  /-- `AssertionError`: "non-linearizable history must contain completed operations". -/
  | noCompleted
  /-- What the checker raises. -/
  | checker (error : CheckerError)
  /-- What a replayed event raises. -/
  | history (error : HistoryError)
  deriving DecidableEq

/-- `HistoryMinimizationResult`. -/
structure HistoryMinimizationResult where
  history : OperationHistory
  operationIds : List String
  removedOperationIds : List String

namespace OperationHistory

/-- The `events` of `_project`. -/
def keptEvents (h : OperationHistory) (keep : List String) : List HistoryEvent :=
  (((h.invocations.filter fun invocation => invocation.operationId ∈ keep).map
      HistoryEvent.invoked) ++
    ((h.completedOperations.filter fun item => item.operationId ∈ keep).map
      fun item => HistoryEvent.completed item.completion)).insertionSort
        (·.sequence ≤ ·.sequence)

/-- An event of `_project`, replayed. -/
def replay (projected : OperationHistory) : HistoryEvent → Except HistoryError OperationHistory
  | .invoked invocation =>
      projected.invoke invocation.operationId invocation.clientId invocation.operation
  | .completed completion => projected.respond completion.operationId completion.result

/-- `_project`. -/
def project (h : OperationHistory) (keep : List String) : Except HistoryError OperationHistory :=
  (h.keptEvents keep).foldlM replay {}

end OperationHistory

/-- Whether a candidate is still non-linearizable. -/
def stillFails (frames : ℕ) (h : OperationHistory) (candidateIds : List String) :
    Except HistoryMinimizationError Bool := do
  let candidate ← (h.project candidateIds).mapError .history
  let verdict ← (check frames candidate).mapError .checker
  .ok (!verdict.linearizable)

/-- The `for` loop of `minimize`: the first candidate that still fails. -/
def firstRemoval (frames : ℕ) (h : OperationHistory) (current : List String) :
    List String → Except HistoryMinimizationError (Option (List String))
  | [] => .ok none
  | operationId :: rest => do
      let candidateIds := current.filter (· ≠ operationId)
      if ← stillFails frames h candidateIds then .ok (some candidateIds)
      else firstRemoval frames h current rest

/-- The `while` loop of `minimize`. -/
def removalLoop (frames : ℕ) (h : OperationHistory) : ℕ → List String →
    Looped HistoryMinimizationError (List String)
  | 0, _ => .running
  | fuel + 1, current => do
      match ← Looped.ofExcept (firstRemoval frames h current current) with
      | none => pure current
      | some candidateIds => removalLoop frames h fuel candidateIds

/-- `minimize`. The recursion limit leaves `frames` for each search. -/
def minimize (frames : ℕ) (h : OperationHistory) :
    Looped HistoryMinimizationError HistoryMinimizationResult := do
  let verdict ← .ofExcept ((check frames h).mapError .checker)
  if verdict.linearizable then .raised .linearizable
  else
    let originalIds := h.invocations.map Invocation.operationId
    let current := h.completedOperations.map CompletedOperation.operationId
    if current = [] then .raised .noCompleted
    else
      let kept ← removalLoop frames h (current.length + 1) current
      let minimized ← .ofExcept ((h.project kept).mapError .history)
      pure ⟨minimized, kept, originalIds.filter (· ∉ kept)⟩

end Distlab.Clients
