import Mathlib.Data.Finset.Sort
import Distlab.Clients.OperationHistory
import Distlab.Foundations.PlacementSearch

/-!
# The single-key checkers

`SingleKeyKVLinearizabilityChecker` searches for an order of the operations on one
key. `check` orders the completed operations; `checkWithPendingExtensions` may also
place pending writes, and stops when every completed operation is placed. A mask of
operations is the set of their positions.
-/

set_option autoImplicit false

namespace Distlab.Clients

open Foundations Foundations.MemoSearch Foundations.Linearizability

/-- `CompletedOperation`. -/
structure CompletedOperation where
  invocation : Invocation
  completion : Completion
  deriving DecidableEq

/-- `operation_id`. -/
def CompletedOperation.operationId (item : CompletedOperation) : String :=
  item.invocation.operationId

instance : Inhabited CompletedOperation := ⟨⟨⟨"", "", .get "", 0⟩, ⟨"", none, 0⟩⟩⟩

/-- `completed`: the completed operations, in the order of their invocations. -/
def OperationHistory.completedOperations (h : OperationHistory) : List CompletedOperation :=
  (h.invocationsById.values.filterMap fun invocation =>
    (h.completions.lookup invocation.operationId).map (⟨invocation, ·⟩)).insertionSort
      (·.invocation.sequence ≤ ·.invocation.sequence)

/-- `LinearizabilityResult`. -/
structure LinearizabilityResult where
  linearizable : Bool
  order : List String
  deriving DecidableEq

/-- `CompletionExtensionResult`. -/
structure CompletionExtensionResult where
  linearizable : Bool
  order : List String
  includedPending : List String
  omittedPending : List String
  deriving DecidableEq

/-- What a checker raises. -/
inductive CheckerError where
  /-- `ValueError`: "max_operations must be an integer in 1..64". -/
  | maxOperations
  /-- `ValueError`: "max_states must be a positive integer", or "max_states_per_key ...". -/
  | maxStates
  /-- `ValueError`: "max_keys must be an integer in 1..64". -/
  | maxKeys
  /-- `InvalidHistory`: "... require(s) non-empty string keys". -/
  | emptyKey
  /-- "single-key checker requires all completed operations to use one key" -/
  | completedKeys
  /-- "single-key checker requires all invocations to use one key" -/
  | invocationKeys
  /-- `LinearizabilitySearchExhausted`: "history has ... invocations; max_operations=...". -/
  | tooManyOperations (invocations : ℕ) (maxOperations : ℤ)
  /-- "history touches ... keys; max_keys=..." -/
  | tooManyKeys (keys : ℕ) (maxKeys : ℤ)
  /-- "completion-extension search exceeded max_states=..." -/
  | statesExceeded (maxStates : ℤ)
  /-- `RecursionError`. -/
  | recursion
  /-- `KeyError`. -/
  | keyError
  /-- What an operation on a history raised. -/
  | history (error : HistoryError)
  deriving DecidableEq

/-- The states of the searches: the placed positions and the value of the key. -/
abbrev SearchState := Finset ℕ × HistoryResult

/-- `_apply`: the value after a completed operation, unless its answer is impossible. -/
def applyCompleted (item : CompletedOperation) (value : HistoryResult) : Option HistoryResult :=
  match item.invocation.operation with
  | .write (.put _ written) => if item.completion.result = none then some (some written) else none
  | .write (.delete _) => if item.completion.result = none then some none else none
  | .get _ => if item.completion.result = value then some value else none

/-- The search of `check`: every completed operation is placed. -/
def completedPlacing (operations : List CompletedOperation) : Placing String HistoryResult :=
  .ofList operations CompletedOperation.operationId
    (fun other current => other.completion.sequence < current.invocation.sequence)
    applyCompleted (fun placed => placed = Finset.range operations.length)

/-- `check`. Its nested `search` calls itself once for each operation placed; `frames` are the
frames that the recursion limit leaves for these calls. -/
def check (frames : ℕ) (h : OperationHistory) : Except CheckerError LinearizabilityResult :=
  let operations := h.completedOperations
  if operations = [] then .ok ⟨true, []⟩
  else if (operations.map (·.invocation.operation.key)).toFinset.card ≠ 1 then
    .error .completedKeys
  else
    match search (completedPlacing operations).problem none frames (∅, none) {} with
    | .returns none _ => .ok ⟨false, []⟩
    | .returns (some order) _ => .ok ⟨true, order⟩
    -- without a limit on states only the frames run out
    | .raises _ _ => .error .recursion

/-! ## Pending extensions -/

/-- `observed`: the completed operations by their ids. -/
def OperationHistory.observed (h : OperationHistory) : Dict String CompletedOperation :=
  .ofItems (h.completedOperations.map fun item => (item.operationId, item))

/-- The operations the extended search may place, the completed ones first. -/
def OperationHistory.candidates (h : OperationHistory) : List Invocation :=
  (h.invocations.filter fun invocation =>
    invocation.operationId ∈ h.observed ∨ invocation.operation.isWrite).insertionSort
      fun a b =>
        if a.operationId ∈ h.observed ↔ b.operationId ∈ h.observed then a.sequence ≤ b.sequence
        else a.operationId ∈ h.observed

/-- The effect of placing an operation: a pending one is a write. -/
def applyCandidate (observed : Dict String CompletedOperation) (invocation : Invocation)
    (value : HistoryResult) : Option HistoryResult :=
  match observed.lookup invocation.operationId with
  | some actual => applyCompleted actual value
  | none =>
      match invocation.operation with
      | .write (.put _ written) => some (some written)
      | _ => some none

/-- The search of `checkWithPendingExtensions`: every required position is placed. -/
def extensionPlacing (observed : Dict String CompletedOperation) (operations : List Invocation) :
    Placing String HistoryResult :=
  .ofList operations Invocation.operationId
    (fun other current => (observed.lookup other.operationId).any
      (·.completion.sequence < current.sequence))
    (applyCandidate observed)
    (fun placed => (Finset.range operations.length).filter (fun i =>
      operations[i]?.any fun invocation => invocation.operationId ∈ observed) ⊆ placed)

/-- `check_with_pending_extensions`. There are at most 64 operations, for which the recursion
limit leaves frames enough. -/
def checkWithPendingExtensions (maxOperations maxStates : ℤ) (h : OperationHistory) :
    Except CheckerError CompletionExtensionResult :=
  if ¬ (1 ≤ maxOperations ∧ maxOperations ≤ 64) then .error .maxOperations
  else if maxStates ≤ 0 then .error .maxStates
  else
    let invocations := h.invocations
    if invocations.any (·.operation.key = "") then .error .emptyKey
    else if 1 < (invocations.map (·.operation.key)).toFinset.card then .error .invocationKeys
    else if maxOperations < invocations.length then
      .error (.tooManyOperations invocations.length maxOperations)
    else
      let observed := h.observed
      let operations := h.candidates
      match search (extensionPlacing observed operations).problem (some maxStates.toNat)
          (operations.length + 1) (∅, none) {} with
      | .returns none _ => .ok ⟨false, [], [], []⟩
      | .returns (some order) _ =>
          let included := order.filter (· ∉ observed)
          .ok {
            linearizable := true
            order := order
            includedPending := included
            omittedPending := (invocations.filter fun invocation =>
              invocation.operationId ∉ observed ∧ invocation.operationId ∉ included).map
                Invocation.operationId }
      | .raises .states _ => .error (.statesExceeded maxStates)
      | .raises .frames _ => .error .recursion

end Distlab.Clients
