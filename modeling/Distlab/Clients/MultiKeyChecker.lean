import Distlab.Clients.HistoryRuns
import Distlab.Clients.LinearizabilityChecker

/-!
# The multi-key checker

`MultiKeyKVLinearizabilityChecker` replays the events of each key, in the order in
which they were observed, into a history of that key, and checks each such history
on its own.
-/

set_option autoImplicit false

namespace Distlab.Clients

open Foundations

/-- `MultiKeyCompletionExtensionResult`. -/
structure MultiKeyCompletionExtensionResult where
  linearizable : Bool
  byKey : List (String × CompletionExtensionResult)
  deriving DecidableEq

/-- The histories of the keys. -/
abbrev Projected := Dict String OperationHistory

/-- A history for each key that is invoked. -/
def emptyProjections (invocations : List Invocation) : Projected :=
  invocations.foldl (fun projected invocation =>
    projected.setDefault invocation.operation.key {}) ∅

/-- The events of a history, in the order of their numbers. -/
def OperationHistory.sortedEvents (h : OperationHistory) : List HistoryEvent :=
  (h.invocations.map HistoryEvent.invoked ++
    h.completedOperations.map fun item => HistoryEvent.completed item.completion).insertionSort
      (·.sequence ≤ ·.sequence)

/-- Replay an event into the history of its key. -/
def replayEvent (h : OperationHistory) (projected : Projected) (event : HistoryEvent) :
    Except CheckerError Projected :=
  match event with
  | .invoked invocation =>
      match projected.lookup invocation.operation.key with
      | none => .error .keyError
      | some history =>
          match history.invoke invocation.operationId invocation.clientId invocation.operation with
          | .error raised => .error (.history raised)
          | .ok history' => .ok (projected.insert invocation.operation.key history')
  | .completed completion =>
      match h.invocationsById.lookup completion.operationId with
      | none => .error .keyError
      | some invocation =>
          match projected.lookup invocation.operation.key with
          | none => .error .keyError
          | some history =>
              match history.respond completion.operationId completion.result with
              | .error raised => .error (.history raised)
              | .ok history' => .ok (projected.insert invocation.operation.key history')

/-- The check of one key. -/
def checkKey (maxOperations maxStatesPerKey : ℤ) (projected : Projected) (key : String) :
    Except CheckerError (String × CompletionExtensionResult) :=
  match projected.lookup key with
  | none => .error .keyError
  | some history =>
      (checkWithPendingExtensions maxOperations maxStatesPerKey history).map (key, ·)

/-- `MultiKeyKVLinearizabilityChecker.check_with_pending_extensions`. -/
def checkKeysWithPendingExtensions (maxOperations maxKeys maxStatesPerKey : ℤ)
    (h : OperationHistory) : Except CheckerError MultiKeyCompletionExtensionResult :=
  if ¬ (1 ≤ maxOperations ∧ maxOperations ≤ 64) then .error .maxOperations
  else if ¬ (1 ≤ maxKeys ∧ maxKeys ≤ 64) then .error .maxKeys
  else if maxStatesPerKey ≤ 0 then .error .maxStates
  else
    let invocations := h.invocations
    if maxOperations < invocations.length then
      .error (.tooManyOperations invocations.length maxOperations)
    else if invocations.any (·.operation.key = "") then .error .emptyKey
    else
      let projected := emptyProjections invocations
      if maxKeys < projected.keys.length then
        .error (.tooManyKeys projected.keys.length maxKeys)
      else do
        let projected ← h.sortedEvents.foldlM (replayEvent h) projected
        let results ← (projected.keys.insertionSort (· ≤ ·)).mapM
          (checkKey maxOperations maxStatesPerKey projected)
        return ⟨results.all (·.2.linearizable), results⟩

end Distlab.Clients
