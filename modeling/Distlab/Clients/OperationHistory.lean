import Distlab.Foundations.Dict
import Distlab.Raft.Command

/-!
# Histories of client operations

`OperationHistory` keeps what the clients invoked and what they were answered. A
write keeps the id of its request while it is unresolved; a read that its client
gave up is abandoned.
-/

set_option autoImplicit false

namespace Distlab.Clients

open Foundations Raft

/-- `HistoryOperation`: `Put`, `Delete` or `Get`. -/
inductive HistoryOperation where
  | write (operation : KVOperation)
  | get (key : String)
  deriving DecidableEq

namespace HistoryOperation

/-- `Put` or `Delete`. -/
def isWrite : HistoryOperation → Bool
  | .write _ => true
  | .get _ => false

/-- The key of an operation. -/
def key : HistoryOperation → String
  | .write (.put key _) | .write (.delete key) | .get key => key

end HistoryOperation

/-- `HistoryResult`. -/
abbrev HistoryResult := Option String

/-- `Invocation`. -/
structure Invocation where
  operationId : String
  clientId : String
  operation : HistoryOperation
  sequence : ℕ
  deriving DecidableEq

/-- `Completion`. -/
structure Completion where
  operationId : String
  result : HistoryResult
  sequence : ℕ
  deriving DecidableEq

/-- What an operation on a history raises. -/
inductive HistoryError where
  /-- `ValueError`: "operation_id must be non-empty". -/
  | emptyOperationId
  /-- `ValueError`: "client_id must be non-empty". -/
  | emptyClientId
  /-- "duplicate invocation for operation ..." -/
  | duplicateInvocation (operationId : String)
  /-- "response without invocation for operation ..." -/
  | responseWithoutInvocation (operationId : String)
  /-- "duplicate response for operation ..." -/
  | duplicateResponse (operationId : String)
  /-- "response for abandoned operation ..." -/
  | responseForAbandoned (operationId : String)
  /-- "Put/Delete responses must be None" -/
  | writeResponse
  /-- "abandon without invocation for operation ..." -/
  | abandonWithoutInvocation (operationId : String)
  /-- "cannot abandon completed operation ..." -/
  | abandonCompleted (operationId : String)
  /-- "cannot abandon unresolved client write ...; exact retry is required" -/
  | abandonWrite (operationId : String)
  /-- "duplicate abandonment for operation ..." -/
  | duplicateAbandonment (operationId : String)
  /-- "client request identity without invocation for operation ..." -/
  | identityWithoutInvocation (operationId : String)
  /-- "client request identity may only be attached to Put/Delete" -/
  | identityOfRead
  /-- "client request identity cannot be attached after response for ..." -/
  | identityAfterResponse (operationId : String)
  /-- "duplicate client request identity for operation ..." -/
  | duplicateIdentity (operationId : String)
  /-- "client request identity is already attached to active operation ..." -/
  | identityActive (operationId clientId : String) (requestId : ℕ)
  /-- "client request identity cannot retire before response for ..." -/
  | retireBeforeResponse (operationId : String)
  /-- "missing client request identity for completed operation ..." -/
  | missingIdentity (operationId : String)
  /-- "active client request identity owner mismatch for operation ..." -/
  | identityOwner (operationId : String)
  deriving DecidableEq

/-- `OperationHistory`. -/
structure OperationHistory where
  sequence : ℕ := 0
  invocationsById : Dict String Invocation := ∅
  completions : Dict String Completion := ∅
  abandonedIds : Finset String := ∅
  clientRequestIds : Dict String ℕ := ∅
  activeClientRequests : Dict (String × ℕ) String := ∅

namespace OperationHistory

/-- `invoke`. -/
def invoke (operationId clientId : String) (operation : HistoryOperation)
    (h : OperationHistory) : Except HistoryError OperationHistory :=
  if operationId = "" then .error .emptyOperationId
  else if clientId = "" then .error .emptyClientId
  else if operationId ∈ h.invocationsById then .error (.duplicateInvocation operationId)
  else
    .ok { h with
      sequence := h.sequence + 1
      invocationsById := h.invocationsById.insert operationId
        ⟨operationId, clientId, operation, h.sequence⟩ }

/-- `respond`. -/
def respond (operationId : String) (result : HistoryResult) (h : OperationHistory) :
    Except HistoryError OperationHistory :=
  match h.invocationsById.lookup operationId with
  | none => .error (.responseWithoutInvocation operationId)
  | some invocation =>
      if operationId ∈ h.completions then .error (.duplicateResponse operationId)
      else if operationId ∈ h.abandonedIds then .error (.responseForAbandoned operationId)
      else
        match invocation.operation, result with
        | .write _, some _ => .error .writeResponse
        | _, _ =>
            .ok { h with
              sequence := h.sequence + 1
              completions := h.completions.insert operationId
                ⟨operationId, result, h.sequence⟩ }

/-- `abandon`. -/
def abandon (operationId : String) (h : OperationHistory) : Except HistoryError OperationHistory :=
  match h.invocationsById.lookup operationId with
  | none => .error (.abandonWithoutInvocation operationId)
  | some invocation =>
      if operationId ∈ h.completions then .error (.abandonCompleted operationId)
      else
        match invocation.operation with
        | .write _ => .error (.abandonWrite operationId)
        | .get _ =>
            if operationId ∈ h.abandonedIds then .error (.duplicateAbandonment operationId)
            else .ok { h with abandonedIds := insert operationId h.abandonedIds }

/-- `attach_client_request_id`. -/
def attachClientRequestId (operationId : String) (requestId : ℕ) (h : OperationHistory) :
    Except HistoryError OperationHistory :=
  match h.invocationsById.lookup operationId with
  | none => .error (.identityWithoutInvocation operationId)
  | some invocation =>
      match invocation.operation with
      | .get _ => .error .identityOfRead
      | .write _ =>
          if operationId ∈ h.completions then .error (.identityAfterResponse operationId)
          else if operationId ∈ h.clientRequestIds then .error (.duplicateIdentity operationId)
          else
            match h.activeClientRequests.lookup (invocation.clientId, requestId) with
            | some owner => .error (.identityActive owner invocation.clientId requestId)
            | none =>
                .ok { h with
                  clientRequestIds := h.clientRequestIds.insert operationId requestId
                  activeClientRequests :=
                    h.activeClientRequests.insert (invocation.clientId, requestId) operationId }

/-- `client_request_id`. -/
def clientRequestId (operationId : String) (h : OperationHistory) : Option ℕ :=
  h.clientRequestIds.lookup operationId

/-- `retire_client_request_id`. -/
def retireClientRequestId (operationId : String) (h : OperationHistory) :
    Except HistoryError OperationHistory :=
  match h.completions.lookup operationId, h.invocationsById.lookup operationId with
  | some _, some invocation =>
      match h.clientRequestIds.lookup operationId with
      | none => .error (.missingIdentity operationId)
      | some requestId =>
          if h.activeClientRequests.lookup (invocation.clientId, requestId) ≠ some operationId then
            .error (.identityOwner operationId)
          else
            .ok { h with
              clientRequestIds := h.clientRequestIds.erase operationId
              activeClientRequests :=
                h.activeClientRequests.erase (invocation.clientId, requestId) }
  | _, _ => .error (.retireBeforeResponse operationId)

/-- `is_abandoned`. -/
def isAbandoned (operationId : String) (h : OperationHistory) : Bool := operationId ∈ h.abandonedIds

/-- `invocations`, in the order of their sequence numbers. -/
def invocations (h : OperationHistory) : List Invocation :=
  h.invocationsById.values.insertionSort (·.sequence ≤ ·.sequence)

/-- The completion that `completed` reports for an operation. -/
def completed (operationId : String) (h : OperationHistory) : Option Completion :=
  if operationId ∈ h.invocationsById then h.completions.lookup operationId else none

/-- `pending`. -/
def pending (h : OperationHistory) : List Invocation :=
  h.invocations.filter fun invocation => invocation.operationId ∉ h.completions

end OperationHistory

end Distlab.Clients
