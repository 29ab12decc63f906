import Distlab.Clients.OperationHistory
import Distlab.Foundations.Outcome

/-!
# Client histories

`KVClientHistory` records what the clients of a replicated KV store see. It keeps the
request of each write that was not answered, so that a retry submits the same request. What
the store answers is an argument here: the requests that a node has applied, the value that
it holds, or the outcome of a linearizable read.
-/

set_option autoImplicit false

namespace Distlab.Clients

open Foundations Raft

/-- `ClientRequest`. -/
structure ClientRequest where
  clientId : String
  requestId : ℕ
  operation : KVOperation
  deriving DecidableEq

/-- What a client history raises. -/
inductive ClientError where
  /-- `ValueError`: "client_id must be non-empty". -/
  | emptyClientId
  /-- `ValueError`: "KV key must be non-empty". -/
  | emptyKey
  /-- `ValueError`: "client request identity is attached to a non-write history invocation". -/
  | identityOfNonWrite
  /-- `InvalidHistory`: "client request identity is already attached to active operation ..." -/
  | identityAttached (operationId clientId : String) (requestId : ℕ)
  /-- `ValueError`: "unknown pending write ..." -/
  | unknownWrite (operationId : String)
  /-- `RuntimeError`: "cannot complete a client write before the target replica applied its
  request". -/
  | notApplied
  /-- `ClientRequestConflict`: "cannot complete a client write from conflicting applied request
  identity: ..." -/
  | conflictingIdentity (clientId : String) (requestId : ℕ)
  /-- `ValueError`: "unknown pending linearizable read ..." -/
  | unknownRead (operationId : String)
  /-- `ValueError`: "linearizable read retry must match the pending invocation". -/
  | unmatchedRetry
  /-- `ValueError`: "abandoned linearizable read ... cannot be retried". -/
  | abandonedRetry (operationId : String)
  /-- `ValueError`: "linearizable read abandonment must match the pending invocation". -/
  | unmatchedAbandonment
  /-- `ValueError`: "linearizable read ... was already abandoned". -/
  | alreadyAbandoned (operationId : String)
  /-- What the history raises. -/
  | history (error : HistoryError)
  /-- What the linearizable reader raises. -/
  | reader
  deriving DecidableEq

/-- `KVClientHistory`. -/
structure KVClientHistory where
  history : OperationHistory := {}
  pendingWrites : Dict String ClientRequest := ∅

/-- A call of the history. -/
abbrev ClientOp (β : Type) := Outcome ClientError KVClientHistory β

/-- The pending invocation of an operation, as `pending` lists it. -/
def OperationHistory.pendingInvocation (operationId : String) (h : OperationHistory) :
    Option Invocation :=
  h.pending.find? (·.operationId = operationId)

namespace KVClientHistory

/-! ## Construction -/

/-- The pending write of an invocation that has the identity of its request. -/
def restoreWrite (h : OperationHistory) (pendingWrites : Dict String ClientRequest)
    (invocation : Invocation) : Except ClientError (Dict String ClientRequest) :=
  match h.clientRequestId invocation.operationId with
  | none => .ok pendingWrites
  | some requestId =>
      match invocation.operation with
      | .get _ => .error .identityOfNonWrite
      | .write operation =>
          if invocation.clientId = "" then .error .emptyClientId
          else
            .ok (pendingWrites.insert invocation.operationId
              ⟨invocation.clientId, requestId, operation⟩)

/-- The constructor over a history. -/
def ofHistory (h : OperationHistory) : Except ClientError KVClientHistory :=
  (h.pending.foldlM (restoreWrite h) ∅).map fun pendingWrites => ⟨h, pendingWrites⟩

/-! ## Writes -/

/-- `_ensure_client_request_identity_available`. -/
def ensureClientRequestIdentityAvailable (clientId : String) (requestId : ℕ)
    (h : OperationHistory) : Except ClientError Unit :=
  match h.invocations.find? fun invocation =>
      invocation.clientId = clientId ∧
        h.clientRequestId invocation.operationId = some requestId with
  | some invocation => .error (.identityAttached invocation.operationId clientId requestId)
  | none => .ok ()

/-- `invoke_write`. -/
def invokeWrite (operationId clientId : String) (requestId : ℕ) (operation : KVOperation)
    (c : KVClientHistory) : ClientOp ClientRequest :=
  if clientId = "" then .raises .emptyClientId c
  else
    match ensureClientRequestIdentityAvailable clientId requestId c.history with
    | .error error => .raises error c
    | .ok _ =>
        match c.history.invoke operationId clientId (.write operation) with
        | .error error => .raises (.history error) c
        | .ok invoked =>
            match invoked.attachClientRequestId operationId requestId with
            | .error error => .raises (.history error) { c with history := invoked }
            | .ok attached =>
                let request : ClientRequest := ⟨clientId, requestId, operation⟩
                .returns request ⟨attached, c.pendingWrites.insert operationId request⟩

/-- `pending_write`. -/
def pendingWrite (operationId : String) (c : KVClientHistory) : Option ClientRequest :=
  c.pendingWrites.lookup operationId

/-- `retry_write`. -/
def retryWrite (operationId : String) (c : KVClientHistory) : ClientOp ClientRequest :=
  match c.pendingWrite operationId with
  | none => .raises (.unknownWrite operationId) c
  | some request => .returns request c

/-- `complete_write`, with the requests that the node has applied. -/
def completeWrite (operationId : String) (clientRequests : Dict (String × ℕ) KVOperation)
    (c : KVClientHistory) : ClientOp Unit :=
  match c.pendingWrite operationId with
  | none => .raises (.unknownWrite operationId) c
  | some request =>
      match clientRequests.lookup (request.clientId, request.requestId) with
      | none => .raises .notApplied c
      | some applied =>
          if applied ≠ request.operation then
            .raises (.conflictingIdentity request.clientId request.requestId) c
          else
            match c.history.respond operationId none with
            | .error error => .raises (.history error) c
            | .ok responded =>
                match responded.retireClientRequestId operationId with
                | .error error => .raises (.history error) { c with history := responded }
                | .ok retired => .returns () ⟨retired, c.pendingWrites.erase operationId⟩

/-! ## Reads -/

/-- An invocation of a read. -/
def invokeRead (operationId clientId key : String) (c : KVClientHistory) : ClientOp Unit :=
  if key = "" then .raises .emptyKey c
  else
    match c.history.invoke operationId clientId (.get key) with
    | .error error => .raises (.history error) c
    | .ok invoked => .returns () { c with history := invoked }

/-- The response of a read. -/
def respondRead (operationId : String) (result : Option String) (c : KVClientHistory) :
    ClientOp (Option String) :=
  match c.history.respond operationId result with
  | .error error => .raises (.history error) c
  | .ok responded => .returns result { c with history := responded }

/-- `read`, with the KV map of the node. -/
def read (operationId clientId key : String) (state : Dict String String) (c : KVClientHistory) :
    ClientOp (Option String) :=
  (c.invokeRead operationId clientId key).bind fun _ c =>
    c.respondRead operationId (state.lookup key)

/-- The retried read is pending, of the client and the key. -/
def requireMatchingRead (operationId clientId key : String) (c : KVClientHistory) :
    Except ClientError Unit :=
  match c.history.pendingInvocation operationId with
  | none => .error (.unknownRead operationId)
  | some pending =>
      if pending.clientId ≠ clientId then .error .unmatchedRetry
      -- The operation is compared with `Get(key)`, which wants a key.
      else if key = "" then .error .emptyKey
      else if pending.operation ≠ .get key then .error .unmatchedRetry
      else .ok ()

/-- The checks of `retry_linearizable_read`. -/
def requirePendingRead (operationId clientId key : String) (c : KVClientHistory) :
    Except ClientError Unit :=
  if c.history.isAbandoned operationId then .error (.abandonedRetry operationId)
  else c.requireMatchingRead operationId clientId key

/-- `abandon_linearizable_read`. -/
def abandonLinearizableRead (operationId clientId key : String) (c : KVClientHistory) :
    ClientOp Unit :=
  if c.history.isAbandoned operationId then .raises (.alreadyAbandoned operationId) c
  else
    match c.history.pendingInvocation operationId with
    | none => .raises (.unknownRead operationId) c
    | some pending =>
        if pending.clientId ≠ clientId then .raises .unmatchedAbandonment c
        else if key = "" then .raises .emptyKey c
        else if pending.operation ≠ .get key then .raises .unmatchedAbandonment c
        else
          match c.history.abandon operationId with
          | .error error => .raises (.history error) c
          | .ok abandoned => .returns () { c with history := abandoned }

/-! ## Calls -/

/-- `_complete_linearizable_read`, with the value that the reader returns, if it does. -/
def completeRead (operationId : String) (answer : Option (Option String)) (c : KVClientHistory) :
    ClientOp (Option String) :=
  match answer with
  | none => .raises .reader c
  | some result => c.respondRead operationId result

/-- A call of the client API, with what the store answers. -/
inductive Call where
  | invokeWrite (operationId clientId : String) (requestId : ℕ) (operation : KVOperation)
  | retryWrite (operationId : String)
  | completeWrite (operationId : String) (clientRequests : Dict (String × ℕ) KVOperation)
  | read (operationId clientId key : String) (state : Dict String String)
  | linearizableRead (operationId clientId key : String) (answer : Option (Option String))
  | retryLinearizableRead (operationId clientId key : String) (answer : Option (Option String))
  | abandonLinearizableRead (operationId clientId key : String)

/-- A call returns the request of a write, or the result of a read. -/
def perform (call : Call) (c : KVClientHistory) : ClientOp (Option ClientRequest × Option String) :=
  match call with
  | .invokeWrite operationId clientId requestId operation =>
      (c.invokeWrite operationId clientId requestId operation).bind fun request c =>
        .returns (some request, none) c
  | .retryWrite operationId =>
      (c.retryWrite operationId).bind fun request c => .returns (some request, none) c
  | .completeWrite operationId clientRequests =>
      (c.completeWrite operationId clientRequests).bind fun _ c => .returns (none, none) c
  | .read operationId clientId key state =>
      (c.read operationId clientId key state).bind fun result c => .returns (none, result) c
  | .linearizableRead operationId clientId key answer =>
      (c.invokeRead operationId clientId key).bind fun _ c =>
        (c.completeRead operationId answer).bind fun result c => .returns (none, result) c
  | .retryLinearizableRead operationId clientId key answer =>
      match c.requirePendingRead operationId clientId key with
      | .error error => .raises error c
      | .ok _ => (c.completeRead operationId answer).bind fun result c => .returns (none, result) c
  | .abandonLinearizableRead operationId clientId key =>
      (c.abandonLinearizableRead operationId clientId key).bind fun _ c => .returns (none, none) c

end KVClientHistory

end Distlab.Clients
