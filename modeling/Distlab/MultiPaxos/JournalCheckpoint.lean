import Distlab.Clients.MultiKeyChecker
import Distlab.Foundations.Json
import Distlab.MultiPaxos.StateMachine

/-!
# Checkpoints of client journals

A journal is written as canonical JSON: its requests in the order of their
registration, the events of its history in the order of their numbers, what was
abandoned, and the request ids that are attached. Reading validates every field and
replays the events through the history.
-/

set_option autoImplicit false

namespace Distlab.MultiPaxos

open Foundations Clients

/-! ## Errors -/

/-- The classes of exceptions. -/
inductive ExceptionClass where
  | valueError
  /-- `CheckpointResourceLimitExceeded`, a `ValueError`. -/
  | resourceLimit
  | keyError
  | typeError
  | recursionError
  | attributeError
  deriving DecidableEq

/-- What writing or reading a checkpoint raises. -/
inductive CheckpointError where
  /-- "checkpoint exceeds max_bytes" -/
  | maxBytes
  /-- "checkpoint exceeds max_depth" -/
  | maxDepth
  /-- "checkpoint ... exceeds ..." -/
  | tooMany (name label : String)
  /-- "unsupported or missing checkpoint fields" -/
  | fields
  /-- "checkpoint identity must be a nonempty string" -/
  | text
  /-- "checkpoint number must be a nonnegative integer" -/
  | number
  /-- "duplicate JSON checkpoint field" -/
  | duplicateField
  /-- "non-JSON checkpoint constant ..." -/
  | constant (name : String)
  /-- "invalid checkpoint operation" -/
  | operation
  /-- "unsupported checkpoint operation type" -/
  | operationType
  /-- "KV key must be non-empty" -/
  | emptyKey
  /-- "client key must be a non-empty string" -/
  | clientKey
  /-- `TypeError`: "Put value must be a string". -/
  | putValue
  /-- `TypeError`: "Append suffix must be a string". -/
  | appendSuffix
  /-- "unsupported client journal checkpoint version" -/
  | version
  /-- "checkpoint collections must be arrays" -/
  | arrays
  /-- "duplicate or conflicting checkpoint request identity" -/
  | requestIdentity
  /-- "conflicting checkpoint history request identity" -/
  | historyIdentity
  /-- "invalid checkpoint event type" -/
  | eventType
  /-- "invalid checkpoint event order" -/
  | eventOrder
  /-- "checkpoint event lacks a history request" -/
  | eventRequest
  /-- "checkpoint requests and invocation order disagree" -/
  | invocationOrder
  /-- "duplicate checkpoint abandonment" -/
  | duplicateAbandonment
  /-- `InvalidHistory`, a `ValueError`: "Get response must be str or None". -/
  | readResponse
  /-- What the history raises: `InvalidHistory` or another `ValueError`. -/
  | history (error : HistoryError)
  /-- What an access to a value raises. -/
  | access (error : Json.AccessError)
  /-- What reading the text raises. -/
  | load (error : LoadError)
  /-- What writing the text raises. -/
  | dump (error : DumpError)
  /-- `ValueError`: "invalid client journal checkpoint: ..." -/
  | invalid (cause : CheckpointError)
  /-- "invalid client journal request table" -/
  | requestTable
  /-- "client journal history conflicts with request contents" -/
  | historyConflict
  /-- "client journal state is not representable by checkpoint v1" -/
  | notRepresentable
  deriving DecidableEq

namespace CheckpointError

/-- The class of an error; a `ValueError` where the error does not say another. -/
def exceptionClass : CheckpointError → ExceptionClass
  | .maxBytes | .maxDepth | .tooMany .. => .resourceLimit
  | .putValue | .appendSuffix | .access .type => .typeError
  | .access (.key _) => .keyError
  | .access .attribute => .attributeError
  | .load .recursion | .dump .recursion => .recursionError
  | _ => .valueError

/-- `isinstance(error, ValueError)`. -/
def IsValueError (error : CheckpointError) : Prop :=
  error.exceptionClass = .valueError ∨ error.exceptionClass = .resourceLimit

end CheckpointError

/-- A computation on a checkpoint. -/
abbrev Checkpoint (α : Type*) := Except CheckpointError α

/-! ## Limits -/

/-- `CheckpointLimits`. -/
structure CheckpointLimits where
  maxBytes : ℕ := 1048576
  maxRequests : ℕ := 4096
  maxEvents : ℕ := 8192
  maxDepth : ℕ := 16
  positive : 0 < maxBytes ∧ 0 < maxRequests ∧ 0 < maxEvents ∧ 0 < maxDepth := by decide

/-- Where the scan of a text for its depth is. -/
structure DepthScan where
  depth : ℤ := 0
  inside : Bool := false
  escaped : Bool := false

/-- One character of the scan. -/
def DepthScan.step (limits : CheckpointLimits) (scan : DepthScan) (ch : Char) :
    Checkpoint DepthScan :=
  if scan.inside then
    if scan.escaped then .ok { scan with escaped := false }
    else if ch = '\\' then .ok { scan with escaped := true }
    else if ch = '"' then .ok { scan with inside := false }
    else .ok scan
  else if ch = '"' then .ok { scan with inside := true }
  else if ch = '{' ∨ ch = '[' then
    if scan.depth + 1 > limits.maxDepth then .error .maxDepth
    else .ok { scan with depth := scan.depth + 1 }
  else if ch = '}' ∨ ch = ']' then .ok { scan with depth := scan.depth - 1 }
  else .ok scan

/-- `_enforce_input_limits`. -/
def enforceInputLimits (encoded : String) (limits : CheckpointLimits) : Checkpoint Unit :=
  if encoded.length > limits.maxBytes then .error .maxBytes
  else if encoded.utf8ByteSize > limits.maxBytes then .error .maxBytes
  else do
    let _ ← encoded.toList.foldlM (DepthScan.step limits) {}
    return ()

/-- A check under the limits, if there are any. -/
def limited (limits : Option CheckpointLimits) (check : CheckpointLimits → Checkpoint Unit) :
    Checkpoint Unit :=
  match limits with
  | some limits => check limits
  | none => .ok ()

/-! ## Fields -/

/-- An access to a value. -/
def access {α : Type*} (result : Except Json.AccessError α) : Checkpoint α :=
  result.mapError .access

/-- `_fields`. -/
def fields (value : Json) (expected : Finset String) : Checkpoint Json :=
  match value with
  | .object entries =>
    if (entries.map Prod.fst).toFinset = expected then .ok value else .error .fields
  | _ => .error .fields

/-- A nonempty string. -/
abbrev Text := { text : String // text ≠ "" }

/-- `_text`. -/
def text (value : Json) : Checkpoint Text :=
  match value with
  | .string value => if empty : value = "" then .error .text else .ok ⟨value, empty⟩
  | _ => .error .text

/-- `_number`. -/
def number (value : Json) : Checkpoint ℕ :=
  match value with
  | .int value => if value < 0 then .error .number else .ok value.toNat
  | _ => .error .number

/-- `_unique_object`. -/
def uniqueObject (pairs : List (String × Json)) : Checkpoint Json :=
  if (pairs.map Prod.fst).Nodup then .ok (.object pairs) else .error .duplicateField

/-- `_constant`. -/
def constantHook (value : String) : Checkpoint Json := .error (.constant value)

/-- `_enforce_collection_limits`. -/
def enforceCollectionLimits (raw : Json) (limits : CheckpointLimits) : Checkpoint Unit :=
  [("requests", limits.maxRequests, "max_requests"), ("events", limits.maxEvents, "max_events"),
    ("abandoned", limits.maxRequests, "max_requests"),
    ("client_request_ids", limits.maxRequests, "max_requests")].forM fun check => do
      let value ← access (raw.item check.1)
      let length ← access value.length
      if length > check.2.1 then .error (.tooMany check.1 check.2.2) else return ()

/-! ## Operations and requests -/

/-- `_encode_operation`. -/
def encodeOperation (operation : ClientOperation) : Json :=
  match operation with
  | .put key value =>
      .object [("type", .string "put"), ("key", .string key), ("value", .string value)]
  | .delete key => .object [("type", .string "delete"), ("key", .string key)]
  | .get key => .object [("type", .string "get"), ("key", .string key)]
  | .append key suffix =>
      .object [("type", .string "append"), ("key", .string key), ("suffix", .string suffix)]

/-- An operation as it is decoded, before the request checks the types of its fields. -/
inductive DecodedOperation where
  | put (key value : Json)
  | delete (key : Json)
  | get (key : Json)
  | append (key suffix : Json)

/-- The key of a decoded operation. -/
def DecodedOperation.key : DecodedOperation → Json
  | .put key _ | .delete key | .get key | .append key _ => key

/-- The `__post_init__` of an operation. -/
def DecodedOperation.keyed (operation : DecodedOperation) : Checkpoint DecodedOperation :=
  if operation.key.isFalsy then .error .emptyKey else .ok operation

/-- The value is the string. -/
def isString (expected : String) : Json → Bool
  | .string value => value = expected
  | _ => false

/-- `_decode_operation`. -/
def decodeOperation (raw : Json) : Checkpoint DecodedOperation :=
  if ¬ raw.isObject then .error .operation
  else do
    let kind ← access (raw.get "type")
    if isString "put" kind then do
      let data ← fields raw {"type", "key", "value"}
      (DecodedOperation.put (← access (data.item "key")) (← access (data.item "value"))).keyed
    else if isString "append" kind then do
      let data ← fields raw {"type", "key", "suffix"}
      (DecodedOperation.append (← access (data.item "key")) (← access (data.item "suffix"))).keyed
    else if isString "get" kind ∨ isString "delete" kind then do
      let data ← fields raw {"type", "key"}
      let key ← access (data.item "key")
      if isString "get" kind then (DecodedOperation.get key).keyed
      else (DecodedOperation.delete key).keyed
    else .error .operationType

/-- An operation on a key. -/
abbrev KeyedOperation := { operation : ClientOperation // operation.key ≠ "" }

/-- The checks of an operation in the `__post_init__` of `MultiPaxosRequest`. -/
def DecodedOperation.checked (operation : DecodedOperation) : Checkpoint KeyedOperation :=
  match operation.key with
  | .string key =>
      if keyed : key = "" then .error .clientKey
      else
        match operation with
        | .put _ (.string value) => .ok ⟨.put key value, keyed⟩
        | .put _ _ => .error .putValue
        | .append _ (.string suffix) => .ok ⟨.append key suffix, keyed⟩
        | .append _ _ => .error .appendSuffix
        | .get _ => .ok ⟨.get key, keyed⟩
        | .delete _ => .ok ⟨.delete key, keyed⟩
  | _ => .error .clientKey

/-- A request as `encode_journal` writes it. -/
def encodeRequest (request : MultiPaxosRequest) : Json :=
  .object [("client_id", .string request.clientId), ("request_id", .int request.requestId),
    ("operation_id", .string request.operationId),
    ("operation", encodeOperation request.operation)]

/-- A request as `decode_journal` reads it. -/
def decodeRequest (item : Json) : Checkpoint MultiPaxosRequest := do
  let data ← fields item {"client_id", "request_id", "operation_id", "operation"}
  let clientId ← text (← access (data.item "client_id"))
  let requestId ← number (← access (data.item "request_id"))
  let operationId ← text (← access (data.item "operation_id"))
  let decoded ← decodeOperation (← access (data.item "operation"))
  let operation ← decoded.checked
  return ⟨clientId.val, requestId, operationId.val, operation.val, clientId.property,
    operationId.property, operation.property⟩

/-! ## Reading -/

/-- The requests read so far, with their identities. -/
structure RequestTable where
  requests : Dict String MultiPaxosRequest := ∅
  identities : Finset RequestIdentity := ∅

/-- One more request. -/
def addRequest (table : RequestTable) (item : Json) : Checkpoint RequestTable := do
  let request ← decodeRequest item
  if request.operationId ∈ table.requests ∨ request.identity ∈ table.identities then
    .error .requestIdentity
  else
    return ⟨table.requests.insert request.operationId request,
      insert request.identity table.identities⟩

/-- `Put` or `Delete`. -/
def ClientOperation.isWrite : ClientOperation → Bool
  | .put .. | .delete _ => true
  | .get _ | .append .. => false

/-- One more attached request id. -/
def addAttachment (requests : Dict String MultiPaxosRequest) (attachments : Dict String ℕ)
    (item : Json) : Checkpoint (Dict String ℕ) := do
  let data ← fields item {"operation_id", "request_id"}
  let operationId ← text (← access (data.item "operation_id"))
  let requestId ← number (← access (data.item "request_id"))
  match requests.lookup operationId.val with
  | none => .error .historyIdentity
  | some request =>
      if operationId.val ∈ attachments ∨ ¬ request.operation.isWrite ∨
          requestId ≠ request.requestId then .error .historyIdentity
      else return attachments.insert operationId.val requestId

/-- A call on the history. -/
def called {α : Type*} (result : Except HistoryError α) : Checkpoint α :=
  result.mapError .history

/-- `respond` with a decoded result. A result that is neither `None` nor a string fails
the checks of a string, or "Get response must be str or None". -/
def respondDecoded (operationId : String) (result : Json) (history : OperationHistory) :
    Checkpoint OperationHistory :=
  match result with
  | .null => called (history.respond operationId none)
  | .string value => called (history.respond operationId (some value))
  | _ => do
      let _ ← called (history.respond operationId (some ""))
      .error .readResponse

/-- An invocation, with the request id that is attached to it. -/
def invokeAttached (attachments : Dict String ℕ) (operationId clientId : String)
    (operation : HistoryOperation) (history : OperationHistory) : Checkpoint OperationHistory := do
  let history ← called (history.invoke operationId clientId operation)
  match attachments.lookup operationId with
  | some requestId => called (history.attachClientRequestId operationId requestId)
  | none => return history

/-- One more event. -/
def decodeEvent (requests : Dict String MultiPaxosRequest) (attachments : Dict String ℕ)
    (history : OperationHistory) (event : Json × ℕ) : Checkpoint OperationHistory :=
  if ¬ event.1.isObject then .error .eventType
  else do
    let kind ← access (event.1.get "type")
    if ¬ (isString "invoke" kind ∨ isString "complete" kind) then .error .eventType
    else do
      let kind ← access (event.1.item "type")
      let data ← fields event.1 (if isString "complete" kind then
        {"sequence", "type", "operation_id", "result"} else {"sequence", "type", "operation_id"})
      let sequence ← number (← access (data.item "sequence"))
      if sequence ≠ event.2 then .error .eventOrder
      else do
        let operationId ← text (← access (data.item "operation_id"))
        match requests.lookup operationId.val with
        | none => .error .eventRequest
        | some request =>
            match request.operation.history? with
            | none => .error .eventRequest
            | some operation =>
                if isString "invoke" kind then
                  invokeAttached attachments operationId.val request.clientId operation history
                else do respondDecoded operationId.val (← access (data.item "result")) history

/-- The operations that the requests invoke, in the order of the requests. -/
def expectedInvocations (requests : Dict String MultiPaxosRequest) : List String :=
  (requests.entries.reverse.filter fun entry => entry.2.operation.history?.isSome).map (·.1)

/-- One more abandoned operation. -/
def decodeAbandonment (state : OperationHistory × Finset String) (item : Json) :
    Checkpoint (OperationHistory × Finset String) := do
  let operationId ← text item
  if operationId.val ∈ state.2 then .error .duplicateAbandonment
  else do
    let history ← called (state.1.abandon operationId.val)
    return (history, insert operationId.val state.2)

/-- The checks of the fields of a checkpoint. -/
def checkShape (limits : Option CheckpointLimits) (value : Json) : Checkpoint Json := do
  let raw ← fields value {"version", "requests", "events", "abandoned", "client_request_ids"}
  match ← access (raw.item "version") with
  | .int 1 => do
      ["requests", "events", "abandoned", "client_request_ids"].forM fun field => do
        let collection ← access (raw.item field)
        if ¬ collection.isArray then .error .arrays else return ()
      limited limits (enforceCollectionLimits raw)
      return raw
  | _ => .error .version

/-- The items of a field. -/
def collection (raw : Json) (field : String) : Checkpoint (List Json) := do
  access (← access (raw.item field)).elements

/-- The history that the events and abandonments of a checkpoint record. -/
def decodeHistory (raw : Json) (requests : Dict String MultiPaxosRequest) :
    Checkpoint OperationHistory := do
  let attachments ← (← collection raw "client_request_ids").foldlM (addAttachment requests) ∅
  let history ← (← collection raw "events").zipIdx.foldlM (decodeEvent requests attachments) {}
  if history.invocations.map (·.operationId) ≠ expectedInvocations requests then
    .error .invocationOrder
  else do
    let state ← (← collection raw "abandoned").foldlM decodeAbandonment (history, ∅)
    return state.1

/-- The journal that a value denotes. -/
def decodeValue (limits : Option CheckpointLimits) (value : Json) : Checkpoint ClientJournal := do
  let raw ← checkShape limits value
  let table ← (← collection raw "requests").foldlM addRequest {}
  let history ← decodeHistory raw table.requests
  return ⟨history, table.requests⟩

/-- The `except` clauses of `decode_journal`. -/
def wrapped {α : Type*} (result : Checkpoint α) : Checkpoint α :=
  match result with
  | .ok a => .ok a
  | .error error =>
      match error.exceptionClass with
      | .resourceLimit => .error error
      | .keyError | .typeError | .valueError | .recursionError => .error (.invalid error)
      | .attributeError => .error error

section Library

variable (library : JsonLibrary)

/-- `decode_journal`. -/
def decodeJournal (limits : Option CheckpointLimits) (encoded : String) :
    Checkpoint ClientJournal :=
  wrapped do
    limited limits (enforceInputLimits encoded)
    let loaded ← (library.loads encoded).mapError .load
    let value ← loaded.hooked uniqueObject constantHook
    decodeValue limits value

/-! ## Writing -/

/-- `canonical_json`. -/
def canonicalJson (value : Json) : Except DumpError String := library.dumps value.sortKeys

/-- A result as it is written. -/
def encodeResult : HistoryResult → Json
  | some value => .string value
  | none => .null

/-- An event as `encode_journal` writes it. -/
def encodeEvent (event : HistoryEvent) : Json :=
  match event with
  | .invoked invocation =>
      .object [("sequence", .int invocation.sequence), ("type", .string "invoke"),
        ("operation_id", .string invocation.operationId)]
  | .completed completion =>
      .object [("sequence", .int completion.sequence), ("type", .string "complete"),
        ("operation_id", .string completion.operationId),
        ("result", encodeResult completion.result)]

/-- The attached request id of an invocation, as `encode_journal` writes it. -/
def encodeAttachment (h : OperationHistory) (invocation : Invocation) : Option Json :=
  (h.clientRequestId invocation.operationId).map fun (requestId : ℕ) =>
    .object [("operation_id", .string invocation.operationId), ("request_id", .int requestId)]

/-- `abandoned`. -/
def abandoned (h : OperationHistory) : List Invocation :=
  h.invocations.filter fun invocation => invocation.operationId ∈ h.abandonedIds

/-- What `encode_journal` writes. -/
def payload (journal : ClientJournal) : Json :=
  .object [("version", .int 1),
    ("requests", .array (journal.requests.values.reverse.map encodeRequest)),
    ("events", .array (journal.history.sortedEvents.map encodeEvent)),
    ("abandoned", .array ((abandoned journal.history).map fun invocation =>
      .string invocation.operationId)),
    ("client_request_ids", .array (journal.history.invocations.filterMap
      (encodeAttachment journal.history)))]

/-- `vars(restored) == vars(history)`. -/
def sameHistory (restored history : OperationHistory) : Bool :=
  restored.sequence = history.sequence &&
    Application.sameItems restored.invocationsById history.invocationsById &&
    Application.sameItems restored.completions history.completions &&
    restored.abandonedIds = history.abandonedIds &&
    Application.sameItems restored.clientRequestIds history.clientRequestIds &&
    Application.sameItems restored.activeClientRequests history.activeClientRequests

/-- The request of an invocation matches it. -/
def checkInvocation (requests : Dict String MultiPaxosRequest) (invocation : Invocation) :
    Checkpoint Unit :=
  match requests.lookup invocation.operationId with
  | none => .error .historyConflict
  | some request =>
      if request.clientId ≠ invocation.clientId ∨
          request.operation.history? ≠ some invocation.operation then .error .historyConflict
      else .ok ()

/-- `encode_journal`. -/
def encodeJournal (journal : ClientJournal) : Checkpoint String := do
  journal.requests.entries.reverse.forM fun entry =>
    if entry.1 ≠ entry.2.operationId then .error .requestTable else .ok ()
  journal.history.invocations.forM (checkInvocation journal.requests)
  let encoded ← (canonicalJson library (payload journal)).mapError .dump
  let restored ← decodeJournal library none encoded
  if ¬ sameHistory restored.history journal.history ∨
      restored.requests.entries ≠ journal.requests.entries then .error .notRepresentable
  else return encoded

end Library

end Distlab.MultiPaxos
