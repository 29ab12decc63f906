import Distlab.Clients.ClientRecovery
import Distlab.Service.ServiceStages

/-!
# Runs of the leader service

The clients call the service, or write and read on their own: they append the request of a
pending write to a leader's log, complete it from what a node has applied, and read through
a linearizable reader of the driver. Between these calls the driver does with the cluster
what it likes.

Every call is a sequence of moves: the cluster goes through stages in which nothing is
appended but barriers and the requests of pending writes, or the history records one event.
-/

set_option autoImplicit false

namespace Distlab.Service

open Foundations Raft Clients

variable {ν : Type} [LinearOrder ν]

/-! ## Calls -/

/-- A call of a client or of the driver. -/
inductive ServiceCall (ν : Type) where
  | cluster (event : Event ν)
  | invokeWrite (operationId clientId : String) (requestId : ℕ) (operation : KVOperation)
  /-- The request of a pending write is appended to the log of a leader. -/
  | appendRequest (n : ν) (operationId : String)
  | completeWrite (operationId : String) (n : ν)
  /-- A read through the reader of the replicator at a position, and its retry. -/
  | read (i : ℕ) (operationId clientId key : String) (maxAttemptsPerPeer : ℕ)
      (schedules : ν → List (List Delivery))
  | retryRead (i : ℕ) (operationId clientId key : String) (maxAttemptsPerPeer : ℕ)
      (schedules : ν → List (List Delivery))
  | abandonRead (operationId clientId key : String)
  | write (leaderId : ν) (expectedGeneration : ℕ) (operationId clientId : String)
      (requestId : ℕ) (operation : KVOperation) (maxAttemptsPerPeer : ℕ)
      (schedules : ν → List (List Delivery))
  | retryWrite (leaderId : ν) (expectedGeneration : ℕ) (operationId : String)
      (maxAttemptsPerPeer : ℕ) (schedules : ν → List (List Delivery))
  | linearizableRead (leaderId : ν) (expectedGeneration : ℕ) (operationId clientId key : String)
      (maxAttemptsPerPeer : ℕ) (barrierSchedules schedules : ν → List (List Delivery))
  | retryLinearizableRead (leaderId : ν) (expectedGeneration : ℕ)
      (operationId clientId key : String) (maxAttemptsPerPeer : ℕ)
      (barrierSchedules schedules : ν → List (List Delivery))
  | linearizableBarrier (leaderId : ν) (expectedGeneration maxAttemptsPerPeer : ℕ)
      (barrierSchedules schedules : ν → List (List Delivery))

/-- A call whose value the run does not use. -/
def forget {β : Type} (outcome : ServiceOp ν β) : ServiceOp ν Unit :=
  outcome.bind fun _ S => .returns () S

variable (C : Config ν)

/-- `_complete_linearizable_read` with the reader of a replicator. -/
def readThrough (i : ℕ) (r : LeaderReplicator ν) (operationId key : String)
    (maxAttemptsPerPeer : ℕ) (schedules : ν → List (List Delivery)) (S : LeaderKVService ν) :
    ServiceOp ν (Option String) :=
  (onCluster (fun s => fromReader (linearizableGet C i r key maxAttemptsPerPeer schedules s))
    S).bind fun value S => onClients (·.respondRead operationId value) S

/-- What a call does. -/
def serviceStep (call : ServiceCall ν) (S : LeaderKVService ν) : ServiceOp ν Unit :=
  match call with
  | .cluster event => onCluster (fun s => uncaught (step C event s)) S
  | .invokeWrite operationId clientId requestId operation =>
      forget (onClients (·.invokeWrite operationId clientId requestId operation) S)
  | .appendRequest n operationId =>
      (onClients (·.retryWrite operationId) S).bind fun request S =>
        let command : Command ν :=
          .clientRequest request.clientId request.requestId request.operation
        onCluster (fun s => uncaught (step C (.appendCurrentTerm n command) s)) S
  | .completeWrite operationId n =>
      -- The pending write is looked up before the node.
      (onClients (·.retryWrite operationId) S).bind fun _ S =>
        if n ∉ C.nodeIds then .raises (.uncaught (.unknownNode n)) S
        else onClients (·.completeWrite operationId (S.cluster.kv n).requests) S
  | .read i operationId clientId key maxAttemptsPerPeer schedules =>
      match S.cluster.replicators[i]? with
      | none => .returns () S
      | some r =>
          (onClients (·.invokeRead operationId clientId key) S).bind fun _ S =>
            forget (readThrough C i r operationId key maxAttemptsPerPeer schedules S)
  | .retryRead i operationId clientId key maxAttemptsPerPeer schedules =>
      match S.cluster.replicators[i]? with
      | none => .returns () S
      | some r =>
          match S.clients.requirePendingRead operationId clientId key with
          | .error error => .raises (.client error) S
          | .ok _ => forget (readThrough C i r operationId key maxAttemptsPerPeer schedules S)
  | .abandonRead operationId clientId key =>
      onClients (·.abandonLinearizableRead operationId clientId key) S
  | .write leaderId expectedGeneration operationId clientId requestId operation
      maxAttemptsPerPeer schedules =>
      forget (write C leaderId expectedGeneration operationId clientId requestId operation
        maxAttemptsPerPeer schedules S)
  | .retryWrite leaderId expectedGeneration operationId maxAttemptsPerPeer schedules =>
      forget (retryWrite C leaderId expectedGeneration operationId maxAttemptsPerPeer schedules S)
  | .linearizableRead leaderId expectedGeneration operationId clientId key maxAttemptsPerPeer
      barrierSchedules schedules =>
      forget (linearizableRead C leaderId expectedGeneration operationId clientId key
        maxAttemptsPerPeer barrierSchedules schedules S)
  | .retryLinearizableRead leaderId expectedGeneration operationId clientId key
      maxAttemptsPerPeer barrierSchedules schedules =>
      forget (retryLinearizableRead C leaderId expectedGeneration operationId clientId key
        maxAttemptsPerPeer barrierSchedules schedules S)
  | .linearizableBarrier leaderId expectedGeneration maxAttemptsPerPeer barrierSchedules
      schedules =>
      forget (onCluster (linearizableBarrier C leaderId expectedGeneration maxAttemptsPerPeer
        barrierSchedules schedules) S)

/-- The service after a run of calls, errors included. -/
def runService (calls : List (ServiceCall ν)) : LeaderKVService ν :=
  runEvents (serviceStep C) calls ⟨C.fresh, {}⟩

/-! ## What the calls may do -/

/-- The command is no write, or it is a request of the table. -/
def Entered (requests : String → Option ClientRequest) : Command ν → Prop
  | .operation _ => False
  | .clientRequest clientId requestId operation =>
      ∃ id, requests id = some ⟨clientId, requestId, operation⟩
  | _ => True

omit [LinearOrder ν] in
theorem Entered.mono {requests requests' : String → Option ClientRequest}
    (more : ∀ id request, requests id = some request → requests' id = some request)
    {command : Command ν} (entered : Entered requests command) : Entered requests' command := by
  cases command with
  | clientRequest clientId requestId operation => exact entered.imp fun id => more id _
  | operation => exact entered
  | _ => trivial

/-- The call can be one of a run. A request identity belongs to one operation, `owner`. The
driver appends no write of its own and calls the KV store where it applies entries, and the
readers have no snapshot transport. -/
def ServiceCall.Fair (owner : String × ℕ → String) (call : ServiceCall ν)
    (S : LeaderKVService ν) : Prop :=
  match call with
  | .cluster event =>
      event.Continues ∧ event.Protocol (C := C) ∧ event.Served (Entered fun _ => none)
  | .invokeWrite operationId clientId requestId _
  | .write _ _ operationId clientId requestId _ _ _ => owner (clientId, requestId) = operationId
  | .read i _ _ _ _ _ | .retryRead i _ _ _ _ _ =>
      ∀ r, S.cluster.replicators[i]? = some r → r.snapshotTransport = false
  | _ => True

end Distlab.Service
