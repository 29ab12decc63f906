import Distlab.Clients.ClientHistory
import Distlab.Raft.LinearizableRead

/-!
# The leader service

`LeaderKVService`: clients write and read through a node that leads, fenced by the
generation of its leadership. A call checks the generation before it changes the cluster and
again before it answers the client. It replicates with a replicator of its own, which the
model keeps in the cluster's list, and `schedules` says what the simulator runs while each
peer answers.
-/

set_option autoImplicit false

namespace Distlab.Service

open Foundations Raft Clients

variable {ν : Type} [LinearOrder ν]

/-! ## State and errors -/

/-- `LeaderKVService`: the cluster with the KV state, and the history of the clients. -/
structure LeaderKVService (ν : Type) where
  cluster : Cluster ν
  clients : KVClientHistory := {}

/-- What a call of the service raises. -/
inductive ServiceError (ν : Type) where
  /-- `LeaderRuntimeUnavailable`: "node ... has no active leader runtime generation". -/
  | noActiveGeneration (leaderId : ν)
  /-- `LeaderRuntimeUnavailable`: "node ... no longer owns runtime generation ...". -/
  | generationLost (leaderId : ν) (generation : ℕ)
  /-- `StaleLeaderRuntimeGeneration`: "leader runtime generation ... is stale; active
  generation is ...". -/
  | staleGeneration (expected active : ℕ)
  /-- `ValueError`: "max_attempts_per_peer must be positive". -/
  | notPositive
  /-- `ValueError`: "KV key must be non-empty". -/
  | keyEmpty
  /-- `ClientRequestConflict`: "applied request identity conflicts with pending client
  write". -/
  | conflictingApplied
  /-- `ClientRequestConflict`: "leader log contains conflicting client request identity". -/
  | conflictingLog
  /-- `AssertionError`: "Leader Append-Only violated while appending service command". -/
  | appendOnly
  /-- `AssertionError`: "committed client request was not applied on the leader". -/
  | notApplied
  /-- `LeaderWriteQuorumUnavailable`: "leader ... could not commit index ...". -/
  | writeQuorumUnavailable (leaderId : ν) (targetIndex : ℕ)
  /-- `LeaderReadBarrierUnavailable`: "leader ... could not commit index ...". -/
  | readBarrierUnavailable (leaderId : ν) (targetIndex : ℕ)
  /-- `LeaderKVServiceError`, from a `ReplicationError`. -/
  | replication (error : Error ν)
  /-- What the client history raises. -/
  | client (error : ClientError)
  /-- What the linearizable reader raises. -/
  | reader (error : ReadError ν)
  /-- An error of the cluster that the service does not catch. -/
  | uncaught (error : Error ν)
  deriving DecidableEq

/-- A call that reads and writes the cluster alone. -/
abbrev ClusterOp (ν : Type) (β : Type) := Outcome (ServiceError ν) (Cluster ν) β

/-- A call of the service. -/
abbrev ServiceOp (ν : Type) (β : Type) := Outcome (ServiceError ν) (LeaderKVService ν) β

/-- A call of the cluster that the service makes without catching anything. -/
def uncaught {β : Type} : Op ν β → ClusterOp ν β
  | .returns b s => .returns b s
  | .raises error s => .raises (.uncaught error) s

/-- A call of the linearizable reader. -/
def fromReader {β : Type} : ReadOp ν β → ClusterOp ν β
  | .returns b s => .returns b s
  | .raises error s => .raises (.reader error) s

/-- A check. -/
def require {σ β : Type} (checked : Except (ServiceError ν) β) (s : σ) :
    Outcome (ServiceError ν) σ β :=
  match checked with
  | .ok b => .returns b s
  | .error error => .raises error s

/-- A call on the cluster. -/
def onCluster {β : Type} (op : Cluster ν → ClusterOp ν β) (S : LeaderKVService ν) : ServiceOp ν β :=
  match op S.cluster with
  | .returns b s => .returns b { S with cluster := s }
  | .raises error s => .raises error { S with cluster := s }

/-- A call on the client history. -/
def onClients {β : Type} (op : KVClientHistory → ClientOp β) (S : LeaderKVService ν) :
    ServiceOp ν β :=
  match op S.clients with
  | .returns b c => .returns b { S with clients := c }
  | .raises error c => .raises (.client error) { S with clients := c }

/-! ## Generations -/

/-- `LeaderGenerationGuard.current`. -/
def currentIdentity (leaderId : ν) (s : Cluster ν) :
    Except (ServiceError ν) (LeaderRuntimeIdentity ν) :=
  match s.activeLeaderGenerations.lookup leaderId with
  | none => .error (.noActiveGeneration leaderId)
  | some (term, generation) =>
      if ¬ s.alive leaderId ∨ s.role leaderId ≠ .leader ∨ s.currentTerm leaderId ≠ term then
        .error (.generationLost leaderId generation)
      else .ok ⟨leaderId, term, generation⟩

/-- `LeaderGenerationGuard.require`, and `_require_generation`. -/
def requireGeneration (leaderId : ν) (expectedGeneration : ℕ) (s : Cluster ν) :
    Except (ServiceError ν) (LeaderRuntimeIdentity ν) :=
  match currentIdentity leaderId s with
  | .error error => .error error
  | .ok identity =>
      if identity.generation ≠ expectedGeneration then
        .error (.staleGeneration expectedGeneration identity.generation)
      else .ok identity

/-! ## The leader's log -/

/-- `_append_command`: the index of the new entry. -/
def appendCommand (leader : ν) (command : Command ν) (s : Cluster ν) : ClusterOp ν ℕ :=
  let previous := (s.logView leader).entries
  let s := s.updatePersistent leader fun p =>
    { p with log := { p.log with entries := p.log.entries ++ [⟨p.currentTerm, command⟩] } }
  if (s.logView leader).entries.take previous.length ≠ previous then .raises .appendOnly s
  else .returns (s.logView leader).lastIndex s

/-- The loop of `_request_log_index` over the retained entries from an index on. -/
def scanRequest (request : ClientRequest) :
    List (LogEntry (Command ν)) → ℕ → Except (ServiceError ν) (Option ℕ)
  | [], _ => .ok none
  | entry :: rest, index =>
      match entry.command with
      | .clientRequest clientId requestId operation =>
          if clientId ≠ request.clientId ∨ requestId ≠ request.requestId then
            scanRequest request rest (index + 1)
          else if operation ≠ request.operation then .error .conflictingLog
          else .ok (some index)
      | _ => scanRequest request rest (index + 1)

/-- `_request_log_index`. -/
def requestLogIndex (log : RaftLogView (Command ν)) (request : ClientRequest) :
    Except (ServiceError ν) (Option ℕ) :=
  scanRequest request log.entries log.firstRetainedIndex

/-- `_current_term_target_after`: the last index after the request with the leader's term. -/
def currentTermTargetAfter (log : RaftLogView (Command ν)) (currentTerm requestIndex : ℕ) :
    Option ℕ :=
  (List.range' (requestIndex + 1) (log.lastIndex - requestIndex)).reverse.find? fun index =>
    log.termAt index = some currentTerm

variable (C : Config ν)

/-! ## Replication -/

/-- `_new_replicator`, at the end of the cluster's list. -/
def newServiceReplicator (leader : ν) (s : Cluster ν) : ClusterOp ν (ℕ × LeaderReplicator ν) :=
  let membershipAware := match C.kind with
    | .fixed => false
    | .reconfigurable _ => true
  let made := (s.replicators.length, runtimeReplicator leader membershipAware s)
  (uncaught (newReplicator C leader false membershipAware s)).bind fun _ s => .returns made s

/-- The loop of `_drive_commit` over the peers. -/
def drivePeers (identity : LeaderRuntimeIdentity ν) (i targetIndex maxAttemptsPerPeer : ℕ)
    (schedules : ν → List (List Delivery)) (failure : ServiceError ν) :
    List ν → Cluster ν → ClusterOp ν Unit
  | [], s => .raises failure s
  | peer :: rest, s =>
      (require (requireGeneration identity.leaderId identity.generation s) s).bind fun _ s =>
        match replicate C i peer (some maxAttemptsPerPeer) (schedules peer) s with
        | .raises (.responseMissing _) s =>
            drivePeers identity i targetIndex maxAttemptsPerPeer schedules failure rest s
        | .raises error s =>
            if error.isReplication then
              (require (requireGeneration identity.leaderId identity.generation s) s).bind
                fun _ s => .raises (.replication error) s
            else .raises (.uncaught error) s
        | .returns _ s =>
            (require (requireGeneration identity.leaderId identity.generation s) s).bind
              fun _ s =>
                if targetIndex ≤ s.commitIndex identity.leaderId then .returns () s
                else drivePeers identity i targetIndex maxAttemptsPerPeer schedules failure rest s

/-- `_drive_commit`. -/
def driveCommit (identity : LeaderRuntimeIdentity ν) (i targetIndex maxAttemptsPerPeer : ℕ)
    (schedules : ν → List (List Delivery)) (failure : ServiceError ν) (s : Cluster ν) :
    ClusterOp ν Unit :=
  if targetIndex ≤ s.commitIndex identity.leaderId then .returns () s
  else
    drivePeers C identity i targetIndex maxAttemptsPerPeer schedules failure
      ((C.peers identity.leaderId).insertionSort (· ≤ ·)) s

/-- `_ensure_current_term_commit`. -/
def ensureCurrentTermCommit (identity : LeaderRuntimeIdentity ν) (i maxAttemptsPerPeer : ℕ)
    (schedules : ν → List (List Delivery)) (s : Cluster ν) : ClusterOp ν Unit :=
  let leader := identity.leaderId
  let barrier := (appendCommand leader .commitRecoveryBarrier s).bind fun target s =>
    (driveCommit C identity i target maxAttemptsPerPeer schedules
      (.readBarrierUnavailable leader target) s).bind fun _ s =>
        (uncaught (kvApplyCommitted leader s)).bind fun _ s => .returns () s
  if s.commitIndex leader = 0 then barrier
  else
    match (s.logView leader).termAt (s.commitIndex leader) with
    | none => .raises (.uncaught (.indexError leader (s.commitIndex leader))) s
    | some term => if term = s.currentTerm leader then .returns () s else barrier

/-! ## Writes -/

/-- `LeaderWriteResult`. -/
structure LeaderWriteResult (ν : Type) where
  leaderId : ν
  term : ℕ
  generation : ℕ
  request : ClientRequest
  logIndex : Option ℕ
  commitIndex : ℕ
  deriving DecidableEq

/-- `_write_result`. -/
def writeResult (identity : LeaderRuntimeIdentity ν) (request : ClientRequest)
    (logIndex : Option ℕ) (s : Cluster ν) : LeaderWriteResult ν :=
  ⟨identity.leaderId, identity.term, identity.generation, request, logIndex,
    s.commitIndex identity.leaderId⟩

/-- What `_commit_write` does for a request that the leader has not applied, up to the
application of its commit: the index of the request. -/
def commitRequest (identity : LeaderRuntimeIdentity ν) (request : ClientRequest)
    (maxAttemptsPerPeer : ℕ) (schedules : ν → List (List Delivery)) (s : Cluster ν) :
    ClusterOp ν ℕ :=
  let leader := identity.leaderId
  (newServiceReplicator C leader s).bind fun made s =>
    (require (requestLogIndex (s.logView leader) request) s).bind fun found s =>
      let located : ClusterOp ν ℕ := match found with
        | some index => .returns index s
        | none =>
            appendCommand leader
              (.clientRequest request.clientId request.requestId request.operation) s
      located.bind fun requestIndex s =>
        match (s.logView leader).termAt requestIndex with
        | none => .raises (.uncaught (.indexError leader requestIndex)) s
        | some term =>
            let target : ClusterOp ν ℕ :=
              if term = s.currentTerm leader then .returns requestIndex s
              else
                match currentTermTargetAfter (s.logView leader) (s.currentTerm leader)
                    requestIndex with
                | some index => .returns index s
                | none => appendCommand leader .commitRecoveryBarrier s
            target.bind fun targetCommitIndex s =>
              (driveCommit C identity made.1 targetCommitIndex maxAttemptsPerPeer schedules
                (.writeQuorumUnavailable leader targetCommitIndex) s).bind fun _ s =>
                  (uncaught (kvApplyCommitted leader s)).bind fun _ s => .returns requestIndex s

/-- The generation check and the answer at the end of `_commit_write`. -/
def answerWrite (identity : LeaderRuntimeIdentity ν) (operationId : String)
    (S : LeaderKVService ν) : ServiceOp ν Unit :=
  (require (requireGeneration identity.leaderId identity.generation S.cluster) S).bind fun _ S =>
    onClients (·.completeWrite operationId (S.cluster.kv identity.leaderId).requests) S

/-- `_commit_write`. -/
def commitWrite (identity : LeaderRuntimeIdentity ν) (operationId : String)
    (request : ClientRequest) (maxAttemptsPerPeer : ℕ) (schedules : ν → List (List Delivery))
    (S : LeaderKVService ν) : ServiceOp ν (LeaderWriteResult ν) :=
  let leader := identity.leaderId
  if maxAttemptsPerPeer = 0 then .raises .notPositive S
  else
    (require (requireGeneration leader identity.generation S.cluster) S).bind fun _ S =>
      (onCluster (fun s => uncaught (kvApplyCommitted leader s)) S).bind fun _ S =>
        match (S.cluster.kv leader).requests.lookup (request.clientId, request.requestId) with
        | some applied =>
            if applied ≠ request.operation then .raises .conflictingApplied S
            else
              (answerWrite identity operationId S).bind fun _ S =>
                (require (requestLogIndex (S.cluster.logView leader) request) S).bind fun found S =>
                  .returns (writeResult identity request found S.cluster) S
        | none =>
            (onCluster (commitRequest C identity request maxAttemptsPerPeer schedules) S).bind
              fun requestIndex S =>
                if (S.cluster.kv leader).requests.lookup (request.clientId, request.requestId) =
                    none then .raises .notApplied S
                else
                  (answerWrite identity operationId S).bind fun _ S =>
                    .returns (writeResult identity request (some requestIndex) S.cluster) S

/-- `write`. -/
def write (leaderId : ν) (expectedGeneration : ℕ) (operationId clientId : String)
    (requestId : ℕ) (operation : KVOperation) (maxAttemptsPerPeer : ℕ)
    (schedules : ν → List (List Delivery)) (S : LeaderKVService ν) :
    ServiceOp ν (LeaderWriteResult ν) :=
  (require (requireGeneration leaderId expectedGeneration S.cluster) S).bind fun identity S =>
    (onClients (·.invokeWrite operationId clientId requestId operation) S).bind fun request S =>
      commitWrite C identity operationId request maxAttemptsPerPeer schedules S

/-- `retry_write`. -/
def retryWrite (leaderId : ν) (expectedGeneration : ℕ) (operationId : String)
    (maxAttemptsPerPeer : ℕ) (schedules : ν → List (List Delivery)) (S : LeaderKVService ν) :
    ServiceOp ν (LeaderWriteResult ν) :=
  (require (requireGeneration leaderId expectedGeneration S.cluster) S).bind fun identity S =>
    (onClients (·.retryWrite operationId) S).bind fun request S =>
      commitWrite C identity operationId request maxAttemptsPerPeer schedules S

/-! ## Reads -/

/-- `LeaderReadResult`. -/
structure LeaderReadResult (ν : Type) where
  leaderId : ν
  term : ℕ
  generation : ℕ
  key : String
  value : Option String
  commitIndex : ℕ
  deriving DecidableEq

/-- What the service does on the cluster for a read: its value. -/
def serviceRead (identity : LeaderRuntimeIdentity ν) (key : String) (maxAttemptsPerPeer : ℕ)
    (barrierSchedules schedules : ν → List (List Delivery)) (s : Cluster ν) :
    ClusterOp ν (Option String) :=
  (newServiceReplicator C identity.leaderId s).bind fun made s =>
    (ensureCurrentTermCommit C identity made.1 maxAttemptsPerPeer barrierSchedules s).bind
      fun _ s => fromReader (linearizableGet C made.1 made.2 key maxAttemptsPerPeer schedules s)

/-- `_complete_read`. -/
def completeRead (identity : LeaderRuntimeIdentity ν) (operationId key : String)
    (maxAttemptsPerPeer : ℕ) (barrierSchedules schedules : ν → List (List Delivery))
    (S : LeaderKVService ν) : ServiceOp ν (LeaderReadResult ν) :=
  let leader := identity.leaderId
  if maxAttemptsPerPeer = 0 then .raises .notPositive S
  else
    (onCluster (serviceRead C identity key maxAttemptsPerPeer barrierSchedules schedules) S).bind
      fun value S =>
        (require (requireGeneration leader identity.generation S.cluster) S).bind fun _ S =>
          (onClients (·.respondRead operationId value) S).bind fun value S =>
            .returns ⟨leader, identity.term, identity.generation, key, value,
              S.cluster.commitIndex leader⟩ S

/-- `linearizable_read`. -/
def linearizableRead (leaderId : ν) (expectedGeneration : ℕ) (operationId clientId key : String)
    (maxAttemptsPerPeer : ℕ) (barrierSchedules schedules : ν → List (List Delivery))
    (S : LeaderKVService ν) : ServiceOp ν (LeaderReadResult ν) :=
  if key = "" then .raises .keyEmpty S
  else
    (require (requireGeneration leaderId expectedGeneration S.cluster) S).bind fun identity S =>
      (onClients (·.invokeRead operationId clientId key) S).bind fun _ S =>
        completeRead C identity operationId key maxAttemptsPerPeer barrierSchedules schedules S

/-- The checks of `retry_linearizable_read`. The client history makes the same, but looks
first whether the read is abandoned. -/
def requireRetriedRead (operationId clientId key : String) (c : KVClientHistory) :
    Except (ServiceError ν) Unit :=
  match c.requireMatchingRead operationId clientId key with
  | .error error => .error (.client error)
  | .ok _ =>
      if c.history.isAbandoned operationId then .error (.client (.abandonedRetry operationId))
      else .ok ()

/-- `retry_linearizable_read`. -/
def retryLinearizableRead (leaderId : ν) (expectedGeneration : ℕ)
    (operationId clientId key : String) (maxAttemptsPerPeer : ℕ)
    (barrierSchedules schedules : ν → List (List Delivery)) (S : LeaderKVService ν) :
    ServiceOp ν (LeaderReadResult ν) :=
  (require (requireGeneration leaderId expectedGeneration S.cluster) S).bind fun identity S =>
    (require (requireRetriedRead operationId clientId key S.clients) S).bind fun _ S =>
      completeRead C identity operationId key maxAttemptsPerPeer barrierSchedules schedules S

/-- `linearizable_barrier`. -/
def linearizableBarrier (leaderId : ν) (expectedGeneration maxAttemptsPerPeer : ℕ)
    (barrierSchedules schedules : ν → List (List Delivery)) (s : Cluster ν) :
    ClusterOp ν (ReadBarrierEvidence ν) :=
  if maxAttemptsPerPeer = 0 then .raises .notPositive s
  else
    (require (requireGeneration leaderId expectedGeneration s) s).bind fun identity s =>
      (newServiceReplicator C leaderId s).bind fun made s =>
        (ensureCurrentTermCommit C identity made.1 maxAttemptsPerPeer barrierSchedules s).bind
          fun _ s =>
            (fromReader (readBarrier C made.1 made.2 maxAttemptsPerPeer schedules s)).bind
              fun evidence s =>
                (require (requireGeneration leaderId expectedGeneration s) s).bind fun _ s =>
                  .returns evidence s

end Distlab.Service
