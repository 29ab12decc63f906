import Distlab.Raft.LeaderLiveness
import Distlab.Raft.Runs

/-!
# The transport of leadership transfers

`LeadershipTransferTransport`: the `TimeoutNow` messages, the active attempts that give
them their authority, and the election that a delivery starts. The transport keeps
every message sent, so that one can be delivered late, again or never.

The records are the transport's own.
-/

set_option autoImplicit false

namespace Distlab.Raft

open Foundations

variable {ν : Type} [LinearOrder ν] (C : Config ν)

/-! ## Messages and records -/

/-- `TimeoutNow`. -/
structure TimeoutNow (ν : Type) where
  term : ℕ
  leaderId : ν
  transfereeId : ν
  attemptId : ℕ
  deriving DecidableEq

/-- What an active attempt grants: the leader, the transferee and the term. -/
def TimeoutNow.identity {ν : Type} (request : TimeoutNow ν) : ν × ν × ℕ :=
  (request.leaderId, request.transfereeId, request.term)

/-- A message to the transport's endpoint of a node. -/
structure TimeoutNowMessage (ν : Type) where
  src : ν
  dst : ν
  endpoint : ν
  payload : TimeoutNow ν
  deriving DecidableEq

/-- Why a delivery starts no election. -/
inductive TransferRejection where
  | staleTransferAttempt
  | transfereeCrashed
  | sourceLeaderCrashed
  | termMismatch
  | sourceNotRecordedLeader
  | sourceNoLongerCurrentLeader
  | transfereeNotCaughtUp
  | transfereeLogMismatch
  | transfereeNotVoter
  | transfereeOutgoingOnly
  | membershipConfigurationChanged
  deriving DecidableEq

/-- Why an envelope is rejected. -/
inductive EnvelopeRejection where
  | unknownSourcePrincipal
  | unknownDestinationPrincipal
  | sourceIdentityMismatch
  | destinationIdentityMismatch
  | deliveryEndpointMismatch
  deriving DecidableEq

/-- The trace records of the transport. -/
inductive TimeoutNowRecord (ν : Type) where
  /-- `raft-timeout-now-request-rejected` -/
  | requestRejected (leader transferee : ν) (term activeAttempt : ℕ) (activeTransferee : ν)
  /-- `raft-timeout-now-request` -/
  | request (request : TimeoutNow ν)
  /-- `raft-timeout-now-cancelled` -/
  | cancelled (identity : ν × ν × ℕ) (attemptId : ℕ)
  /-- `raft-timeout-now-completed` -/
  | completed (identity : ν × ν × ℕ) (attemptId : ℕ)
  /-- `raft-timeout-now-envelope-rejected` -/
  | envelopeRejected (message : TimeoutNowMessage ν) (reason : EnvelopeRejection)
  /-- `raft-timeout-now-rejected` -/
  | rejected (request : TimeoutNow ν) (targetTerm : ℕ) (reason : TransferRejection)
      (retryable : Bool)
  /-- `raft-timeout-now-delivered` -/
  | delivered (request : TimeoutNow ν)
  /-- `raft-timeout-now-retry-rejected` -/
  | retryRejected (identity : ν × ν × ℕ) (attemptId : ℕ) (reason : TransferRejection)
  /-- `raft-timeout-now-retry` -/
  | retry (identity : ν × ν × ℕ) (attemptId : ℕ)
  deriving DecidableEq

/-! ## State -/

/-- `LeadershipTransferTransport`. -/
structure TimeoutNowTransport (ν : Type) where
  nextAttemptId : ℕ := 0
  activeAttempts : Dict ℕ (ν × ν × ℕ) := ∅
  attemptConfigurations : Dict ℕ (RoundConfiguration ν) := ∅
  sent : List (TimeoutNowMessage ν) := []
  records : List (TimeoutNowRecord ν) := []

/-- A cluster and the transport of its leadership transfers. -/
structure TransferCluster (ν : Type) where
  cluster : Cluster ν
  transport : TimeoutNowTransport ν := {}

/-- What a call of the transport raises. -/
inductive TransportError (ν : Type) where
  /-- An error of a handler or of a replicator. -/
  | raft (error : Error ν)
  /-- `ValueError`: "leadership transfer transport requires known Raft nodes". -/
  | unknownNode
  /-- `ValueError`: "leadership transfer endpoints must be distinct". -/
  | endpointsNotDistinct
  /-- `ValueError`: "leadership transfer endpoints must be non-empty". -/
  | endpointEmpty
  /-- `RuntimeError`: "leadership transfer trigger requires a live source leader". -/
  | sourceNotLive
  /-- `RuntimeError`: "leadership transfer trigger requires current leader authority". -/
  | sourceNotCurrent
  /-- `RuntimeError`: "leadership transfer trigger requires a live transferee". -/
  | transfereeNotLive
  /-- `RuntimeError`: "leadership transfer trigger already active for current leader term". -/
  | alreadyActive
  /-- `ValueError`: "unknown active leadership transfer attempt ...". -/
  | unknownAttempt (attemptId : ℕ)
  /-- `RuntimeError` of `reject` in `retry_timeout_now`. -/
  | retryRejected (reason : TransferRejection)
  deriving DecidableEq

/-- An operation on a cluster and its transport. -/
abbrev TransportOp (ν : Type) (β : Type) := Outcome (TransportError ν) (TransferCluster ν) β

namespace TransferCluster

variable (t : TransferCluster ν)

omit [LinearOrder ν] in
/-- `Simulator._record`, of a record of the transport. -/
def record (entry : TimeoutNowRecord ν) : TransferCluster ν :=
  { t with transport := { t.transport with records := t.transport.records ++ [entry] } }

/-- `Simulator.send` of a message to a transport's endpoint, over the link of its nodes. -/
def post (message : TimeoutNowMessage ν) : TransferCluster ν where
  cluster := { t.cluster with
    ordinals := Function.update t.cluster.ordinals message.src
      (Function.update (t.cluster.ordinals message.src) message.dst
        (t.cluster.ordinals message.src message.dst + 1)) }
  transport := { t.transport with sent := t.transport.sent ++ [message] }

/-- The message of an attempt, over the link of its leader and its transferee. -/
def sendTimeoutNowMessage (request : TimeoutNow ν) : TransferCluster ν :=
  t.post ⟨request.leaderId, request.transfereeId, request.transfereeId, request⟩

omit [LinearOrder ν] in
/-- The attempt is active no more. -/
def retire (attemptId : ℕ) : TransferCluster ν :=
  { t with transport := { t.transport with
    activeAttempts := t.transport.activeAttempts.erase attemptId
    attemptConfigurations := t.transport.attemptConfigurations.erase attemptId } }

omit [LinearOrder ν] in
/-- A new attempt is active, for the voting configuration of the moment. -/
def mint (leader transferee : ν) (term : ℕ) : TransferCluster ν :=
  let attemptId := t.transport.nextAttemptId + 1
  { t with transport := { t.transport with
    nextAttemptId := attemptId
    activeAttempts := t.transport.activeAttempts.insert attemptId (leader, transferee, term)
    attemptConfigurations :=
      t.transport.attemptConfigurations.insert attemptId (roundConfiguration t.cluster) } }

/-- `_active_attempt_for`. -/
def activeAttemptFor (leader : ν) (term : ℕ) : Option (ℕ × ν) :=
  t.transport.activeAttempts.entries.findSome? fun entry =>
    if entry.2.1 = leader ∧ entry.2.2.2 = term then some (entry.1, entry.2.2.1) else none

/-- `_attempt_configurations.get(attempt_id) is _configuration_identity()`. -/
def keepsConfiguration (attemptId : ℕ) : Bool :=
  match t.transport.attemptConfigurations.lookup attemptId with
  | some began => sameConfiguration C began t.cluster
  | none => match C.kind with
    | .fixed => true
    | .reconfigurable _ => false

end TransferCluster

/-- A call on the cluster. -/
def onCluster {β : Type} (operation : Cluster ν → Op ν β) (t : TransferCluster ν) :
    TransportOp ν β :=
  match operation t.cluster with
  | .returns b s => .returns b { t with cluster := s }
  | .raises error s => .raises (.raft error) { t with cluster := s }

/-! ## Attempts -/

/-- `send_timeout_now`. The names of two nodes are distinct, and `named` says which are not
the empty string. -/
def sendTimeoutNow (named : ν → Bool) (leader transferee : ν) (term : ℕ) (t : TransferCluster ν) :
    TransportOp ν ℕ :=
  if leader ∉ C.nodeIds ∨ transferee ∉ C.nodeIds then .raises .unknownNode t
  else if leader = transferee then .raises .endpointsNotDistinct t
  else if ¬ t.cluster.alive leader then .raises .sourceNotLive t
  else if t.cluster.role leader ≠ .leader ∨ t.cluster.currentTerm leader ≠ term then
    .raises .sourceNotCurrent t
  else if ¬ t.cluster.alive transferee then .raises .transfereeNotLive t
  else
    match t.activeAttemptFor leader term with
    | some (active, activeTransferee) =>
        .raises .alreadyActive
          (t.record (.requestRejected leader transferee term active activeTransferee))
    | none =>
        let t := t.mint leader transferee term
        let request : TimeoutNow ν := ⟨term, leader, transferee, t.transport.nextAttemptId⟩
        let t := t.record (.request request)
        -- The constructor of `TimeoutNow` runs after the attempt is active.
        if ¬ named leader ∨ ¬ named transferee then .raises .endpointEmpty t
        else .returns request.attemptId (t.sendTimeoutNowMessage request)

/-- `cancel_timeout_now` and `complete_timeout_now`, up to their record. -/
def retireAttempt (entry : ν × ν × ℕ → ℕ → TimeoutNowRecord ν) (attemptId : ℕ)
    (t : TransferCluster ν) : TransferCluster ν :=
  match t.transport.activeAttempts.lookup attemptId with
  | none => t.retire attemptId
  | some identity => (t.retire attemptId).record (entry identity attemptId)

/-- `cancel_timeout_now`. -/
def cancelTimeoutNow (attemptId : ℕ) (t : TransferCluster ν) : TransferCluster ν :=
  retireAttempt .cancelled attemptId t

/-- `complete_timeout_now`. -/
def completeTimeoutNow (attemptId : ℕ) (t : TransferCluster ν) : TransferCluster ν :=
  retireAttempt .completed attemptId t

/-! ## Delivery -/

/-- `_retained_log_overlap_matches`. -/
def retainedLogOverlapMatches (leader target : RaftLogView (Command ν)) : Bool :=
  let boundary := max leader.baseIndex target.baseIndex
  match leader.termAt boundary, target.termAt boundary with
  | some term, some term' =>
      decide (term = term') &&
        (List.range' (boundary + 1) (leader.lastIndex - boundary)).all fun index =>
          match leader.entryAt index, target.entryAt index with
          | some entry, some entry' => decide (entry = entry')
          | _, _ => false
  | _, _ => false

/-- The transferee has the leader's log and its commit index. -/
def transfereeCaughtUp (leader transferee : ν) (s : Cluster ν) : Bool :=
  decide ((s.logView transferee).lastIndex = (s.logView leader).lastIndex ∧
    (s.logView transferee).lastTerm = (s.logView leader).lastTerm ∧
    s.commitIndex leader ≤ s.commitIndex transferee)

/-- `_reject_invalid_envelope`: the reason. -/
def envelopeRejection (message : TimeoutNowMessage ν) : Option EnvelopeRejection :=
  let request := message.payload
  if request.leaderId ∉ C.nodeIds then some .unknownSourcePrincipal
  else if request.transfereeId ∉ C.nodeIds then some .unknownDestinationPrincipal
  else if message.src ≠ request.leaderId then some .sourceIdentityMismatch
  else if message.dst ≠ request.transfereeId then some .destinationIdentityMismatch
  else if message.endpoint ≠ request.transfereeId then some .deliveryEndpointMismatch
  else none

/-- The reason why `_handle_timeout_now` starts no election, on a cluster of either kind. -/
def membershipRejection (request : TimeoutNow ν) (t : TransferCluster ν) :
    Option TransferRejection :=
  match C.kind with
  | .fixed => none
  | .reconfigurable _ =>
      if ¬ isVoter C t.cluster request.transfereeId then some .transfereeNotVoter
      else if t.cluster.votingConfiguration.newVoters.any (request.transfereeId ∉ ·) then
        some .transfereeOutgoingOnly
      else if ¬ t.keepsConfiguration C request.attemptId then some .membershipConfigurationChanged
      else none

/-- The reason why `_handle_timeout_now` starts no election. -/
def timeoutNowRejection (request : TimeoutNow ν) (t : TransferCluster ν) :
    Option TransferRejection :=
  let s := t.cluster
  let leader := request.leaderId
  let target := request.transfereeId
  if t.transport.activeAttempts.lookup request.attemptId ≠ some request.identity then
    some .staleTransferAttempt
  else if ¬ s.alive target then some .transfereeCrashed
  else if ¬ s.alive leader then some .sourceLeaderCrashed
  else if request.term ≠ s.currentTerm target then some .termMismatch
  else if s.leadersByTerm.lookup request.term ≠ some leader then some .sourceNotRecordedLeader
  else if s.role leader ≠ .leader ∨ s.currentTerm leader ≠ request.term then
    some .sourceNoLongerCurrentLeader
  else if ¬ transfereeCaughtUp leader target s then some .transfereeNotCaughtUp
  else if ¬ retainedLogOverlapMatches (s.logView leader) (s.logView target) then
    some .transfereeLogMismatch
  else membershipRejection C request t

/-- `_handle_timeout_now`. -/
def handleTimeoutNow (request : TimeoutNow ν) (t : TransferCluster ν) : TransportOp ν Unit :=
  match timeoutNowRejection C request t with
  | some reason =>
      let retryable := decide (reason = .transfereeNotCaughtUp)
      let active := t.transport.activeAttempts.lookup request.attemptId = some request.identity
      let t' := if active ∧ ¬ retryable then t.retire request.attemptId else t
      .returns () (t'.record
        (.rejected request (t.cluster.currentTerm request.transfereeId) reason retryable))
  | none => onCluster (startElection C request.transfereeId) (t.record (.delivered request))

/-- The simulator delivers a message to the transport. -/
def deliverTimeoutNow (message : TimeoutNowMessage ν) (t : TransferCluster ν) :
    TransportOp ν Unit :=
  if ¬ t.cluster.alive message.dst then .returns () t
  else
    match envelopeRejection C message with
    | some reason => .returns () (t.record (.envelopeRejected message reason))
    | none => handleTimeoutNow C message.payload t

/-! ## `retry_timeout_now` -/

/-- The reason why `retry_timeout_now` sends nothing. -/
def retryRejection (attemptId : ℕ) (leader transferee : ν) (term : ℕ) (t : TransferCluster ν) :
    Option TransferRejection :=
  let s := t.cluster
  if ¬ s.alive leader then some .sourceLeaderCrashed
  else if s.role leader ≠ .leader ∨ s.currentTerm leader ≠ term then
    some .sourceNoLongerCurrentLeader
  else if ¬ t.keepsConfiguration C attemptId then some .membershipConfigurationChanged
  else if ¬ s.alive transferee then some .transfereeCrashed
  else if ¬ transfereeCaughtUp leader transferee s then some .transfereeNotCaughtUp
  else if ¬ retainedLogOverlapMatches (s.logView leader) (s.logView transferee) then
    some .transfereeLogMismatch
  else none

/-- `retry_timeout_now`. -/
def retryTimeoutNow (attemptId : ℕ) (t : TransferCluster ν) : TransportOp ν Unit :=
  match t.transport.activeAttempts.lookup attemptId with
  | none => .raises (.unknownAttempt attemptId) t
  | some (leader, transferee, term) =>
      let identity := (leader, transferee, term)
      match retryRejection C attemptId leader transferee term t with
      | some reason =>
          .raises (.retryRejected reason) (t.record (.retryRejected identity attemptId reason))
      | none =>
          .returns () ((t.record (.retry identity attemptId)).sendTimeoutNowMessage
            ⟨term, leader, transferee, attemptId⟩)

/-! ## What runs -/

/-- What can happen while a call on the cluster runs the simulator: an event of the
cluster, a delivery of a `TimeoutNow`, a message of somebody else to the transport's
endpoints, or another caller of the transport. -/
inductive TransportEvent (ν : Type) where
  | cluster (event : {event : Event ν // event.Continues})
  | deliver (elapsed position : ℕ)
  | post (message : TimeoutNowMessage ν)
  | cancel (attemptId : ℕ)
  | complete (attemptId : ℕ)
  | retry (attemptId : ℕ)

/-- One of the things that can happen. -/
def transportStep (event : TransportEvent ν) (t : TransferCluster ν) : TransportOp ν Unit :=
  match event with
  | .cluster event => onCluster (step C event.val) t
  | .deliver elapsed position =>
      let t := { t with cluster := t.cluster.elapse elapsed }
      match t.transport.sent[position]? with
      | none => .returns () t
      | some message => deliverTimeoutNow C message t
  | .post message => .returns () (t.post message)
  | .cancel attemptId => .returns () (cancelTimeoutNow attemptId t)
  | .complete attemptId => .returns () (completeTimeoutNow attemptId t)
  | .retry attemptId => retryTimeoutNow C attemptId t

/-- `Simulator.run`, with what runs. -/
def runTransport (window : List (TransportEvent ν)) (t : TransferCluster ν) : TransportOp ν Unit :=
  Outcome.forEach window (transportStep C) t

end Distlab.Raft
