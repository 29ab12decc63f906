import Distlab.Raft.TransferTransport

/-!
# Leadership transfer

`LeadershipTransfer`: a leader catches a peer up, sends it a `TimeoutNow` and waits for
its election, catching it up again before each retry.

Wherever a call runs the simulator, what runs is an argument, as in a round of
`LeaderQuorumMonitor`. The records of a call are not kept: nothing reads them.
-/

set_option autoImplicit false

namespace Distlab.Raft

open Foundations

variable {ν : Type} [LinearOrder ν] (C : Config ν)

/-! ## `recover_peer`, while anything runs -/

/-- A snapshot request that a replicator sent, and the trace before it. -/
structure SnapshotProbe (ν : Type) where
  peer : ν
  traceStart : ℕ
  includedIndex : ℕ
  requestId : ℕ

/-- `replicate`, up to the run of the simulator. -/
def beginReplicateAppend (r : LeaderReplicator ν) (peer : ν) (s : Cluster ν) :
    Op ν (AppendProbe ν) :=
  let log := s.logView r.leader
  let nextIndex := (r.progress peer).nextIndex
  if log.lastIndex + 1 < nextIndex then .raises (.indexError r.leader nextIndex) s
  else
    let entries := log.suffixFrom nextIndex
    let probe : AppendProbe ν :=
      ⟨peer, s.trace.length, nextIndex - 1, entries.length,
        appendResponseOrdinalFloor r peer s.trace⟩
    (sendAppendEntries C r.leader peer probe.prevLogIndex entries r.commitIndex s).bind fun _ s =>
      .returns probe s

/-- `replicate`, after the run of the simulator. -/
def finishReplicateAppend (i : ℕ) (r : LeaderReplicator ν) (probe : AppendProbe ν)
    (s : Cluster ν) : Op ν (Option Bool) :=
  match matchingAppendResponse r probe s.trace with
  | none => .raises (.responseMissing probe.peer) s
  | some (true, matchIndex) =>
      (acknowledgePeer C i probe.peer matchIndex s).bind fun done s => .returns (some done) s
  | some (false, _) => .returns none (backtrackPeer i probe.peer s)

/-- `_replicate_snapshot`, up to the run of the simulator. -/
def beginReplicateSnapshot (i : ℕ) (r : LeaderReplicator ν) (peer : ν) (s : Cluster ν) :
    Op ν (SnapshotProbe ν) :=
  let log := s.logView r.leader
  match (s.persistent r.leader).kvSnapshot with
  | none => .raises (.snapshotUnavailable r.leader) s
  | some snapshot =>
      if ¬ r.snapshotTransport ∨ snapshot.lastIncludedIndex ≠ log.baseIndex ∨
          snapshot.lastIncludedTerm ≠ log.baseTerm then
        .raises (.snapshotUnavailable r.leader) s
      else
        let requestId := max r.snapshotRequestId (snapshotRequestIdFloor r s.trace) + 1
        let traceStart := s.trace.length
        let s := s.updateReplicator i fun r => { r with snapshotRequestId := requestId }
        let s := s.record (.replicationSnapshot r.leader peer r.term requestId)
        (sendInstallSnapshot C r.leader peer r.term snapshot requestId s).bind fun _ s =>
          .returns ⟨peer, traceStart, snapshot.lastIncludedIndex, requestId⟩ s

/-- `_replicate_snapshot`, after the run of the simulator. -/
def finishReplicateSnapshot (i : ℕ) (r : LeaderReplicator ν) (probe : SnapshotProbe ν)
    (s : Cluster ν) : Op ν (Option Bool) :=
  if s.currentTerm r.leader ≠ r.term then .raises (.replicationNotCurrent r.leader) s
  else
    match matchingSnapshotResponse r probe.peer probe.traceStart probe.includedIndex
        probe.requestId s.trace with
    | none => .raises (.responseMissing probe.peer) s
    | some (false, _) => .returns (some false) s
    | some (true, matchIndex) =>
        (acknowledgePeer C i probe.peer matchIndex s).bind fun done s => .returns (some done) s

/-- `replicate` with one attempt, with what runs. -/
def replicateDuring (i : ℕ) (peer : ν) (window : List (TransportEvent ν)) (t : TransferCluster ν) :
    TransportOp ν (Option Bool) :=
  match t.cluster.replicators[i]? with
  | none => .returns none t
  | some r =>
      (onCluster (requireCurrentLeader r) t).bind fun _ t =>
        if (r.progress peer).nextIndex ≤ (t.cluster.logView r.leader).baseIndex then
          (onCluster (beginReplicateSnapshot C i r peer) t).bind fun probe t =>
            (runTransport C window t).bind fun _ t =>
              onCluster (finishReplicateSnapshot C i r probe) t
        else
          (onCluster (beginReplicateAppend C r peer) t).bind fun probe t =>
            (runTransport C window t).bind fun _ t =>
              onCluster (finishReplicateAppend C i r probe) t

/-- The loop of `recover_peer` with a number of attempts, with what runs in each. -/
def recoverLoopDuring (i : ℕ) (peer : ν) (windows : ℕ → List (TransportEvent ν)) :
    ℕ → TransferCluster ν → TransportOp ν Bool
  | 0, t => (onCluster (recoverCheck i peer (some 0)) t).bind fun done t =>
      .returns (done.getD false) t
  | attempts + 1, t =>
      (onCluster (recoverCheck i peer (some (attempts + 1))) t).bind fun done t =>
        match done with
        | some result => .returns result t
        | none => (replicateDuring C i peer (windows attempts) t).bind fun _ t =>
            recoverLoopDuring i peer windows attempts t

/-- `recover_peer`, of a peer of the leader and with a positive number of attempts. -/
def recoverPeerDuring (i : ℕ) (peer : ν) (maxAttempts : ℕ)
    (windows : ℕ → List (TransportEvent ν)) (t : TransferCluster ν) : TransportOp ν Bool :=
  if ¬ t.cluster.replicators[i]?.any (fun r => peer ∈ C.peers r.leader) then
    .raises (.raft (.unknownNode peer)) t
  else if maxAttempts = 0 then .raises (.raft .maxAttemptsNotPositive) t
  else recoverLoopDuring C i peer windows maxAttempts t

/-! ## Calls -/

/-- A call of `transfer` by `LeadershipTransfer(leader)`, with what runs while it catches
the transferee up, waits and catches it up again. The last two are told apart by the
attempts that are left. -/
structure TransferCall (ν : Type) where
  leader : ν
  transferee : ν
  snapshotTransport : Bool
  maxReplicationAttempts : ℕ
  maxTimeoutNowAttempts : ℕ
  catchUp : ℕ → List (TransportEvent ν)
  passes : ℕ → List (List (TransportEvent ν))
  catchUpAgain : ℕ → ℕ → List (TransportEvent ν)

/-- What a transfer raises. -/
inductive TransferError (ν : Type) where
  /-- `ValueError`: "max_replication_attempts must be positive", "max_timeout_now_attempts
  must be positive". -/
  | notPositive
  /-- `LeadershipTransferError`. -/
  | notCurrentLeader
  /-- `InvalidLeadershipTransferTarget`. -/
  | invalidTarget
  /-- `LeadershipTransferTargetUnavailable`. -/
  | targetUnavailable
  /-- `LeadershipTransferIncomplete`. -/
  | incomplete
  /-- An error that the transfer does not catch. -/
  | uncaught (error : TransportError ν)
  deriving DecidableEq

/-- A part of a transfer. -/
abbrev Transfer (ν : Type) (β : Type) := Outcome (TransferError ν) (TransferCluster ν) β

/-- `LeadershipTransferResult`. -/
structure LeadershipTransferResult (ν : Type) where
  previousLeaderId : ν
  newLeaderId : ν
  previousTerm : ℕ
  newTerm : ℕ
  commitIndex : ℕ
  deriving DecidableEq

/-- A call that a transfer makes without catching anything. -/
def uncaughtErrors {ν β : Type} : TransportOp ν β → Transfer ν β
  | .returns b t => .returns b t
  | .raises error t => .raises (.uncaught error) t

/-- The error is a `ReplicationError`. -/
def TransportError.isReplication {ν : Type} : TransportError ν → Bool
  | .raft error => error.isReplication
  | _ => false

/-! ## Before the dispatch -/

/-- The transferee may become leader of the voting configuration. -/
def eligibleTransferee (transferee : ν) (s : Cluster ν) : Bool :=
  match C.kind with
  | .fixed => true
  | .reconfigurable _ =>
      isVoter C s transferee && !s.votingConfiguration.newVoters.any (transferee ∉ ·)

/-- The checks at the head of `transfer`. -/
def requireTransferee (call : TransferCall ν) (t : TransferCluster ν) : Transfer ν Unit :=
  let s := t.cluster
  if call.maxReplicationAttempts = 0 ∨ call.maxTimeoutNowAttempts = 0 then .raises .notPositive t
  else if ¬ s.alive call.leader ∨ s.role call.leader ≠ .leader then .raises .notCurrentLeader t
  else if call.transferee = call.leader ∨ call.transferee ∉ C.peers call.leader then
    .raises .invalidTarget t
  else if ¬ eligibleTransferee C call.transferee s then .raises .invalidTarget t
  else if ¬ s.alive call.transferee then .raises .targetUnavailable t
  else .returns () t

/-- The leader has lost its role or its term. -/
def authorityLost (call : TransferCall ν) (previousTerm : ℕ) (s : Cluster ν) : Bool :=
  decide (s.role call.leader ≠ .leader ∨ s.currentTerm call.leader ≠ previousTerm)

/-- The first catch-up of the transferee. -/
def catchUpTransferee (call : TransferCall ν) (i previousTerm : ℕ) (t : TransferCluster ν) :
    Transfer ν Unit :=
  match recoverPeerDuring C i call.transferee call.maxReplicationAttempts call.catchUp t with
  | .raises error t =>
      if error.isReplication then .raises .incomplete t else .raises (.uncaught error) t
  | .returns false t => .raises .incomplete t
  | .returns true t =>
      if ¬ t.cluster.alive call.transferee then .raises .targetUnavailable t
      else if authorityLost call previousTerm t.cluster then .raises .incomplete t
      else if ¬ transfereeCaughtUp call.leader call.transferee t.cluster then
        .raises .incomplete t
      else .returns () t

/-- The replicator is a `MembershipAwareLeaderReplicator`. -/
def Config.membershipAware {ν : Type} (C : Config ν) : Bool :=
  match C.kind with
  | .fixed => false
  | .reconfigurable _ => true

/-- `transfer`, up to the dispatch: the position of its replicator. -/
def prepareTransfer (call : TransferCall ν) (t : TransferCluster ν) : Transfer ν ℕ :=
  (requireTransferee C call t).bind fun _ t =>
    let previousTerm := t.cluster.currentTerm call.leader
    let i := t.cluster.replicators.length
    (uncaughtErrors (onCluster
        (newReplicator C call.leader call.snapshotTransport C.membershipAware) t)).bind fun _ t =>
      (catchUpTransferee C call i previousTerm t).bind fun _ t => .returns i t

/-- The dispatch of the `TimeoutNow`: its attempt. -/
def dispatchTimeoutNow (named : ν → Bool) (call : TransferCall ν) (previousTerm : ℕ)
    (t : TransferCluster ν) : Transfer ν ℕ :=
  match sendTimeoutNow C named call.leader call.transferee previousTerm t with
  | .returns attemptId t => .returns attemptId t
  | .raises _ t =>
      if ¬ t.cluster.alive call.transferee then .raises .targetUnavailable t
      else .raises .incomplete t

/-! ## After the dispatch -/

/-- `_transfer_elected`. -/
def transferElected (call : TransferCall ν) (previousTerm : ℕ) (s : Cluster ν) : Bool :=
  let sourceRetired := ¬ s.alive call.leader ∨
    (s.role call.leader ≠ .leader ∧ (s.role call.leader = .follower ∨
      s.currentTerm call.transferee ≤ s.currentTerm call.leader))
  decide (s.role call.transferee = .leader ∧ previousTerm < s.currentTerm call.transferee ∧
    sourceRetired)

/-- `event_budget` -/
def Config.eventBudget {ν : Type} (C : Config ν) : ℕ := max 4 (C.nodeIds.length * 4)

/-- The wait of one attempt: the simulator delivers message by message until the transferee
is elected or there is none. -/
def awaitElection (call : TransferCall ν) (previousTerm : ℕ) :
    ℕ → List (List (TransportEvent ν)) → TransferCluster ν → TransportOp ν Unit
  | 0, _, t => .returns () t
  | _ + 1, [], t => .returns () t
  | budget + 1, pass :: passes, t =>
      if transferElected call previousTerm t.cluster then .returns () t
      else (runTransport C pass t).bind fun _ t => awaitElection call previousTerm budget passes t

/-- Before another attempt the transferee is caught up again, then the `TimeoutNow` is
retried. -/
def retryTransfer (call : TransferCall ν) (previousTerm i attemptId : ℕ)
    (windows : ℕ → List (TransportEvent ν)) (t : TransferCluster ν) : Transfer ν Unit :=
  match recoverPeerDuring C i call.transferee call.maxReplicationAttempts windows t with
  | .raises error t =>
      if error.isReplication then .raises .incomplete (cancelTimeoutNow attemptId t)
      else .raises (.uncaught error) t
  | .returns false t => .raises .incomplete (cancelTimeoutNow attemptId t)
  | .returns true t =>
      if ¬ t.cluster.alive call.transferee then
        .raises .targetUnavailable (cancelTimeoutNow attemptId t)
      else if authorityLost call previousTerm t.cluster then
        .raises .incomplete (cancelTimeoutNow attemptId t)
      else
        match retryTimeoutNow C attemptId t with
        | .returns _ t => .returns () t
        | .raises _ t =>
            let t := cancelTimeoutNow attemptId t
            if ¬ t.cluster.alive call.transferee then .raises .targetUnavailable t
            else .raises .incomplete t

/-- The attempts, with the number of those that are left. -/
def awaitTransferee (call : TransferCall ν) (previousTerm i attemptId : ℕ) :
    ℕ → TransferCluster ν → Transfer ν Unit
  | 0, t => .returns () t
  | left + 1, t =>
      (uncaughtErrors (awaitElection C call previousTerm C.eventBudget (call.passes left) t)).bind
        fun _ t =>
          if transferElected call previousTerm t.cluster ∨ left = 0 then .returns () t
          else
            (retryTransfer C call previousTerm i attemptId (call.catchUpAgain left) t).bind
              fun _ t => awaitTransferee call previousTerm i attemptId left t

/-- The end of a transfer. -/
def concludeTransfer (call : TransferCall ν) (previousTerm attemptId : ℕ)
    (t : TransferCluster ν) : Transfer ν (LeadershipTransferResult ν) :=
  if ¬ transferElected call previousTerm t.cluster then
    .raises .incomplete (cancelTimeoutNow attemptId t)
  else
    let t := completeTimeoutNow attemptId t
    .returns ⟨call.leader, call.transferee, previousTerm, t.cluster.currentTerm call.transferee,
      t.cluster.commitIndex call.transferee⟩ t

/-- `transfer`. -/
def transfer (named : ν → Bool) (call : TransferCall ν) (t : TransferCluster ν) :
    Transfer ν (LeadershipTransferResult ν) :=
  let previousTerm := t.cluster.currentTerm call.leader
  (prepareTransfer C call t).bind fun i t =>
    (dispatchTimeoutNow C named call previousTerm t).bind fun attemptId t =>
      (awaitTransferee C call previousTerm i attemptId call.maxTimeoutNowAttempts t).bind
        fun _ t => concludeTransfer call previousTerm attemptId t

/-! ## Runs -/

/-- What can happen to a cluster with leadership transfers. -/
inductive TransferEvent (ν : Type) where
  | transport (event : TransportEvent ν)
  | send (leader transferee : ν) (term : ℕ)
  | transfer (call : TransferCall ν)

/-- One event. -/
def transferStep (named : ν → Bool) (event : TransferEvent ν) (t : TransferCluster ν) :
    Transfer ν Unit :=
  match event with
  | .transport event => uncaughtErrors (transportStep C event t)
  | .send leader transferee term =>
      (uncaughtErrors (sendTimeoutNow C named leader transferee term t)).bind fun _ t =>
        .returns () t
  | .transfer call => (transfer C named call t).bind fun _ t => .returns () t

/-- The state after a list of events. -/
def transferEvents (named : ν → Bool) (events : List (TransferEvent ν)) (t : TransferCluster ν) :
    TransferCluster ν := runEvents (transferStep C named) events t

/-- The state after a run. -/
def runTransfers (named : ν → Bool) (events : List (TransferEvent ν)) : TransferCluster ν :=
  transferEvents C named events { cluster := C.fresh }

variable {C}

/-! ## The recovery of a peer, where only messages of the cluster arrive -/

/-- `replicate` is its two halves with the run of the simulator between them. -/
theorem replicateAppend_eq (i : ℕ) (r : LeaderReplicator ν) (peer : ν) (deliveries : List Delivery)
    (s : Cluster ν) : replicateAppend C i r peer deliveries s =
      (beginReplicateAppend C r peer s).bind fun probe s =>
        (simulate C deliveries s).bind fun _ s => finishReplicateAppend C i r probe s := by
  unfold replicateAppend beginReplicateAppend
  dsimp only
  split
  · rfl
  · cases sendAppendEntries C r.leader peer ((r.progress peer).nextIndex - 1)
      ((s.logView r.leader).suffixFrom (r.progress peer).nextIndex) r.commitIndex s with
    | returns _ s₁ => rfl
    | raises error s₁ => rfl

/-- `_replicate_snapshot` is its two halves with the run of the simulator between them. -/
theorem replicateSnapshot_eq (i : ℕ) (r : LeaderReplicator ν) (peer : ν)
    (deliveries : List Delivery) (s : Cluster ν) :
    ((replicateSnapshot C i r peer deliveries s).bind fun done s => .returns (some done) s) =
      (beginReplicateSnapshot C i r peer s).bind fun probe s =>
        (simulate C deliveries s).bind fun _ s => finishReplicateSnapshot C i r probe s := by
  unfold replicateSnapshot beginReplicateSnapshot
  cases latest : (s.persistent r.leader).kvSnapshot with
  | none => rfl
  | some snapshot =>
      dsimp only
      split
      · rfl
      generalize (s.updateReplicator i _).record _ = asked
      cases sendInstallSnapshot C r.leader peer r.term snapshot
        (max r.snapshotRequestId (snapshotRequestIdFloor r s.trace) + 1) asked with
      | raises error s₁ => rfl
      | returns _ s₁ =>
          rw [Outcome.bind_returns, Outcome.bind_returns, Outcome.bind_returns]
          cases simulate C deliveries s₁ with
          | raises error s₂ => rfl
          | returns _ s₂ =>
              rw [Outcome.bind_returns, Outcome.bind_returns, finishReplicateSnapshot]
              split
              · rfl
              generalize matchingSnapshotResponse r peer s.trace.length snapshot.lastIncludedIndex
                (max r.snapshotRequestId (snapshotRequestIdFloor r s.trace) + 1) s₂.trace = answer
              rcases answer with _ | ⟨_ | _, matchIndex⟩ <;> rfl

omit [LinearOrder ν] in
/-- A sequence of calls on the cluster. -/
theorem onCluster_bind {β γ : Type} (first : Cluster ν → Op ν β) (next : β → Cluster ν → Op ν γ)
    (t : TransferCluster ν) : onCluster (fun s => (first s).bind next) t =
      (onCluster first t).bind fun b => onCluster (next b) := by
  unfold onCluster
  dsimp only
  cases first t.cluster with
  | returns b s => rfl
  | raises error s => rfl

/-- The deliveries of the cluster's messages. -/
def clusterDeliveries (deliveries : List Delivery) : List (TransportEvent ν) :=
  deliveries.map fun delivery => .cluster ⟨.deliver delivery, trivial⟩

theorem runTransport_clusterDeliveries (deliveries : List Delivery) (t : TransferCluster ν) :
    runTransport C (clusterDeliveries deliveries) t = onCluster (simulate C deliveries) t := by
  induction deliveries generalizing t with
  | nil => rfl
  | cons delivery rest ih =>
      have first : onCluster (simulate C (delivery :: rest)) t =
          (onCluster (deliver C delivery) t).bind fun _ => onCluster (simulate C rest) :=
        onCluster_bind (deliver C delivery) (fun _ => simulate C rest) t
      rw [first]
      change (onCluster (deliver C delivery) t).bind (fun _ t =>
        runTransport C (clusterDeliveries rest) t) = _
      congr 1
      funext _ t
      exact ih t

/-- An attempt to replicate. -/
theorem replicateDuring_clusterDeliveries {i : ℕ} {peer : ν} {r : LeaderReplicator ν}
    {t : TransferCluster ν} (found : t.cluster.replicators[i]? = some r)
    (deliveries : List Delivery) :
    replicateDuring C i peer (clusterDeliveries deliveries) t =
      onCluster (replicateAttempt C i r peer deliveries) t := by
  have halves : ∀ {β : Type} (begin : Cluster ν → Op ν β)
      (finish : β → Cluster ν → Op ν (Option Bool)) (t : TransferCluster ν),
      ((onCluster begin t).bind fun probe t =>
        (runTransport C (clusterDeliveries deliveries) t).bind fun _ => onCluster (finish probe)) =
      onCluster (fun s => (begin s).bind fun probe s =>
        (simulate C deliveries s).bind fun _ => finish probe) t := by
    intro β begin finish t
    rw [onCluster_bind]
    congr 1
    funext probe t
    rw [runTransport_clusterDeliveries]
    exact (onCluster_bind (simulate C deliveries) (fun _ => finish probe) t).symm
  unfold replicateDuring replicateAttempt
  rw [found]
  dsimp only
  rw [onCluster_bind]
  congr 1
  funext _ t
  split
  · next behind =>
    rw [halves]
    simp only [onCluster, if_pos behind, replicateSnapshot_eq]
  · next reaches =>
    rw [halves]
    simp only [onCluster, if_neg reaches, replicateAppend_eq]

/-- The replicator at a position is one of the peer's leader. -/
def Serving (C : Config ν) (i : ℕ) (peer : ν) (s : Cluster ν) : Prop :=
  ∃ r, s.replicators[i]? = some r ∧ peer ∈ C.peers r.leader

theorem Serving.moves {i : ℕ} {peer : ν} {s s' : Cluster ν} (serving : Serving C i peer s)
    (moves : Moves C .unrestricted s s') : Serving C i peer s' := by
  obtain ⟨r, found, belongs⟩ := serving
  obtain ⟨r', found', leader, -⟩ := moves.replicator found
  exact ⟨r', found', leader ▸ belongs⟩

omit [LinearOrder ν] in
theorem recoverCheck_returns {i : ℕ} {peer : ν} {remaining : Option ℕ} {s s' : Cluster ν}
    {done : Option Bool} (returned : recoverCheck i peer remaining s = .returns done s') :
    s' = s := by
  unfold recoverCheck at returned
  split at returned
  · cases returned
    rfl
  · obtain ⟨_, s₁, current, rest⟩ := Outcome.bind_eq_returns.mp returned
    obtain ⟨rfl, -⟩ := requireCurrentLeader_returns current
    split at rest
    · cases rest
      rfl
    · split at rest <;> cases rest <;> rfl

/-- One attempt to replicate to a peer of the leader. -/
theorem replicate_one {i : ℕ} {peer : ν} {r : LeaderReplicator ν} {s : Cluster ν}
    (found : s.replicators[i]? = some r) (belongs : peer ∈ C.peers r.leader)
    (deliveries : List Delivery) : replicate C i peer (some 1) [deliveries] s =
      (replicateAttempt C i r peer deliveries s).bind fun done s =>
        .returns (done.getD false) s := by
  unfold replicate
  rw [if_neg (by simp [found, belongs]), if_neg (by simp), replicateLoop, if_neg (by simp), found]
  dsimp only
  congr 1
  funext done s'
  cases done <;> rfl

theorem recoverLoopDuring_clusterDeliveries {i : ℕ} {peer : ν} (deliveries : ℕ → List Delivery)
    (attempts : ℕ) {t : TransferCluster ν} (serving : Serving C i peer t.cluster) :
    recoverLoopDuring C i peer (fun left => clusterDeliveries (deliveries left)) attempts t =
      onCluster (recoverLoop C i peer ((List.range attempts).reverse.map deliveries)
        (some attempts)) t := by
  induction attempts generalizing t with
  | zero =>
      exact (onCluster_bind (recoverCheck i peer (some 0))
        (fun done s => .returns (done.getD false) s) t).symm
  | succ attempts ih =>
      rw [List.range_succ, List.reverse_append, List.reverse_singleton, List.singleton_append,
        List.map_cons, recoverLoopDuring]
      refine Eq.trans ?_ (onCluster_bind (recoverCheck i peer (some (attempts + 1))) _ t).symm
      cases checked : recoverCheck i peer (some (attempts + 1)) t.cluster with
      | raises error s => simp only [onCluster, checked, Outcome.bind_raises]
      | returns done s =>
          obtain rfl := recoverCheck_returns checked
          simp only [onCluster, checked, Outcome.bind_returns]
          cases done with
          | some result => rfl
          | none =>
              obtain ⟨r, found, belongs⟩ := serving
              dsimp only
              rw [replicateDuring_clusterDeliveries found, replicate_one found belongs]
              have attempt : Runs C .unrestricted t.cluster
                  (replicateAttempt C i r peer (deliveries attempts) t.cluster) :=
                runs_replicateAttempt found
              cases outcome : replicateAttempt C i r peer (deliveries attempts) t.cluster with
              | raises error s => simp only [onCluster, outcome, Outcome.bind_raises]
              | returns result s =>
                  rw [outcome] at attempt
                  have serving' : Serving C i peer s := Serving.moves ⟨r, found, belongs⟩ attempt
                  have rest := ih (t := { t with cluster := s }) serving'
                  simp only [onCluster, outcome, Outcome.bind_returns, rest]
                  rfl

/-- **`recover_peer`** is the one of the replicators, where only messages of the cluster
arrive while it runs the simulator. -/
theorem recoverPeerDuring_clusterDeliveries (i : ℕ) (peer : ν) (maxAttempts : ℕ)
    (deliveries : ℕ → List Delivery) (t : TransferCluster ν) :
    recoverPeerDuring C i peer maxAttempts (fun left => clusterDeliveries (deliveries left)) t =
      onCluster (recoverPeer C i peer (some maxAttempts)
        ((List.range maxAttempts).reverse.map deliveries)) t := by
  unfold recoverPeerDuring recoverPeer
  by_cases served : t.cluster.replicators[i]?.any (fun r => peer ∈ C.peers r.leader) = true
  · simp only [onCluster, served, not_true_eq_false, if_false]
    by_cases zero : maxAttempts = 0
    · simp only [zero, if_true]
    · simp only [zero, if_false, Option.some.injEq]
      refine recoverLoopDuring_clusterDeliveries deliveries maxAttempts ?_
      obtain ⟨r, found, belongs⟩ := (Option.any_eq_true ..).mp served
      exact ⟨r, found, of_decide_eq_true belongs⟩
  · rw [if_pos served]
    simp only [onCluster, if_pos served]

end Distlab.Raft
