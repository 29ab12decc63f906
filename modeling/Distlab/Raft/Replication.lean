import Distlab.Raft.Membership

/-!
# Leader replication

`LeaderReplicator` and `MembershipAwareLeaderReplicator`: the probes, the evidence
that a replicator takes from the trace, and the commit rule. A replicator is
named by its position in the cluster's list.

`replicate` runs the simulator once per attempt; the deliveries of these runs are
an argument. The list bounds the attempts that are made, so an unbounded call is
modelled up to any number of attempts.
-/

set_option autoImplicit false

namespace Distlab.Raft

open Foundations

variable {ν : Type} [LinearOrder ν] (C : Config ν)

namespace Cluster

omit [LinearOrder ν] in
def updateReplicator (s : Cluster ν) (i : ℕ) (f : LeaderReplicator ν → LeaderReplicator ν) :
    Cluster ν :=
  { s with replicators := s.replicators.modify i f }

end Cluster

/-! ## Replicators -/

/-- `_require_current_leader`. -/
def requireCurrentLeader (r : LeaderReplicator ν) (s : Cluster ν) : Op ν Unit :=
  if ¬ s.alive r.leader ∨ s.role r.leader ≠ .leader ∨ s.currentTerm r.leader ≠ r.term then
    .raises (.replicationNotCurrent r.leader) s
  else .returns () s

/-- The constructor of a replicator. -/
def newReplicator (leader : ν) (snapshotTransport membershipAware : Bool) (s : Cluster ν) :
    Op ν Unit :=
  if leader ∉ C.nodeIds then .raises (.unknownNode leader) s
  else
    let r : LeaderReplicator ν :=
      { leader := leader
        term := s.currentTerm leader
        commitIndex := s.commitIndex leader
        snapshotRequestId := 0
        progress := fun _ => ⟨(s.logView leader).lastIndex + 1, 0⟩
        snapshotTransport := snapshotTransport
        membershipAware := membershipAware }
    (requireCurrentLeader r s).bind fun _ s =>
      .returns () { s with replicators := s.replicators ++ [r] }

/-! ## Evidence from the trace -/

/-- The message is an `AppendEntriesResponse`. -/
def isAppendEntriesResponse (message : Message ν) : Bool :=
  match message.payload with
  | .appendEntriesResponse _ => true
  | _ => false

/-- `_append_response_ordinal_floor`. -/
def appendResponseOrdinalFloor (r : LeaderReplicator ν) (peer : ν)
    (records : List (TraceRecord ν)) : ℕ :=
  records.foldl (fun floor entry => match entry with
    | .send message =>
        if message.src = peer ∧ message.dst = r.leader ∧ isAppendEntriesResponse message then
          max floor message.ordinal
        else floor
    | _ => floor) 0

/-- `_snapshot_request_id_floor`. -/
def snapshotRequestIdFloor (r : LeaderReplicator ν) (records : List (TraceRecord ν)) : ℕ :=
  records.foldl (fun floor entry => match entry with
    | .replicationSnapshot leader _ term requestId =>
        if leader = r.leader ∧ term = r.term then max floor requestId else floor
    | _ => floor) 0

/-- A probe that a replicator sent, and the trace before it. -/
structure AppendProbe (ν : Type) where
  peer : ν
  traceStart : ℕ
  prevLogIndex : ℕ
  entryCount : ℕ
  responseOrdinalFloor : ℕ

/-- `_append_response_delivered_after`. -/
def appendResponseDeliveredAfter (r : LeaderReplicator ν) (probe : AppendProbe ν)
    (responseIndex : ℕ) (success : Bool) (matchIndex : ℕ) (records : List (TraceRecord ν)) : Bool :=
  decide (0 < responseIndex) &&
    match records[responseIndex - 1]? with
    | some (.deliver message) =>
        decide (message.src = probe.peer ∧ message.dst = r.leader ∧
          probe.responseOrdinalFloor < message.ordinal ∧
          message.payload = .appendEntriesResponse ⟨r.term, probe.peer, success, matchIndex⟩)
    | _ => false

/-- `_append_probe_observed`. -/
def appendProbeObserved (r : LeaderReplicator ν) (probe : AppendProbe ν) (success : Bool)
    (matchIndex : ℕ) (records : List (TraceRecord ν)) : Bool :=
  (records.drop probe.traceStart).contains
    (.appendEntries probe.peer r.leader r.term probe.prevLogIndex probe.entryCount success
      matchIndex)

/-- The record at a position answers the probe: its success and its match index. -/
def appendResponseAt (r : LeaderReplicator ν) (probe : AppendProbe ν)
    (records : List (TraceRecord ν)) (index : ℕ) : Option (Bool × ℕ) :=
  match records[index]? with
  | some (.appendResponse leader follower term success matchIndex) =>
      if leader = r.leader ∧ follower = probe.peer ∧ term = r.term ∧
          appendResponseDeliveredAfter r probe index success matchIndex records ∧
          (success → matchIndex = probe.prevLogIndex + probe.entryCount) ∧
          appendProbeObserved r probe success matchIndex records then
        some (success, matchIndex)
      else none
  | _ => none

/-- `_matching_response` of an append probe: the latest record that answers it. -/
def matchingAppendResponse (r : LeaderReplicator ν) (probe : AppendProbe ν)
    (records : List (TraceRecord ν)) : Option (Bool × ℕ) :=
  (List.range' probe.traceStart (records.length - probe.traceStart)).reverse.findSome?
    (appendResponseAt r probe records)

/-- The record answers a snapshot request: its success and the index it reports. -/
def snapshotResponseOf (r : LeaderReplicator ν) (peer : ν) (includedIndex requestId : ℕ) :
    TraceRecord ν → Option (Bool × ℕ)
  | .installSnapshotResponse response =>
      if response.leaderId = r.leader ∧ response.followerId = peer ∧ response.term = r.term ∧
          response.requestedLastIncludedIndex = includedIndex ∧
          response.requestId = requestId then
        some (response.success, response.lastIncludedIndex)
      else none
  | _ => none

/-- `_matching_response` of a snapshot request. -/
def matchingSnapshotResponse (r : LeaderReplicator ν) (peer : ν) (traceStart includedIndex
    requestId : ℕ) (records : List (TraceRecord ν)) : Option (Bool × ℕ) :=
  (records.drop traceStart).reverse.findSome? (snapshotResponseOf r peer includedIndex requestId)

/-! ## The commit rule -/

/-- The nodes whose progress reaches an index, with the leader. -/
def acknowledged (r : LeaderReplicator ν) (index : ℕ) : Finset ν :=
  insert r.leader ((C.peers r.leader).filter fun peer =>
    index ≤ (r.progress peer).matchIndex).toFinset

/-- `_commit_configuration`, for a configuration that is active. -/
def commitConfiguration (r : LeaderReplicator ν) (index : ℕ) (s : Cluster ν) :
    Except (Error ν) (VotingConfiguration ν) :=
  let active := s.votingConfiguration
  let log := s.logView r.leader
  let firstUncommitted := max (r.commitIndex + 1) log.firstRetainedIndex
  let entries := (List.range' firstUncommitted (index + 1 - firstUncommitted)).filterMap log.entryAt
  let commands : List (Command ν) := (entries.map (·.command)).filter (·.isMembership)
  match commands with
  | [] => .ok active
  | [.jointConsensus newVoters] =>
      if active.isJoint then .error (.membershipChange r.leader)
      else if ¬ newVoters ⊆ C.nodeIds.toFinset then .error (.membershipChange r.leader)
      else .ok ⟨active.oldVoters, some newVoters⟩
  | [.stableConsensus voters] =>
      match active.newVoters with
      | none => .error (.membershipChange r.leader)
      | some new =>
          if ¬ voters ⊆ C.nodeIds.toFinset ∨ voters ≠ new ∨ r.leader ∉ voters then
            .error (.membershipChange r.leader)
          else .ok active
  | _ => .error (.membershipChange r.leader)

/-- The replicator counts acknowledgements by the voting configuration. -/
def usesConfiguration (r : LeaderReplicator ν) : Bool :=
  match C.kind with
  | .fixed => false
  | .reconfigurable _ => r.membershipAware

/-- The acknowledgements of an index are enough to commit it. -/
def commitQuorum (r : LeaderReplicator ν) (index : ℕ) (s : Cluster ν) : Except (Error ν) Bool :=
  if usesConfiguration C r then do
    let configuration ← commitConfiguration C r index s
    .ok (configuration.hasQuorum (acknowledged C r index))
  else
    .ok (decide (C.nodeIds.length / 2 + 1 ≤
      1 + (C.peers r.leader).countP fun peer => index ≤ (r.progress peer).matchIndex))

/-- The scan of `advance_commit_index` over the indexes, the highest first. -/
def commitScan (r : LeaderReplicator ν) (s : Cluster ν) : List ℕ → Except (Error ν) (Option ℕ)
  | [] => .ok none
  | index :: rest =>
      if (s.logView r.leader).termAt index ≠ some r.term then commitScan r s rest
      else do
        let quorum ← commitQuorum C r index s
        if quorum then .ok (some index) else commitScan r s rest

/-- `_persist_committed_membership`. -/
def persistCommittedMembership (leader : ν) (commitIndex : ℕ) (s : Cluster ν) : Op ν Unit :=
  let start := max (durableMembershipCommitIndex C s + 1) (s.logView leader).firstRetainedIndex
  Outcome.forEach (List.range' start (commitIndex + 1 - start)) (fun index s =>
    match (s.logView leader).entryAt index with
    | none => .raises (.indexError leader index) s
    | some entry =>
        if entry.command.isMembership then
          installCommittedMembership C leader entry.command
            (persistMembershipCommitWatermark C index entry.command s)
        else .returns () s) s

/-- The indexes that `advance_commit_index` scans. -/
def commitCandidates (r : LeaderReplicator ν) (s : Cluster ν) : List ℕ :=
  let log := s.logView r.leader
  let floor := max r.commitIndex log.baseIndex
  (List.range' (floor + 1) (log.lastIndex - floor)).reverse

/-- `advance_commit_index`. -/
def advanceCommitIndex (i : ℕ) (s : Cluster ν) : Op ν ℕ :=
  match s.replicators[i]? with
  | none => .returns 0 s
  | some r =>
      (requireCurrentLeader r s).bind fun _ s =>
        match commitScan C r s (commitCandidates r s) with
        | .error violation => .raises violation s
        | .ok none => .returns r.commitIndex s
        | .ok (some index) =>
            let s := s.updateReplicator i fun r => { r with commitIndex := index }
            (advanceNodeCommit r.leader index s).bind fun _ s =>
              (if usesConfiguration C r then persistCommittedMembership C r.leader index s
                else .returns () s).bind fun _ s =>
                .returns index (s.record (.commitAdvance r.leader r.term index))

/-! ## Replication -/

/-- `_advance_peer`. -/
def advancePeer (i : ℕ) (peer : ν) (matchIndex : ℕ) (s : Cluster ν) : Cluster ν :=
  s.updateReplicator i fun r =>
    let matched := max (r.progress peer).matchIndex matchIndex
    { r with progress := Function.update r.progress peer ⟨matched + 1, matched⟩ }

/-- The retry of `replicate` after a rejection. -/
def backtrackPeer (i : ℕ) (peer : ν) (s : Cluster ν) : Cluster ν :=
  s.updateReplicator i fun r =>
    let progress := r.progress peer
    let backtracked : PeerReplicationProgress :=
      ⟨max 1 (progress.nextIndex - 1), progress.matchIndex⟩
    { r with progress := Function.update r.progress peer backtracked }

/-- The end of a successful attempt. -/
def acknowledgePeer (i : ℕ) (peer : ν) (matchIndex : ℕ) (s : Cluster ν) : Op ν Bool :=
  (advanceCommitIndex C i (advancePeer i peer matchIndex s)).bind fun _ s => .returns true s

/-- `_replicate_snapshot`. -/
def replicateSnapshot (i : ℕ) (r : LeaderReplicator ν) (peer : ν) (deliveries : List Delivery)
    (s : Cluster ν) : Op ν Bool :=
  let log := s.logView r.leader
  match (s.persistent r.leader).kvSnapshot with
  | none => .raises (.snapshotUnavailable r.leader) s
  | some snapshot =>
      if ¬ r.snapshotTransport ∨ snapshot.lastIncludedIndex ≠ log.baseIndex ∨
          snapshot.lastIncludedTerm ≠ log.baseTerm then
        .raises (.snapshotUnavailable r.leader) s
      else
        let requestId := max r.snapshotRequestId (snapshotRequestIdFloor r s.trace) + 1
        let traceStart := s.trace.length
        let s := s.updateReplicator i fun r => { r with snapshotRequestId := requestId }
        let s := s.record (.replicationSnapshot r.leader peer r.term requestId)
        (sendInstallSnapshot C r.leader peer r.term snapshot requestId s).bind fun _ s =>
          (simulate C deliveries s).bind fun _ s =>
            if s.currentTerm r.leader ≠ r.term then .raises (.replicationNotCurrent r.leader) s
            else
              match matchingSnapshotResponse r peer traceStart snapshot.lastIncludedIndex
                  requestId s.trace with
              | none => .raises (.responseMissing peer) s
              | some (false, _) => .returns false s
              | some (true, matchIndex) => acknowledgePeer C i peer matchIndex s

/-- One attempt of `replicate` by a probe; `none` asks for another attempt. -/
def replicateAppend (i : ℕ) (r : LeaderReplicator ν) (peer : ν) (deliveries : List Delivery)
    (s : Cluster ν) : Op ν (Option Bool) :=
  let log := s.logView r.leader
  let nextIndex := (r.progress peer).nextIndex
  if log.lastIndex + 1 < nextIndex then .raises (.indexError r.leader nextIndex) s
  else
    let entries := log.suffixFrom nextIndex
    let probe : AppendProbe ν :=
      ⟨peer, s.trace.length, nextIndex - 1, entries.length,
        appendResponseOrdinalFloor r peer s.trace⟩
    (sendAppendEntries C r.leader peer probe.prevLogIndex entries r.commitIndex s).bind fun _ s =>
      (simulate C deliveries s).bind fun _ s =>
        match matchingAppendResponse r probe s.trace with
        | none => .raises (.responseMissing peer) s
        | some (true, matchIndex) =>
            (acknowledgePeer C i peer matchIndex s).bind fun done s => .returns (some done) s
        | some (false, _) => .returns none (backtrackPeer i peer s)

/-- One attempt of `replicate`. -/
def replicateAttempt (i : ℕ) (r : LeaderReplicator ν) (peer : ν) (deliveries : List Delivery)
    (s : Cluster ν) : Op ν (Option Bool) :=
  (requireCurrentLeader r s).bind fun _ s =>
    if (r.progress peer).nextIndex ≤ (s.logView r.leader).baseIndex then
      (replicateSnapshot C i r peer deliveries s).bind fun done s => .returns (some done) s
    else replicateAppend C i r peer deliveries s

/-- The loop of `replicate`, with the deliveries of each attempt. -/
def replicateLoop (i : ℕ) (peer : ν) : List (List Delivery) → Option ℕ → Cluster ν → Op ν Bool
  | [], _, s => .returns false s
  | deliveries :: rest, remaining, s =>
      if remaining = some 0 then .returns false s
      else
        match s.replicators[i]? with
        | none => .returns false s
        | some r =>
            (replicateAttempt C i r peer deliveries s).bind fun done s =>
              match done with
              | some result => .returns result s
              | none => replicateLoop i peer rest (remaining.map (· - 1)) s

/-- `replicate`. -/
def replicate (i : ℕ) (peer : ν) (maxAttempts : Option ℕ) (schedules : List (List Delivery))
    (s : Cluster ν) : Op ν Bool :=
  if ¬ s.replicators[i]?.any (fun r => peer ∈ C.peers r.leader) then .raises (.unknownNode peer) s
  else if maxAttempts = some 0 then .raises .maxAttemptsNotPositive s
  else replicateLoop C i peer schedules maxAttempts s

/-- The peer has the leader's log and its commit index. -/
def peerRecovered (r : LeaderReplicator ν) (peer : ν) (s : Cluster ν) : Bool :=
  let last := (s.logView r.leader).lastIndex
  decide (last ≤ (r.progress peer).matchIndex ∧ min r.commitIndex last ≤ s.commitIndex peer)

/-- The checks at the head of the loop of `recover_peer`; `none` asks for another
attempt. -/
def recoverCheck (i : ℕ) (peer : ν) (remaining : Option ℕ) (s : Cluster ν) : Op ν (Option Bool) :=
  match s.replicators[i]? with
  | none => .returns (some false) s
  | some r =>
      (requireCurrentLeader r s).bind fun _ s =>
        if peerRecovered r peer s then .returns (some true) s
        else if remaining = some 0 then .returns (some false) s
        else .returns none s

/-- The loop of `recover_peer`, with the deliveries of each attempt. -/
def recoverLoop (i : ℕ) (peer : ν) : List (List Delivery) → Option ℕ → Cluster ν → Op ν Bool
  | [], remaining, s =>
      (recoverCheck i peer remaining s).bind fun done s => .returns (done.getD false) s
  | deliveries :: rest, remaining, s =>
      (recoverCheck i peer remaining s).bind fun done s =>
        match done with
        | some result => .returns result s
        | none =>
            (replicate C i peer (some 1) [deliveries] s).bind fun _ s =>
              recoverLoop i peer rest (remaining.map (· - 1)) s

/-- `recover_peer`. -/
def recoverPeer (i : ℕ) (peer : ν) (maxAttempts : Option ℕ) (schedules : List (List Delivery))
    (s : Cluster ν) : Op ν Bool :=
  if ¬ s.replicators[i]?.any (fun r => peer ∈ C.peers r.leader) then .raises (.unknownNode peer) s
  else if maxAttempts = some 0 then .raises .maxAttemptsNotPositive s
  else recoverLoop C i peer schedules maxAttempts s

/-! ## Activity probes -/

/-- `begin_activity_probe`. -/
def beginActivityProbe (r : LeaderReplicator ν) (peer : ν) (s : Cluster ν) :
    Op ν (AppendProbe ν) :=
  if peer ∉ C.peers r.leader then .raises (.unknownNode peer) s
  else
    (requireCurrentLeader r s).bind fun _ s =>
      let last := (s.logView r.leader).lastIndex
      let probe : AppendProbe ν :=
        ⟨peer, s.trace.length, last, 0, appendResponseOrdinalFloor r peer s.trace⟩
      (sendAppendEntries C r.leader peer last [] r.commitIndex s).bind fun _ s =>
        .returns probe s

/-- `finish_activity_probe`. -/
def finishActivityProbe (r : LeaderReplicator ν) (probe : AppendProbe ν) (s : Cluster ν) :
    Op ν Bool :=
  if probe.peer ∉ C.peers r.leader then .raises (.unknownNode probe.peer) s
  else
    (requireCurrentLeader r s).bind fun _ s =>
      .returns (matchingAppendResponse r probe s.trace).isSome s

/-! ## Appending -/

/-- `append_current_term_barrier`, with the command of the entry. The index that it
returns is the length of the retained log. -/
def appendCurrentTerm (n : ν) (command : Command ν) (s : Cluster ν) : Op ν ℕ :=
  if ¬ s.alive n then .raises (.crashed n) s
  else if s.role n ≠ .leader then .raises (.notLeader n) s
  else
    let entry : LogEntry (Command ν) := ⟨s.currentTerm n, command⟩
    let s := s.updatePersistent n fun p =>
      { p with log := { p.log with entries := p.log.entries ++ [entry] } }
    .returns (s.logView n).entries.length s

end Distlab.Raft
