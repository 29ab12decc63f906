import Mathlib.Data.Prod.Lex
import Mathlib.Data.String.Basic
import Distlab.Raft.StateMachine

/-!
# Snapshots

`KVSnapshotStore` persists a checkpoint of the applied state, compacts the log
below it, and installs a newer one. `SnapshotTransport` carries snapshots from a
leader to its followers.
-/

set_option autoImplicit false

namespace Distlab.Raft

open Foundations

variable {ν : Type} [LinearOrder ν] (C : Config ν)

/-! ## The snapshot store -/

/-- `max` of the durable membership watermarks. -/
def durableMembershipCommitIndex (s : Cluster ν) : ℕ :=
  (C.nodeIds.map fun n => (s.persistent n).membershipCommitIndex).foldl max 0

/-- `_snapshot_voting_configuration`; the error is its `ValueError`. -/
def snapshotVotingConfiguration (n : ν) (lastApplied : ℕ) (s : Cluster ν) :
    Except (Error ν) (Option (SnapshotVotingConfiguration ν)) :=
  match C.kind with
  | .fixed => .ok none
  | .reconfigurable _ =>
      let committedIndex := durableMembershipCommitIndex C s
      if lastApplied < committedIndex then .error (.snapshotBeforeMembership n)
      else
        .ok (some ⟨committedIndex, s.votingConfiguration.oldVoters,
          s.votingConfiguration.newVoters⟩)

/-- The KV state of an image as a snapshot keeps it. -/
def snapshotState (image : KVImage) : List (String × String) := image.state.sortedItems (· ≤ ·)

/-- `_client_requests`. -/
def snapshotRequests (image : KVImage) : List SnapshotClientRequest :=
  (image.requests.sortedItems fun a b => toLex a ≤ toLex b).map fun item =>
    ⟨item.1.1, item.1.2, item.2⟩

/-- `create`. -/
def createSnapshot (n : ν) (s : Cluster ν) : Op ν (KVSnapshot ν) :=
  let lastApplied := s.applier.lastApplied n
  if lastApplied = 0 then .raises (.snapshotEmpty n) s
  else if (s.logView n).lastIndex < lastApplied then .raises (.indexBeyondLog n lastApplied) s
  else
    match (s.logView n).termAt lastApplied with
    | none => .raises (.indexError n lastApplied) s
    | some term =>
        match snapshotVotingConfiguration C n lastApplied s with
        | .error violation => .raises violation s
        | .ok configuration =>
            let snapshot : KVSnapshot ν :=
              ⟨lastApplied, term, snapshotState (s.kv n), snapshotRequests (s.kv n), configuration⟩
            if (s.persistent n).kvSnapshot.any (lastApplied < ·.lastIncludedIndex) then
              .raises (.snapshotBackwards n) s
            else
              .returns snapshot (s.updatePersistent n fun p =>
                { p with kvSnapshot := some snapshot })

/-- `compact`. -/
def compactSnapshot (n : ν) (s : Cluster ν) : Op ν (KVSnapshot ν) :=
  (createSnapshot C n s).bind fun snapshot s =>
    let compacted := (s.logView n).compactThrough snapshot.lastIncludedIndex
    if compacted.baseTerm ≠ snapshot.lastIncludedTerm then .raises (.compactionBoundary n) s
    else
      let s := s.updatePersistent n fun p => { p with log := compacted }
      (applierCompactThrough n snapshot.lastIncludedIndex snapshot.lastIncludedTerm s).bind
        fun _ s => .returns snapshot s

/-- `_validate_snapshot_membership` raises nothing. -/
def validSnapshotMembership (snapshot : KVSnapshot ν) : Bool :=
  match C.kind, snapshot.votingConfiguration with
  | .fixed, none => true
  | .fixed, some _ => false
  | .reconfigurable _, none => false
  | .reconfigurable _, some membership =>
      membership.oldVoters ∪ membership.newVoters.getD ∅ ⊆ C.nodeIds.toFinset

/-- `_validate_install_membership` raises nothing. -/
def validInstallMembership (n : ν) (snapshot : KVSnapshot ν) (s : Cluster ν) : Bool :=
  match snapshot.votingConfiguration with
  | none => true
  | some membership =>
      decide ((s.persistent n).membershipCommitIndex ≤ membership.committedIndex) &&
        match (s.persistent n).kvSnapshot.bind (·.votingConfiguration) with
        | none => true
        | some previous =>
            decide (previous.committedIndex = membership.committedIndex → previous = membership)

/-- The log that `install` keeps beyond the snapshot; the error is its `ValueError`. -/
def retainedSuffix (n : ν) (snapshot : KVSnapshot ν) (preserveMatchingSuffix : Bool)
    (s : Cluster ν) : Except (Error ν) (List (LogEntry (Command ν))) :=
  let view := s.logView n
  if view.lastIndex ≤ snapshot.lastIncludedIndex then .ok []
  else if preserveMatchingSuffix ∧
      view.prefixMatches snapshot.lastIncludedIndex snapshot.lastIncludedTerm then
    .ok (view.suffixFrom (snapshot.lastIncludedIndex + 1))
  else .error (.installRejected n)

/-- The durable and volatile writes of `install`. -/
def writeSnapshot (n : ν) (snapshot : KVSnapshot ν) (suffix : List (LogEntry (Command ν)))
    (s : Cluster ν) : Cluster ν :=
  let s := s.updatePersistent n fun p =>
    { p with
      kvSnapshot := some snapshot
      log := ⟨snapshot.lastIncludedIndex, snapshot.lastIncludedTerm, suffix⟩
      stateMachineApplied := []
      stateMachineBaseIndex := snapshot.lastIncludedIndex
      stateMachineBaseTerm := snapshot.lastIncludedTerm
      membershipCommitIndex :=
        snapshot.votingConfiguration.elim p.membershipCommitIndex (·.committedIndex) }
  { s with
    applier := { s.applier with
      baseIndex := Function.update s.applier.baseIndex n snapshot.lastIncludedIndex
      baseTerm := Function.update s.applier.baseTerm n snapshot.lastIncludedTerm
      applied := Function.update s.applier.applied n []
      lastApplied := Function.update s.applier.lastApplied n snapshot.lastIncludedIndex }
    kv := Function.update s.kv n
      { state := Dict.ofItems snapshot.state
        requests := Dict.ofItems
          (snapshot.clientRequests.map fun item =>
            ((item.clientId, item.requestId), item.operation)) } }

/-- `install`. -/
def installSnapshot (n : ν) (snapshot : KVSnapshot ν) (preserveMatchingSuffix : Bool)
    (s : Cluster ν) : Op ν Unit :=
  let previous := (s.persistent n).kvSnapshot
  if previous.any (snapshot.lastIncludedIndex < ·.lastIncludedIndex) then
    .raises (.installRejected n) s
  else if previous.any (·.lastIncludedIndex = snapshot.lastIncludedIndex) then
    if previous ≠ some snapshot then .raises (.snapshotDiverges n) s else .returns () s
  else if snapshot.lastIncludedIndex < (s.logView n).baseIndex then .raises (.installRejected n) s
  else
    match retainedSuffix n snapshot preserveMatchingSuffix s with
    | .error violation => .raises violation s
    | .ok suffix =>
        if snapshot.lastIncludedIndex < s.applier.lastApplied n then
          .raises (.installRejected n) s
        else if ¬ validSnapshotMembership C snapshot ∨ ¬ validInstallMembership n snapshot s then
          .raises (.installRejected n) s
        else
          let s := writeSnapshot n snapshot suffix s
          (if s.commitIndex n < snapshot.lastIncludedIndex then
              advanceNodeCommit n snapshot.lastIncludedIndex s
            else .returns () s).bind fun _ s =>
            (assertLogMatching C s).bind fun _ s => assertStateMachineSafety C s

/-! ## The snapshot transport -/

/-- `send_install_snapshot`. -/
def sendInstallSnapshot (leader follower : ν) (term : ℕ) (snapshot : KVSnapshot ν)
    (requestId : ℕ) (s : Cluster ν) : Op ν Unit :=
  if leader ∉ C.nodeIds then .raises (.unknownNode leader) s
  else if follower ∉ C.nodeIds ∨ leader = follower then .raises (.unknownNode follower) s
  else if ¬ s.alive leader then .raises (.crashed leader) s
  else if s.role leader ≠ .leader ∨ s.currentTerm leader ≠ term then
    .raises (.snapshotAuthority leader) s
  else if ¬ isVoter C s leader then .raises (.snapshotAuthority leader) s
  else if (s.persistent leader).kvSnapshot ≠ some snapshot then
    .raises (.snapshotAuthority leader) s
  else
    .returns () (s.send leader follower
      (.installSnapshotRequest ⟨term, leader, follower, snapshot, requestId⟩))

/-- The response of `_handle_request`. -/
def answerInstallSnapshot (request : InstallSnapshotRequest ν) (success : Bool)
    (installedIndex : ℕ) (s : Cluster ν) : Cluster ν :=
  let included := request.snapshot.lastIncludedIndex
  let acknowledged := if success ∧ included < installedIndex then included else installedIndex
  s.send request.followerId request.leaderId (.installSnapshotResponse
    ⟨s.currentTerm request.followerId, request.leaderId, request.followerId, success,
      acknowledged, included, request.requestId⟩)

/-- The error is a `ValueError` of `install`. -/
def Error.isInstallRejection : Error ν → Bool
  | .installRejected _ | .commitIndexBeyondLog _ _ => true
  | _ => false

/-- `_handle_request`. -/
def handleInstallSnapshotRequest (request : InstallSnapshotRequest ν) (s : Cluster ν) :
    Op ν Unit :=
  let n := request.followerId
  if ¬ isVoter C s request.leaderId ∨ request.term < s.currentTerm n then
    .returns () (answerInstallSnapshot request false (s.logView n).baseIndex s)
  else
    let s := resetElectionTimeout C n (retire n (advanceTerm C n request.term false s))
    match (s.persistent n).kvSnapshot with
    | some latest =>
        if request.snapshot.lastIncludedIndex < latest.lastIncludedIndex then
          .returns () (answerInstallSnapshot request true latest.lastIncludedIndex s)
        else install s
    | none => install s
where
  /-- The installation of a snapshot that is not older than the local one. -/
  install (s : Cluster ν) : Op ν Unit :=
    match installSnapshot C request.followerId request.snapshot true s with
    | .returns _ s =>
        .returns () (answerInstallSnapshot request true request.snapshot.lastIncludedIndex s)
    | .raises violation s =>
        if violation.isInstallRejection then
          .returns ()
            (answerInstallSnapshot request false (s.logView request.followerId).baseIndex s)
        else .raises violation s

/-- `_handle_response`. -/
def handleInstallSnapshotResponse (response : InstallSnapshotResponse ν) (s : Cluster ν) :
    Cluster ν :=
  let n := response.leaderId
  if s.currentTerm n < response.term ∧
      (¬ isVoter C s response.followerId ∨ ¬ isVoter C s n) then s
  else (advanceTerm C n response.term true s).record (.installSnapshotResponse response)

end Distlab.Raft
