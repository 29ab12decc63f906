import Distlab.Raft.LeaderLiveness

/-!
# Linearizable reads

`LinearizableKVReader`: a leader with a committed entry of its term confirms by replication
that a quorum still follows it, then applies what it has committed and reads. The reader
names its replicator by the position in the cluster's list.
-/

set_option autoImplicit false

namespace Distlab.Raft

open Foundations

variable {ν : Type} [LinearOrder ν] (C : Config ν)

/-! ## Errors and evidence -/

/-- What a linearizable read raises. -/
inductive ReadError (ν : Type) where
  /-- `ValueError`: "KV key must be non-empty". -/
  | keyEmpty
  /-- `ValueError`: "max_attempts_per_peer must be positive". -/
  | notPositive
  /-- `LinearizableReadError`: "linearizable reads require a live leader". -/
  | notLive
  /-- `LinearizableReadError`: "linearizable reads require leader role". -/
  | notLeader
  /-- `LinearizableReadError`: "linearizable read replicator term is stale". -/
  | replicatorStale
  /-- `LinearizableReadError`, from a `ReplicationError`. -/
  | replication (error : Error ν)
  /-- `CurrentTermCommitRequired`. -/
  | currentTermCommitRequired
  /-- `ReadQuorumUnavailable`. -/
  | quorumUnavailable
  /-- `ReadMembershipChanged`. -/
  | membershipChanged
  /-- An error that the reader does not catch. -/
  | uncaught (error : Error ν)
  deriving DecidableEq

/-- A call of the reader. -/
abbrev ReadOp (ν : Type) (β : Type) := Outcome (ReadError ν) (Cluster ν) β

/-- A call that the reader makes without catching anything. -/
def ReadOp.uncaught {β : Type} : Op ν β → ReadOp ν β
  | .returns b s => .returns b s
  | .raises error s => .raises (.uncaught error) s

/-- `ReadBarrierEvidence`. -/
structure ReadBarrierEvidence (ν : Type) where
  leader : ν
  term : ℕ
  commitIndex : ℕ
  acknowledgedPeers : List ν
  acknowledgedVoters : List ν
  majority : ℕ
  quorumMode : QuorumMode
  deriving DecidableEq

/-- The evidence that `_confirm_authority` returns. -/
def RoundConfiguration.readEvidence (began : RoundConfiguration ν) (r : LeaderReplicator ν)
    (acknowledgedPeers : List ν) (s : Cluster ν) : ReadBarrierEvidence ν where
  leader := r.leader
  term := s.currentTerm r.leader
  commitIndex := s.commitIndex r.leader
  acknowledgedPeers := acknowledgedPeers
  acknowledgedVoters :=
    let acknowledged := (r.leader :: acknowledgedPeers).dedup
    match C.kind with
    | .fixed => acknowledged.insertionSort (· ≤ ·)
    | .reconfigurable _ =>
        (acknowledged.filter (· ∈ began.configuration.voters)).insertionSort (· ≤ ·)
  majority := C.nodeIds.length / 2 + 1
  quorumMode := match C.kind with
    | .fixed => .stable
    | .reconfigurable _ => if began.configuration.isJoint then .joint else .stable

/-! ## The parts of a read -/

/-- `_require_current_leader`: it also lets the replicator commit. -/
def requireReadLeader (i : ℕ) (r : LeaderReplicator ν) (s : Cluster ν) : ReadOp ν Unit :=
  if ¬ s.alive r.leader then .raises .notLive s
  else if s.role r.leader ≠ .leader then .raises .notLeader s
  else if s.currentTerm r.leader ≠ r.term then .raises .replicatorStale s
  else
    match advanceCommitIndex C i s with
    | .returns _ s => .returns () s
    | .raises error s =>
        if error.isReplication then .raises (.replication error) s else .raises (.uncaught error) s

/-- `_require_current_term_commit`. -/
def requireCurrentTermCommit (leader : ν) (s : Cluster ν) : ReadOp ν Unit :=
  let commitIndex := s.commitIndex leader
  if commitIndex = 0 then .raises .currentTermCommitRequired s
  else
    match (s.logView leader).termAt commitIndex with
    | none => .raises (.uncaught (.indexError leader commitIndex)) s
    | some term =>
        if term ≠ s.currentTerm leader then .raises .currentTermCommitRequired s
        else .returns () s

/-- `require_same_configuration`. -/
def requireReadConfiguration (began : RoundConfiguration ν) (s : Cluster ν) : ReadOp ν Unit :=
  if sameConfiguration C began s then .returns () s else .raises .membershipChanged s

/-- The loop of `_confirm_authority` over the leader's peers, with what the simulator runs
while a peer answers: the peers that acknowledged. -/
def confirmPeers (began : RoundConfiguration ν) (i : ℕ) (r : LeaderReplicator ν)
    (maxAttemptsPerPeer : ℕ) (schedules : ν → List (List Delivery)) :
    List ν → List ν → Cluster ν → ReadOp ν (List ν)
  | [], acknowledgedPeers, s => .returns acknowledgedPeers s
  | peer :: rest, acknowledgedPeers, s =>
      (requireReadConfiguration C began s).bind fun _ s =>
        if began.hasQuorum C (insert r.leader acknowledgedPeers.toFinset) then
          .returns acknowledgedPeers s
        else
          match replicate C i peer (some maxAttemptsPerPeer) (schedules peer) s with
          | .returns true s =>
              (requireReadConfiguration C began s).bind fun _ s =>
                confirmPeers began i r maxAttemptsPerPeer schedules rest
                  (acknowledgedPeers ++ [peer]) s
          | .returns false s | .raises (.responseMissing _) s =>
              confirmPeers began i r maxAttemptsPerPeer schedules rest acknowledgedPeers s
          | .raises error s => .raises (.uncaught error) s

/-- `_confirm_authority`. -/
def confirmAuthority (i : ℕ) (r : LeaderReplicator ν) (maxAttemptsPerPeer : ℕ)
    (schedules : ν → List (List Delivery)) (s : Cluster ν) : ReadOp ν (ReadBarrierEvidence ν) :=
  if maxAttemptsPerPeer = 0 then .raises .notPositive s
  else
    (requireReadLeader C i r s).bind fun _ s =>
      (requireCurrentTermCommit r.leader s).bind fun _ s =>
        let began := roundConfiguration s
        (confirmPeers C began i r maxAttemptsPerPeer schedules (C.peers r.leader) [] s).bind
          fun acknowledgedPeers s =>
            (requireReadLeader C i r s).bind fun _ s =>
              (requireReadConfiguration C began s).bind fun _ s =>
                if ¬ began.hasQuorum C (insert r.leader acknowledgedPeers.toFinset) then
                  .raises .quorumUnavailable s
                else .returns (began.readEvidence C r acknowledgedPeers s) s

/-! ## Reads -/

/-- `barrier`. -/
def readBarrier (i : ℕ) (r : LeaderReplicator ν) (maxAttemptsPerPeer : ℕ)
    (schedules : ν → List (List Delivery)) (s : Cluster ν) : ReadOp ν (ReadBarrierEvidence ν) :=
  (confirmAuthority C i r maxAttemptsPerPeer schedules s).bind fun evidence s =>
    (ReadOp.uncaught (kvApplyCommitted r.leader s)).bind fun _ s => .returns evidence s

/-- `get`. -/
def linearizableGet (i : ℕ) (r : LeaderReplicator ν) (key : String) (maxAttemptsPerPeer : ℕ)
    (schedules : ν → List (List Delivery)) (s : Cluster ν) : ReadOp ν (Option String) :=
  if key = "" then .raises .keyEmpty s
  else
    (confirmAuthority C i r maxAttemptsPerPeer schedules s).bind fun _ s =>
      (ReadOp.uncaught (kvApplyCommitted r.leader s)).bind fun _ s =>
        .returns ((s.kv r.leader).state.lookup key) s

end Distlab.Raft
