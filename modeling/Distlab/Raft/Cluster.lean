import Distlab.Foundations.Dict
import Distlab.Foundations.Outcome
import Distlab.Raft.Command

/-!
# The state of a Raft cluster

A cluster is the durable and volatile state of its nodes, the simulator's
messages and trace, and the objects that drivers build over it: the state
machine applier and its KV state, leader replicators, membership transitions
and the safety harness.

The network keeps every message sent. Delivering a message leaves it there, so
it can be delivered at any later time, in any order, any number of times or
never. The trace has the record kinds that the program reads back or that name
a durable vote, a leader, a commit or a configuration change.
-/

set_option autoImplicit false

namespace Distlab.Raft

open Foundations

/-! ## Messages -/

/-- `RequestVote`, also the fields of `PreVote`. -/
structure RequestVote (ν : Type) where
  term : ℕ
  candidateId : ν
  lastLogIndex : ℕ
  lastLogTerm : ℕ
  deriving DecidableEq

/-- `RequestVoteResponse`. -/
structure RequestVoteResponse (ν : Type) where
  term : ℕ
  voterId : ν
  voteGranted : Bool
  deriving DecidableEq

/-- `PreVoteResponse`. -/
structure PreVoteResponse (ν : Type) where
  term : ℕ
  voterId : ν
  prospectiveTerm : ℕ
  voteGranted : Bool
  deriving DecidableEq

/-- `AppendEntries`. -/
structure AppendEntries (ν : Type) where
  term : ℕ
  leaderId : ν
  prevLogIndex : ℕ
  prevLogTerm : ℕ
  entries : List (LogEntry (Command ν))
  leaderCommit : ℕ
  deriving DecidableEq

/-- `AppendEntriesResponse`. -/
structure AppendEntriesResponse (ν : Type) where
  term : ℕ
  followerId : ν
  success : Bool
  matchIndex : ℕ
  deriving DecidableEq

/-- `InstallSnapshotRequest`. -/
structure InstallSnapshotRequest (ν : Type) where
  term : ℕ
  leaderId : ν
  followerId : ν
  snapshot : KVSnapshot ν
  requestId : ℕ
  deriving DecidableEq

/-- `InstallSnapshotResponse`. -/
structure InstallSnapshotResponse (ν : Type) where
  term : ℕ
  leaderId : ν
  followerId : ν
  success : Bool
  lastIncludedIndex : ℕ
  requestedLastIncludedIndex : ℕ
  requestId : ℕ
  deriving DecidableEq

/-- The payloads of the protocol. -/
inductive Payload (ν : Type) where
  | electionTimeout (generation : ℕ) (deadline : Option ℕ)
  | preVote (request : RequestVote ν)
  | preVoteResponse (response : PreVoteResponse ν)
  | requestVote (request : RequestVote ν)
  | requestVoteResponse (response : RequestVoteResponse ν)
  | appendEntries (request : AppendEntries ν)
  | appendEntriesResponse (response : AppendEntriesResponse ν)
  | installSnapshotRequest (request : InstallSnapshotRequest ν)
  | installSnapshotResponse (response : InstallSnapshotResponse ν)
  deriving DecidableEq

/-- `Message`. The delivery endpoint is the snapshot transport's for its
payloads and the node's for the others. -/
structure Message (ν : Type) where
  src : ν
  dst : ν
  payload : Payload ν
  ordinal : ℕ
  deriving DecidableEq

/-- `TraceRecord`, of the kinds that the model keeps. -/
inductive TraceRecord (ν : Type) where
  /-- `send` -/
  | send (message : Message ν)
  /-- `deliver` -/
  | deliver (message : Message ν)
  /-- `raft-persist-term-vote` -/
  | persistTermVote (node : ν) (term : ℕ) (votedFor : Option ν)
  /-- `raft-leader` -/
  | leader (node : ν) (term : ℕ)
  /-- `raft-append-entries` -/
  | appendEntries (follower leader : ν) (term prevLogIndex entryCount : ℕ) (success : Bool)
      (matchIndex : ℕ)
  /-- `raft-append-response` -/
  | appendResponse (leader follower : ν) (term : ℕ) (success : Bool) (matchIndex : ℕ)
  /-- `raft-replication-snapshot` -/
  | replicationSnapshot (leader follower : ν) (term requestId : ℕ)
  /-- `raft-install-snapshot-response` -/
  | installSnapshotResponse (response : InstallSnapshotResponse ν)
  /-- `raft-commit-advance` -/
  | commitAdvance (leader : ν) (term commitIndex : ℕ)
  /-- `raft-membership-joint` -/
  | membershipJoint (leader : ν) (term : ℕ) (oldVoters newVoters : Finset ν)
  /-- `raft-membership-stable` -/
  | membershipStable (leader : ν) (term : ℕ) (oldVoters voters : Finset ν)
  deriving DecidableEq

/-! ## Errors -/

/-- The errors of the modelled operations, with the exception they stand for. -/
inductive Error (ν : Type) where
  /-- `ElectionSafetyViolation` of `record_leader`. -/
  | electionSafety (term : ℕ) (existing node : ν)
  /-- `LogMatchingViolation` of `merge_after`. -/
  | mergeConflict (node : ν)
  /-- `LogMatchingViolation` of `assert_log_matching`. -/
  | logMatching (left right : ν) (index : ℕ)
  /-- `IndexError` of a log view. -/
  | indexError (node : ν) (index : ℕ)
  /-- `RuntimeError`: "crashed node ... cannot ...". -/
  | crashed (node : ν)
  /-- `NonVoterElectionError`. -/
  | nonVoter (node : ν)
  /-- `RuntimeError`: "only the current leader role can send AppendEntries". -/
  | notLeader (node : ν)
  /-- `KeyError` or `ValueError`: an unknown node or peer. -/
  | unknownNode (node : ν)
  /-- `ValueError`: "prev_log_index must reference the retained leader log". -/
  | prevIndexNotRetained (node : ν) (index : ℕ)
  /-- `ValueError`: "leader_commit must reference the leader log". -/
  | leaderCommitBeyondLog (node : ν) (index : ℕ)
  /-- `ValueError`: "commit index cannot exceed the local log". -/
  | commitIndexBeyondLog (node : ν) (index : ℕ)
  /-- `ReplicationError`: "replication requires a live leader", "... leader role",
  "replicator term is stale". -/
  | replicationNotCurrent (node : ν)
  /-- `ValueError`: "max_attempts must be positive when provided". -/
  | maxAttemptsNotPositive
  /-- `ReplicationResponseMissing`. -/
  | responseMissing (peer : ν)
  /-- `ReplicationError` of `_replicate_snapshot`. -/
  | snapshotUnavailable (node : ν)
  /-- `RuntimeError` of `send_install_snapshot`. -/
  | snapshotAuthority (node : ν)
  /-- `AssertionError`: "commit index cannot exceed the local Raft log", "applied
  index cannot exceed the local Raft log". -/
  | indexBeyondLog (node : ν) (index : ℕ)
  /-- `StateMachineSafetyViolation` of `_record_canonical`. -/
  | canonicalConflict (index : ℕ) (existing node : ν)
  /-- `StateMachineSafetyViolation` of `assert_state_machine_safety`. -/
  | stateMachineSafety (node : ν)
  /-- `StateMachineSafetyViolation`: "durable applied history does not reach the
  compacted Raft boundary for ...". -/
  | appliedBehindBoundary (node : ν)
  /-- `StateMachineSafetyViolation` or `ValueError` of `compact_through`. -/
  | compactionBoundary (node : ν)
  /-- `InvalidKVCommand`. -/
  | invalidKVCommand (node : ν)
  /-- `ClientRequestConflict`. -/
  | clientRequestConflict (node : ν)
  /-- `ValueError`: "cannot snapshot an empty applied state machine". -/
  | snapshotEmpty (node : ν)
  /-- `ValueError`: "cannot snapshot before the latest committed membership
  configuration is applied". -/
  | snapshotBeforeMembership (node : ν)
  /-- `AssertionError`: "snapshot index cannot move backwards". -/
  | snapshotBackwards (node : ν)
  /-- `AssertionError`: "snapshot contents diverge at existing boundary". -/
  | snapshotDiverges (node : ν)
  /-- `AssertionError` of `_restore_snapshot_boundary`. -/
  | snapshotBoundary (node : ν)
  /-- `ValueError` of `install`, which the transport turns into a rejection. -/
  | installRejected (node : ν)
  /-- `ElectionSafetyViolation` of the harness. -/
  | observedElectionSafety (term : ℕ) (existing node : ν)
  /-- `LeaderAppendOnlyViolation`. -/
  | leaderAppendOnly (term : ℕ) (node : ν)
  /-- `LeaderCompletenessViolation`. -/
  | leaderCompleteness (index : ℕ) (node : ν)
  /-- `MembershipChangeError`. -/
  | membershipChange (node : ν)
  /-- `ValueError` of a membership proposal. -/
  | membershipProposal (node : ν)
  /-- `LeaderRuntimeError` of `_start_runtime`. -/
  | leaderRuntime (node : ν)
  /-- `ValueError` of the constructor of `LeaderRuntimeSupervisor`. -/
  | leaderRuntimeParameters
  deriving DecidableEq

/-! ## State -/

/-- `RaftRole`. -/
inductive RaftRole where
  | follower
  | candidate
  | leader
  deriving DecidableEq

/-- What survives a crash of a node. -/
structure Persistent (ν : Type) where
  currentTerm : ℕ := 0
  votedFor : Option ν := none
  /-- `log`, `log_base_index` and `log_base_term`. -/
  log : RaftLogView (Command ν) := {}
  stateMachineApplied : List (LogEntry (Command ν)) := []
  stateMachineBaseIndex : ℕ := 0
  stateMachineBaseTerm : ℕ := 0
  kvSnapshot : Option (KVSnapshot ν) := none
  membershipCommitIndex : ℕ := 0

/-- What a crash of a node clears. -/
structure Volatile (ν : Type) where
  role : RaftRole := .follower
  votesReceived : Finset ν := ∅
  preVoteTerm : Option ℕ := none
  preVotesReceived : Finset ν := ∅
  commitIndex : ℕ := 0

/-- The election timer of a node. -/
structure ElectionTimer where
  generation : ℕ := 0
  deadline : Option ℕ := none

/-- `AppliedEntry`. -/
structure AppliedEntry (ν : Type) where
  nodeId : ν
  index : ℕ
  entry : LogEntry (Command ν)
  deriving DecidableEq

/-- `StateMachineApplier`. -/
structure StateMachineApplier (ν : Type) where
  baseIndex : ν → ℕ := fun _ => 0
  baseTerm : ν → ℕ := fun _ => 0
  lastApplied : ν → ℕ := fun _ => 0
  applied : ν → List (AppliedEntry ν) := fun _ => []
  canonicalByIndex : Dict ℕ (AppliedEntry ν) := ∅

/-- The KV state of a node and its client requests. -/
structure KVImage where
  state : Dict String String := ∅
  requests : Dict (String × ℕ) KVOperation := ∅

/-- `PeerReplicationProgress`. -/
structure PeerReplicationProgress where
  nextIndex : ℕ
  matchIndex : ℕ

/-- `LeaderReplicator`, or `MembershipAwareLeaderReplicator`. -/
structure LeaderReplicator (ν : Type) where
  leader : ν
  term : ℕ
  commitIndex : ℕ
  snapshotRequestId : ℕ
  progress : ν → PeerReplicationProgress
  snapshotTransport : Bool
  membershipAware : Bool

/-- `LeadershipLifecycleKind`. -/
inductive LeadershipLifecycleKind where
  | acquired
  | retired
  deriving DecidableEq

/-- `LeadershipLifecycleEvent`. -/
structure LeadershipLifecycleEvent (ν : Type) where
  kind : LeadershipLifecycleKind
  generation : ℕ
  nodeId : ν
  term : ℕ
  deriving DecidableEq

/-- `LeaderRuntimeIdentity`. -/
structure LeaderRuntimeIdentity (ν : Type) where
  leaderId : ν
  term : ℕ
  generation : ℕ
  deriving DecidableEq

/-- `_LeaderRuntime`, with the time of its controller's next heartbeat. -/
structure LeaderRuntime (ν : Type) where
  identity : LeaderRuntimeIdentity ν
  replicator : LeaderReplicator ν
  nextHeartbeatTime : ℕ

/-- `LeaderRuntimeSupervisor`. -/
structure LeaderRuntimeSupervisor (ν : Type) where
  heartbeatInterval : ℕ
  responseTimeout : ℕ
  membershipAware : Bool
  runtimes : Dict ν (LeaderRuntime ν) := ∅

/-- A leadership observer: the events it was called with and the supervisor that
it calls, if it is one's. The program propagates the error of a call; the model
keeps it in `raised`. -/
structure LeadershipObserver (ν : Type) where
  events : List (LeadershipLifecycleEvent ν) := []
  supervisor : Option (LeaderRuntimeSupervisor ν) := none
  raised : Option (Error ν) := none

/-- `ReplicatedMembershipTransition`. -/
structure MembershipTransition (ν : Type) where
  leader : ν
  term : ℕ
  generation : ℕ
  pending : Option (ℕ × Command ν)

/-- `CommittedEntryObservation`. -/
structure CommittedEntryObservation (ν : Type) where
  index : ℕ
  entry : LogEntry (Command ν)
  committedInTerm : ℕ
  leaderId : ν

/-- `RaftSafetyHarness`, with the observations of its checkers. -/
structure RaftSafetyHarness (ν : Type) where
  leadersByTerm : Dict ℕ ν := ∅
  logsByLeadership : Dict (ℕ × ν) (RaftLogView (Command ν)) := ∅
  committed : Dict ℕ (CommittedEntryObservation ν) := ∅
  observedCommitIndex : ν → ℕ := fun _ => 0

/-- `RaftCluster`, or `ReconfigurableRaftCluster` with its bootstrap voters. -/
inductive ClusterKind (ν : Type) where
  | fixed
  | reconfigurable (voters : Finset ν)

/-- The arguments of a cluster's constructor. -/
structure Config (ν : Type) where
  nodeIds : List ν
  nonempty : nodeIds ≠ []
  nodup : nodeIds.Nodup
  kind : ClusterKind ν := .fixed
  electionTimeout : ν → Option ℕ := fun _ => none

/-- A cluster over the simulator. -/
structure Cluster (ν : Type) where
  persistent : ν → Persistent ν
  volatile : ν → Volatile ν
  timer : ν → ElectionTimer
  alive : ν → Bool
  time : ℕ
  network : List (Message ν)
  ordinals : ν → ν → ℕ
  trace : List (TraceRecord ν)
  leadersByTerm : Dict ℕ ν
  leadershipGeneration : ℕ
  activeLeaderGenerations : Dict ν (ℕ × ℕ)
  leadershipObservers : List (LeadershipObserver ν) := []
  votingConfiguration : VotingConfiguration ν
  applier : StateMachineApplier ν
  kv : ν → KVImage
  replicators : List (LeaderReplicator ν)
  transitions : List (MembershipTransition ν)
  harness : RaftSafetyHarness ν

/-- An operation on a cluster. -/
abbrev Op (ν : Type) (β : Type) := Outcome (Error ν) (Cluster ν) β

namespace Cluster

variable {ν : Type} (s : Cluster ν)

/-- `current_term` -/
def currentTerm (n : ν) : ℕ := (s.persistent n).currentTerm

/-- `voted_for` -/
def votedFor (n : ν) : Option ν := (s.persistent n).votedFor

/-- `log_view` -/
def logView (n : ν) : RaftLogView (Command ν) := (s.persistent n).log

/-- `role` -/
def role (n : ν) : RaftRole := (s.volatile n).role

/-- `commit_index` -/
def commitIndex (n : ν) : ℕ := (s.volatile n).commitIndex

/-- `Simulator._record`. -/
def record (r : TraceRecord ν) : Cluster ν := { s with trace := s.trace ++ [r] }

variable [DecidableEq ν]

/-- `Simulator._schedule`, for a message that is not on a link. -/
def schedule (n : ν) (payload : Payload ν) : Cluster ν :=
  { s with network := s.network ++ [⟨n, n, payload, 0⟩] }

/-- `Simulator.send`. -/
def send (src dst : ν) (payload : Payload ν) : Cluster ν :=
  let ordinal := s.ordinals src dst + 1
  let message : Message ν := ⟨src, dst, payload, ordinal⟩
  { s with
    network := s.network ++ [message]
    ordinals := Function.update s.ordinals src (Function.update (s.ordinals src) dst ordinal)
    trace := s.trace ++ [.send message] }

/-- One message to each of the destinations, in order. -/
def sendAll (src : ν) (dsts : List ν) (payload : Payload ν) : Cluster ν :=
  dsts.foldl (fun s dst => s.send src dst payload) s

def updatePersistent (n : ν) (f : Persistent ν → Persistent ν) : Cluster ν :=
  { s with persistent := Function.update s.persistent n (f (s.persistent n)) }

def updateVolatile (n : ν) (f : Volatile ν → Volatile ν) : Cluster ν :=
  { s with volatile := Function.update s.volatile n (f (s.volatile n)) }

/-- Logical time passes. -/
def elapse (elapsed : ℕ) : Cluster ν := { s with time := s.time + elapsed }

def updateTimer (n : ν) (f : ElectionTimer → ElectionTimer) : Cluster ν :=
  { s with timer := Function.update s.timer n (f (s.timer n)) }

end Cluster

/-- The other nodes of the cluster. -/
def Config.peers {ν : Type} [DecidableEq ν] (C : Config ν) (self : ν) : List ν :=
  C.nodeIds.filter (· ≠ self)

/-- `_voting_configuration` of a new cluster. A cluster of fixed membership has
no configuration; the model puts all nodes there. -/
def Config.initialConfiguration {ν : Type} [DecidableEq ν] (C : Config ν) :
    VotingConfiguration ν :=
  match C.kind with
  | .fixed => ⟨C.nodeIds.toFinset, none⟩
  | .reconfigurable voters => ⟨voters, none⟩

end Distlab.Raft
