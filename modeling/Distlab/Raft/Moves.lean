import Mathlib.Logic.Relation
import Distlab.Raft.Harness

/-!
# The moves of a cluster

Every operation is a sequence of moves: one durable write with the volatile
changes that go with it, one message sent, one record. A move says when the
operations make it, so an invariant is proved once for each move and then holds
in every state that any operation passes through.

Some drivers do more than the protocol asks: they send `AppendEntries` of their
own making, install snapshots of their own making, or append configuration
entries without a transition. The licence `U` says whether the moves of such drivers
are allowed, and when a membership command may be appended.
-/

set_option autoImplicit false

namespace Distlab.Raft

open Foundations

variable {ν : Type} [LinearOrder ν] (C : Config ν)

/-! ## What safety does not depend on -/

/-- The cluster without its clocks, timers, liveness, pre-votes, leadership
generations and leadership observers. -/
def core {ν : Type} (s : Cluster ν) : Cluster ν :=
  { s with
    volatile := fun n => { s.volatile n with preVoteTerm := none, preVotesReceived := ∅ }
    timer := fun _ => {}
    alive := fun _ => true
    time := 0
    ordinals := fun _ _ => 0
    leadershipGeneration := 0
    activeLeaderGenerations := ∅
    leadershipObservers := [] }

/-! ## Guards -/

/-- What drivers may do. -/
structure Licence (ν : Type) where
  /-- They send, install and append what the protocol does not ask for. -/
  own : Prop
  /-- They append a membership command to the log of a leader. -/
  proposes : Cluster ν → ν → Prop

/-- Drivers may do anything. -/
def Licence.unrestricted {ν : Type} : Licence ν := ⟨True, fun _ _ => True⟩

/-- Drivers do what the protocol asks for. -/
def Licence.protocol {ν : Type} : Licence ν := ⟨False, fun _ _ => True⟩

/-- The message is in the network and its receiver does not reject its envelope. -/
def Arrived (s : Cluster ν) (message : Message ν) : Prop :=
  message ∈ s.network ∧ validEnvelope C message = true

omit [LinearOrder ν] in
/-- The replicator's leader still leads in the replicator's term. -/
def LeaderReplicator.Current (r : LeaderReplicator ν) (s : Cluster ν) : Prop :=
  s.role r.leader = .leader ∧ s.currentTerm r.leader = r.term

/-- The log index that an accepted `AppendEntries` reaches. -/
def AppendEntries.reach {ν : Type} (a : AppendEntries ν) : ℕ := a.prevLogIndex + a.entries.length

/-- The log holds the previous entry and the entries of an `AppendEntries`. -/
def AppendEntries.Agrees {ν : Type} (a : AppendEntries ν) (view : RaftLogView (Command ν)) :
    Prop :=
  view.prefixMatches a.prevLogIndex a.prevLogTerm = true ∧
    ∀ k entry, a.entries[k]? = some entry → view.entryAt (a.prevLogIndex + 1 + k) = some entry

/-- The node has accepted an `AppendEntries` of its current term. -/
def HoldsAppend (s : Cluster ν) (n : ν) (a : AppendEntries ν) : Prop :=
  ∃ message, Arrived C s message ∧ message.dst = n ∧ message.payload = .appendEntries a ∧
    a.term = s.currentTerm n ∧ a.Agrees (s.logView n)

/-- The node has a snapshot that is as new as a requested one of its current term. -/
def HoldsSnapshot (s : Cluster ν) (n : ν) (request : InstallSnapshotRequest ν) : Prop :=
  ∃ message, Arrived C s message ∧ message.dst = n ∧
    message.payload = .installSnapshotRequest request ∧ request.term = s.currentTerm n ∧
    ∃ latest, (s.persistent n).kvSnapshot = some latest ∧
      request.snapshot.lastIncludedIndex ≤ latest.lastIncludedIndex

/-- A driver of the protocol sends this `AppendEntries`: its leader holds its
entries, and a replicator of the leader has its commit index. -/
def Replicated (s : Cluster ν) (n : ν) (a : AppendEntries ν) : Prop :=
  a.Agrees (s.logView n) ∧
    ∃ r ∈ s.replicators, r.leader = n ∧ r.Current s ∧ a.leaderCommit = r.commitIndex

/-- The message that a node may send. -/
def Sendable (U : Licence ν) (s : Cluster ν) (message : Message ν) : Prop :=
  let src := message.src
  match message.payload with
  | .electionTimeout _ _ | .preVote _ | .preVoteResponse _ => True
  | .requestVote request =>
      src ∈ C.nodeIds ∧ s.role src = .candidate ∧
        request = voteRequest src (s.currentTerm src) s
  | .requestVoteResponse response =>
      response.term = s.currentTerm src ∧ response.voterId = src ∧
        (response.voteGranted = true → s.votedFor src = some message.dst)
  | .appendEntries a =>
      s.role src = .leader ∧ a.term = s.currentTerm src ∧ a.leaderId = src ∧
        (U.own ∨ Replicated s src a)
  | .appendEntriesResponse response =>
      response.term = s.currentTerm src ∧ response.followerId = src ∧
        (response.success = true → ∃ a, HoldsAppend C s src a ∧ a.leaderId = message.dst ∧
          response.matchIndex = a.reach)
  | .installSnapshotRequest request =>
      src ∈ C.nodeIds ∧ s.role src = .leader ∧ request.term = s.currentTerm src ∧
        request.leaderId = src ∧ (s.persistent src).kvSnapshot = some request.snapshot
  | .installSnapshotResponse response =>
      response.term = s.currentTerm src ∧ response.followerId = src ∧
        (response.success = true → ∃ request, HoldsSnapshot C s src request ∧
          request.leaderId = message.dst ∧
          response.lastIncludedIndex = request.snapshot.lastIncludedIndex ∧
          response.requestedLastIncludedIndex = request.snapshot.lastIncludedIndex)

/-- The record that an operation may add to the trace beside the move that it
belongs to. -/
def Recordable (s : Cluster ν) : TraceRecord ν → Prop
  | .send _ | .persistTermVote _ _ _ | .leader _ _ => False
  | .deliver message => message ∈ s.network
  | .appendEntries follower leader term prevLogIndex entryCount _ _ =>
      ∃ message request, Arrived C s message ∧ message.dst = follower ∧
        message.payload = .appendEntries request ∧ request.leaderId = leader ∧
        request.term = term ∧ request.prevLogIndex = prevLogIndex ∧
        request.entries.length = entryCount
  | .replicationSnapshot _ _ _ _ => True
  | .membershipJoint _ _ _ _ | .membershipStable _ _ _ _ => True
  | .appendResponse leader follower term success matchIndex =>
      ∃ message, Arrived C s message ∧ message.dst = leader ∧
        message.payload = .appendEntriesResponse ⟨term, follower, success, matchIndex⟩
  | .installSnapshotResponse response =>
      ∃ message, Arrived C s message ∧ message.payload = .installSnapshotResponse response
  | .commitAdvance leader term commitIndex =>
      ∃ r ∈ s.replicators, r.leader = leader ∧ r.term = term ∧ r.Current s ∧
        commitIndex ≤ r.commitIndex

/-- The trace shows that the peer matches the replicator's leader up to an index. -/
def MatchEvidence (s : Cluster ν) (r : LeaderReplicator ν) (peer : ν) (matchIndex : ℕ) : Prop :=
  .appendResponse r.leader peer r.term true matchIndex ∈ s.trace ∨
    ∃ response : InstallSnapshotResponse ν, .installSnapshotResponse response ∈ s.trace ∧
      response.leaderId = r.leader ∧ response.followerId = peer ∧ response.term = r.term ∧
      response.success = true ∧ response.lastIncludedIndex = matchIndex ∧
      response.requestedLastIncludedIndex ≤ (s.logView r.leader).baseIndex

/-- Why a node may advance its commit index. -/
inductive CommitReason (s : Cluster ν) (n : ν) (index : ℕ) : Prop
  | replicator (r : LeaderReplicator ν) (member : r ∈ s.replicators) (leader : r.leader = n)
      (current : r.Current s) (within : index ≤ r.commitIndex)
  | append (a : AppendEntries ν) (holds : HoldsAppend C s n a) (within : index ≤ a.leaderCommit)
      (reached : index ≤ a.reach)
  | snapshot (snapshot : KVSnapshot ν) (latest : (s.persistent n).kvSnapshot = some snapshot)
      (within : index ≤ snapshot.lastIncludedIndex)

omit [LinearOrder ν] in
/-- A membership command of a leader's log that a replicator of this leader has
committed. -/
def CommittedMembership (s : Cluster ν) (leader : ν) (index : ℕ) (command : Command ν) : Prop :=
  command.isMembership = true ∧ s.role leader = .leader ∧
    ((s.logView leader).entryAt index).map (·.command) = some command ∧
    ∃ r ∈ s.replicators, r.leader = leader ∧ index ≤ r.commitIndex

/-- A membership command that a transition may append. -/
def MayPropose (U : Licence ν) (s : Cluster ν) (n : ν) (command : Command ν) : Prop :=
  (C.kind = .fixed ∨ U.own ∨
    match command with
    | .jointConsensus newVoters =>
        s.votingConfiguration.newVoters = none ∧ newVoters ≠ ∅ ∧ newVoters ⊆ C.nodeIds.toFinset
    | .stableConsensus voters => s.votingConfiguration.newVoters = some voters ∧ n ∈ voters
    | _ => True) ∧ (command.isMembership = true → U.proposes s n)

/-- The configuration that a committed membership command activates. -/
def Activates (configuration : VotingConfiguration ν) (leader : ν) (command : Command ν)
    (next : VotingConfiguration ν) : Prop :=
  match command with
  | .jointConsensus newVoters =>
      configuration.newVoters = none ∧ newVoters ≠ ∅ ∧ newVoters ⊆ C.nodeIds.toFinset ∧
        next = ⟨configuration.oldVoters, some newVoters⟩
  | .stableConsensus voters =>
      configuration.newVoters = some voters ∧ leader ∈ voters ∧ next = ⟨voters, none⟩
  | _ => False

/-! ## Moves -/

/-- A candidate becomes the recorded leader of its term. -/
def promote (n : ν) (s : Cluster ν) : Cluster ν :=
  ({ s with leadersByTerm := s.leadersByTerm.setDefault (s.currentTerm n) n }
    |>.updateVolatile n fun w => { w with role := .leader }).record (.leader n (s.currentTerm n))

/-- One move. -/
inductive Move (U : Licence ν) : Cluster ν → Cluster ν → Prop
  | housekeeping {s s' : Cluster ν} (same : core s' = core s) : Move U s s'
  -- Terms, votes and roles.
  | advanceTerm {s : Cluster ν} (n : ν) (term : ℕ) (higher : s.currentTerm n < term) :
      Move U s (adoptTerm n term s)
  | stand {s : Cluster ν} (n : ν) (member : n ∈ C.nodeIds) (voter : isVoter C s n = true) :
      Move U s (becomeCandidate n s)
  | grant {s : Cluster ν} (message : Message ν) (request : RequestVote ν)
      (arrived : Arrived C s message) (payload : message.payload = .requestVote request)
      (voter : isVoter C s message.dst = true) (eligible : isVoter C s request.candidateId = true)
      (term : request.term = s.currentTerm message.dst)
      (upToDate : candidateLogIsUpToDate message.dst request s = true)
      (free : s.votedFor message.dst = none ∨ s.votedFor message.dst = some request.candidateId) :
      Move U s (castVote message.dst request.term request.candidateId s)
  | collect {s : Cluster ν} (message : Message ν) (response : RequestVoteResponse ν)
      (arrived : Arrived C s message) (payload : message.payload = .requestVoteResponse response)
      (voter : isVoter C s response.voterId = true) (eligible : isVoter C s message.dst = true)
      (term : response.term = s.currentTerm message.dst)
      (candidate : s.role message.dst = .candidate) (granted : response.voteGranted = true) :
      Move U s (s.updateVolatile message.dst
        fun w => { w with votesReceived := insert response.voterId w.votesReceived })
  | lead {s : Cluster ν} (n : ν) (member : n ∈ C.nodeIds) (candidate : s.role n = .candidate)
      (quorum : hasElectionQuorum C s (s.volatile n).votesReceived = true)
      (free : ∀ existing, s.leadersByTerm.lookup (s.currentTerm n) = some existing → existing = n) :
      Move U s (promote n s)
  | retire {s : Cluster ν} (n : ν) : Move U s (retire n s)
  | reset {s : Cluster ν} (n : ν) : Move U s (s.updateVolatile n fun _ => {})
  -- Messages and records.
  | send {s : Cluster ν} (message : Message ν) (sendable : Sendable C U s message) :
      Move U s { s with
        network := s.network ++ [message]
        trace := s.trace ++ [.send message] }
  | schedule {s : Cluster ν} (message : Message ν) (generation : ℕ) (deadline : Option ℕ)
      (payload : message.payload = .electionTimeout generation deadline) :
      Move U s { s with network := s.network ++ [message] }
  | record {s : Cluster ν} (entry : TraceRecord ν) (recordable : Recordable C s entry) :
      Move U s (s.record entry)
  -- The log.
  | append {s : Cluster ν} (n : ν) (command : Command ν) (leads : s.role n = .leader)
      (proposal : MayPropose C U s n command) :
      Move U s (s.updatePersistent n fun p =>
        { p with log := { p.log with entries := p.log.entries ++ [⟨p.currentTerm, command⟩] } })
  | merge {s : Cluster ν} (message : Message ν) (a : AppendEntries ν)
      (merged : List (LogEntry (Command ν))) (arrived : Arrived C s message)
      (payload : message.payload = .appendEntries a) (term : a.term = s.currentTerm message.dst)
      (follows : s.role message.dst = .follower)
      (matched : (s.logView message.dst).prefixMatches a.prevLogIndex a.prevLogTerm = true)
      (merges : (s.logView message.dst).mergeAfter a.prevLogIndex a.entries = some merged) :
      Move U s (s.updatePersistent message.dst fun p =>
        { p with log := { p.log with entries := merged } })
  | commit {s : Cluster ν} (n : ν) (index : ℕ) (higher : s.commitIndex n < index)
      (within : index ≤ (s.logView n).lastIndex) (reason : CommitReason C s n index) :
      Move U s (s.updateVolatile n fun w => { w with commitIndex := index })
  -- The state machine and its snapshots.
  | apply {s : Cluster ν} (n : ν) (entry : LogEntry (Command ν)) (applier : StateMachineApplier ν)
      (member : n ∈ C.nodeIds) (committed : s.applier.lastApplied n + 1 ≤ s.commitIndex n)
      (found : (s.logView n).entryAt (s.applier.lastApplied n + 1) = some entry)
      (canonical : recordCanonical ⟨n, s.applier.lastApplied n + 1, entry⟩ s.applier =
        .ok applier) :
      Move U s (writeApplied n (s.applier.lastApplied n + 1) entry { s with applier := applier })
  | image {s : Cluster ν} (n : ν) (image : KVImage) :
      Move U s { s with kv := Function.update s.kv n image }
  | createSnapshot {s : Cluster ν} (n : ν) (snapshot : KVSnapshot ν) (member : n ∈ C.nodeIds)
      (boundary : snapshot.lastIncludedIndex = s.applier.lastApplied n)
      (positive : 0 < snapshot.lastIncludedIndex)
      (term : (s.logView n).termAt snapshot.lastIncludedIndex = some snapshot.lastIncludedTerm)
      (newer : ∀ latest, (s.persistent n).kvSnapshot = some latest →
        latest.lastIncludedIndex ≤ snapshot.lastIncludedIndex)
      (configuration : snapshotVotingConfiguration C n snapshot.lastIncludedIndex s =
        .ok snapshot.votingConfiguration) :
      Move U s (s.updatePersistent n fun p => { p with kvSnapshot := some snapshot })
  | compactLog {s : Cluster ν} (n : ν) (snapshot : KVSnapshot ν) (member : n ∈ C.nodeIds)
      (latest : (s.persistent n).kvSnapshot = some snapshot)
      (boundary : snapshot.lastIncludedIndex = s.applier.lastApplied n)
      (term : (s.logView n).termAt snapshot.lastIncludedIndex = some snapshot.lastIncludedTerm) :
      Move U s (s.updatePersistent n fun p =>
        { p with log := p.log.compactThrough snapshot.lastIncludedIndex })
  | compactApplied {s : Cluster ν} (n : ν) (snapshot : KVSnapshot ν) (member : n ∈ C.nodeIds)
      (latest : (s.persistent n).kvSnapshot = some snapshot)
      (boundary : snapshot.lastIncludedIndex = s.applier.lastApplied n)
      (term : (s.logView n).termAt snapshot.lastIncludedIndex = some snapshot.lastIncludedTerm)
      (beyond : s.applier.baseIndex n < snapshot.lastIncludedIndex)
      (compacted : (s.logView n).baseIndex = snapshot.lastIncludedIndex) :
      Move U s (writeCompacted n snapshot.lastIncludedIndex snapshot.lastIncludedTerm s)
  | install {s : Cluster ν} (message : Message ν) (request : InstallSnapshotRequest ν)
      (suffix : List (LogEntry (Command ν))) (arrived : Arrived C s message)
      (payload : message.payload = .installSnapshotRequest request)
      (term : request.term = s.currentTerm message.dst)
      (follows : s.role message.dst = .follower)
      (newer : ∀ latest, (s.persistent message.dst).kvSnapshot = some latest →
        latest.lastIncludedIndex < request.snapshot.lastIncludedIndex)
      (beyond : (s.logView message.dst).baseIndex ≤ request.snapshot.lastIncludedIndex)
      (retained : retainedSuffix message.dst request.snapshot true s = .ok suffix)
      (applied : s.applier.lastApplied message.dst ≤ request.snapshot.lastIncludedIndex)
      (valid : validSnapshotMembership C request.snapshot = true)
      (compatible : validInstallMembership message.dst request.snapshot s = true) :
      Move U s (writeSnapshot message.dst request.snapshot suffix s)
  | installOwn {s : Cluster ν} (n : ν) (snapshot : KVSnapshot ν)
      (suffix : List (LogEntry (Command ν))) (unrestricted : U.own)
      (beyond : (s.logView n).baseIndex ≤ snapshot.lastIncludedIndex) :
      Move U s (writeSnapshot n snapshot suffix s)
  -- Replicators.
  | newReplicator {s : Cluster ν} (r : LeaderReplicator ν) (member : r.leader ∈ C.nodeIds)
      (current : r.Current s) (commit : r.commitIndex = s.commitIndex r.leader)
      (unmatched : ∀ peer, (r.progress peer).matchIndex = 0) :
      Move U s { s with replicators := s.replicators ++ [r] }
  | probe {s : Cluster ν} (i : ℕ) (f : LeaderReplicator ν → LeaderReplicator ν)
      (keeps : ∀ r, (f r).leader = r.leader ∧ (f r).term = r.term ∧
        (f r).commitIndex = r.commitIndex ∧ (f r).membershipAware = r.membershipAware ∧
        ∀ peer, ((f r).progress peer).matchIndex = (r.progress peer).matchIndex) :
      Move U s (s.updateReplicator i f)
  | acknowledge {s : Cluster ν} (i : ℕ) (r : LeaderReplicator ν) (peer : ν) (matchIndex : ℕ)
      (found : s.replicators[i]? = some r) (evidence : MatchEvidence s r peer matchIndex) :
      Move U s (advancePeer i peer matchIndex s)
  | advanceCommit {s : Cluster ν} (i : ℕ) (r : LeaderReplicator ν) (index : ℕ)
      (found : s.replicators[i]? = some r) (current : r.Current s)
      (beyond : max r.commitIndex (s.logView r.leader).baseIndex < index)
      (within : index ≤ (s.logView r.leader).lastIndex)
      (term : (s.logView r.leader).termAt index = some r.term)
      (quorum : commitQuorum C r index s = .ok true) :
      Move U s (s.updateReplicator i fun r => { r with commitIndex := index })
  -- Membership.
  | watermark {s : Cluster ν} (leader : ν) (index : ℕ) (command : Command ν) (n : ν)
      (committed : CommittedMembership s leader index command)
      (holds : ((s.logView n).entryAt index).map (·.command) = some command) :
      Move U s (s.updatePersistent n fun p =>
        { p with membershipCommitIndex := max p.membershipCommitIndex index })
  | activate {s : Cluster ν} (leader : ν) (index : ℕ) (command : Command ν)
      (next : VotingConfiguration ν) (committed : CommittedMembership s leader index command)
      (activates : Activates C s.votingConfiguration leader command next) :
      Move U s { s with votingConfiguration := next }
  | transitions {s : Cluster ν} (transitions : List (MembershipTransition ν)) :
      Move U s { s with transitions := transitions }
  -- The observations of the harness.
  | observeElection {s : Cluster ν} (n : ν) (term : ℕ)
      (leads : s.leadersByTerm.lookup term = some n ∨ s.role n = .leader ∧ s.currentTerm n = term) :
      Move U s { s with harness := { s.harness with
        leadersByTerm := s.harness.leadersByTerm.insert term n } }
  | observeLog {s : Cluster ν} (n : ν) (leads : s.role n = .leader) :
      Move U s { s with harness := { s.harness with
        logsByLeadership :=
          s.harness.logsByLeadership.insert (s.currentTerm n, n) (s.logView n) } }
  | observeEntry {s : Cluster ν} (n : ν) (index : ℕ) (entry : LogEntry (Command ν))
      (leads : s.role n = .leader) (committed : index ≤ s.commitIndex n)
      (found : (s.logView n).entryAt index = some entry) :
      Move U s { s with harness := { s.harness with
        committed := s.harness.committed.insert index ⟨index, entry, s.currentTerm n, n⟩ } }
  | observeCommit {s : Cluster ν} (n : ν) (leads : s.role n = .leader) :
      Move U s { s with harness := { s.harness with
        observedCommitIndex :=
          Function.update s.harness.observedCommitIndex n (s.commitIndex n) } }

/-- Any number of moves. -/
def Moves (U : Licence ν) : Cluster ν → Cluster ν → Prop := Relation.ReflTransGen (Move C U)

end Distlab.Raft
