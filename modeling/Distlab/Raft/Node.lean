import Distlab.Raft.Leadership

/-!
# The operations of a Raft node

`RaftNode` and `ReconfigurableRaftNode`, operation by operation. The overriding
methods of the second class add checks that the nodes involved are voters; in a
cluster of fixed membership every node is one, so one definition serves both.
-/

set_option autoImplicit false

namespace Distlab.Raft

open Foundations

variable {ν : Type} [LinearOrder ν] (C : Config ν)

/-! ## Voters -/

/-- `is_voter`. -/
def isVoter (s : Cluster ν) (n : ν) : Bool :=
  match C.kind with
  | .fixed => true
  | .reconfigurable _ => n ∈ s.votingConfiguration.voters

/-- `_has_majority` of the votes, or `has_election_quorum`. -/
def hasElectionQuorum (s : Cluster ν) (votes : Finset ν) : Bool :=
  match C.kind with
  | .fixed => C.nodeIds.length / 2 + 1 ≤ votes.card
  | .reconfigurable _ => s.votingConfiguration.hasQuorum votes

/-! ## Terms, timers and leadership records -/

/-- `_persist_term_and_vote`. -/
def persistTermAndVote (n : ν) (term : ℕ) (votedFor : Option ν) (s : Cluster ν) : Cluster ν :=
  (s.updatePersistent n fun p => { p with currentTerm := term, votedFor := votedFor }).record
    (.persistTermVote n term votedFor)

/-- `_clear_pre_vote`. -/
def clearPreVote (n : ν) (s : Cluster ν) : Cluster ν :=
  s.updateVolatile n fun w => { w with preVoteTerm := none, preVotesReceived := ∅ }

/-- The role becomes `FOLLOWER` and the votes are forgotten. -/
def retire (n : ν) (s : Cluster ν) : Cluster ν :=
  s.updateVolatile n fun w => { w with role := .follower, votesReceived := ∅ }

/-- `disable_election_timeout`. -/
def disableElectionTimeout (n : ν) (s : Cluster ν) : Cluster ν :=
  let s := s.updateTimer n fun t => { t with generation := t.generation + 1 }
  let s := if (s.volatile n).preVoteTerm.isSome then clearPreVote n s else s
  if s.role n = .candidate then retire n s else s

/-- `reset_election_timeout`. -/
def resetElectionTimeout (n : ν) (s : Cluster ν) : Cluster ν :=
  if ¬ isVoter C s n then disableElectionTimeout n s
  else
    match C.electionTimeout n with
    | none => s
    | some timeout =>
        if s.role n = .leader then s
        else
          let deadline := s.time + timeout
          let s := s.updateTimer n fun t => ⟨t.generation + 1, some deadline⟩
          s.schedule n (.electionTimeout (s.timer n).generation (some deadline))

/-- `_notify_leader_retired`. -/
def notifyLeaderRetired (n : ν) (term : ℕ) (s : Cluster ν) : Cluster ν :=
  match s.activeLeaderGenerations.lookup n with
  | none => s
  | some (existing, generation) =>
      if existing ≠ term then s
      else
        notifyObservers ⟨.retired, generation, n, term⟩
          { s with activeLeaderGenerations := s.activeLeaderGenerations.erase n }

/-- A node without an active generation acquires the next one. -/
def acquireGeneration (n : ν) (term : ℕ) (s : Cluster ν) : Cluster ν :=
  let generation := s.leadershipGeneration + 1
  notifyObservers ⟨.acquired, generation, n, term⟩
    { s with
      leadershipGeneration := generation
      activeLeaderGenerations := s.activeLeaderGenerations.insert n (term, generation) }

/-- `_notify_leader_acquired`. -/
def notifyLeaderAcquired (n : ν) (term : ℕ) (s : Cluster ν) : Cluster ν :=
  match s.activeLeaderGenerations.lookup n with
  | none => acquireGeneration n term s
  | some (existing, _) =>
      if existing = term then s
      else acquireGeneration n term (notifyLeaderRetired n existing s)

theorem notifyLeaderRetired_eq (n : ν) (term : ℕ) (s : Cluster ν) :
    ∃ active observers, notifyLeaderRetired n term s =
      { s with activeLeaderGenerations := active, leadershipObservers := observers } := by
  unfold notifyLeaderRetired
  split
  · exact ⟨s.activeLeaderGenerations, s.leadershipObservers, rfl⟩
  · split
    · exact ⟨s.activeLeaderGenerations, s.leadershipObservers, rfl⟩
    · exact ⟨_, _, rfl⟩

theorem notifyLeaderAcquired_eq (n : ν) (term : ℕ) (s : Cluster ν) :
    ∃ generation active observers, notifyLeaderAcquired n term s =
      { s with
        leadershipGeneration := generation
        activeLeaderGenerations := active
        leadershipObservers := observers } := by
  unfold notifyLeaderAcquired
  split
  · exact ⟨_, _, _, rfl⟩
  · next existing _ _ =>
    split
    · exact ⟨s.leadershipGeneration, s.activeLeaderGenerations, s.leadershipObservers, rfl⟩
    · obtain ⟨active, observers, retired⟩ := notifyLeaderRetired_eq n existing s
      rw [retired]
      exact ⟨_, _, _, rfl⟩

/-- A node adopts a higher term: it has no vote and no role there. -/
def adoptTerm (n : ν) (term : ℕ) (s : Cluster ν) : Cluster ν :=
  retire n (persistTermAndVote n term none s)

/-- `_advance_term`. -/
def advanceTerm (n : ν) (term : ℕ) (rearmIfLeader : Bool) (s : Cluster ν) : Cluster ν :=
  if term ≤ s.currentTerm n then s
  else
    let previousTerm := s.currentTerm n
    let wasLeader := s.role n = .leader
    let s := clearPreVote n (adoptTerm n term s)
    let s := if wasLeader then notifyLeaderRetired n previousTerm s else s
    if rearmIfLeader ∧ wasLeader then resetElectionTimeout C n s else s

/-- `record_leader`. -/
def recordLeader (term : ℕ) (n : ν) (s : Cluster ν) : Op ν Unit :=
  match s.leadersByTerm.lookup term with
  | none => .returns () { s with leadersByTerm := s.leadersByTerm.insert term n }
  | some existing =>
      if existing ≠ n then .raises (.electionSafety term existing n) s else .returns () s

/-- `_become_leader`. -/
def becomeLeader (n : ν) (term : ℕ) (s : Cluster ν) : Op ν Unit :=
  if term ≠ s.currentTerm n ∨ s.role n ≠ .candidate then .returns () s
  else
    (recordLeader term n s).bind fun _ s =>
      let s := s.updateVolatile n fun w => { w with role := .leader }
      let s := clearPreVote n s
      let s := s.updateTimer n fun t => ⟨t.generation + 1, none⟩
      .returns () (notifyLeaderAcquired n term (s.record (.leader n term)))

/-! ## Elections -/

/-- The request a candidate sends for a term. -/
def voteRequest (n : ν) (term : ℕ) (s : Cluster ν) : RequestVote ν :=
  ⟨term, n, (s.logView n).lastIndex, (s.logView n).lastTerm⟩

/-- A node stands for election in its next term: it votes for itself. -/
def becomeCandidate (n : ν) (s : Cluster ν) : Cluster ν :=
  (persistTermAndVote n (s.currentTerm n + 1) (some n) s).updateVolatile n fun w =>
    { w with role := .candidate, votesReceived := {n} }

/-- `start_election`. -/
def startElection (n : ν) (s : Cluster ν) : Op ν Unit :=
  if ¬ s.alive n then .raises (.crashed n) s
  else if ¬ isVoter C s n then .raises (.nonVoter n) s
  else
    let term := s.currentTerm n + 1
    let s := resetElectionTimeout C n (becomeCandidate n (clearPreVote n s))
    if hasElectionQuorum C s {n} then becomeLeader n term s
    else .returns () (s.sendAll n (C.peers n) (.requestVote (voteRequest n term s)))

/-- `start_pre_vote`. -/
def startPreVote (n : ν) (s : Cluster ν) : Op ν Unit :=
  if ¬ s.alive n then .raises (.crashed n) s
  else if ¬ isVoter C s n then .raises (.nonVoter n) s
  else if s.role n = .leader then .returns () s
  else
    let prospectiveTerm := s.currentTerm n + 1
    let s := s.updateVolatile n fun w =>
      { w with preVoteTerm := some prospectiveTerm, preVotesReceived := {n} }
    if hasElectionQuorum C s {n} then startElection C n (clearPreVote n s)
    else
      let s := resetElectionTimeout C n s
      .returns () (s.sendAll n (C.peers n) (.preVote (voteRequest n prospectiveTerm s)))

/-- `step_down`, with a reason. -/
def stepDown (n : ν) (s : Cluster ν) : Op ν Bool :=
  if ¬ s.alive n then .raises (.crashed n) s
  else if s.role n ≠ .leader then .returns false s
  else
    let term := s.currentTerm n
    let s := notifyLeaderRetired n term (clearPreVote n (retire n s))
    .returns true (resetElectionTimeout C n s)

/-- `_candidate_log_is_up_to_date`. -/
def candidateLogIsUpToDate (n : ν) (request : RequestVote ν) (s : Cluster ν) : Bool :=
  let view := s.logView n
  if request.lastLogTerm ≠ view.lastTerm then view.lastTerm < request.lastLogTerm
  else view.lastIndex ≤ request.lastLogIndex

/-- `_handle_election_timeout`. -/
def handleElectionTimeout (n : ν) (generation : ℕ) (deadline : Option ℕ) (s : Cluster ν) :
    Op ν Unit :=
  if generation ≠ (s.timer n).generation ∨ deadline ≠ (s.timer n).deadline then .returns () s
  else if ¬ (s.timer n).deadline.any (· ≤ s.time) then .returns () s
  else if s.role n = .leader then .returns () s
  else startPreVote C n s

/-- `_handle_pre_vote`. -/
def handlePreVote (n src : ν) (request : RequestVote ν) (s : Cluster ν) : Cluster ν :=
  let grant := isVoter C s n && isVoter C s request.candidateId &&
    decide (s.currentTerm n + 1 ≤ request.term) && candidateLogIsUpToDate n request s
  s.send n src (.preVoteResponse ⟨s.currentTerm n, n, request.term, grant⟩)

/-- `_handle_pre_vote_response`. -/
def handlePreVoteResponse (n : ν) (response : PreVoteResponse ν) (s : Cluster ν) : Op ν Unit :=
  if ¬ isVoter C s response.voterId ∨ ¬ isVoter C s n then .returns () s
  else if s.currentTerm n < response.term then
    .returns () (advanceTerm C n response.term true s)
  else if (s.volatile n).preVoteTerm ≠ some response.prospectiveTerm ∨
      response.prospectiveTerm ≠ s.currentTerm n + 1 ∨ s.role n = .leader then
    .returns () s
  else if ¬ response.voteGranted then .returns () s
  else
    let s := s.updateVolatile n fun w =>
      { w with preVotesReceived := insert response.voterId w.preVotesReceived }
    if hasElectionQuorum C s (s.volatile n).preVotesReceived then
      startElection C n (clearPreVote n s)
    else .returns () s

/-- A node casts its vote of a term. -/
def castVote (n : ν) (term : ℕ) (candidate : ν) (s : Cluster ν) : Cluster ν :=
  (persistTermAndVote n term (some candidate) s).updateVolatile n fun w =>
    { w with role := .follower }

/-- A node grants a vote. -/
def grantVote (n : ν) (request : RequestVote ν) (s : Cluster ν) : Cluster ν :=
  resetElectionTimeout C n (clearPreVote n (castVote n request.term request.candidateId s))

/-- `_handle_request_vote`. -/
def handleRequestVote (n src : ν) (request : RequestVote ν) (s : Cluster ν) : Cluster ν :=
  let voterEligible := isVoter C s n
  let candidateEligible := isVoter C s request.candidateId
  let retiredLeader := decide (s.role n = .leader) && candidateEligible &&
    decide (s.currentTerm n < request.term)
  let s := if candidateEligible then advanceTerm C n request.term false s else s
  let grant := voterEligible && candidateEligible &&
    decide (request.term = s.currentTerm n) && candidateLogIsUpToDate n request s &&
    decide (s.votedFor n = none ∨ s.votedFor n = some request.candidateId)
  let s := if grant then grantVote C n request s else s
  let s := if retiredLeader && !grant then resetElectionTimeout C n s else s
  s.send n src (.requestVoteResponse ⟨s.currentTerm n, n, grant⟩)

/-- `_handle_request_vote_response`. -/
def handleRequestVoteResponse (n : ν) (response : RequestVoteResponse ν) (s : Cluster ν) :
    Op ν Unit :=
  if ¬ isVoter C s response.voterId ∨ ¬ isVoter C s n then .returns () s
  else if s.currentTerm n < response.term then
    .returns () (advanceTerm C n response.term true s)
  else if response.term ≠ s.currentTerm n ∨ s.role n ≠ .candidate then .returns () s
  else if ¬ response.voteGranted then .returns () s
  else
    let s := s.updateVolatile n fun w =>
      { w with votesReceived := insert response.voterId w.votesReceived }
    if hasElectionQuorum C s (s.volatile n).votesReceived then becomeLeader n response.term s
    else .returns () s

/-! ## Log replication -/

/-- The first index at which two log views have one term and a different
retained entry at or below it. -/
def logMismatch (left right : RaftLogView (Command ν)) : Option ℕ :=
  let overlapStart := max left.baseIndex right.baseIndex
  let retainedStart := max left.firstRetainedIndex right.firstRetainedIndex
  let shared := min left.lastIndex right.lastIndex
  (List.range' overlapStart (shared + 1 - overlapStart)).find? fun index =>
    decide (left.termAt index = right.termAt index) &&
      (List.range' retainedStart (index + 1 - retainedStart)).any fun prefixIndex =>
        left.entryAt prefixIndex ≠ right.entryAt prefixIndex

/-- The pairs of a list, the earlier element first. -/
def orderedPairs {β : Type} : List β → List (β × β)
  | [] => []
  | x :: rest => rest.map (x, ·) ++ orderedPairs rest

/-- `assert_log_matching`. -/
def assertLogMatching (s : Cluster ν) : Op ν Unit :=
  match (orderedPairs C.nodeIds).findSome? fun pair =>
      (logMismatch (s.logView pair.1) (s.logView pair.2)).map
        fun index => Error.logMatching pair.1 pair.2 index with
  | none => .returns () s
  | some violation => .raises violation s

/-- `RaftNode.advance_commit_index`. -/
def advanceNodeCommit (n : ν) (index : ℕ) (s : Cluster ν) : Op ν Unit :=
  if (s.logView n).lastIndex < index then .raises (.commitIndexBeyondLog n index) s
  else if index ≤ s.commitIndex n then .returns () s
  else .returns () (s.updateVolatile n fun w => { w with commitIndex := index })

/-- `_merge_entries`. -/
def mergeEntries (n : ν) (prevLogIndex : ℕ) (entries : List (LogEntry (Command ν)))
    (s : Cluster ν) : Op ν Unit :=
  match (s.logView n).mergeAfter prevLogIndex entries with
  | none => .raises (.mergeConflict n) s
  | some merged =>
      .returns () (s.updatePersistent n fun p => { p with log := { p.log with entries := merged } })

/-- `send_append_entries`. -/
def sendAppendEntries (n peer : ν) (prevLogIndex : ℕ) (entries : List (LogEntry (Command ν)))
    (leaderCommit : ℕ) (s : Cluster ν) : Op ν Unit :=
  if ¬ s.alive n then .raises (.crashed n) s
  else if s.role n ≠ .leader then .raises (.notLeader n) s
  else if peer ∉ C.peers n then .raises (.unknownNode peer) s
  else if prevLogIndex < (s.logView n).baseIndex ∨ (s.logView n).lastIndex < prevLogIndex then
    .raises (.prevIndexNotRetained n prevLogIndex) s
  else if (s.logView n).lastIndex < leaderCommit then
    .raises (.leaderCommitBeyondLog n leaderCommit) s
  else
    match (s.logView n).termAt prevLogIndex with
    | none => .raises (.prevIndexNotRetained n prevLogIndex) s
    | some prevLogTerm =>
        .returns () (s.send n peer (.appendEntries
          ⟨s.currentTerm n, n, prevLogIndex, prevLogTerm, entries, leaderCommit⟩))

/-- The end of `_handle_append_entries`: its trace record and its response. -/
def answerAppendEntries (n src : ν) (request : AppendEntries ν) (success : Bool)
    (matchIndex : ℕ) (s : Cluster ν) : Cluster ν :=
  let s := s.record (.appendEntries n request.leaderId request.term request.prevLogIndex
    request.entries.length success matchIndex)
  s.send n src (.appendEntriesResponse ⟨s.currentTerm n, n, success, matchIndex⟩)

/-- `_handle_append_entries`. -/
def handleAppendEntries (n src : ν) (request : AppendEntries ν) (s : Cluster ν) : Op ν Unit :=
  if ¬ isVoter C s request.leaderId then
    .returns () (s.send n src (.appendEntriesResponse ⟨s.currentTerm n, n, false, 0⟩))
  else
    let previousTerm := s.currentTerm n
    let wasLeader := s.role n = .leader
    let s := advanceTerm C n request.term false s
    if request.term ≠ s.currentTerm n then
      .returns () (answerAppendEntries n src request false 0 s)
    else
      let s := clearPreVote n (retire n s)
      let s := if wasLeader ∧ request.term = previousTerm then
        notifyLeaderRetired n previousTerm s else s
      let s := resetElectionTimeout C n s
      if ¬ (s.logView n).prefixMatches request.prevLogIndex request.prevLogTerm then
        .returns () (answerAppendEntries n src request false 0 s)
      else
        (mergeEntries n request.prevLogIndex request.entries s).bind fun _ s =>
          let matchIndex := request.prevLogIndex + request.entries.length
          (if s.commitIndex n < request.leaderCommit then
              advanceNodeCommit n (min request.leaderCommit matchIndex) s
            else .returns () s).bind fun _ s =>
            (assertLogMatching C s).bind fun _ s =>
              .returns () (answerAppendEntries n src request true matchIndex s)

/-- `_handle_append_entries_response`. -/
def handleAppendEntriesResponse (n : ν) (response : AppendEntriesResponse ν) (s : Cluster ν) :
    Cluster ν :=
  if s.currentTerm n < response.term then
    if isVoter C s response.followerId && isVoter C s n then advanceTerm C n response.term true s
    else s
  else
    s.record (.appendResponse n response.followerId response.term response.success
      response.matchIndex)

/-! ## Messages and lifecycle -/

/-- The principal that a payload of the node's own protocol claims as its source. -/
def claimedSource (self : ν) : Payload ν → ν
  | .electionTimeout _ _ => self
  | .preVote request => request.candidateId
  | .preVoteResponse response => response.voterId
  | .requestVote request => request.candidateId
  | .requestVoteResponse response => response.voterId
  | .appendEntries request => request.leaderId
  | .appendEntriesResponse response => response.followerId
  | .installSnapshotRequest request => request.leaderId
  | .installSnapshotResponse response => response.followerId

/-- `handle_crash`, then the simulator clears the volatile state. -/
def crash (n : ν) (s : Cluster ν) : Cluster ν :=
  let s := { s with alive := Function.update s.alive n false }
  let s := if s.role n = .leader then notifyLeaderRetired n (s.currentTerm n) s else s
  s.updateVolatile n fun _ => {}

/-- `Simulator.restart` and `handle_restart`. -/
def restart (n : ν) (s : Cluster ν) : Cluster ν :=
  let s := { s with alive := Function.update s.alive n true }
  let s := s.updateVolatile n fun _ => {}
  let s := match s.activeLeaderGenerations.lookup n with
    | none => s
    | some active => notifyLeaderRetired n active.1 s
  let s := s.updateTimer n fun t => ⟨t.generation + 1, none⟩
  resetElectionTimeout C n s

end Distlab.Raft
