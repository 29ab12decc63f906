import Distlab.Raft.TimerOperations

/-!
# Election timers under deliveries and membership changes

A timeout that is not the present one of a waiting node is rejected. Every other
handler leaves each timer kept or armed anew, and so does the activation of a
voting configuration: the nodes that stop being voters lose their timer, those
that become voters get one.
-/

set_option autoImplicit false

namespace Distlab.Raft

open Foundations

variable {ν : Type} [LinearOrder ν] {C : Config ν} {n m : ν} {s t : Cluster ν} {timeout : ℕ}

/-! ## Timeouts -/

/-- **A stale timeout is rejected.** -/
theorem handleElectionTimeout_rejects {generation : ℕ} {deadline : Option ℕ}
    (stale : generation ≠ (s.timer m).generation) :
    handleElectionTimeout C m generation deadline s = .returns () s := by
  unfold handleElectionTimeout
  rw [if_pos (.inl stale)]

section Timed

variable (timed : C.electionTimeout m = some timeout)

include timed

theorem acts_handleElectionTimeout (generation : ℕ) (deadline : Option ℕ) :
    (handleElectionTimeout C m generation deadline s).Ensures (Acts C n m s)
      fun _ _ => True := by
  unfold handleElectionTimeout
  split
  · exact (Kept.refl s).acts
  split
  · exact (Kept.refl s).acts
  split
  · exact (Kept.refl s).acts
  · exact acts_startPreVote timed

/-- The present timeout of a waiting node, when it is due, arms the timer anew. -/
theorem resets_handleElectionTimeout (alive : s.alive m = true) (waits : Waits C m s) {due : ℕ}
    (deadline : (s.timer m).deadline = some due) (due' : due ≤ s.time) :
    (handleElectionTimeout C m (s.timer m).generation (some due) s).Ensures (Resets C n m s)
      fun _ _ => True := by
  unfold handleElectionTimeout
  rw [deadline, if_neg (by simp), if_neg (by simp [due']), if_neg waits.2]
  exact resets_startPreVote timed alive waits

/-! ## Votes -/

omit timed in
theorem kept_handlePreVote (src : ν) (request : RequestVote ν) :
    Kept C n s (handlePreVote C m src request s) := (quiet_send (by simp)).kept

theorem acts_handlePreVoteResponse (response : PreVoteResponse ν) :
    (handlePreVoteResponse C m response s).Ensures (Acts C n m s) fun _ _ => True := by
  unfold handlePreVoteResponse
  split
  · exact (Kept.refl s).acts
  split
  · exact acts_advanceTerm timed _
  split
  · exact (Kept.refl s).acts
  split
  · exact (Kept.refl s).acts
  · have counted : Quiet s (s.updateVolatile m fun w =>
        { w with preVotesReceived := insert response.voterId w.preVotesReceived }) :=
      quiet_updateVolatile m rfl
    dsimp only
    split
    · have cleared := (counted.trans (quiet_clearPreVote m)).kept (C := C) (n := n)
      exact (acts_startElection timed).mono (fun t acts => cleared.acts.trans acts) fun _ _ => id
    · exact counted.kept.acts

/-- A voter that grants its vote arms its timer. -/
theorem resets_grantVote (request : RequestVote ν) :
    Resets C n m s (grantVote C m request s) := by
  unfold grantVote
  have cast := (shifts_castVote (C := C) (n := n) (m := m) (s := s) request.term
    request.candidateId).trans (quiet_clearPreVote m).kept.shifts
  refine cast.resets (resets_resetElectionTimeout timed ?_)
  rw [(quiet_clearPreVote m).role]
  simp [castVote, Cluster.role, Cluster.updateVolatile]

/-- The vote of a node: a leader that retired arms its timer also when it refuses. -/
theorem acts_vote (request : RequestVote ν) (retired grant : Bool) (shifts : Shifts C n m s t)
    (keeps : retired = false → Kept C n s t)
    (follows : retired = true → t.role m ≠ .leader) :
    Acts C n m s (if retired && !grant then
        resetElectionTimeout C m (if grant then grantVote C m request t else t)
      else if grant then grantVote C m request t else t) := by
  cases grant with
  | true =>
      simp only [Bool.not_true, Bool.and_false, Bool.false_eq_true, if_false, if_true]
      exact (shifts.resets (resets_grantVote timed request)).acts
  | false =>
      simp only [Bool.not_false, Bool.and_true, Bool.false_eq_true, if_false]
      cases retired with
      | true => exact (shifts.resets (resets_resetElectionTimeout timed (follows rfl))).acts
      | false => exact (keeps rfl).acts

theorem acts_handleRequestVote (src : ν) (request : RequestVote ν) :
    Acts C n m s (handleRequestVote C m src request s) := by
  have shifts : Shifts C n m s (if isVoter C s request.candidateId then
      advanceTerm C m request.term false s else s) := by
    split
    · exact shifts_advanceTerm _
    · exact .refl s
  refine Acts.trans ?_ (quiet_send (by simp)).kept.acts
  refine acts_vote timed request _ _ shifts (fun remains => ?_) fun retires => ?_
  · -- Not a leader, or its term stays.
    split
    next eligible =>
      by_cases leads : s.role m = .leader
      · unfold advanceTerm
        rw [if_pos]
        · exact .refl s
        · simpa [leads, eligible] using remains
      · exact kept_advanceTerm leads _ _
    next => exact .refl s
  · simp only [Bool.and_eq_true, decide_eq_true_eq] at retires
    rw [if_pos retires.1.2, role_advanceTerm retires.2]
    simp

theorem acts_handleRequestVoteResponse (response : RequestVoteResponse ν) :
    (handleRequestVoteResponse C m response s).Ensures (Acts C n m s) fun _ _ => True := by
  unfold handleRequestVoteResponse
  split
  · exact (Kept.refl s).acts
  split
  · exact acts_advanceTerm timed _
  split
  · exact (Kept.refl s).acts
  split
  · exact (Kept.refl s).acts
  · have counted : Quiet s (s.updateVolatile m fun w =>
        { w with votesReceived := insert response.voterId w.votesReceived }) :=
      quiet_updateVolatile m rfl
    dsimp only
    split
    · exact (acts_becomeLeader _).mono (fun t acts => counted.kept.acts.trans acts) fun _ _ => id
    · exact counted.kept.acts

/-! ## Replication -/

theorem acts_handleAppendEntries (src : ν) (request : AppendEntries ν) :
    (handleAppendEntries C m src request s).Ensures (Acts C n m s) fun _ _ => True := by
  unfold handleAppendEntries
  split
  · exact (quiet_send (by simp)).kept.acts
  dsimp only
  split
  next other =>
    -- A request of a lower term: the receiver did not adopt its term.
    have stays : advanceTerm C m request.term false s = s := by
      by_contra changed
      apply other
      unfold advanceTerm at changed ⊢
      split at changed
      next => exact absurd rfl changed
      next higher =>
        rw [if_neg higher]
        dsimp only
        rw [if_neg (by simp)]
        have adopted : request.term =
            (clearPreVote m (adoptTerm m request.term s)).currentTerm m := by
          simp [clearPreVote, adoptTerm, retire, persistTermAndVote, Cluster.currentTerm,
            Cluster.updateVolatile, Cluster.record, Cluster.updatePersistent]
        split
        · obtain ⟨active, observers, same⟩ := notifyLeaderRetired_eq m (s.currentTerm m)
            (clearPreVote m (adoptTerm m request.term s))
          rw [same]
          exact adopted
        · exact adopted
    rw [stays]
    exact (quiet_answerAppendEntries src request false 0).kept.acts
  next =>
    have adopted := shifts_advanceTerm (C := C) (n := n) (m := m) (s := s) request.term
    generalize advanceTerm C m request.term false s = u at adopted
    have retired := (adopted.trans (shifts_retire (C := C) (m := m))).trans
      (quiet_clearPreVote m).kept.shifts
    have follows : (clearPreVote m (retire m u)).role m ≠ .leader := by
      rw [(quiet_clearPreVote m).role, role_retire]
      simp
    generalize clearPreVote m (retire m u) = v at retired follows
    have noted : Quiet v (if s.role m = .leader ∧ request.term = s.currentTerm m then
        notifyLeaderRetired m (s.currentTerm m) v else v) := by
      split
      · exact quiet_notifyLeaderRetired m _
      · exact .refl v
    have armed := (retired.trans noted.kept.shifts).resets
      (resets_resetElectionTimeout timed (by rw [noted.role]; exact follows))
    generalize resetElectionTimeout C m _ = w at armed
    split
    · exact armed.acts.trans (quiet_answerAppendEntries src request false 0).kept.acts
    · have merged : Quietly w ((mergeEntries m request.prevLogIndex request.entries w).bind
          fun _ s =>
            (if s.commitIndex m < request.leaderCommit then
              advanceNodeCommit m
                (min request.leaderCommit (request.prevLogIndex + request.entries.length)) s
            else .returns () s).bind fun _ s =>
            (assertLogMatching C s).bind fun _ s => .returns () (answerAppendEntries m src
              request true (request.prevLogIndex + request.entries.length) s)) := by
        refine (quietly_mergeEntries _ _).bind fun _ s => Quietly.bind ?_ fun _ s =>
          quietly_assertLogMatching.bind fun _ s => quiet_answerAppendEntries _ _ _ _
        split
        · exact quietly_advanceNodeCommit _
        · exact Quiet.refl s
      exact merged.mono (fun t quiet => armed.acts.trans quiet.kept.acts) fun _ _ => id

theorem acts_handleAppendEntriesResponse (response : AppendEntriesResponse ν) :
    Acts C n m s (handleAppendEntriesResponse C m response s) := by
  unfold handleAppendEntriesResponse
  split
  · split
    · exact acts_advanceTerm timed _
    · exact (Kept.refl s).acts
  · exact (quiet_record _).kept.acts

/-! ## Snapshots -/

theorem acts_handleInstallSnapshotResponse {response : InstallSnapshotResponse ν}
    (leader : response.leaderId = m) :
    Acts C n m s (handleInstallSnapshotResponse C response s) := by
  subst leader
  unfold handleInstallSnapshotResponse
  dsimp only
  split
  · exact (Kept.refl s).acts
  · exact (acts_advanceTerm timed _).trans (quiet_record _).kept.acts

theorem acts_handleInstallSnapshotRequest {request : InstallSnapshotRequest ν}
    (follower : request.followerId = m) :
    (handleInstallSnapshotRequest C request s).Ensures (Acts C n m s) fun _ _ => True := by
  subst follower
  unfold handleInstallSnapshotRequest
  dsimp only
  split
  · exact (quiet_answerInstallSnapshot request false _).kept.acts
  · have adopted := shifts_advanceTerm (C := C) (n := n) (m := request.followerId) (s := s)
      request.term
    have armed := (adopted.trans shifts_retire).resets
      (resets_resetElectionTimeout timed (by rw [role_retire]; simp))
    generalize resetElectionTimeout C request.followerId _ = u at armed
    have installs := (quietly_handleInstall (C := C) (s := u) request).mono
      (fun t quiet => armed.acts.trans quiet.kept.acts) fun _ _ => id
    split
    · split
      · exact armed.acts.trans (quiet_answerInstallSnapshot request true _).kept.acts
      · exact installs
    · exact installs

end Timed

/-! ## Messages -/

/-- Every node of the cluster has an election timeout. -/
def Timed (C : Config ν) : Prop := ∀ m ∈ C.nodeIds, ∃ timeout, C.electionTimeout m = some timeout

variable (timed : Timed C)

include timed

theorem settled_handleMessage {message : Message ν} (valid : validEnvelope C message = true) :
    (handleMessage C message s).Ensures (Settled C n s) fun _ _ => True := by
  have acted : (handleMessage C message s).Ensures (Acts C n message.dst s) fun _ _ => True := by
    unfold validEnvelope at valid
    unfold handleMessage
    dsimp only
    split at valid
    next request payload =>
      simp only [decide_eq_true_eq] at valid
      obtain ⟨_, member, _, follower⟩ := valid
      obtain ⟨timeout, timed⟩ := timed _ member
      rw [payload]
      exact acts_handleInstallSnapshotRequest (follower ▸ timed) follower.symm
    next response payload =>
      simp only [decide_eq_true_eq] at valid
      obtain ⟨_, member, _, leader⟩ := valid
      obtain ⟨timeout, timed⟩ := timed _ member
      rw [payload]
      exact acts_handleInstallSnapshotResponse (leader ▸ timed) leader.symm
    next payload noRequest noResponse =>
      simp only [decide_eq_true_eq] at valid
      obtain ⟨timeout, timed⟩ := timed _ valid.2.1
      cases kind : message.payload with
      | electionTimeout generation deadline => exact acts_handleElectionTimeout timed _ _
      | preVote request => exact (kept_handlePreVote _ request).acts
      | preVoteResponse response => exact acts_handlePreVoteResponse timed response
      | requestVote request => exact acts_handleRequestVote timed _ request
      | requestVoteResponse response => exact acts_handleRequestVoteResponse timed response
      | appendEntries request => exact acts_handleAppendEntries timed _ request
      | appendEntriesResponse response => exact acts_handleAppendEntriesResponse timed response
      | installSnapshotRequest request => exact absurd kind (noRequest request)
      | installSnapshotResponse response => exact absurd kind (noResponse response)
  exact acted.mono (fun t acts => acts.settled) fun _ _ => id

theorem settled_handle (message : Message ν) :
    (Deployment.handle C message s).Ensures (Settled C n s) fun _ _ => True := by
  have recorded : Settled C n s (s.record (.deliver message)) := .inl (quiet_record _).kept
  unfold Deployment.handle
  dsimp only
  split
  next valid =>
    exact (settled_handleMessage timed valid).mono (fun t after => recorded.trans after)
      fun _ _ => id
  next => exact recorded

/-! ## Voting configurations -/

omit timed in
theorem foldl_disable_configuration (nodes : List ν) (s : Cluster ν) :
    (nodes.foldl (fun s m => disableElectionTimeout m s) s).votingConfiguration =
      s.votingConfiguration := by
  induction nodes generalizing s with
  | nil => rfl
  | cons m rest ih => exact (ih _).trans (votingConfiguration_disableElectionTimeout m s)

omit timed in
/-- Nodes that lose their vote lose their timer. -/
theorem foldl_disable (outside : List ν) (nonVoters : ∀ m ∈ outside, isVoter C s m = false) :
    (n ∈ outside → Rearmed C n s (outside.foldl (fun s m => disableElectionTimeout m s) s)) ∧
      (n ∉ outside → Kept C n s (outside.foldl (fun s m => disableElectionTimeout m s) s)) := by
  refine resets_foldl (P := fun u => ∀ m ∈ outside, isVoter C u m = false) nonVoters
    fun m member u nonVoters => ⟨fun other listed => ?_, ?_⟩
  · rw [isVoter_of_votingConfiguration other (votingConfiguration_disableElectionTimeout m u)]
    exact nonVoters other listed
  · exact resets_disableElectionTimeout (nonVoters m member)

omit timed in
theorem resetElectionTimeout_leader (voter : isVoter C s m = true) (leads : s.role m = .leader) :
    resetElectionTimeout C m s = s := by
  unfold resetElectionTimeout
  rw [if_neg (by simp [voter])]
  split
  · rfl
  · rw [if_pos leads]

/-- Nodes that gain their vote get a timer, unless they lead. -/
theorem foldl_reset (added : List ν) (members : ∀ m ∈ added, m ∈ C.nodeIds)
    (voters : ∀ m ∈ added, isVoter C s m = true) :
    (n ∈ added → Waits C n s →
      Rearmed C n s (added.foldl (fun s m => resetElectionTimeout C m s) s)) ∧
      ((n ∈ added → ¬ Waits C n s) →
        Kept C n s (added.foldl (fun s m => resetElectionTimeout C m s) s)) := by
  induction added generalizing s with
  | nil => exact ⟨fun member => absurd member List.not_mem_nil, fun _ => .refl s⟩
  | cons m rest ih =>
      obtain ⟨timeout, timer⟩ := timed m (members m List.mem_cons_self)
      have configuration := votingConfiguration_resetElectionTimeout (C := C) m s
      obtain ⟨armed, kept⟩ := ih (s := resetElectionTimeout C m s)
        (fun other member => members other (List.mem_cons_of_mem _ member)) fun other member => by
        rw [isVoter_of_votingConfiguration other configuration]
        exact voters other (List.mem_cons_of_mem _ member)
      rw [List.foldl_cons]
      by_cases same : n = m
      · subst same
        refine ⟨fun _ waits => ?_, fun idle => ?_⟩
        · have first := (resets_resetElectionTimeout (n := n) timer waits.2).rearms rfl
          by_cases again : n ∈ rest ∧ Waits C n (resetElectionTimeout C n s)
          · exact first.toTouched.rearmed (armed again.1 again.2)
          · exact first.kept (kept fun member waits => again ⟨member, waits⟩)
        · have leads : s.role n = .leader := by
            by_contra follows
            exact idle List.mem_cons_self ⟨voters n List.mem_cons_self, follows⟩
          rw [resetElectionTimeout_leader (voters n List.mem_cons_self) leads] at kept ⊢
          exact kept fun _ => idle List.mem_cons_self
      · have first := (acts_resetElectionTimeout (n := n) timer (s := s)).others same
        refine ⟨fun member waits => ?_, fun idle => ?_⟩
        · have later : n ∈ rest := (List.mem_cons.mp member).resolve_left same
          exact first.toTouched.rearmed (armed later (first.waits.mpr waits))
        · refine first.trans (kept fun member waits => ?_)
          exact idle (List.mem_cons_of_mem _ member) (first.waits.mp waits)

omit timed [LinearOrder ν] in
/-- The nodes of a reconfigurable cluster vote by the configuration. -/
theorem mem_ascending [LinearOrder ν] {voters : Finset ν} :
    m ∈ ascending C voters ↔ m ∈ C.nodeIds ∧ m ∈ voters := by
  unfold ascending
  rw [List.mem_insertionSort, List.mem_filter, decide_eq_true_eq]

/-- **The activation of a configuration** settles every timer. -/
theorem settled_installVotingConfiguration {bootstrap : Finset ν}
    (kind : C.kind = .reconfigurable bootstrap) (member : n ∈ C.nodeIds)
    (configuration : VotingConfiguration ν) :
    Settled C n s (installVotingConfiguration C configuration s) := by
  have votes : ∀ (u : Cluster ν) (m : ν),
      isVoter C u m = decide (m ∈ u.votingConfiguration.voters) := by
    intro u m
    unfold isVoter
    rw [kind]
  unfold installVotingConfiguration
  dsimp only
  set before := s.votingConfiguration.voters
  set u : Cluster ν := { s with votingConfiguration := configuration }
  have touched : Touched n s u := .of_same rfl rfl rfl
  obtain ⟨disabled, spared⟩ := foldl_disable (C := C) (n := n) (s := u)
    (ascending C (before \ configuration.voters)) fun m listed => by
      rw [votes]
      simpa using (Finset.mem_sdiff.mp (mem_ascending.mp listed).2).2
  have still := foldl_disable_configuration (ascending C (before \ configuration.voters)) u
  generalize (ascending C (before \ configuration.voters)).foldl
    (fun s m => disableElectionTimeout m s) u = v at disabled spared still
  obtain ⟨armed, kept⟩ := foldl_reset timed (n := n) (s := v)
    (ascending C (configuration.voters \ before))
    (fun m listed => (mem_ascending.mp listed).1) fun m listed => by
      rw [votes, still]
      simpa using (Finset.mem_sdiff.mp (mem_ascending.mp listed).2).1
  by_cases removed : n ∈ ascending C (before \ configuration.voters)
  · have stays : n ∉ ascending C (configuration.voters \ before) := fun added =>
      (Finset.mem_sdiff.mp (mem_ascending.mp removed).2).2
        (Finset.mem_sdiff.mp (mem_ascending.mp added).2).1
    exact .inr ((touched.rearmed (disabled removed)).kept (kept fun added => absurd added stays))
  · have unspoiled := spared removed
    by_cases waiting : n ∈ ascending C (configuration.voters \ before) ∧ Waits C n v
    · exact .inr ((touched.trans unspoiled.toTouched).rearmed (armed waiting.1 waiting.2))
    · -- The node votes as before, or leads.
      have same : Waits C n u ↔ Waits C n s := by
        by_cases added : n ∈ ascending C (configuration.voters \ before)
        · have idle : ¬ Waits C n u := fun waits =>
            waiting ⟨added, unspoiled.waits.mpr waits⟩
          have outside : ¬ Waits C n s := fun waits => by
            have voter : n ∈ before := by simpa [votes] using waits.1
            exact (Finset.mem_sdiff.mp (mem_ascending.mp added).2).2 voter
          exact iff_of_false idle outside
        · have equal : n ∈ configuration.voters ↔ n ∈ before := by
            rw [mem_ascending, Finset.mem_sdiff] at removed added
            tauto
          rw [Waits, Waits, votes, votes]
          exact and_congr (by simpa [u] using equal) Iff.rfl
      have changed : Kept C n s u := ⟨touched, rfl, rfl, same⟩
      exact .inl ((changed.trans unspoiled).trans (kept fun added waits => waiting ⟨added, waits⟩))

end Distlab.Raft
