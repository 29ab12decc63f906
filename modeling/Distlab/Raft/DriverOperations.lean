import Distlab.Raft.LogOperations

/-!
# Driver operations are moves

Membership, replicators, transitions and checkpoints.
-/

set_option autoImplicit false

namespace Distlab.Raft

open Foundations

variable {ν : Type} [LinearOrder ν] {C : Config ν} {U : Licence ν}

/-! ## Membership -/

/-- The replicator's leader leads in a term. -/
def Served (s : Cluster ν) (r : LeaderReplicator ν) (term : ℕ) : Prop :=
  s.role r.leader = .leader ∧ s.currentTerm r.leader = term ∧ r ∈ s.replicators

theorem role_disableElectionTimeout_of_leader {n m : ν} {s : Cluster ν}
    (leads : s.role m = .leader) : (disableElectionTimeout n s).role m = .leader := by
  unfold disableElectionTimeout
  dsimp only
  have kept : (if ((s.updateTimer n fun t => { t with generation := t.generation + 1 }).volatile
        n).preVoteTerm.isSome then
      clearPreVote n (s.updateTimer n fun t => { t with generation := t.generation + 1 })
      else s.updateTimer n fun t => { t with generation := t.generation + 1 }).role m =
      .leader := by
    split
    · by_cases same : m = n
      · subst same
        simpa [clearPreVote, Cluster.updateVolatile, Cluster.updateTimer, Cluster.role] using leads
      · simpa [clearPreVote, Cluster.updateVolatile, Cluster.updateTimer, Cluster.role, same]
          using leads
    · exact leads
  generalize (if ((s.updateTimer n fun t => { t with generation := t.generation + 1 }).volatile
      n).preVoteTerm.isSome then
    clearPreVote n (s.updateTimer n fun t => { t with generation := t.generation + 1 })
    else s.updateTimer n fun t => { t with generation := t.generation + 1 }) = s₁ at *
  split
  · next candidate =>
    have other : m ≠ n := by
      rintro rfl
      rw [kept] at candidate
      cases candidate
    simpa [retire, Cluster.updateVolatile, Cluster.role, other] using kept
  · exact kept

theorem role_resetElectionTimeout_of_leader {n m : ν} {s : Cluster ν}
    (leads : s.role m = .leader) : (resetElectionTimeout C n s).role m = .leader := by
  unfold resetElectionTimeout
  split
  · exact role_disableElectionTimeout_of_leader leads
  · split
    · exact leads
    · split <;> exact leads

@[simp] theorem replicators_disableElectionTimeout (n : ν) (s : Cluster ν) :
    (disableElectionTimeout n s).replicators = s.replicators := by
  unfold disableElectionTimeout
  dsimp only
  split <;> split <;> rfl

@[simp] theorem replicators_resetElectionTimeout (n : ν) (s : Cluster ν) :
    (resetElectionTimeout C n s).replicators = s.replicators := by
  unfold resetElectionTimeout
  split
  · exact replicators_disableElectionTimeout n s
  · split
    · rfl
    · split <;> rfl

theorem Served.resetElectionTimeout {r : LeaderReplicator ν} {n : ν} {term : ℕ} {s : Cluster ν}
    (served : Served s r term) : Served (resetElectionTimeout C n s) r term := by
  obtain ⟨leads, current, member⟩ := served
  refine ⟨role_resetElectionTimeout_of_leader leads, ?_, ?_⟩
  · rw [Cluster.currentTerm, persistent_resetElectionTimeout]
    exact current
  · rwa [replicators_resetElectionTimeout]

theorem Served.disableElectionTimeout {r : LeaderReplicator ν} {n : ν} {term : ℕ} {s : Cluster ν}
    (served : Served s r term) : Served (disableElectionTimeout n s) r term := by
  obtain ⟨leads, current, member⟩ := served
  refine ⟨role_disableElectionTimeout_of_leader leads, ?_, ?_⟩
  · rw [Cluster.currentTerm, persistent_disableElectionTimeout]
    exact current
  · rwa [replicators_disableElectionTimeout]

/-- A fold of moves that each keep `P`. -/
theorem moves_foldl {ι : Type} {f : Cluster ν → ι → Cluster ν} {P : Cluster ν → Prop}
    (keeps : ∀ s item, P s → Moves C U s (f s item) ∧ P (f s item)) (items : List ι)
    {s : Cluster ν} (holds : P s) : Moves C U s (items.foldl f s) ∧ P (items.foldl f s) := by
  induction items generalizing s with
  | nil => exact ⟨.refl s, holds⟩
  | cons item rest ih =>
      obtain ⟨moves, kept⟩ := keeps s item holds
      obtain ⟨rest_moves, rest_kept⟩ := ih kept
      exact ⟨moves.trans rest_moves, rest_kept⟩

/-- The configuration becomes active, and the timers follow it. -/
theorem moves_installVotingConfiguration {r : LeaderReplicator ν} {leader : ν} {index term : ℕ}
    {command : Command ν} {next : VotingConfiguration ν} {s : Cluster ν}
    (committed : CommittedMembership s leader index command)
    (activates : Activates C s.votingConfiguration leader command next)
    (served : Served s r term) :
    Moves C U s (installVotingConfiguration C next s) ∧
      Served (installVotingConfiguration C next s) r term := by
  unfold installVotingConfiguration
  have activate : Moves C U s { s with votingConfiguration := next } :=
    .one (.activate leader index command next committed activates)
  have served' : Served { s with votingConfiguration := next } r term := served
  obtain ⟨removed, served₁⟩ := moves_foldl (C := C) (U := U)
    (f := fun s n => disableElectionTimeout n s)
    (P := fun s => Served s r term)
    (fun s n served => ⟨moves_disableElectionTimeout n s, served.disableElectionTimeout⟩)
    (ascending C (s.votingConfiguration.voters \ next.voters)) served'
  obtain ⟨added, served₂⟩ := moves_foldl (C := C) (U := U)
    (f := fun s n => Raft.resetElectionTimeout C n s)
    (P := fun s => Served s r term)
    (fun s n served => ⟨moves_resetElectionTimeout n s, served.resetElectionTimeout⟩)
    (ascending C (next.voters \ s.votingConfiguration.voters)) served₁
  exact ⟨activate.trans (removed.trans added), served₂⟩

/-- What the installation of committed membership keeps. -/
def Serves (C : Config ν) (U : Licence ν) (s : Cluster ν) (r : LeaderReplicator ν) (term : ℕ)
    {β : Type} (operation : Op ν β) : Prop :=
  operation.Ensures (fun s' => Moves C U s s' ∧ Served s' r term) (Guarded C)

theorem serves_beginJointConsensus {r : LeaderReplicator ν} {leader : ν} {newVoters : Finset ν}
    {index term : ℕ} {s : Cluster ν}
    (committed : CommittedMembership s leader index (.jointConsensus newVoters))
    (served : Served s r term) :
    Serves C U s r term (beginJointConsensus C leader newVoters s) := by
  unfold beginJointConsensus
  split
  · exact ⟨⟨.refl s, served⟩, trivial⟩
  split
  · exact ⟨⟨.refl s, served⟩, trivial⟩
  next stable =>
  split
  · exact ⟨⟨.refl s, served⟩, trivial⟩
  next known =>
    rw [not_or, not_not] at known
    have activates : Activates C s.votingConfiguration leader (.jointConsensus newVoters)
        ⟨s.votingConfiguration.oldVoters, some newVoters⟩ := by
      refine ⟨?_, known.1, known.2, rfl⟩
      simpa [VotingConfiguration.isJoint] using stable
    obtain ⟨moves, served'⟩ := moves_installVotingConfiguration (U := U) committed activates served
    refine ⟨moves.trans (moves_record ?_), served'⟩
    trivial

theorem serves_finalizeMembership {r : LeaderReplicator ν} {leader : ν} {voters : Finset ν}
    {index term : ℕ} {s : Cluster ν}
    (committed : CommittedMembership s leader index (.stableConsensus voters))
    (active : s.votingConfiguration.newVoters = some voters)
    (served : Served s r term) :
    Serves C U s r term (finalizeMembership C leader s) := by
  unfold finalizeMembership
  split
  · exact ⟨⟨.refl s, served⟩, trivial⟩
  rw [active]
  dsimp only
  split
  · exact ⟨⟨.refl s, served⟩, trivial⟩
  next belongs =>
    rw [not_not] at belongs
    have activates : Activates C s.votingConfiguration leader (.stableConsensus voters)
        ⟨voters, none⟩ := ⟨active, belongs, rfl⟩
    obtain ⟨moves, served'⟩ := moves_installVotingConfiguration (U := U) committed activates served
    refine ⟨moves.trans (moves_record ?_), served'⟩
    trivial

theorem serves_installCommittedMembership {r : LeaderReplicator ν} {leader : ν}
    {command : Command ν} {index term : ℕ} {s : Cluster ν}
    (committed : CommittedMembership s leader index command)
    (served : Served s r term) :
    Serves C U s r term (installCommittedMembership C leader command s) := by
  have returned : Serves C U s r term (Outcome.returns () s : Op ν Unit) :=
    ⟨.refl s, served⟩
  have raised : Serves C U s r term
      (Outcome.raises (.membershipChange leader) s : Op ν Unit) :=
    ⟨⟨.refl s, served⟩, trivial⟩
  unfold installCommittedMembership
  split
  · split
    · exact raised
    · exact returned
  · exact serves_beginJointConsensus committed served
  · split
    · exact raised
    · exact returned
  · next voters new active =>
    split
    · exact raised
    · next same =>
      rw [not_or, not_not] at same
      exact serves_finalizeMembership committed (same.1 ▸ active) served
  · exact returned

/-- The watermark changes neither a log nor who leads. -/
theorem committedMembership_watermark {leader n : ν} {command : Command ν} {index value : ℕ}
    {s : Cluster ν} (committed : CommittedMembership s leader index command) :
    CommittedMembership (s.updatePersistent n fun p => { p with membershipCommitIndex := value })
      leader index command := by
  obtain ⟨isMembership, leads, found, replicator⟩ := committed
  refine ⟨isMembership, leads, ?_, replicator⟩
  by_cases same : leader = n
  · subst same
    simpa [Cluster.logView, Cluster.updatePersistent] using found
  · simpa [Cluster.logView, Cluster.updatePersistent, same] using found

theorem served_watermark {r : LeaderReplicator ν} {n : ν} {term value : ℕ} {s : Cluster ν}
    (served : Served s r term) :
    Served (s.updatePersistent n fun p => { p with membershipCommitIndex := value }) r term := by
  obtain ⟨leads, current, member⟩ := served
  refine ⟨leads, ?_, member⟩
  by_cases same : r.leader = n
  · subst same
    simpa [Cluster.currentTerm, Cluster.updatePersistent] using current
  · simpa [Cluster.currentTerm, Cluster.updatePersistent, same] using current

theorem moves_persistMembershipCommitWatermark {r : LeaderReplicator ν} {leader : ν}
    {command : Command ν} {index term : ℕ} {s : Cluster ν}
    (committed : CommittedMembership s leader index command)
    (served : Served s r term) :
    Moves C U s (persistMembershipCommitWatermark C index command s) ∧
      CommittedMembership (persistMembershipCommitWatermark C index command s) leader index
        command ∧
      Served (persistMembershipCommitWatermark C index command s) r term := by
  unfold persistMembershipCommitWatermark
  refine moves_foldl (P := fun s => CommittedMembership s leader index command ∧
    Served s r term) (fun s n kept => ?_) C.nodeIds ⟨committed, served⟩
  split
  · next holds =>
    refine ⟨.one (.watermark leader index command n kept.1 holds), ?_, ?_⟩
    · exact committedMembership_watermark kept.1
    · exact served_watermark kept.2
  · exact ⟨.refl s, kept⟩

theorem serves_persistCommittedMembership {r : LeaderReplicator ν} {term : ℕ} {s : Cluster ν}
    (served : Served s r term) :
    Serves C U s r term (persistCommittedMembership C r.leader r.commitIndex s) := by
  unfold persistCommittedMembership
  refine Outcome.ensures_forEach (fun index covered s' kept => ?_) s ⟨.refl s, served⟩
  obtain ⟨moves, served'⟩ := kept
  have within : index ≤ r.commitIndex := by
    have range := List.mem_range'_1.mp covered
    omega
  split
  · exact ⟨⟨moves, served'⟩, trivial⟩
  next entry found =>
  split
  · next isMembership =>
    have committed : CommittedMembership s' r.leader index entry.command :=
      ⟨isMembership, served'.1, by rw [found]; rfl, r, served'.2.2, rfl, within⟩
    obtain ⟨persists, committed', served''⟩ :=
      moves_persistMembershipCommitWatermark (C := C) (U := U) committed served'
    exact (serves_installCommittedMembership committed' served'').mono
      (fun s'' after => ⟨moves.trans (persists.trans after.1), after.2⟩) fun _ _ => id
  · exact ⟨moves, served'⟩

/-! ## Replicators -/

theorem runs_requireCurrentLeader (r : LeaderReplicator ν) (s : Cluster ν) :
    Runs C U s (requireCurrentLeader r s) := by
  unfold requireCurrentLeader
  split
  · exact .raises (.refl s) trivial
  · exact .returns (.refl s)

omit [LinearOrder ν] in
theorem requireCurrentLeader_returns {r : LeaderReplicator ν} {s s' : Cluster ν}
    (returned : requireCurrentLeader r s = .returns () s') : s' = s ∧ r.Current s := by
  unfold requireCurrentLeader at returned
  split at returned
  · cases returned
  · next current =>
    cases returned
    rw [not_or, not_or, not_not, not_not] at current
    exact ⟨rfl, current.2.1, not_not.mp current.2.2⟩

theorem runs_newReplicator {leader : ν} {snapshotTransport membershipAware : Bool}
    {s : Cluster ν} :
    Runs C U s (newReplicator C leader snapshotTransport membershipAware s) := by
  unfold newReplicator
  split
  · exact .raises (.refl s) trivial
  next member =>
    rw [not_not] at member
    refine (runs_requireCurrentLeader _ s).bind fun _ s' returned _ => ?_
    obtain ⟨rfl, current⟩ := requireCurrentLeader_returns returned
    exact .returns (.one (.newReplicator _ member current rfl fun _ => rfl))

/-- A replicator keeps its place, its leader and its term. -/
theorem Move.replicator {s s' : Cluster ν} (move : Move C U s s') {i : ℕ}
    {r : LeaderReplicator ν} (found : s.replicators[i]? = some r) :
    ∃ r', s'.replicators[i]? = some r' ∧ r'.leader = r.leader ∧ r'.term = r.term ∧
      r'.membershipAware = r.membershipAware := by
  have same : s'.replicators = s.replicators →
      ∃ r', s'.replicators[i]? = some r' ∧ r'.leader = r.leader ∧ r'.term = r.term ∧
        r'.membershipAware = r.membershipAware :=
    fun same => ⟨r, same ▸ found, rfl, rfl, rfl⟩
  have modified : ∀ j f, s'.replicators = s.replicators.modify j f →
      (∀ r : LeaderReplicator ν, (f r).leader = r.leader ∧ (f r).term = r.term ∧
        (f r).membershipAware = r.membershipAware) →
      ∃ r', s'.replicators[i]? = some r' ∧ r'.leader = r.leader ∧ r'.term = r.term ∧
        r'.membershipAware = r.membershipAware := by
    intro j f replicators keeps
    rw [replicators, List.getElem?_modify, found]
    by_cases here : j = i
    · exact ⟨f r, by simp [here], keeps r⟩
    · exact ⟨r, by simp [here], rfl, rfl, rfl⟩
  cases move with
  | housekeeping core_same =>
      have replicators : (core s').replicators = (core s).replicators := by rw [core_same]
      exact same replicators
  | newReplicator r' =>
      refine ⟨r, ?_, rfl, rfl, rfl⟩
      exact (List.getElem?_append_left (List.getElem?_eq_some_iff.mp found).1).trans found
  | probe j f keeps => exact modified j f rfl fun r =>
      ⟨(keeps r).1, (keeps r).2.1, (keeps r).2.2.2.1⟩
  | acknowledge j => exact modified j _ rfl fun r => ⟨rfl, rfl, rfl⟩
  | advanceCommit j => exact modified j _ rfl fun r => ⟨rfl, rfl, rfl⟩
  | _ => exact same rfl

theorem Moves.replicator {s s' : Cluster ν} (moves : Moves C U s s') {i : ℕ}
    {r : LeaderReplicator ν} (found : s.replicators[i]? = some r) :
    ∃ r', s'.replicators[i]? = some r' ∧ r'.leader = r.leader ∧ r'.term = r.term ∧
      r'.membershipAware = r.membershipAware := by
  refine moves.invariant (P := fun s' => ∃ r', s'.replicators[i]? = some r' ∧
    r'.leader = r.leader ∧ r'.term = r.term ∧ r'.membershipAware = r.membershipAware)
    (fun s₁ s₂ move ⟨r₁, found₁, leader, term, aware⟩ => ?_) ⟨r, found, rfl, rfl, rfl⟩
  obtain ⟨r₂, found₂, leader', term', aware'⟩ := move.replicator found₁
  exact ⟨r₂, found₂, leader'.trans leader, term'.trans term, aware'.trans aware⟩

/-- A write of one node's durable state compacts its log further, or not at all. -/
theorem baseIndex_le_update (persistent : ν → Persistent ν) (m : ν) {p : Persistent ν}
    (grows : (persistent m).log.baseIndex ≤ p.log.baseIndex) (n : ν) :
    (persistent n).log.baseIndex ≤ (Function.update persistent m p n).log.baseIndex := by
  by_cases same : n = m
  · subst same
    rwa [Function.update_self]
  · rw [Function.update_of_ne same]

/-- A log is compacted further, never less. -/
theorem Move.baseIndex_le {s s' : Cluster ν} (move : Move C U s s') (n : ν) :
    (s.logView n).baseIndex ≤ (s'.logView n).baseIndex := by
  have same : s'.persistent = s.persistent → (s.logView n).baseIndex ≤ (s'.logView n).baseIndex :=
    fun same => by rw [Cluster.logView, Cluster.logView, same]
  cases move with
  | housekeeping core_same =>
      have persistent : (core s').persistent = (core s).persistent := by rw [core_same]
      exact same persistent
  | advanceTerm m | stand m =>
      refine baseIndex_le_update s.persistent m ?_ n
      exact le_rfl
  | grant message =>
      refine baseIndex_le_update s.persistent message.dst ?_ n
      exact le_rfl
  | append m =>
      refine baseIndex_le_update s.persistent m ?_ n
      exact le_rfl
  | merge message =>
      refine baseIndex_le_update s.persistent message.dst ?_ n
      exact le_rfl
  | apply m | createSnapshot m | compactApplied m =>
      refine baseIndex_le_update s.persistent m ?_ n
      exact le_rfl
  | compactLog m snapshot member latest boundary term =>
      refine baseIndex_le_update s.persistent m ?_ n
      exact RaftLogView.baseIndex_le_compactThrough term
  | install message request suffix arrived payload term follows newer beyond =>
      refine baseIndex_le_update s.persistent message.dst ?_ n
      exact beyond
  | installOwn m snapshot suffix unrestricted beyond =>
      refine baseIndex_le_update s.persistent m ?_ n
      exact beyond
  | watermark leader index command m =>
      refine baseIndex_le_update s.persistent m ?_ n
      exact le_rfl
  | _ => exact same rfl

theorem Moves.baseIndex_le {s s' : Cluster ν} (moves : Moves C U s s') (n : ν) :
    (s.logView n).baseIndex ≤ (s'.logView n).baseIndex :=
  moves.invariant (P := fun s' => (s.logView n).baseIndex ≤ (s'.logView n).baseIndex)
    (fun _ _ move below => below.trans (move.baseIndex_le n)) le_rfl

/-! ## The commit rule -/

theorem commitConfiguration_error {r : LeaderReplicator ν} {index : ℕ} {s : Cluster ν}
    {violation : Error ν} (failed : commitConfiguration C r index s = .error violation) :
    violation = .membershipChange r.leader := by
  unfold commitConfiguration at failed
  dsimp only at failed
  split at failed
  · cases failed
  · split at failed
    · cases failed
      rfl
    split at failed <;> cases failed
    rfl
  · split at failed
    · cases failed
      rfl
    split at failed <;> cases failed
    rfl
  · cases failed
    rfl

theorem commitQuorum_error {r : LeaderReplicator ν} {index : ℕ} {s : Cluster ν}
    {violation : Error ν} (failed : commitQuorum C r index s = .error violation) :
    violation = .membershipChange r.leader := by
  unfold commitQuorum at failed
  split at failed
  · cases configuration : commitConfiguration C r index s with
    | error violation' =>
        rw [configuration] at failed
        cases failed
        exact commitConfiguration_error configuration
    | ok active =>
        rw [configuration] at failed
        cases failed
  · cases failed

theorem commitScan_error {r : LeaderReplicator ν} {s : Cluster ν} {indexes : List ℕ}
    {violation : Error ν} (failed : commitScan C r s indexes = .error violation) :
    violation = .membershipChange r.leader := by
  induction indexes with
  | nil => cases failed
  | cons index rest ih =>
      rw [commitScan] at failed
      split at failed
      · exact ih failed
      cases quorum : commitQuorum C r index s with
      | error violation' =>
          rw [quorum] at failed
          cases failed
          exact commitQuorum_error quorum
      | ok enough =>
          simp only [quorum, bind, Except.bind] at failed
          split at failed
          · cases failed
          · exact ih failed

/-- The scan finds an index of the replicator's term with a quorum. -/
theorem commitScan_found {r : LeaderReplicator ν} {s : Cluster ν} {indexes : List ℕ} {index : ℕ}
    (found : commitScan C r s indexes = .ok (some index)) :
    index ∈ indexes ∧ (s.logView r.leader).termAt index = some r.term ∧
      commitQuorum C r index s = .ok true := by
  induction indexes with
  | nil => cases found
  | cons first rest ih =>
      rw [commitScan] at found
      split at found
      · obtain ⟨member, facts⟩ := ih found
        exact ⟨List.mem_cons_of_mem _ member, facts⟩
      next term =>
      cases quorum : commitQuorum C r first s with
      | error violation =>
          rw [quorum] at found
          cases found
      | ok enough =>
          simp only [quorum, bind, Except.bind] at found
          split at found
          · next enough =>
            cases found
            subst enough
            exact ⟨List.mem_cons_self, not_not.mp term, quorum⟩
          · obtain ⟨member, facts⟩ := ih found
            exact ⟨List.mem_cons_of_mem _ member, facts⟩

omit [LinearOrder ν] in
/-- The indexes that are scanned are retained and above the replicator's commit index. -/
theorem of_mem_commitCandidates {r : LeaderReplicator ν} {s : Cluster ν} {index : ℕ}
    (member : index ∈ commitCandidates r s) :
    max r.commitIndex (s.logView r.leader).baseIndex < index ∧
      index ≤ (s.logView r.leader).lastIndex := by
  unfold commitCandidates at member
  have range := List.mem_range'_1.mp (List.mem_reverse.mp member)
  omega

theorem runs_advanceCommitIndex (i : ℕ) (s : Cluster ν) :
    Runs C U s (advanceCommitIndex C i s) := by
  unfold advanceCommitIndex
  split
  · exact .returns (.refl s)
  next r found =>
  refine (runs_requireCurrentLeader r s).bind fun _ s' returned _ => ?_
  obtain ⟨rfl, current⟩ := requireCurrentLeader_returns returned
  split
  · next violation failed =>
    obtain rfl := commitScan_error failed
    exact .raises (.refl s') trivial
  · exact .returns (.refl s')
  next index scanned =>
    obtain ⟨candidate, term, quorum⟩ := commitScan_found scanned
    obtain ⟨beyond, within⟩ := of_mem_commitCandidates candidate
    refine Moves.after (.one (.advanceCommit i r index found current beyond within term quorum)) ?_
    let r' : LeaderReplicator ν := { r with commitIndex := index }
    have served : Served (s'.updateReplicator i fun r => { r with commitIndex := index }) r'
        r.term := by
      refine ⟨current.1, current.2, List.mem_of_getElem? (i := i) ?_⟩
      simp [Cluster.updateReplicator, found, r']
    generalize (s'.updateReplicator i fun r => { r with commitIndex := index }) = s₁ at *
    have commits : Serves C U s₁ r' r.term (advanceNodeCommit r.leader index s₁) := by
      have reason : CommitReason C s₁ r.leader index :=
        .replicator r' served.2.2 rfl ⟨served.1, served.2.1⟩ le_rfl
      have runs : Runs C U s₁ (advanceNodeCommit r.leader index s₁) :=
        runs_advanceNodeCommit reason
      cases outcome : advanceNodeCommit r.leader index s₁ with
      | returns _ s₂ =>
          rw [outcome] at runs
          refine ⟨runs, ?_⟩
          obtain rfl | rfl := advanceNodeCommit_returns outcome
          · exact served
          · obtain ⟨leads, rest⟩ := served
            refine ⟨?_, rest⟩
            have leads' : (s₁.volatile r.leader).role = .leader := leads
            change ((s₁.updateVolatile r.leader _).volatile r.leader).role = _
            simpa [Cluster.updateVolatile] using leads'
      | raises violation s₂ =>
          rw [outcome] at runs
          unfold advanceNodeCommit at outcome
          split at outcome
          · cases outcome
            exact ⟨⟨runs.1, served⟩, runs.2⟩
          · split at outcome <;> cases outcome
    refine Outcome.Ensures.bind commits (fun _ s₂ _ kept => ?_) fun _ kept => kept.1
    have persists : Serves C U s₂ r' r.term
        (if usesConfiguration C r then persistCommittedMembership C r.leader index s₂
          else .returns () s₂) := by
      split
      · exact serves_persistCommittedMembership kept.2
      · exact ⟨.refl s₂, kept.2⟩
    refine kept.1.after ?_
    refine Outcome.Ensures.bind persists (fun _ s₃ _ kept' => ?_) fun _ kept' => kept'.1
    obtain ⟨moves, leads, current', member⟩ := kept'
    exact moves.trans (moves_record ⟨r', member, rfl, rfl, ⟨leads, current'⟩, le_rfl⟩)

/-! ## Replication -/

/-- The record that answers a probe. -/
theorem matchingAppendResponse_record {r : LeaderReplicator ν} {probe : AppendProbe ν}
    {records : List (TraceRecord ν)} {success : Bool} {matchIndex : ℕ}
    (found : matchingAppendResponse r probe records = some (success, matchIndex)) :
    .appendResponse r.leader probe.peer r.term success matchIndex ∈ records := by
  obtain ⟨index, _, answers⟩ := List.exists_of_findSome?_eq_some found
  unfold appendResponseAt at answers
  split at answers
  · next leader follower term success' matchIndex' record =>
    split at answers
    · next checks =>
      cases answers
      obtain ⟨rfl, rfl, rfl, -⟩ := checks
      exact List.mem_of_getElem? record
    · cases answers
  · cases answers

/-- The record that answers a snapshot request. -/
theorem matchingSnapshotResponse_record {r : LeaderReplicator ν} {peer : ν}
    {traceStart includedIndex requestId matchIndex : ℕ} {records : List (TraceRecord ν)}
    (found : matchingSnapshotResponse r peer traceStart includedIndex requestId records =
      some (true, matchIndex)) :
    ∃ response : InstallSnapshotResponse ν, .installSnapshotResponse response ∈ records ∧
      response.leaderId = r.leader ∧ response.followerId = peer ∧ response.term = r.term ∧
      response.success = true ∧ response.lastIncludedIndex = matchIndex ∧
      response.requestedLastIncludedIndex = includedIndex := by
  obtain ⟨record, member, answers⟩ := List.exists_of_findSome?_eq_some found
  have recorded : record ∈ records := List.mem_of_mem_drop (List.mem_reverse.mp member)
  cases record with
  | installSnapshotResponse response =>
      rw [snapshotResponseOf] at answers
      split at answers
      · next checks =>
        obtain ⟨success, reached⟩ := Prod.mk.inj (Option.some.inj answers)
        exact ⟨response, recorded, checks.1, checks.2.1, checks.2.2.1, success, reached,
          checks.2.2.2.1⟩
      · cases answers
  | _ => cases answers

theorem runs_acknowledgePeer {i : ℕ} {r : LeaderReplicator ν} {peer : ν} {matchIndex : ℕ}
    {s : Cluster ν} (found : s.replicators[i]? = some r)
    (evidence : MatchEvidence s r peer matchIndex) :
    Runs C U s (acknowledgePeer C i peer matchIndex s) := by
  unfold acknowledgePeer
  refine Moves.after (.one (.acknowledge i r peer matchIndex found evidence)) ?_
  exact (runs_advanceCommitIndex i _).bind fun _ s' _ _ => .returns (.refl s')

omit [LinearOrder ν] in
theorem MatchEvidence.of_same {s : Cluster ν} {r r' : LeaderReplicator ν} {peer : ν}
    {matchIndex : ℕ} (evidence : MatchEvidence s r peer matchIndex) (leader : r'.leader = r.leader)
    (term : r'.term = r.term) : MatchEvidence s r' peer matchIndex := by
  unfold MatchEvidence
  rw [leader, term]
  exact evidence

theorem moves_probe {i : ℕ} {f : LeaderReplicator ν → LeaderReplicator ν} {s : Cluster ν}
    (keeps : ∀ r, (f r).leader = r.leader ∧ (f r).term = r.term ∧
      (f r).commitIndex = r.commitIndex ∧ (f r).membershipAware = r.membershipAware ∧
      ∀ peer, ((f r).progress peer).matchIndex = (r.progress peer).matchIndex) :
    Moves C U s (s.updateReplicator i f) := .one (.probe i f keeps)

theorem moves_backtrackPeer (i : ℕ) (peer : ν) (s : Cluster ν) :
    Moves C U s (backtrackPeer i peer s) := by
  refine moves_probe fun r => ⟨rfl, rfl, rfl, rfl, fun other => ?_⟩
  by_cases same : other = peer
  · subst same
    simp
  · simp [same]

theorem runs_replicateSnapshot {i : ℕ} {r : LeaderReplicator ν} {peer : ν}
    {deliveries : List Delivery} {s : Cluster ν} (found : s.replicators[i]? = some r) :
    Runs C U s (replicateSnapshot C i r peer deliveries s) := by
  unfold replicateSnapshot
  dsimp only
  split
  · exact .raises (.refl s) trivial
  next snapshot _ =>
  split
  · exact .raises (.refl s) trivial
  next boundary =>
  simp only [not_or, not_not] at boundary
  generalize max r.snapshotRequestId (snapshotRequestIdFloor r s.trace) + 1 = requestId
  have number : Moves C U s
      (s.updateReplicator i fun r => { r with snapshotRequestId := requestId }) :=
    moves_probe fun r => ⟨rfl, rfl, rfl, rfl, fun _ => rfl⟩
  have ask : Moves C U s ((s.updateReplicator i fun r =>
      { r with snapshotRequestId := requestId }).record
        (.replicationSnapshot r.leader peer r.term requestId)) :=
    number.trans (moves_record (by trivial))
  refine ask.after (runs_sendInstallSnapshot.bind fun _ s₁ _ sent => ?_)
  refine (runs_simulate deliveries s₁).bind fun _ s₂ _ delivered => ?_
  obtain ⟨r', found', leader, term, -⟩ := ((ask.trans sent).trans delivered).replicator found
  split
  · exact .raises (.refl s₂) trivial
  split
  · exact .raises (.refl s₂) trivial
  · exact .returns (.refl s₂)
  next matchIndex answered =>
    obtain ⟨response, recorded, own, peers, term', success, reached, requested⟩ :=
      matchingSnapshotResponse_record answered
    have compacted := ((ask.trans sent).trans delivered).baseIndex_le r.leader
    have evidence : MatchEvidence s₂ r peer matchIndex :=
      .inr ⟨response, recorded, own, peers, term', success, reached, by
        rw [requested, boundary.2.1]
        exact compacted⟩
    exact runs_acknowledgePeer found' (evidence.of_same leader term)

omit [LinearOrder ν] in
/-- The entries of a probe are the leader's. -/
theorem agrees_suffixFrom {view : RaftLogView (Command ν)} {nextIndex prevLogTerm : ℕ}
    {a : AppendEntries ν} (retained : view.baseIndex < nextIndex)
    (prev : a.prevLogIndex = nextIndex - 1) (entries : a.entries = view.suffixFrom nextIndex)
    (prevTerm : a.prevLogTerm = prevLogTerm)
    (matched : view.prefixMatches (nextIndex - 1) prevLogTerm = true) : a.Agrees view := by
  refine ⟨by rw [prev, prevTerm]; exact matched, fun k entry found => ?_⟩
  rw [entries, RaftLogView.suffixFrom, List.getElem?_drop] at found
  rw [prev, RaftLogView.entryAt_eq_getElem (by omega), ← found]
  congr 1
  unfold RaftLogView.firstRetainedIndex
  omega

theorem runs_replicateAppend {i : ℕ} {r : LeaderReplicator ν} {peer : ν}
    {deliveries : List Delivery} {s : Cluster ν} (found : s.replicators[i]? = some r)
    (current : r.Current s)
    (retained : (s.logView r.leader).baseIndex < (r.progress peer).nextIndex) :
    Runs C U s (replicateAppend C i r peer deliveries s) := by
  unfold replicateAppend
  dsimp only
  split
  · exact .raises (.refl s) trivial
  have sends : Runs C U s (sendAppendEntries C r.leader peer ((r.progress peer).nextIndex - 1)
      ((s.logView r.leader).suffixFrom (r.progress peer).nextIndex) r.commitIndex s) := by
    refine runs_sendAppendEntries fun prevLogTerm matched => .inr ⟨?_, r, ?_, rfl, current, rfl⟩
    · exact agrees_suffixFrom retained rfl rfl rfl matched
    · exact List.mem_of_getElem? found
  refine sends.bind fun _ s₁ _ sent => ?_
  refine (runs_simulate deliveries s₁).bind fun _ s₂ _ delivered => ?_
  obtain ⟨r', found', leader, term, -⟩ := (sent.trans delivered).replicator found
  split
  · exact .raises (.refl s₂) trivial
  · next matchIndex answered =>
    have evidence : MatchEvidence s₂ r peer matchIndex :=
      .inl (matchingAppendResponse_record answered)
    exact (runs_acknowledgePeer found' (evidence.of_same leader term)).bind
      fun _ s₃ _ _ => .returns (.refl s₃)
  · exact .returns (moves_backtrackPeer i peer s₂)

theorem runs_replicateAttempt {i : ℕ} {r : LeaderReplicator ν} {peer : ν}
    {deliveries : List Delivery} {s : Cluster ν} (found : s.replicators[i]? = some r) :
    Runs C U s (replicateAttempt C i r peer deliveries s) := by
  unfold replicateAttempt
  refine (runs_requireCurrentLeader r s).bind fun _ s' returned _ => ?_
  obtain ⟨rfl, current⟩ := requireCurrentLeader_returns returned
  split
  · exact (runs_replicateSnapshot found).bind fun _ s₁ _ _ => .returns (.refl s₁)
  · next retained => exact runs_replicateAppend found current (not_le.mp retained)

theorem runs_replicateLoop {i : ℕ} {peer : ν} (schedules : List (List Delivery))
    (maxAttempts : Option ℕ) (s : Cluster ν) :
    Runs C U s (replicateLoop C i peer schedules maxAttempts s) := by
  induction schedules generalizing maxAttempts s with
  | nil => exact .returns (.refl s)
  | cons deliveries rest ih =>
      rw [replicateLoop]
      split
      · exact .returns (.refl s)
      split
      · exact .returns (.refl s)
      next r found =>
      refine (runs_replicateAttempt found).bind fun done s₁ _ _ => ?_
      split
      · exact .returns (.refl s₁)
      · exact ih _ s₁

theorem runs_replicate {i : ℕ} {peer : ν} {maxAttempts : Option ℕ}
    {schedules : List (List Delivery)} {s : Cluster ν} :
    Runs C U s (replicate C i peer maxAttempts schedules s) := by
  unfold replicate
  split
  · exact .raises (.refl s) trivial
  split
  · exact .raises (.refl s) trivial
  · exact runs_replicateLoop schedules maxAttempts s

theorem runs_recoverCheck (i : ℕ) (peer : ν) (remaining : Option ℕ) (s : Cluster ν) :
    Runs C U s (recoverCheck i peer remaining s) := by
  unfold recoverCheck
  split
  · exact .returns (.refl s)
  next r _ =>
  refine (runs_requireCurrentLeader r s).bind fun _ s₁ _ _ => ?_
  split
  · exact .returns (.refl s₁)
  split <;> exact .returns (.refl s₁)

theorem runs_recoverLoop {i : ℕ} {peer : ν} (schedules : List (List Delivery))
    (maxAttempts : Option ℕ) (s : Cluster ν) :
    Runs C U s (recoverLoop C i peer schedules maxAttempts s) := by
  induction schedules generalizing maxAttempts s with
  | nil => exact (runs_recoverCheck i peer maxAttempts s).bind fun _ s₁ _ _ => .returns (.refl s₁)
  | cons deliveries rest ih =>
      refine (runs_recoverCheck i peer maxAttempts s).bind fun done s₁ _ _ => ?_
      cases done with
      | some result => exact .returns (.refl s₁)
      | none => exact runs_replicate.bind fun _ s₂ _ _ => ih _ s₂

theorem runs_recoverPeer {i : ℕ} {peer : ν} {maxAttempts : Option ℕ}
    {schedules : List (List Delivery)} {s : Cluster ν} :
    Runs C U s (recoverPeer C i peer maxAttempts schedules s) := by
  unfold recoverPeer
  split
  · exact .raises (.refl s) trivial
  split
  · exact .raises (.refl s) trivial
  · exact runs_recoverLoop schedules maxAttempts s

theorem runs_beginActivityProbe {i : ℕ} {r : LeaderReplicator ν} {peer : ν} {s : Cluster ν}
    (found : s.replicators[i]? = some r) : Runs C U s (beginActivityProbe C r peer s) := by
  unfold beginActivityProbe
  split
  · exact .raises (.refl s) trivial
  refine (runs_requireCurrentLeader r s).bind fun _ s' returned _ => ?_
  obtain ⟨rfl, current⟩ := requireCurrentLeader_returns returned
  have sends : Runs C U s' (sendAppendEntries C r.leader peer (s'.logView r.leader).lastIndex []
      r.commitIndex s') := by
    refine runs_sendAppendEntries fun prevLogTerm matched =>
      .inr ⟨⟨matched, fun k entry none => ?_⟩, r, List.mem_of_getElem? found, rfl, current, rfl⟩
    cases none
  exact sends.bind fun _ s₁ _ _ => .returns (.refl s₁)

end Distlab.Raft
