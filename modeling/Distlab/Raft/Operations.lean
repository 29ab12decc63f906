import Distlab.Raft.Moves

/-!
# Operations are moves

Every operation of a node is a sequence of moves, and it raises the violations of
the protocol only where their guards hold.
-/

set_option autoImplicit false

namespace Distlab.Raft

open Foundations

variable {ν : Type} [LinearOrder ν] {C : Config ν} {U : Licence ν}

/-! ## Sequences of moves -/

/-- What holds where an operation raises. -/
def Guarded (C : Config ν) (violation : Error ν) (s : Cluster ν) : Prop :=
  match violation with
  | .electionSafety term existing n =>
      n ∈ C.nodeIds ∧ s.role n = .candidate ∧ s.currentTerm n = term ∧
        hasElectionQuorum C s (s.volatile n).votesReceived = true ∧
        s.leadersByTerm.lookup term = some existing ∧ existing ≠ n
  | .canonicalConflict index _ n =>
      n ∈ C.nodeIds ∧ index = s.applier.lastApplied n + 1 ∧ index ≤ s.commitIndex n ∧
        ∃ entry canonical, (s.logView n).entryAt index = some entry ∧
          s.applier.canonicalByIndex.lookup index = some canonical ∧ canonical.entry ≠ entry
  | _ => True

/-- The operation makes moves from `s`, and raises only where it may. -/
def Runs (C : Config ν) (U : Licence ν) {β : Type} (s : Cluster ν) (operation : Op ν β) : Prop :=
  operation.Ensures (Moves C U s) (Guarded C)

namespace Moves

theorem refl (s : Cluster ν) : Moves C U s s := Relation.ReflTransGen.refl

theorem trans {s s' s'' : Cluster ν} (first : Moves C U s s') (second : Moves C U s' s'') :
    Moves C U s s'' := Relation.ReflTransGen.trans first second

theorem one {s s' : Cluster ν} (move : Move C U s s') : Moves C U s s' :=
  Relation.ReflTransGen.single move

theorem same {s s' : Cluster ν} (same : core s' = core s) : Moves C U s s' :=
  one (.housekeeping same)

/-- An operation that goes on after some moves. -/
theorem after {s s' : Cluster ν} {β : Type} {operation : Op ν β} (moves : Moves C U s s')
    (runs : Runs C U s' operation) : Runs C U s operation :=
  Outcome.Ensures.mono runs (fun _ => moves.trans) fun _ _ => id

/-- What each move keeps, a sequence of moves keeps. -/
theorem invariant {P : Cluster ν → Prop} (keeps : ∀ s s', Move C U s s' → P s → P s')
    {s s' : Cluster ν} (moves : Moves C U s s') (holds : P s) : P s' := by
  induction moves with
  | refl => exact holds
  | tail _ move ih => exact keeps _ _ move ih

end Moves

namespace Runs

variable {β γ : Type} {s s' : Cluster ν}

theorem returns {b : β} (moves : Moves C U s s') : Runs C U s (Outcome.returns b s' : Op ν β) :=
  moves

theorem raises {violation : Error ν} (moves : Moves C U s s') (guard : Guarded C violation s') :
    Runs C U s (Outcome.raises violation s' : Op ν β) := ⟨moves, guard⟩

theorem bind {first : Op ν β} {next : β → Cluster ν → Op ν γ} (runs : Runs C U s first)
    (rest : ∀ b s', first = .returns b s' → Moves C U s s' → Runs C U s' (next b s')) :
    Runs C U s (first.bind next) :=
  Outcome.Ensures.bind runs (fun b s' returned moves => moves.after (rest b s' returned moves))
    fun _ => id

theorem state {operation : Op ν β} (runs : Runs C U s operation) :
    Moves C U s operation.state := Outcome.Ensures.state runs

end Runs

/-! ## Housekeeping -/

omit [LinearOrder ν] in
theorem core_eq_of {s s' : Cluster ν}
    (volatile : ∀ n, s'.role n = s.role n ∧
      (s'.volatile n).votesReceived = (s.volatile n).votesReceived ∧
      s'.commitIndex n = s.commitIndex n)
    (rest : { core s' with volatile := (core s).volatile } = core s) : core s' = core s := by
  refine Eq.trans ?_ rest
  have same : (core s').volatile = (core s).volatile := by
    funext n
    obtain ⟨role, votes, commit⟩ := volatile n
    simp only [Cluster.role, Cluster.commitIndex] at role commit
    simp only [core, role, votes, commit]
  rw [← same]

@[simp] theorem core_clearPreVote (n : ν) (s : Cluster ν) : core (clearPreVote n s) = core s := by
  refine core_eq_of (fun m => ?_) rfl
  by_cases same : m = n
  · subst same
    simp [clearPreVote, Cluster.updateVolatile, Cluster.role, Cluster.commitIndex]
  · simp [clearPreVote, Cluster.updateVolatile, Cluster.role, Cluster.commitIndex, same]

@[simp] theorem core_updateTimer (n : ν) (f : ElectionTimer → ElectionTimer) (s : Cluster ν) :
    core (s.updateTimer n f) = core s := rfl

@[simp] theorem core_notifyLeaderRetired (n : ν) (term : ℕ) (s : Cluster ν) :
    core (notifyLeaderRetired n term s) = core s := by
  obtain ⟨active, observers, retired⟩ := notifyLeaderRetired_eq n term s
  rw [retired]
  rfl

@[simp] theorem core_notifyLeaderAcquired (n : ν) (term : ℕ) (s : Cluster ν) :
    core (notifyLeaderAcquired n term s) = core s := by
  obtain ⟨generation, active, observers, acquired⟩ := notifyLeaderAcquired_eq n term s
  rw [acquired]
  rfl

/-! ## What the operations leave unchanged -/

section Projections

variable (n m : ν) (s : Cluster ν)

@[simp] theorem persistent_updateVolatile (f : Volatile ν → Volatile ν) :
    (s.updateVolatile n f).persistent = s.persistent := rfl

@[simp] theorem persistent_updateTimer (f : ElectionTimer → ElectionTimer) :
    (s.updateTimer n f).persistent = s.persistent := rfl

@[simp] theorem persistent_clearPreVote : (clearPreVote n s).persistent = s.persistent := rfl

@[simp] theorem persistent_retire : (retire n s).persistent = s.persistent := rfl

@[simp] theorem persistent_disableElectionTimeout :
    (disableElectionTimeout n s).persistent = s.persistent := by
  unfold disableElectionTimeout
  dsimp only
  split <;> split <;> rfl

@[simp] theorem persistent_resetElectionTimeout :
    (resetElectionTimeout C n s).persistent = s.persistent := by
  unfold resetElectionTimeout
  split
  · exact persistent_disableElectionTimeout n s
  · split
    · rfl
    · split <;> rfl

@[simp] theorem persistent_notifyLeaderRetired (term : ℕ) :
    (notifyLeaderRetired n term s).persistent = s.persistent := by
  obtain ⟨active, observers, retired⟩ := notifyLeaderRetired_eq n term s
  rw [retired]

@[simp] theorem votingConfiguration_clearPreVote :
    (clearPreVote n s).votingConfiguration = s.votingConfiguration := rfl

@[simp] theorem votingConfiguration_retire :
    (retire n s).votingConfiguration = s.votingConfiguration := rfl

@[simp] theorem votingConfiguration_persistTermAndVote (term : ℕ) (votedFor : Option ν) :
    (persistTermAndVote n term votedFor s).votingConfiguration = s.votingConfiguration := rfl

@[simp] theorem votingConfiguration_adoptTerm (term : ℕ) :
    (adoptTerm n term s).votingConfiguration = s.votingConfiguration := rfl

@[simp] theorem votingConfiguration_disableElectionTimeout :
    (disableElectionTimeout n s).votingConfiguration = s.votingConfiguration := by
  unfold disableElectionTimeout
  dsimp only
  split <;> split <;> rfl

@[simp] theorem votingConfiguration_resetElectionTimeout :
    (resetElectionTimeout C n s).votingConfiguration = s.votingConfiguration := by
  unfold resetElectionTimeout
  split
  · exact votingConfiguration_disableElectionTimeout n s
  · split
    · rfl
    · split <;> rfl

@[simp] theorem votingConfiguration_notifyLeaderRetired (term : ℕ) :
    (notifyLeaderRetired n term s).votingConfiguration = s.votingConfiguration := by
  obtain ⟨active, observers, retired⟩ := notifyLeaderRetired_eq n term s
  rw [retired]

@[simp] theorem volatile_notifyLeaderRetired (term : ℕ) :
    (notifyLeaderRetired n term s).volatile = s.volatile := by
  obtain ⟨active, observers, retired⟩ := notifyLeaderRetired_eq n term s
  rw [retired]

theorem isVoter_of_votingConfiguration {s s' : Cluster ν}
    (same : s'.votingConfiguration = s.votingConfiguration) : isVoter C s' m = isVoter C s m := by
  unfold isVoter
  rw [same]

/-- A voter keeps its volatile state when its timer is reset. -/
theorem volatile_resetElectionTimeout_of_voter (voter : isVoter C s n = true) :
    (resetElectionTimeout C n s).volatile = s.volatile := by
  unfold resetElectionTimeout
  rw [if_neg (not_not.mpr voter)]
  split
  · rfl
  · split <;> rfl

/-- A follower stays one when its timer is disabled. -/
theorem role_disableElectionTimeout_of_follower (follows : s.role n = .follower) :
    (disableElectionTimeout n s).role n = .follower := by
  unfold disableElectionTimeout
  dsimp only
  have kept : (if ((s.updateTimer n fun t => { t with generation := t.generation + 1 }).volatile
        n).preVoteTerm.isSome then
      clearPreVote n (s.updateTimer n fun t => { t with generation := t.generation + 1 })
      else s.updateTimer n fun t => { t with generation := t.generation + 1 }).role n =
      .follower := by
    split
    · simpa [clearPreVote, Cluster.updateVolatile, Cluster.updateTimer, Cluster.role] using follows
    · exact follows
  rw [if_neg (by rw [kept]; simp)]
  exact kept

theorem role_resetElectionTimeout_of_follower (follows : s.role n = .follower) :
    (resetElectionTimeout C n s).role n = .follower := by
  unfold resetElectionTimeout
  split
  · exact role_disableElectionTimeout_of_follower n s follows
  · split
    · exact follows
    · split <;> exact follows

@[simp] theorem role_retire : (retire n s).role n = .follower := by
  simp [retire, Cluster.updateVolatile, Cluster.role]

end Projections

/-! ## Timers, terms and roles -/

theorem moves_clearPreVote (n : ν) (s : Cluster ν) : Moves C U s (clearPreVote n s) :=
  .same (core_clearPreVote n s)

theorem moves_updateTimer (n : ν) (f : ElectionTimer → ElectionTimer) (s : Cluster ν) :
    Moves C U s (s.updateTimer n f) := .same rfl

theorem moves_retire (n : ν) (s : Cluster ν) : Moves C U s (retire n s) := .one (.retire n)

theorem moves_disableElectionTimeout (n : ν) (s : Cluster ν) :
    Moves C U s (disableElectionTimeout n s) := by
  unfold disableElectionTimeout
  dsimp only
  refine (moves_updateTimer n (fun t => { t with generation := t.generation + 1 }) s).trans ?_
  generalize (s.updateTimer n fun t => { t with generation := t.generation + 1 }) = s
  have clear : Moves C U s (if (s.volatile n).preVoteTerm.isSome then clearPreVote n s else s) := by
    split
    · exact moves_clearPreVote n s
    · exact .refl s
  refine clear.trans ?_
  generalize (if (s.volatile n).preVoteTerm.isSome then clearPreVote n s else s) = s
  split
  · exact moves_retire n s
  · exact .refl s

theorem moves_resetElectionTimeout (n : ν) (s : Cluster ν) :
    Moves C U s (resetElectionTimeout C n s) := by
  unfold resetElectionTimeout
  split
  · exact moves_disableElectionTimeout n s
  · split
    · exact .refl s
    · split
      · exact .refl s
      · next timeout _ _ =>
        exact (moves_updateTimer n (fun t => ⟨t.generation + 1, some (s.time + timeout)⟩) s).trans
          (.one (.schedule _ _ _ rfl))

theorem moves_notifyLeaderRetired (n : ν) (term : ℕ) (s : Cluster ν) :
    Moves C U s (notifyLeaderRetired n term s) := .same (core_notifyLeaderRetired n term s)

/-- The term, the vote and the role that `_advance_term` leaves. -/
theorem moves_advanceTerm (n : ν) (term : ℕ) (rearm : Bool) (s : Cluster ν) :
    Moves C U s (advanceTerm C n term rearm s) := by
  unfold advanceTerm
  split
  · exact .refl s
  · next higher =>
    dsimp only
    have advance : Moves C U s (adoptTerm n term s) :=
      .one (.advanceTerm n term (not_le.mp higher))
    refine advance.trans ((moves_clearPreVote n _).trans ?_)
    generalize clearPreVote n (adoptTerm n term s) = s₁
    have notify : Moves C U s₁ (if s.role n = .leader then
        notifyLeaderRetired n (s.currentTerm n) s₁ else s₁) := by
      split
      · exact moves_notifyLeaderRetired n _ s₁
      · exact .refl s₁
    refine notify.trans ?_
    generalize (if s.role n = .leader then notifyLeaderRetired n (s.currentTerm n) s₁ else s₁) = s₂
    split
    · exact moves_resetElectionTimeout n s₂
    · exact .refl s₂

@[simp] theorem votingConfiguration_advanceTerm (n : ν) (term : ℕ) (rearm : Bool) (s : Cluster ν) :
    (advanceTerm C n term rearm s).votingConfiguration = s.votingConfiguration := by
  unfold advanceTerm
  split
  · rfl
  · dsimp only
    split <;> split <;> simp

/-- A node keeps its log when its term advances. -/
@[simp] theorem logView_advanceTerm (n m : ν) (term : ℕ) (rearm : Bool) (s : Cluster ν) :
    (advanceTerm C n term rearm s).logView m = s.logView m := by
  unfold advanceTerm
  split
  · rfl
  · have kept : ((adoptTerm n term s).persistent m).log = (s.persistent m).log := by
      by_cases same : m = n
      · subst same
        simp [adoptTerm, persistTermAndVote, Cluster.updatePersistent, Cluster.record]
      · simp [adoptTerm, persistTermAndVote, Cluster.updatePersistent, Cluster.record, same]
    dsimp only
    split <;> split <;> simpa [Cluster.logView] using kept

/-! ## Messages -/

omit [LinearOrder ν] in
@[simp] theorem core_record (entry : TraceRecord ν) (s : Cluster ν) :
    core (s.record entry) = (core s).record entry := rfl

theorem moves_send {src dst : ν} {payload : Payload ν} {s : Cluster ν}
    (sendable : ∀ ordinal, Sendable C U s ⟨src, dst, payload, ordinal⟩) :
    Moves C U s (s.send src dst payload) :=
  (Moves.one (.send _ (sendable _))).trans (.same rfl)

theorem moves_sendAll {src : ν} {payload : Payload ν} {s : Cluster ν}
    (sendable : ∀ s' dst ordinal, s'.persistent = s.persistent → s'.volatile = s.volatile →
      Sendable C U s' ⟨src, dst, payload, ordinal⟩) (dsts : List ν) :
    Moves C U s (s.sendAll src dsts payload) := by
  induction dsts generalizing s with
  | nil => exact .refl s
  | cons dst rest ih =>
      have first : Moves C U s (s.send src dst payload) :=
        moves_send fun ordinal => sendable s dst ordinal rfl rfl
      refine first.trans (ih fun s' dst ordinal persistent volatile => ?_)
      exact sendable s' dst ordinal persistent volatile

theorem moves_record {entry : TraceRecord ν} {s : Cluster ν} (recordable : Recordable C s entry) :
    Moves C U s (s.record entry) := .one (.record entry recordable)

/-! ## Elections -/

theorem runs_becomeLeader {n : ν} {term : ℕ} {s : Cluster ν} (member : n ∈ C.nodeIds)
    (quorum : hasElectionQuorum C s (s.volatile n).votesReceived = true) :
    Runs C U s (becomeLeader n term s) := by
  unfold becomeLeader
  split
  · exact .returns (.refl s)
  · next here =>
    rw [not_or, not_not, not_not] at here
    obtain ⟨rfl, candidate⟩ := here
    unfold recordLeader
    split
    · next unrecorded =>
      have free : ∀ existing, s.leadersByTerm.lookup (s.currentTerm n) = some existing →
          existing = n := by
        intro existing recorded
        rw [unrecorded] at recorded
        cases recorded
      refine .returns ((Moves.one (.lead n member candidate quorum free)).trans (.same ?_))
      have absent : s.currentTerm n ∉ s.leadersByTerm := AList.lookup_eq_none.mp unrecorded
      simp only [promote, core_notifyLeaderAcquired, core_record, core_updateTimer,
        core_clearPreVote, Dict.setDefault, if_neg absent]
    · next existing recorded =>
      split
      · next other =>
        exact .raises (.refl s) ⟨member, candidate, rfl, quorum, recorded, other⟩
      · next own =>
        rw [not_not] at own
        subst own
        have free : ∀ m, s.leadersByTerm.lookup (s.currentTerm existing) = some m →
            m = existing := by
          intro m found
          rw [recorded] at found
          exact (Option.some.inj found).symm
        refine .returns ((Moves.one (.lead existing member candidate quorum free)).trans
          (.same ?_))
        have present : s.currentTerm existing ∈ s.leadersByTerm :=
          AList.lookup_isSome.mp (by rw [recorded]; rfl)
        simp only [promote, core_notifyLeaderAcquired, core_record, core_updateTimer,
          core_clearPreVote, Dict.setDefault, if_pos present]

theorem runs_startElection {n : ν} {s : Cluster ν} (member : n ∈ C.nodeIds) :
    Runs C U s (startElection C n s) := by
  unfold startElection
  split
  · exact .raises (.refl s) trivial
  split
  · exact .raises (.refl s) trivial
  next voter =>
    rw [not_not] at voter
    dsimp only
    have stand : Moves C U s (becomeCandidate n (clearPreVote n s)) :=
      (moves_clearPreVote n s).trans (.one (.stand n member voter))
    refine stand.after ?_
    have candidate : (becomeCandidate n (clearPreVote n s)).role n = .candidate := by
      simp [becomeCandidate, Cluster.updateVolatile, Cluster.role]
    have votes : ((becomeCandidate n (clearPreVote n s)).volatile n).votesReceived = {n} := by
      simp [becomeCandidate, Cluster.updateVolatile]
    have term : (becomeCandidate n (clearPreVote n s)).currentTerm n = s.currentTerm n + 1 := by
      simp [becomeCandidate, persistTermAndVote, Cluster.updatePersistent, Cluster.record,
        Cluster.currentTerm]
    have voter' : isVoter C (becomeCandidate n (clearPreVote n s)) n = true := voter
    generalize becomeCandidate n (clearPreVote n s) = s₁ at *
    refine (moves_resetElectionTimeout n s₁).after ?_
    have volatile : (resetElectionTimeout C n s₁).volatile = s₁.volatile :=
      volatile_resetElectionTimeout_of_voter n s₁ voter'
    have persistent : (resetElectionTimeout C n s₁).persistent = s₁.persistent :=
      persistent_resetElectionTimeout n s₁
    split
    · next quorum =>
      refine runs_becomeLeader member ?_
      rw [volatile, votes]
      exact quorum
    · refine .returns (moves_sendAll (fun s' dst ordinal persistent' volatile' => ?_) _)
      have same : s'.currentTerm n = s.currentTerm n + 1 := by
        rw [Cluster.currentTerm, persistent', persistent, ← Cluster.currentTerm, term]
      refine ⟨member, ?_, ?_⟩
      · change (s'.volatile n).role = .candidate
        rw [volatile', volatile]
        exact candidate
      · change voteRequest n _ _ = voteRequest n (s'.currentTerm n) s'
        rw [same]
        simp only [voteRequest, Cluster.logView, persistent']

theorem runs_startPreVote {n : ν} {s : Cluster ν} (member : n ∈ C.nodeIds) :
    Runs C U s (startPreVote C n s) := by
  unfold startPreVote
  split
  · exact .raises (.refl s) trivial
  split
  · exact .raises (.refl s) trivial
  split
  · exact .returns (.refl s)
  dsimp only
  have probe : Moves C U s (s.updateVolatile n fun w =>
      { w with preVoteTerm := some (s.currentTerm n + 1), preVotesReceived := {n} }) := by
    refine .same (core_eq_of (fun m => ?_) rfl)
    by_cases same : m = n
    · subst same
      simp [Cluster.updateVolatile, Cluster.role, Cluster.commitIndex]
    · simp [Cluster.updateVolatile, Cluster.role, Cluster.commitIndex, same]
  refine probe.after ?_
  generalize (s.updateVolatile n fun w => _) = s₁
  split
  · exact (moves_clearPreVote n s₁).after (runs_startElection member)
  · refine (moves_resetElectionTimeout n s₁).after (.returns ?_)
    refine moves_sendAll (fun _ _ _ _ _ => ?_) _
    exact trivial

theorem runs_stepDown (n : ν) (s : Cluster ν) : Runs C U s (stepDown C n s) := by
  unfold stepDown
  split
  · exact .raises (.refl s) trivial
  split
  · exact .returns (.refl s)
  · refine .returns ((moves_retire n s).trans ((moves_clearPreVote n _).trans ?_))
    exact (moves_notifyLeaderRetired n _ _).trans (moves_resetElectionTimeout n _)

theorem runs_handleElectionTimeout {n : ν} {generation : ℕ} {deadline : Option ℕ} {s : Cluster ν}
    (member : n ∈ C.nodeIds) : Runs C U s (handleElectionTimeout C n generation deadline s) := by
  unfold handleElectionTimeout
  split
  · exact .returns (.refl s)
  split
  · exact .returns (.refl s)
  split
  · exact .returns (.refl s)
  · exact runs_startPreVote member

theorem runs_handlePreVoteResponse {n : ν} {response : PreVoteResponse ν} {s : Cluster ν}
    (member : n ∈ C.nodeIds) : Runs C U s (handlePreVoteResponse C n response s) := by
  unfold handlePreVoteResponse
  split
  · exact .returns (.refl s)
  split
  · exact .returns (moves_advanceTerm n _ _ s)
  split
  · exact .returns (.refl s)
  split
  · exact .returns (.refl s)
  dsimp only
  have collect : Moves C U s (s.updateVolatile n fun w =>
      { w with preVotesReceived := insert response.voterId w.preVotesReceived }) := by
    refine .same (core_eq_of (fun m => ?_) rfl)
    by_cases same : m = n
    · subst same
      simp [Cluster.updateVolatile, Cluster.role, Cluster.commitIndex]
    · simp [Cluster.updateVolatile, Cluster.role, Cluster.commitIndex, same]
  refine collect.after ?_
  split
  · exact (moves_clearPreVote n _).after (runs_startElection member)
  · exact .returns (.refl _)

theorem moves_handlePreVote (n src : ν) (request : RequestVote ν) (s : Cluster ν) :
    Moves C U s (handlePreVote C n src request s) := moves_send fun _ => trivial

/-! ## Votes -/

/-- The messages stay in the network. -/
theorem Move.network {s s' : Cluster ν} (move : Move C U s s') {message : Message ν}
    (sent : message ∈ s.network) : message ∈ s'.network := by
  cases move with
  | housekeeping same =>
      have network : (core s').network = (core s).network := by rw [same]
      exact network ▸ sent
  | send => exact List.mem_append_left _ sent
  | schedule => exact List.mem_append_left _ sent
  | _ => exact sent

theorem Moves.network {s s' : Cluster ν} (moves : Moves C U s s') {message : Message ν}
    (sent : message ∈ s.network) : message ∈ s'.network :=
  moves.invariant (P := fun s => message ∈ s.network) (fun _ _ move => move.network) sent

theorem Arrived.after {s s' : Cluster ν} {message : Message ν} (arrived : Arrived C s message)
    (moves : Moves C U s s') : Arrived C s' message := ⟨moves.network arrived.1, arrived.2⟩

theorem runs_handleRequestVoteResponse {message : Message ν} {response : RequestVoteResponse ν}
    {s : Cluster ν} (arrived : Arrived C s message)
    (payload : message.payload = .requestVoteResponse response) (member : message.dst ∈ C.nodeIds) :
    Runs C U s (handleRequestVoteResponse C message.dst response s) := by
  unfold handleRequestVoteResponse
  split
  · exact .returns (.refl s)
  next voters =>
  split
  · exact .returns (moves_advanceTerm _ _ _ s)
  split
  · exact .returns (.refl s)
  next here =>
  split
  · exact .returns (.refl s)
  next granted =>
    simp only [not_or, not_not] at voters here granted
    dsimp only
    refine Moves.after (.one (.collect message response arrived payload voters.1 voters.2 here.1
      here.2 granted)) ?_
    split
    · next quorum => exact runs_becomeLeader member quorum
    · exact .returns (.refl _)

theorem moves_grantVote {message : Message ν} {request : RequestVote ν} {s : Cluster ν}
    (arrived : Arrived C s message) (payload : message.payload = .requestVote request)
    (voter : isVoter C s message.dst = true) (eligible : isVoter C s request.candidateId = true)
    (term : request.term = s.currentTerm message.dst)
    (upToDate : candidateLogIsUpToDate message.dst request s = true)
    (free : s.votedFor message.dst = none ∨ s.votedFor message.dst = some request.candidateId) :
    Moves C U s (grantVote C message.dst request s) :=
  (Moves.one (.grant message request arrived payload voter eligible term upToDate free)).trans
    ((moves_clearPreVote _ _).trans (moves_resetElectionTimeout _ _))

@[simp] theorem votedFor_grantVote (n : ν) (request : RequestVote ν) (s : Cluster ν) :
    (grantVote C n request s).votedFor n = some request.candidateId := by
  simp [grantVote, castVote, persistTermAndVote, Cluster.votedFor, Cluster.updatePersistent,
    Cluster.record]

/-- The reset of a retired leader's timer. -/
theorem moves_resetIf (retired : Bool) (n : ν) (s : Cluster ν) :
    Moves C U s (if retired = true then resetElectionTimeout C n s else s) := by
  split
  · exact moves_resetElectionTimeout n s
  · exact .refl s

theorem persistent_resetIf (retired : Bool) (n : ν) (s : Cluster ν) :
    (if retired = true then resetElectionTimeout C n s else s).persistent = s.persistent := by
  split
  · exact persistent_resetElectionTimeout n s
  · rfl

theorem moves_handleRequestVote {message : Message ν} {request : RequestVote ν} {s : Cluster ν}
    (arrived : Arrived C s message) (payload : message.payload = .requestVote request)
    (src : message.src = request.candidateId) :
    Moves C U s (handleRequestVote C message.dst message.src request s) := by
  unfold handleRequestVote
  dsimp only
  generalize (decide (s.role message.dst = .leader) && isVoter C s request.candidateId &&
    decide (s.currentTerm message.dst < request.term)) = retired
  have advance : Moves C U s (if isVoter C s request.candidateId = true then
      advanceTerm C message.dst request.term false s else s) := by
    split
    · exact moves_advanceTerm _ _ _ s
    · exact .refl s
  have configuration : (if isVoter C s request.candidateId = true then
      advanceTerm C message.dst request.term false s else s).votingConfiguration =
      s.votingConfiguration := by
    split
    · exact votingConfiguration_advanceTerm _ _ _ s
    · rfl
  refine advance.trans ?_
  have arrived' := arrived.after advance
  have voter := isVoter_of_votingConfiguration (C := C) message.dst configuration
  have eligible := isVoter_of_votingConfiguration (C := C) request.candidateId configuration
  generalize (if isVoter C s request.candidateId = true then
    advanceTerm C message.dst request.term false s else s) = s₁ at *
  rw [← voter, ← eligible]
  generalize grants : (isVoter C s₁ message.dst && isVoter C s₁ request.candidateId &&
    decide (request.term = s₁.currentTerm message.dst) &&
    candidateLogIsUpToDate message.dst request s₁ &&
    decide (s₁.votedFor message.dst = none ∨
      s₁.votedFor message.dst = some request.candidateId)) = grant
  cases grant with
  | true =>
      simp only [Bool.and_eq_true, decide_eq_true_eq] at grants
      obtain ⟨⟨⟨⟨voter, eligible⟩, term⟩, upToDate⟩, free⟩ := grants
      rw [if_pos rfl]
      refine (moves_grantVote arrived' payload voter eligible term upToDate free).trans ?_
      refine (moves_resetIf _ message.dst _).trans (moves_send fun ordinal => ?_)
      refine ⟨rfl, rfl, fun _ => ?_⟩
      change Cluster.votedFor _ message.dst = some message.src
      rw [Cluster.votedFor, persistent_resetIf, ← Cluster.votedFor, votedFor_grantVote, src]
  | false =>
      rw [if_neg Bool.false_ne_true]
      refine (moves_resetIf _ message.dst _).trans (moves_send fun ordinal => ?_)
      exact ⟨rfl, rfl, fun granted => absurd granted Bool.false_ne_true⟩

end Distlab.Raft
