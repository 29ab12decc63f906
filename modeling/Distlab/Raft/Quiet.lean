import Distlab.Raft.Deployment

/-!
# Operations that no election timer depends on

Replication, the state machine, snapshots and the harness write logs, indexes,
images and records. They change no role, no timer and no voting configuration,
and schedule no timeout.
-/

set_option autoImplicit false

namespace Distlab.Raft

open Foundations

variable {ν : Type} {s t u : Cluster ν}

/-- The message is an election timeout. -/
def Message.IsTimeout (message : Message ν) : Prop :=
  ∃ generation deadline, message.payload = .electionTimeout generation deadline

/-- The step changes nothing that an election timer depends on. -/
structure Quiet (s t : Cluster ν) : Prop where
  time : t.time = s.time
  timer : t.timer = s.timer
  alive : t.alive = s.alive
  configuration : t.votingConfiguration = s.votingConfiguration
  role : ∀ n, t.role n = s.role n
  sent : ∃ sent, t.network = s.network ++ sent ∧ ∀ message ∈ sent, ¬ message.IsTimeout

/-- Every outcome of the operation is a quiet step. -/
abbrev Quietly {β : Type} (s : Cluster ν) (op : Op ν β) : Prop :=
  op.Ensures (Quiet s) fun _ _ => True

namespace Quiet

/-- A step that keeps the network. -/
theorem of_fields (time : t.time = s.time) (timer : t.timer = s.timer)
    (alive : t.alive = s.alive) (configuration : t.votingConfiguration = s.votingConfiguration)
    (role : ∀ n, t.role n = s.role n) (network : t.network = s.network) : Quiet s t :=
  ⟨time, timer, alive, configuration, role, [], by rw [network, List.append_nil],
    fun _ member => absurd member List.not_mem_nil⟩

theorem refl (s : Cluster ν) : Quiet s s := of_fields rfl rfl rfl rfl (fun _ => rfl) rfl

theorem trans (first : Quiet s t) (second : Quiet t u) : Quiet s u where
  time := second.time.trans first.time
  timer := second.timer.trans first.timer
  alive := second.alive.trans first.alive
  configuration := second.configuration.trans first.configuration
  role n := (second.role n).trans (first.role n)
  sent := by
    obtain ⟨sent, network, quiet⟩ := first.sent
    obtain ⟨sent', network', quiet'⟩ := second.sent
    refine ⟨sent ++ sent', by rw [network', network, List.append_assoc], ?_⟩
    intro message member
    exact (List.mem_append.mp member).elim (quiet message) (quiet' message)

end Quiet

section Rules

variable {β γ : Type}

theorem Quietly.bind {op : Op ν β} {next : β → Cluster ν → Op ν γ} (first : Quietly s op)
    (rest : ∀ b t, Quietly t (next b t)) : Quietly s (op.bind next) :=
  Outcome.Ensures.bind first
    (fun b t _ quiet => (rest b t).mono (fun _ after => quiet.trans after) fun _ _ => id)
    fun _ => id

theorem Quietly.forEach {ι : Type} {items : List ι} {body : ι → Cluster ν → Op ν Unit}
    (each : ∀ item t, Quietly t (body item t)) : Quietly s (Outcome.forEach items body s) := by
  refine Outcome.ensures_forEach (fun item _ t quiet => ?_) s (Quiet.refl s)
  exact (each item t).mono (fun _ after => quiet.trans after) fun _ _ => id

theorem Quietly.after {op : Op ν β} (first : Quiet s t) (rest : Quietly t op) : Quietly s op :=
  rest.mono (fun _ after => first.trans after) fun _ _ => id

end Rules

/-! ## Writes -/

theorem quiet_record (entry : TraceRecord ν) : Quiet s (s.record entry) :=
  .of_fields rfl rfl rfl rfl (fun _ => rfl) rfl

theorem quiet_updateReplicator (i : ℕ) (f : LeaderReplicator ν → LeaderReplicator ν) :
    Quiet s (s.updateReplicator i f) := .of_fields rfl rfl rfl rfl (fun _ => rfl) rfl

theorem quiet_updateTransition (i : ℕ) (f : MembershipTransition ν → MembershipTransition ν) :
    Quiet s (s.updateTransition i f) := .of_fields rfl rfl rfl rfl (fun _ => rfl) rfl

variable [LinearOrder ν] (n : ν)

theorem quiet_updatePersistent (f : Persistent ν → Persistent ν) :
    Quiet s (s.updatePersistent n f) := .of_fields rfl rfl rfl rfl (fun _ => rfl) rfl

/-- A volatile write that keeps the role. -/
theorem quiet_updateVolatile {f : Volatile ν → Volatile ν}
    (role : (f (s.volatile n)).role = (s.volatile n).role) : Quiet s (s.updateVolatile n f) := by
  refine .of_fields rfl rfl rfl rfl (fun m => ?_) rfl
  by_cases same : m = n
  · subst same
    simpa [Cluster.role, Cluster.updateVolatile] using role
  · simp [Cluster.role, Cluster.updateVolatile, same]

theorem quiet_clearPreVote : Quiet s (clearPreVote n s) := quiet_updateVolatile n rfl

theorem quiet_notifyLeaderRetired (term : ℕ) : Quiet s (notifyLeaderRetired n term s) := by
  obtain ⟨active, observers, same⟩ := notifyLeaderRetired_eq n term s
  rw [same]
  exact .of_fields rfl rfl rfl rfl (fun _ => rfl) rfl

theorem quiet_notifyLeaderAcquired (term : ℕ) : Quiet s (notifyLeaderAcquired n term s) := by
  obtain ⟨generation, active, observers, same⟩ := notifyLeaderAcquired_eq n term s
  rw [same]
  exact .of_fields rfl rfl rfl rfl (fun _ => rfl) rfl

variable {n}

theorem quiet_send {src dst : ν} {payload : Payload ν}
    (other : ∀ generation deadline, payload ≠ .electionTimeout generation deadline) :
    Quiet s (s.send src dst payload) where
  time := rfl
  timer := rfl
  alive := rfl
  configuration := rfl
  role _ := rfl
  sent := by
    refine ⟨[_], rfl, fun message member => ?_⟩
    rw [List.mem_singleton.mp member]
    rintro ⟨generation, deadline, timeout⟩
    exact other generation deadline timeout

theorem quiet_sendAll {src : ν} {payload : Payload ν}
    (other : ∀ generation deadline, payload ≠ .electionTimeout generation deadline)
    (dsts : List ν) (s : Cluster ν) : Quiet s (s.sendAll src dsts payload) := by
  induction dsts generalizing s with
  | nil => exact .refl s
  | cons dst rest ih => exact (quiet_send other).trans (ih (s.send src dst payload))

/-! ## Replication -/

variable {C : Config ν}

theorem quietly_assertLogMatching : Quietly s (assertLogMatching C s) := by
  unfold assertLogMatching
  split
  · exact .refl s
  · exact ⟨.refl s, trivial⟩

theorem quietly_advanceNodeCommit (index : ℕ) : Quietly s (advanceNodeCommit n index s) := by
  unfold advanceNodeCommit
  split
  · exact ⟨.refl s, trivial⟩
  split
  · exact .refl s
  · exact quiet_updateVolatile n rfl

theorem quietly_mergeEntries (prevLogIndex : ℕ) (entries : List (LogEntry (Command ν))) :
    Quietly s (mergeEntries n prevLogIndex entries s) := by
  unfold mergeEntries
  split
  · exact ⟨.refl s, trivial⟩
  · exact quiet_updatePersistent n _

theorem quiet_answerAppendEntries (src : ν) (request : AppendEntries ν) (success : Bool)
    (matchIndex : ℕ) : Quiet s (answerAppendEntries n src request success matchIndex s) :=
  (quiet_record _).trans (quiet_send (by simp))

theorem quietly_sendAppendEntries (peer : ν) (prevLogIndex : ℕ)
    (entries : List (LogEntry (Command ν))) (leaderCommit : ℕ) :
    Quietly s (sendAppendEntries C n peer prevLogIndex entries leaderCommit s) := by
  unfold sendAppendEntries
  split
  · exact ⟨.refl s, trivial⟩
  split
  · exact ⟨.refl s, trivial⟩
  split
  · exact ⟨.refl s, trivial⟩
  split
  · exact ⟨.refl s, trivial⟩
  split
  · exact ⟨.refl s, trivial⟩
  split
  · exact ⟨.refl s, trivial⟩
  · exact quiet_send (by simp)

omit [LinearOrder ν] in
theorem quietly_requireCurrentLeader (r : LeaderReplicator ν) :
    Quietly s (requireCurrentLeader r s) := by
  unfold requireCurrentLeader
  split
  · exact ⟨.refl s, trivial⟩
  · exact .refl s

theorem quietly_newReplicator (snapshotTransport membershipAware : Bool) :
    Quietly s (newReplicator C n snapshotTransport membershipAware s) := by
  unfold newReplicator
  split
  · exact ⟨.refl s, trivial⟩
  · refine (quietly_requireCurrentLeader _).bind fun _ t => ?_
    exact .of_fields rfl rfl rfl rfl (fun _ => rfl) rfl

theorem quietly_beginActivityProbe (r : LeaderReplicator ν) (peer : ν) :
    Quietly s (beginActivityProbe C r peer s) := by
  unfold beginActivityProbe
  split
  · exact ⟨.refl s, trivial⟩
  · refine (quietly_requireCurrentLeader r).bind fun _ t => ?_
    exact (quietly_sendAppendEntries _ _ _ _).bind fun _ u => Quiet.refl u

theorem quietly_appendCurrentTerm (command : Command ν) :
    Quietly s (appendCurrentTerm n command s) := by
  unfold appendCurrentTerm
  split
  · exact ⟨.refl s, trivial⟩
  split
  · exact ⟨.refl s, trivial⟩
  · exact quiet_updatePersistent n _

/-! ## The state machine -/

theorem quietly_applyEach (indexes : List ℕ) (s : Cluster ν) :
    Quietly s (applyEach n indexes s) := by
  induction indexes generalizing s with
  | nil => exact Quiet.refl s
  | cons index rest ih =>
      rw [applyEach]
      split
      · exact ⟨.refl s, trivial⟩
      split
      · exact ⟨.refl s, trivial⟩
      · refine .after ?_ ((ih (writeApplied _ _ _ _)).bind fun _ t => Quiet.refl t)
        exact .of_fields rfl rfl rfl rfl (fun _ => rfl) rfl

theorem quietly_applierApplyCommitted : Quietly s (applierApplyCommitted n s) := by
  unfold applierApplyCommitted
  dsimp only
  split
  · exact .refl s
  split
  · exact ⟨.refl s, trivial⟩
  split
  · exact ⟨.refl s, trivial⟩
  · exact quietly_applyEach _ s

theorem quietly_applyCommands (entries : List (LogEntry (Command ν))) (s : Cluster ν) :
    Quietly s (applyCommands n entries s) := by
  induction entries generalizing s with
  | nil => exact Quiet.refl s
  | cons entry rest ih =>
      rw [applyCommands]
      split
      · exact ⟨.refl s, trivial⟩
      next image applied =>
        have written : Quiet s { s with kv := Function.update s.kv n image } :=
          .of_fields rfl rfl rfl rfl (fun _ => rfl) rfl
        exact .after written (ih _)

theorem quietly_kvApplyCommitted : Quietly s (kvApplyCommitted n s) := by
  unfold kvApplyCommitted
  dsimp only
  split
  · exact ⟨.refl s, trivial⟩
  split
  · exact ⟨.refl s, trivial⟩
  split
  · exact ⟨.refl s, trivial⟩
  · refine quietly_applierApplyCommitted.bind fun applied t => ?_
    exact (quietly_applyCommands _ t).bind fun _ u => Quiet.refl u

theorem quietly_applierCompactThrough (index term : ℕ) :
    Quietly s (applierCompactThrough n index term s) := by
  unfold applierCompactThrough
  dsimp only
  split
  · exact ⟨.refl s, trivial⟩
  split
  · split
    · exact ⟨.refl s, trivial⟩
    · exact .refl s
  split
  · exact ⟨.refl s, trivial⟩
  · exact .of_fields rfl rfl rfl rfl (fun _ => rfl) rfl

theorem quietly_assertStateMachineSafety : Quietly s (assertStateMachineSafety C s) := by
  unfold assertStateMachineSafety
  split
  · exact .refl s
  · exact ⟨.refl s, trivial⟩

/-! ## Snapshots -/

theorem quietly_createSnapshot : Quietly s (createSnapshot C n s) := by
  unfold createSnapshot
  dsimp only
  split
  · exact ⟨.refl s, trivial⟩
  split
  · exact ⟨.refl s, trivial⟩
  split
  · exact ⟨.refl s, trivial⟩
  split
  · exact ⟨.refl s, trivial⟩
  split
  · exact ⟨.refl s, trivial⟩
  · exact quiet_updatePersistent n _

theorem quietly_compactSnapshot : Quietly s (compactSnapshot C n s) := by
  unfold compactSnapshot
  refine quietly_createSnapshot.bind fun snapshot t => ?_
  dsimp only
  split
  · exact ⟨.refl t, trivial⟩
  · refine .after ?_ ((quietly_applierCompactThrough _ _).bind fun _ u => Quiet.refl u)
    exact quiet_updatePersistent n _

theorem quiet_writeSnapshot (snapshot : KVSnapshot ν) (suffix : List (LogEntry (Command ν))) :
    Quiet s (writeSnapshot n snapshot suffix s) :=
  .of_fields rfl rfl rfl rfl (fun _ => rfl) rfl

theorem quietly_installSnapshot (snapshot : KVSnapshot ν) (preserveMatchingSuffix : Bool) :
    Quietly s (installSnapshot C n snapshot preserveMatchingSuffix s) := by
  unfold installSnapshot
  dsimp only
  split
  · exact ⟨.refl s, trivial⟩
  split
  · split
    · exact ⟨.refl s, trivial⟩
    · exact .refl s
  split
  · exact ⟨.refl s, trivial⟩
  split
  · exact ⟨.refl s, trivial⟩
  split
  · exact ⟨.refl s, trivial⟩
  split
  · exact ⟨.refl s, trivial⟩
  next suffix _ _ _ =>
    have written := quiet_writeSnapshot (n := n) (s := s) snapshot suffix
    refine .after written (Quietly.bind ?_ fun _ t => quietly_assertLogMatching.bind fun _ u =>
      quietly_assertStateMachineSafety)
    split
    · exact quietly_advanceNodeCommit _
    · exact Quiet.refl _

theorem quietly_sendInstallSnapshot (follower : ν) (term : ℕ) (snapshot : KVSnapshot ν)
    (requestId : ℕ) : Quietly s (sendInstallSnapshot C n follower term snapshot requestId s) := by
  unfold sendInstallSnapshot
  split
  · exact ⟨.refl s, trivial⟩
  split
  · exact ⟨.refl s, trivial⟩
  split
  · exact ⟨.refl s, trivial⟩
  split
  · exact ⟨.refl s, trivial⟩
  split
  · exact ⟨.refl s, trivial⟩
  split
  · exact ⟨.refl s, trivial⟩
  · exact quiet_send (by simp)

theorem quiet_answerInstallSnapshot (request : InstallSnapshotRequest ν) (success : Bool)
    (installedIndex : ℕ) : Quiet s (answerInstallSnapshot request success installedIndex s) :=
  quiet_send (by simp)

theorem quietly_handleInstall (request : InstallSnapshotRequest ν) :
    Quietly s (handleInstallSnapshotRequest.install C request s) := by
  have installs := quietly_installSnapshot (C := C) (n := request.followerId) (s := s)
    request.snapshot true
  unfold handleInstallSnapshotRequest.install
  split
  next t installed =>
    rw [installed] at installs
    exact installs.trans (quiet_answerInstallSnapshot request _ _)
  next violation t raised =>
    rw [raised] at installs
    split
    · exact installs.1.trans (quiet_answerInstallSnapshot request _ _)
    · exact ⟨installs.1, trivial⟩

/-! ## The harness -/

omit [LinearOrder ν] in
theorem quietly_observe (check : Check ν) : Quietly s (observe check s) := by
  unfold observe
  split
  · exact ⟨.of_fields rfl rfl rfl rfl (fun _ => rfl) rfl, trivial⟩
  · exact .of_fields rfl rfl rfl rfl (fun _ => rfl) rfl

theorem quietly_checkpoint : Quietly s (checkpoint C s) := by
  unfold checkpoint
  refine Quietly.bind (.forEach fun _ _ => quietly_observe _) fun _ t => ?_
  refine Quietly.bind (.forEach fun _ _ => quietly_observe _) fun _ t => ?_
  refine Quietly.bind (.forEach fun _ _ => quietly_observe _) fun _ t => ?_
  refine Quietly.bind (.forEach fun _ _ => quietly_observe _) fun _ t => ?_
  exact quietly_assertLogMatching.bind fun _ u => quietly_assertStateMachineSafety

/-! ## Membership transitions -/

theorem quiet_persistMembershipCommitWatermark (index : ℕ) (command : Command ν) :
    Quiet s (persistMembershipCommitWatermark C index command s) := by
  unfold persistMembershipCommitWatermark
  generalize C.nodeIds = nodes
  induction nodes generalizing s with
  | nil => exact .refl s
  | cons n rest ih =>
      rw [List.foldl_cons]
      split
      · exact (quiet_updatePersistent n _).trans ih
      · exact ih

theorem quietly_requireTransitionLeader (t : MembershipTransition ν) :
    Quietly s (requireTransitionLeader t s) := by
  unfold requireTransitionLeader
  split
  · exact ⟨.refl s, trivial⟩
  · exact .refl s

theorem quietly_newTransition : Quietly s (newTransition C n s) := by
  unfold newTransition
  split
  · exact ⟨.refl s, trivial⟩
  · exact ⟨.refl s, trivial⟩
  split
  · exact ⟨.refl s, trivial⟩
  split
  · exact ⟨.refl s, trivial⟩
  · refine (quietly_requireTransitionLeader _).bind fun _ t => ?_
    split
    · exact ⟨.refl t, trivial⟩
    · exact .of_fields rfl rfl rfl rfl (fun _ => rfl) rfl

theorem quietly_appendPending (i : ℕ) (transition : MembershipTransition ν)
    (command : Command ν) : Quietly s (appendPending i transition command s) :=
  (quiet_updatePersistent transition.leader _).trans (quiet_updateTransition i _)

theorem quietly_proposeJoint (i : ℕ) (newVoters : Finset ν) :
    Quietly s (proposeJoint C i newVoters s) := by
  unfold proposeJoint
  split
  · exact .refl s
  · refine (quietly_requireTransitionLeader _).bind fun _ t => ?_
    split
    · exact ⟨.refl t, trivial⟩
    split
    · exact ⟨.refl t, trivial⟩
    · exact quietly_appendPending i _ _

theorem quietly_proposeFinalize (i : ℕ) : Quietly s (proposeFinalize i s) := by
  unfold proposeFinalize
  split
  · exact .refl s
  · refine (quietly_requireTransitionLeader _).bind fun _ t => ?_
    split
    · exact ⟨.refl t, trivial⟩
    split
    · exact ⟨.refl t, trivial⟩
    · exact quietly_appendPending i _ _

theorem quietly_committedPending (transition : MembershipTransition ν)
    (r : LeaderReplicator ν) : Quietly s (committedPending transition r s) := by
  unfold committedPending
  refine (quietly_requireTransitionLeader _).bind fun _ t => ?_
  split
  · exact ⟨.refl t, trivial⟩
  split
  · exact ⟨.refl t, trivial⟩
  split
  · exact .refl t
  split
  · exact ⟨.refl t, trivial⟩
  split
  · exact ⟨.refl t, trivial⟩
  · exact .refl t

end Distlab.Raft
