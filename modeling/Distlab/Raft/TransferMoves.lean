import Distlab.Raft.LeadershipTransfer

/-!
# The moves of leadership transfers

What a call of the transport does is a sequence of moves: the terms of the cluster grow,
an attempt is retired, a message is sent, a record is written, or a delivery starts the
election of a transferee. Only `send_timeout_now` mints an attempt, so a call that runs
the simulator finds afterwards no attempt that was not there before.
-/

set_option autoImplicit false

namespace Distlab.Raft

open Foundations

variable {ν : Type} [LinearOrder ν] {C : Config ν} {U : Licence ν}

/-! ## Terms -/

/-- A write of one node's durable state keeps its term or raises it. -/
theorem currentTerm_le_update (persistent : ν → Persistent ν) (m : ν) {p : Persistent ν}
    (grows : (persistent m).currentTerm ≤ p.currentTerm) (n : ν) :
    (persistent n).currentTerm ≤ (Function.update persistent m p n).currentTerm := by
  by_cases same : n = m
  · subst same
    rwa [Function.update_self]
  · rw [Function.update_of_ne same]

/-- A term does not decrease. -/
theorem Move.currentTerm_le {s s' : Cluster ν} (move : Move C U s s') (n : ν) :
    s.currentTerm n ≤ s'.currentTerm n := by
  have same : s'.persistent = s.persistent → s.currentTerm n ≤ s'.currentTerm n :=
    fun same => by rw [Cluster.currentTerm, Cluster.currentTerm, same]
  cases move with
  | housekeeping core_same =>
      have persistent : (core s').persistent = (core s).persistent := by rw [core_same]
      exact same persistent
  | advanceTerm m term higher =>
      refine currentTerm_le_update s.persistent m ?_ n
      exact higher.le
  | stand m =>
      refine currentTerm_le_update s.persistent m ?_ n
      exact Nat.le_succ _
  | grant message request arrived payload voter eligible term =>
      refine currentTerm_le_update s.persistent message.dst ?_ n
      exact term.ge
  | append m =>
      refine currentTerm_le_update s.persistent m ?_ n
      exact le_rfl
  | merge message =>
      refine currentTerm_le_update s.persistent message.dst ?_ n
      exact le_rfl
  | apply m | createSnapshot m | compactApplied m | compactLog m | installOwn m =>
      refine currentTerm_le_update s.persistent m ?_ n
      exact le_rfl
  | install message =>
      refine currentTerm_le_update s.persistent message.dst ?_ n
      exact le_rfl
  | watermark leader index command m =>
      refine currentTerm_le_update s.persistent m ?_ n
      exact le_rfl
  | _ => exact same rfl

/-- No node's term is lower than before. -/
def TermsGrow (s s' : Cluster ν) : Prop := ∀ n, s.currentTerm n ≤ s'.currentTerm n

theorem Moves.termsGrow {s s' : Cluster ν} (moves : Moves C U s s') : TermsGrow s s' := fun n =>
  moves.invariant (P := fun s' => s.currentTerm n ≤ s'.currentTerm n)
    (fun _ _ move grown => grown.trans (move.currentTerm_le n)) le_rfl

omit [LinearOrder ν] in
theorem TermsGrow.trans {s s' s'' : Cluster ν} (first : TermsGrow s s')
    (second : TermsGrow s' s'') : TermsGrow s s'' := fun n => (first n).trans (second n)

omit [LinearOrder ν] in
theorem termsGrow_of_persistent {s s' : Cluster ν} (same : s'.persistent = s.persistent) :
    TermsGrow s s' := fun n => by rw [Cluster.currentTerm, Cluster.currentTerm, same]

/-- No term is lower after the operation. -/
def Grows {β : Type} (s : Cluster ν) (operation : Op ν β) : Prop :=
  operation.Ensures (TermsGrow s) fun _ _ => True

theorem Runs.grows {β : Type} {s : Cluster ν} {operation : Op ν β}
    (runs : Runs C .unrestricted s operation) : Grows s operation :=
  runs.mono (fun _ => Moves.termsGrow) fun _ _ _ => trivial

omit [LinearOrder ν] in
theorem Grows.bind {β γ : Type} {s : Cluster ν} {first : Op ν β} {next : β → Cluster ν → Op ν γ}
    (grows : Grows s first) (rest : ∀ b s', first = .returns b s' → Grows s' (next b s')) :
    Grows s (first.bind next) :=
  Outcome.Ensures.bind grows (fun b s' returned before =>
    (rest b s' returned).mono (fun _ => before.trans) fun _ _ => id) fun _ => id

omit [LinearOrder ν] in
theorem Grows.returns {β : Type} {b : β} {s s' : Cluster ν} (same : s'.persistent = s.persistent) :
    Grows s (.returns b s') := termsGrow_of_persistent same

omit [LinearOrder ν] in
theorem Grows.raises {β : Type} {error : Error ν} {s : Cluster ν} :
    Grows s (.raises error s : Op ν β) := ⟨termsGrow_of_persistent rfl, trivial⟩

/-- A call of a driver. -/
theorem grows_step (event : {event : Event ν // event.Continues}) (s : Cluster ν) :
    Grows s (step C event.val s) :=
  (runs_step event.property (.inl trivial) (Event.allowed_of_proposes fun _ _ => trivial)).grows

theorem grows_acknowledgePeer (i : ℕ) (peer : ν) (matchIndex : ℕ) (s : Cluster ν) :
    Grows s (acknowledgePeer C i peer matchIndex s) := by
  unfold acknowledgePeer
  refine Grows.bind (s := s) ?_ fun _ s' _ => .returns rfl
  exact (runs_advanceCommitIndex (U := .unrestricted) i (advancePeer i peer matchIndex s)).grows

theorem grows_beginReplicateAppend (r : LeaderReplicator ν) (peer : ν) (s : Cluster ν) :
    Grows s (beginReplicateAppend C r peer s) := by
  unfold beginReplicateAppend
  dsimp only
  split
  · exact .raises
  · have send : Runs C .unrestricted s (sendAppendEntries C r.leader peer
        ((r.progress peer).nextIndex - 1) ((s.logView r.leader).suffixFrom
          (r.progress peer).nextIndex) r.commitIndex s) :=
      runs_sendAppendEntries fun _ _ => .inl trivial
    exact send.grows.bind fun _ s' _ => .returns rfl

theorem grows_finishReplicateAppend (i : ℕ) (r : LeaderReplicator ν) (probe : AppendProbe ν)
    (s : Cluster ν) : Grows s (finishReplicateAppend C i r probe s) := by
  unfold finishReplicateAppend
  split
  · exact .raises
  · exact (grows_acknowledgePeer i probe.peer _ s).bind fun _ s' _ => .returns rfl
  · exact .returns rfl

theorem grows_beginReplicateSnapshot (i : ℕ) (r : LeaderReplicator ν) (peer : ν)
    (s : Cluster ν) : Grows s (beginReplicateSnapshot C i r peer s) := by
  unfold beginReplicateSnapshot
  dsimp only
  split
  · exact .raises
  split
  · exact .raises
  next snapshot _ _ =>
    refine Grows.bind (s := s) ?_ fun _ s' _ => .returns rfl
    exact (runs_sendInstallSnapshot (U := .unrestricted)).grows

theorem grows_finishReplicateSnapshot (i : ℕ) (r : LeaderReplicator ν) (probe : SnapshotProbe ν)
    (s : Cluster ν) : Grows s (finishReplicateSnapshot C i r probe s) := by
  unfold finishReplicateSnapshot
  split
  · exact .raises
  split
  · exact .raises
  · exact .returns rfl
  · exact (grows_acknowledgePeer i probe.peer _ s).bind fun _ s' _ => .returns rfl

omit [LinearOrder ν] in
theorem grows_recoverCheck (i : ℕ) (peer : ν) (remaining : Option ℕ) (s : Cluster ν) :
    Grows s (recoverCheck i peer remaining s) := by
  unfold recoverCheck
  split
  · exact .returns rfl
  · next r _ =>
    unfold requireCurrentLeader
    split
    · exact .raises
    · rw [Outcome.bind_returns]
      split
      · exact .returns rfl
      · split <;> exact .returns rfl

/-! ## The election of a transferee -/

theorem persistent_sendAll (src : ν) (dsts : List ν) (payload : Payload ν) (s : Cluster ν) :
    (s.sendAll src dsts payload).persistent = s.persistent := by
  unfold Cluster.sendAll
  induction dsts generalizing s with
  | nil => rfl
  | cons dst rest ih => rw [List.foldl_cons, ih, Cluster.send]

theorem persistent_notifyLeaderAcquired (n : ν) (term : ℕ) (s : Cluster ν) :
    (notifyLeaderAcquired n term s).persistent = s.persistent := by
  have same : (core (notifyLeaderAcquired n term s)).persistent = (core s).persistent := by
    rw [core_notifyLeaderAcquired]
  exact same

theorem persistent_becomeLeader (n : ν) (term : ℕ) (s : Cluster ν) :
    (becomeLeader n term s).state.persistent = s.persistent := by
  unfold becomeLeader recordLeader
  split
  · rfl
  split
  · exact persistent_notifyLeaderAcquired n term _
  · split
    · rfl
    · exact persistent_notifyLeaderAcquired n term _

/-- A voter that is alive stands for election in a term of its own. -/
theorem startElection_higher {n : ν} {s : Cluster ν} (alive : s.alive n = true)
    (voter : isVoter C s n = true) :
    (startElection C n s).Ensures (fun s' => TermsGrow s s' ∧ s.currentTerm n < s'.currentTerm n)
      fun _ _ => True := by
  have grown : ∀ {s' : Cluster ν}, s'.persistent =
      (becomeCandidate n (clearPreVote n s)).persistent →
      TermsGrow s s' ∧ s.currentTerm n < s'.currentTerm n := by
    intro s' same
    have here : s'.currentTerm n = s.currentTerm n + 1 := by
      rw [Cluster.currentTerm, same]
      simp [becomeCandidate, persistTermAndVote, Cluster.updatePersistent, Cluster.record,
        Cluster.updateVolatile, Cluster.currentTerm]
    refine ⟨fun m => ?_, by omega⟩
    rw [Cluster.currentTerm, Cluster.currentTerm, same]
    refine currentTerm_le_update s.persistent n ?_ m
    exact Nat.le_succ _
  unfold startElection
  rw [if_neg (not_not.mpr alive), if_neg (not_not.mpr voter)]
  dsimp only
  split
  · have same := persistent_becomeLeader n (s.currentTerm n + 1)
      (resetElectionTimeout C n (becomeCandidate n (clearPreVote n s)))
    rw [persistent_resetElectionTimeout] at same
    cases led : becomeLeader n (s.currentTerm n + 1)
        (resetElectionTimeout C n (becomeCandidate n (clearPreVote n s))) with
    | returns _ s' =>
        rw [led] at same
        exact grown same
    | raises error s' =>
        rw [led] at same
        exact ⟨grown same, trivial⟩
  · refine grown ?_
    rw [persistent_sendAll, persistent_resetElectionTimeout]

/-! ## Moves -/

/-- One move. `mints` says whether an attempt may be minted. -/
inductive TransferMove (mints : Prop) : TransferCluster ν → TransferCluster ν → Prop
  | cluster {t : TransferCluster ν} (s : Cluster ν) (grows : TermsGrow t.cluster s) :
      TransferMove mints t { t with cluster := s }
  | record {t : TransferCluster ν} (entry : TimeoutNowRecord ν)
      (other : ∀ request, entry ≠ .delivered request) : TransferMove mints t (t.record entry)
  | retire {t : TransferCluster ν} (attemptId : ℕ) : TransferMove mints t (t.retire attemptId)
  | post {t : TransferCluster ν} (message : TimeoutNowMessage ν) :
      TransferMove mints t (t.post message)
  | mint {t : TransferCluster ν} (leader transferee : ν) (term : ℕ) (allowed : mints) :
      TransferMove mints t (t.mint leader transferee term)
  | trigger {t : TransferCluster ν} (request : TimeoutNow ν) (s : Cluster ν)
      (active : t.transport.activeAttempts.lookup request.attemptId = some request.identity)
      (current : request.term = t.cluster.currentTerm request.transfereeId)
      (grows : TermsGrow t.cluster s) (higher : request.term < s.currentTerm request.transfereeId) :
      TransferMove mints t { t.record (.delivered request) with cluster := s }

/-- Any number of moves. -/
def TransferMoves (mints : Prop) : TransferCluster ν → TransferCluster ν → Prop :=
  Relation.ReflTransGen (TransferMove mints)

variable {mints : Prop}

namespace TransferMoves

theorem refl (t : TransferCluster ν) : TransferMoves mints t t := Relation.ReflTransGen.refl

theorem trans {t t' t'' : TransferCluster ν} (first : TransferMoves mints t t')
    (second : TransferMoves mints t' t'') : TransferMoves mints t t'' :=
  Relation.ReflTransGen.trans first second

theorem one {t t' : TransferCluster ν} (move : TransferMove mints t t') :
    TransferMoves mints t t' := Relation.ReflTransGen.single move

theorem invariant {P : TransferCluster ν → Prop} {t t' : TransferCluster ν}
    (keeps : ∀ t t', TransferMove mints t t' → P t → P t') (moves : TransferMoves mints t t')
    (holds : P t) : P t' := by
  induction moves with
  | refl => exact holds
  | tail _ move ih => exact keeps _ _ move ih

end TransferMoves

/-- The operation is a sequence of moves. -/
def Transfers (mints : Prop) {ε β : Type} (t : TransferCluster ν)
    (operation : Outcome ε (TransferCluster ν) β) : Prop :=
  operation.Ensures (TransferMoves mints t) fun _ _ => True

theorem Transfers.bind {ε β γ : Type} {t : TransferCluster ν}
    {first : Outcome ε (TransferCluster ν) β}
    {next : β → TransferCluster ν → Outcome ε (TransferCluster ν) γ}
    (transfers : Transfers mints t first)
    (rest : ∀ b t', first = .returns b t' → Transfers mints t' (next b t')) :
    Transfers mints t (first.bind next) :=
  Outcome.Ensures.bind transfers (fun b t' returned before =>
    (rest b t' returned).mono (fun _ => before.trans) fun _ _ => id) fun _ => id

theorem Transfers.returns {ε β : Type} {b : β} {t t' : TransferCluster ν}
    (moves : TransferMoves mints t t') :
    Transfers mints t (.returns b t' : Outcome ε (TransferCluster ν) β) := moves

theorem Transfers.raises {ε β : Type} {error : ε} {t t' : TransferCluster ν}
    (moves : TransferMoves mints t t') :
    Transfers mints t (.raises error t' : Outcome ε (TransferCluster ν) β) := ⟨moves, trivial⟩

/-- What follows some moves. -/
theorem TransferMoves.after {ε β : Type} {t t' : TransferCluster ν}
    {operation : Outcome ε (TransferCluster ν) β} (moves : TransferMoves mints t t')
    (transfers : Transfers mints t' operation) : Transfers mints t operation :=
  transfers.mono (fun _ => moves.trans) fun _ _ => id

theorem Grows.transfers {β : Type} {operation : Cluster ν → Op ν β} {t : TransferCluster ν}
    (grows : Grows t.cluster (operation t.cluster)) :
      Transfers mints t (onCluster operation t) := by
  unfold onCluster
  cases outcome : operation t.cluster with
  | returns b s =>
      rw [outcome] at grows
      exact .returns (.one (.cluster s grows))
  | raises error s =>
      rw [outcome] at grows
      exact .raises (.one (.cluster s grows.1))

theorem Transfers.uncaughtErrors {β : Type} {t : TransferCluster ν} {operation : TransportOp ν β}
    (transfers : Transfers mints t operation) : Transfers mints t (uncaughtErrors operation) := by
  cases operation with
  | returns b t' => exact transfers
  | raises error t' => exact transfers

/-! ## The calls of the transport -/

theorem moves_retireAttempt {entry : ν × ν × ℕ → ℕ → TimeoutNowRecord ν}
    (other : ∀ identity attemptId request, entry identity attemptId ≠ .delivered request)
    (attemptId : ℕ) (t : TransferCluster ν) :
    TransferMoves mints t (retireAttempt entry attemptId t) := by
  have retire : TransferMoves mints t (t.retire attemptId) := .one (.retire attemptId)
  unfold retireAttempt
  split
  · exact retire
  · exact retire.trans (.one (.record _ (other _ _)))

theorem moves_cancelTimeoutNow (attemptId : ℕ) (t : TransferCluster ν) :
    TransferMoves mints t (cancelTimeoutNow attemptId t) :=
  moves_retireAttempt (fun _ _ _ same => by cases same) attemptId t

theorem moves_completeTimeoutNow (attemptId : ℕ) (t : TransferCluster ν) :
    TransferMoves mints t (completeTimeoutNow attemptId t) :=
  moves_retireAttempt (fun _ _ _ same => by cases same) attemptId t

/-- What a delivery that starts an election has passed. -/
theorem of_timeoutNowRejection_none {request : TimeoutNow ν} {t : TransferCluster ν}
    (accepted : timeoutNowRejection C request t = none) :
    t.transport.activeAttempts.lookup request.attemptId = some request.identity ∧
      t.cluster.alive request.transfereeId = true ∧
      request.term = t.cluster.currentTerm request.transfereeId ∧
      isVoter C t.cluster request.transfereeId = true := by
  unfold timeoutNowRejection at accepted
  dsimp only at accepted
  split at accepted
  · cases accepted
  next active =>
  split at accepted
  · cases accepted
  next alive =>
  split at accepted
  · cases accepted
  split at accepted
  · cases accepted
  next current =>
  iterate 4
    split at accepted
    · cases accepted
  refine ⟨not_not.mp active, not_not.mp alive, not_not.mp current, ?_⟩
  unfold membershipRejection at accepted
  split at accepted
  · next fixed => simp only [isVoter, fixed]
  · split at accepted
    · cases accepted
    · next voter => exact not_not.mp voter

theorem transfers_handleTimeoutNow (request : TimeoutNow ν) (t : TransferCluster ν) :
    Transfers mints t (handleTimeoutNow C request t) := by
  unfold handleTimeoutNow
  split
  · next reason _ =>
    have kept : ∀ condition : Prop, [Decidable condition] →
        TransferMoves mints t (if condition then t.retire request.attemptId else t) := by
      intro condition _
      split
      · exact .one (.retire _)
      · exact .refl t
    exact .returns ((kept _).trans (.one (.record _ fun _ same => by cases same)))
  · next accepted =>
    obtain ⟨active, alive, current, voter⟩ := of_timeoutNowRejection_none accepted
    have elects := startElection_higher (C := C) (s := (t.record (.delivered request)).cluster)
      alive voter
    unfold onCluster
    cases outcome :
        startElection C request.transfereeId (t.record (.delivered request)).cluster with
    | returns b s =>
        rw [outcome] at elects
        exact .returns (.one (.trigger request s active current elects.1
          (current ▸ elects.2)))
    | raises error s =>
        rw [outcome] at elects
        exact .raises (.one (.trigger request s active current elects.1.1
          (current ▸ elects.1.2)))

theorem transfers_deliverTimeoutNow (message : TimeoutNowMessage ν) (t : TransferCluster ν) :
    Transfers mints t (deliverTimeoutNow C message t) := by
  unfold deliverTimeoutNow
  split
  · exact .returns (.refl t)
  split
  · exact .returns (.one (.record _ fun _ same => by cases same))
  · exact transfers_handleTimeoutNow message.payload t

theorem transfers_retryTimeoutNow (attemptId : ℕ) (t : TransferCluster ν) :
    Transfers mints t (retryTimeoutNow C attemptId t) := by
  unfold retryTimeoutNow
  split
  · exact .raises (.refl t)
  dsimp only
  split
  · exact .raises (.one (.record _ fun _ same => by cases same))
  · refine .returns (TransferMoves.trans (.one (.record _ fun _ same => ?_)) (.one (.post _)))
    cases same

theorem transfers_transportStep (event : TransportEvent ν) (t : TransferCluster ν) :
    Transfers mints t (transportStep C event t) := by
  cases event with
  | cluster event => exact (grows_step event t.cluster).transfers
  | deliver elapsed position =>
      have waits : TransferMoves mints t { t with cluster := t.cluster.elapse elapsed } :=
        .one (.cluster _ (termsGrow_of_persistent rfl))
      unfold transportStep
      dsimp only
      split
      · exact .returns waits
      · next message _ => exact waits.after (transfers_deliverTimeoutNow message _)
  | post message => exact .returns (.one (.post message))
  | cancel attemptId => exact .returns (moves_cancelTimeoutNow attemptId t)
  | complete attemptId => exact .returns (moves_completeTimeoutNow attemptId t)
  | retry attemptId => exact transfers_retryTimeoutNow attemptId t

theorem transfers_runTransport (window : List (TransportEvent ν)) (t : TransferCluster ν) :
    Transfers mints t (runTransport C window t) := by
  refine Outcome.ensures_forEach (fun event _ t' moves => ?_) t (.refl t)
  exact (transfers_transportStep event t').mono (fun _ => moves.trans) fun _ _ => id

/-- `send_timeout_now` mints one attempt at most. -/
theorem transfers_sendTimeoutNow (named : ν → Bool) (leader transferee : ν) (term : ℕ)
    (t : TransferCluster ν) :
      Transfers True t (sendTimeoutNow C named leader transferee term t) := by
  unfold sendTimeoutNow
  iterate 5
    split
    · exact .raises (.refl t)
  split
  · exact .raises (.one (.record _ fun _ same => by cases same))
  · have minted : TransferMoves True t ((t.mint leader transferee term).record
        (.request ⟨term, leader, transferee,
          (t.mint leader transferee term).transport.nextAttemptId⟩)) :=
      TransferMoves.trans (.one (.mint leader transferee term trivial))
        (.one (.record _ fun _ same => by cases same))
    dsimp only
    split
    · exact .raises minted
    · exact .returns (minted.trans (.one (.post _)))

end Distlab.Raft
