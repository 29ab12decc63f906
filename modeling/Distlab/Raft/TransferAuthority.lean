import Distlab.Raft.TransferMoves

/-!
# The authority that a leadership transfer leaves behind

A call of `transfer` mints at most one attempt. When the call ends, by a return or by an
error, the attempt is active exactly where an error has left the call that it does not
catch: out of the simulator while the call waits, or out of the second catch-up of the
transferee, unless it is a `ReplicationError` (`leavesNoAuthority_iff`). An active attempt
is live authority: a later delivery of its `TimeoutNow` may start an election, and the
leader cannot transfer again in its term. Where those runs raise nothing that the call does
not catch, no attempt is left active (`transfer_leaves_no_authority`).

Whatever happens, an attempt starts one election at most, because the election raises
the transferee's term beyond the attempt's.
-/

set_option autoImplicit false

namespace Distlab.Raft

open Foundations

variable {ν : Type} [LinearOrder ν] {C : Config ν} {mints : Prop}

/-! ## Attempts -/

/-- The record shows that a message of the attempt started an election. -/
def TimeoutNowRecord.elects (attemptId : ℕ) : TimeoutNowRecord ν → Bool
  | .delivered timeoutNow => decide (timeoutNow.attemptId = attemptId)
  | _ => false

namespace TransferCluster

variable (t : TransferCluster ν)

/-- The elections that the messages of an attempt have started. -/
def elections (attemptId : ℕ) : ℕ := t.transport.records.countP (·.elects attemptId)

/-- The attempt is active. -/
def IsActive (attemptId : ℕ) : Prop := (t.transport.activeAttempts.lookup attemptId).isSome = true

instance (attemptId : ℕ) : Decidable (t.IsActive attemptId) := by
  unfold IsActive
  infer_instance

end TransferCluster

omit [LinearOrder ν] in
theorem TransferCluster.isActive_retire {t : TransferCluster ν} {attemptId other : ℕ} :
    (t.retire attemptId).IsActive other ↔ other ≠ attemptId ∧ t.IsActive other := by
  unfold IsActive retire
  dsimp only
  rw [Dict.lookup_erase]
  by_cases same : other = attemptId
  · simp [same]
  · simp [same]

omit [LinearOrder ν] in
theorem TransferCluster.activeAttempts_mint {t : TransferCluster ν} {leader transferee : ν}
    {term attemptId : ℕ} {identity : ν × ν × ℕ}
    (found : (t.mint leader transferee term).transport.activeAttempts.lookup attemptId =
      some identity) :
    t.transport.activeAttempts.lookup attemptId = some identity ∨
      attemptId = t.transport.nextAttemptId + 1 := by
  obtain ⟨here, -⟩ | ⟨-, before⟩ := Dict.of_lookup_insert found
  · exact .inr here
  · exact .inl before

/-- An attempt that is active after a move was so before, or it has been minted. -/
theorem TransferMove.activeAttempts {t t' : TransferCluster ν} (move : TransferMove mints t t')
    {attemptId : ℕ} {identity : ν × ν × ℕ}
    (found : t'.transport.activeAttempts.lookup attemptId = some identity) :
    t.transport.activeAttempts.lookup attemptId = some identity ∨
      mints ∧ t.transport.nextAttemptId < attemptId := by
  cases move with
  | retire retired => exact .inl (Dict.of_lookup_erase found).2
  | mint leader transferee term allowed =>
      refine (TransferCluster.activeAttempts_mint found).imp id fun minted => ⟨allowed, ?_⟩
      omega
  | _ => exact .inl found

/-- Attempts are numbered upwards. -/
theorem TransferMove.nextAttemptId {t t' : TransferCluster ν} (move : TransferMove mints t t') :
    t.transport.nextAttemptId ≤ t'.transport.nextAttemptId := by
  cases move with
  | mint => exact Nat.le_succ _
  | _ => exact le_rfl

theorem TransferMoves.nextAttemptId_eq {t t' : TransferCluster ν}
    (moves : TransferMoves False t t') :
    t'.transport.nextAttemptId = t.transport.nextAttemptId :=
  moves.invariant (P := fun t' => t'.transport.nextAttemptId = t.transport.nextAttemptId)
    (fun _ _ move same => by
      cases move with
      | mint _ _ _ allowed => exact allowed.elim
      | _ => exact same) rfl

theorem TransferMoves.activeAttempts {t t' : TransferCluster ν} (moves : TransferMoves mints t t')
    {attemptId : ℕ} {identity : ν × ν × ℕ}
    (found : t'.transport.activeAttempts.lookup attemptId = some identity) :
    t.transport.activeAttempts.lookup attemptId = some identity ∨
      mints ∧ t.transport.nextAttemptId < attemptId := by
  have kept := moves.invariant
    (P := fun t' => t.transport.nextAttemptId ≤ t'.transport.nextAttemptId ∧
      (t'.transport.activeAttempts.lookup attemptId = some identity →
        t.transport.activeAttempts.lookup attemptId = some identity ∨
          mints ∧ t.transport.nextAttemptId < attemptId))
    (fun t₁ t₂ move before => by
      refine ⟨before.1.trans move.nextAttemptId, fun found => ?_⟩
      obtain earlier | ⟨allowed, minted⟩ := move.activeAttempts found
      · exact before.2 earlier
      · exact .inr ⟨allowed, before.1.trans_lt minted⟩) ⟨le_rfl, .inl⟩
  exact kept.2 found

/-- What holds of the attempts in every run. -/
structure Attempts (t : TransferCluster ν) : Prop where
  numbered : ∀ attemptId identity,
    t.transport.activeAttempts.lookup attemptId = some identity →
      attemptId ≤ t.transport.nextAttemptId
  /-- A message that started an election has left its transferee in a higher term. -/
  elected : ∀ request, .delivered request ∈ t.transport.records →
    request.attemptId ≤ t.transport.nextAttemptId ∧
      request.term < t.cluster.currentTerm request.transfereeId ∧
      ∀ identity, t.transport.activeAttempts.lookup request.attemptId = some identity →
        identity = request.identity
  once : ∀ attemptId, t.elections attemptId ≤ 1

omit [LinearOrder ν] in
theorem elections_record (entry : TimeoutNowRecord ν) (attemptId : ℕ) (t : TransferCluster ν) :
    (t.record entry).elections attemptId =
      t.elections attemptId + if entry.elects attemptId then 1 else 0 := by
  unfold TransferCluster.elections TransferCluster.record
  rw [List.countP_append, List.countP_singleton]

omit [LinearOrder ν] in
theorem elects_iff {attemptId : ℕ} {entry : TimeoutNowRecord ν} :
    entry.elects attemptId = true ↔ ∃ request, entry = .delivered request ∧
      request.attemptId = attemptId := by
  cases entry with
  | delivered request =>
      constructor
      · exact fun elects => ⟨request, rfl, of_decide_eq_true elects⟩
      · rintro ⟨_, same, number⟩
        cases same
        exact decide_eq_true number
  | _ =>
      constructor
      · intro elects
        cases elects
      · rintro ⟨_, same, _⟩
        cases same

omit [LinearOrder ν] in
/-- An election of an attempt that is active in the transferee's term is its first. -/
theorem Attempts.elections_eq_zero {t : TransferCluster ν} (attempts : Attempts t)
    {request : TimeoutNow ν}
    (active : t.transport.activeAttempts.lookup request.attemptId = some request.identity)
    (current : request.term = t.cluster.currentTerm request.transfereeId) :
    t.elections request.attemptId = 0 := by
  refine List.countP_eq_zero.mpr fun entry recorded elects => ?_
  obtain ⟨earlier, rfl, number⟩ := elects_iff.mp elects
  obtain ⟨-, passed, same⟩ := attempts.elected earlier recorded
  have identity := same _ (number ▸ active)
  simp only [TimeoutNow.identity, Prod.mk.injEq] at identity
  obtain ⟨-, transferee, term⟩ := identity
  rw [← transferee, ← term, current] at passed
  exact lt_irrefl _ passed

theorem TransferMove.attempts {t t' : TransferCluster ν} (move : TransferMove mints t t')
    (attempts : Attempts t) : Attempts t' := by
  cases move with
  | cluster s grows =>
      refine ⟨attempts.numbered, fun request recorded => ?_, attempts.once⟩
      obtain ⟨number, passed, same⟩ := attempts.elected request recorded
      exact ⟨number, passed.trans_le (grows _), same⟩
  | record entry other =>
      refine ⟨attempts.numbered, fun request recorded => ?_, fun attemptId => ?_⟩
      · obtain before | here := List.mem_append.mp recorded
        · exact attempts.elected request before
        · exact absurd (List.mem_singleton.mp here).symm (other request)
      · rw [elections_record, if_neg fun elects => ?_]
        · exact attempts.once attemptId
        · obtain ⟨request, same, -⟩ := elects_iff.mp elects
          exact other request same
  | retire attemptId =>
      refine ⟨fun id identity found => ?_, fun request recorded => ?_, attempts.once⟩
      · exact attempts.numbered id identity (Dict.of_lookup_erase found).2
      · obtain ⟨number, passed, same⟩ := attempts.elected request recorded
        exact ⟨number, passed, fun identity found => same identity (Dict.of_lookup_erase found).2⟩
  | post message => exact ⟨attempts.numbered, attempts.elected, attempts.once⟩
  | mint leader transferee term =>
      refine ⟨fun id identity found => ?_, fun request recorded => ?_, attempts.once⟩
      · obtain before | minted := TransferCluster.activeAttempts_mint found
        · exact (attempts.numbered id identity before).trans (Nat.le_succ _)
        · exact minted.le
      · obtain ⟨number, passed, same⟩ := attempts.elected request recorded
        refine ⟨number.trans (Nat.le_succ _), passed, fun identity found => ?_⟩
        obtain before | minted := TransferCluster.activeAttempts_mint found
        · exact same identity before
        · omega
  | trigger request s active current grows higher =>
      refine ⟨attempts.numbered, fun other recorded => ?_, fun attemptId => ?_⟩
      · obtain before | here := List.mem_append.mp recorded
        · obtain ⟨number, passed, same⟩ := attempts.elected other before
          exact ⟨number, passed.trans_le (grows _), same⟩
        · cases List.mem_singleton.mp here
          refine ⟨attempts.numbered _ _ active, higher, fun identity found => ?_⟩
          exact Option.some.inj (found.symm.trans active)
      · change (t.record (.delivered request)).elections attemptId ≤ 1
        rw [elections_record]
        by_cases own : request.attemptId = attemptId
        · subst own
          rw [attempts.elections_eq_zero active current]
          split <;> omega
        · have other : (TimeoutNowRecord.delivered request).elects attemptId = false :=
            decide_eq_false own
          rw [other]
          exact attempts.once attemptId

theorem TransferMoves.attempts {t t' : TransferCluster ν} (moves : TransferMoves mints t t')
    (attempts : Attempts t) : Attempts t' :=
  moves.invariant (fun _ _ move => move.attempts) attempts

/-! ## The parts of a transfer -/

theorem transfers_replicateDuring (i : ℕ) (peer : ν) (window : List (TransportEvent ν))
    (t : TransferCluster ν) : Transfers mints t (replicateDuring C i peer window t) := by
  unfold replicateDuring
  split
  · exact .returns (.refl t)
  next r _ =>
  have current : Runs C .unrestricted t.cluster (requireCurrentLeader r t.cluster) :=
    runs_requireCurrentLeader r t.cluster
  refine current.grows.transfers.bind fun _ t₁ _ => ?_
  split
  · refine (grows_beginReplicateSnapshot i r peer t₁.cluster).transfers.bind fun probe t₂ _ => ?_
    refine (transfers_runTransport window t₂).bind fun _ t₃ _ => ?_
    exact (grows_finishReplicateSnapshot i r probe t₃.cluster).transfers
  · refine (grows_beginReplicateAppend r peer t₁.cluster).transfers.bind fun probe t₂ _ => ?_
    refine (transfers_runTransport window t₂).bind fun _ t₃ _ => ?_
    exact (grows_finishReplicateAppend i r probe t₃.cluster).transfers

theorem transfers_recoverLoopDuring (i : ℕ) (peer : ν) (windows : ℕ → List (TransportEvent ν))
    (attempts : ℕ) (t : TransferCluster ν) :
    Transfers mints t (recoverLoopDuring C i peer windows attempts t) := by
  induction attempts generalizing t with
  | zero =>
      refine (grows_recoverCheck i peer _ t.cluster).transfers.bind fun done t₁ _ => ?_
      exact .returns (.refl t₁)
  | succ attempts ih =>
      refine (grows_recoverCheck i peer _ t.cluster).transfers.bind fun done t₁ _ => ?_
      cases done with
      | some result => exact .returns (.refl t₁)
      | none => exact (transfers_replicateDuring i peer _ t₁).bind fun _ t₂ _ => ih t₂

theorem transfers_recoverPeerDuring (i : ℕ) (peer : ν) (maxAttempts : ℕ)
    (windows : ℕ → List (TransportEvent ν)) (t : TransferCluster ν) :
    Transfers mints t (recoverPeerDuring C i peer maxAttempts windows t) := by
  unfold recoverPeerDuring
  split
  · exact .raises (.refl t)
  split
  · exact .raises (.refl t)
  · exact transfers_recoverLoopDuring i peer windows maxAttempts t

/-- What the head of a transfer has checked. -/
theorem requireTransferee_returns {call : TransferCall ν} {t t' : TransferCluster ν}
    (returned : requireTransferee C call t = .returns () t') :
    t' = t ∧ call.transferee ∈ C.nodeIds ∧ call.leader ≠ call.transferee := by
  unfold requireTransferee at returned
  dsimp only at returned
  split at returned
  · cases returned
  split at returned
  · cases returned
  split at returned
  · cases returned
  next peer =>
  split at returned
  · cases returned
  split at returned
  · cases returned
  cases returned
  rw [not_or, not_not] at peer
  exact ⟨rfl, (List.mem_filter.mp peer.2).1, fun same => peer.1 same.symm⟩

theorem transfers_catchUpTransferee (call : TransferCall ν) (i previousTerm : ℕ)
    (t : TransferCluster ν) : Transfers mints t (catchUpTransferee C call i previousTerm t) := by
  have recovers : Transfers mints t (recoverPeerDuring C i call.transferee
      call.maxReplicationAttempts call.catchUp t) := transfers_recoverPeerDuring i _ _ _ t
  unfold catchUpTransferee
  split
  · next error t₁ outcome =>
    rw [outcome] at recovers
    split <;> exact .raises recovers.1
  · next t₁ outcome =>
    rw [outcome] at recovers
    exact .raises recovers
  · next t₁ outcome =>
    rw [outcome] at recovers
    iterate 3
      split
      · exact .raises recovers
    exact .returns recovers

/-- What a catch-up has checked when it returns. -/
theorem catchUpTransferee_returns {call : TransferCall ν} {i previousTerm : ℕ}
    {t t' : TransferCluster ν}
    (returned : catchUpTransferee C call i previousTerm t = .returns () t') :
    t'.cluster.alive call.transferee = true ∧ t'.cluster.role call.leader = .leader ∧
      t'.cluster.currentTerm call.leader = previousTerm := by
  unfold catchUpTransferee at returned
  split at returned
  · split at returned <;> cases returned
  · cases returned
  · split at returned
    · cases returned
    next alive =>
    split at returned
    · cases returned
    next kept =>
    split at returned
    · cases returned
    cases returned
    simp only [authorityLost, decide_eq_true_eq, not_or, not_not] at kept
    exact ⟨not_not.mp alive, kept⟩

theorem transfers_prepareTransfer (call : TransferCall ν) (t : TransferCluster ν) :
    Transfers mints t (prepareTransfer C call t) := by
  unfold prepareTransfer
  have checks : Transfers mints t (requireTransferee C call t) := by
    unfold requireTransferee
    dsimp only
    iterate 5
      split
      · exact .raises (.refl t)
    exact .returns (.refl t)
  refine checks.bind fun _ t₁ _ => ?_
  have creates : Runs C .unrestricted t₁.cluster (newReplicator C call.leader
      call.snapshotTransport C.membershipAware t₁.cluster) := runs_newReplicator
  refine (creates.grows.transfers.uncaughtErrors).bind fun _ t₂ _ => ?_
  refine (transfers_catchUpTransferee call _ _ t₂).bind fun _ t₃ _ => ?_
  exact .returns (.refl t₃)

/-- What holds at the dispatch. -/
theorem prepareTransfer_returns {call : TransferCall ν} {t ready : TransferCluster ν} {i : ℕ}
    (returned : prepareTransfer C call t = .returns i ready) :
    call.leader ∈ C.nodeIds ∧ call.transferee ∈ C.nodeIds ∧ call.leader ≠ call.transferee ∧
      ready.cluster.alive call.transferee = true ∧ ready.cluster.role call.leader = .leader ∧
      ready.cluster.currentTerm call.leader = t.cluster.currentTerm call.leader := by
  unfold prepareTransfer at returned
  obtain ⟨_, t₁, checked, created⟩ := Outcome.bind_eq_returns.mp returned
  obtain ⟨rfl, transferee, distinct⟩ := requireTransferee_returns checked
  obtain ⟨_, t₂, creates, caught⟩ := Outcome.bind_eq_returns.mp created
  obtain ⟨_, t₃, catches, done⟩ := Outcome.bind_eq_returns.mp caught
  cases done
  obtain ⟨alive, leads, current⟩ := catchUpTransferee_returns catches
  refine ⟨?_, transferee, distinct, alive, leads, current⟩
  by_contra outside
  simp only [newReplicator, if_pos outside, onCluster, uncaughtErrors] at creates
  cases creates

theorem transfers_dispatchTimeoutNow (named : ν → Bool) (call : TransferCall ν)
    (previousTerm : ℕ) (t : TransferCluster ν) :
    Transfers True t (dispatchTimeoutNow C named call previousTerm t) := by
  have sends := transfers_sendTimeoutNow (C := C) named call.leader call.transferee previousTerm t
  unfold dispatchTimeoutNow
  split
  · next attemptId t₁ outcome =>
    rw [outcome] at sends
    exact .returns sends
  · next error t₁ outcome =>
    rw [outcome] at sends
    split <;> exact .raises sends.1

theorem transfers_awaitElection (call : TransferCall ν) (previousTerm budget : ℕ)
    (passes : List (List (TransportEvent ν))) (t : TransferCluster ν) :
    Transfers mints t (awaitElection C call previousTerm budget passes t) := by
  induction budget generalizing passes t with
  | zero => exact .returns (.refl t)
  | succ budget ih =>
      cases passes with
      | nil => exact .returns (.refl t)
      | cons pass passes =>
          rw [awaitElection]
          split
          · exact .returns (.refl t)
          · exact (transfers_runTransport pass t).bind fun _ t₁ _ => ih passes t₁

theorem transfers_retryTransfer (call : TransferCall ν) (previousTerm i attemptId : ℕ)
    (windows : ℕ → List (TransportEvent ν)) (t : TransferCluster ν) :
    Transfers mints t (retryTransfer C call previousTerm i attemptId windows t) := by
  have recovers : Transfers mints t (recoverPeerDuring C i call.transferee
      call.maxReplicationAttempts windows t) := transfers_recoverPeerDuring i _ _ _ t
  have cancels : ∀ t₁, TransferMoves mints t t₁ →
      TransferMoves mints t (cancelTimeoutNow attemptId t₁) := fun t₁ moves =>
    moves.trans (moves_cancelTimeoutNow attemptId t₁)
  unfold retryTransfer
  split
  · next error t₁ outcome =>
    rw [outcome] at recovers
    split
    · exact .raises (cancels t₁ recovers.1)
    · exact .raises recovers.1
  · next t₁ outcome =>
    rw [outcome] at recovers
    exact .raises (cancels t₁ recovers)
  · next t₁ outcome =>
    rw [outcome] at recovers
    split
    · exact .raises (cancels t₁ recovers)
    split
    · exact .raises (cancels t₁ recovers)
    have retries : Transfers mints t₁ (retryTimeoutNow C attemptId t₁) :=
      transfers_retryTimeoutNow attemptId t₁
    split
    · next t₂ outcome' =>
      rw [outcome'] at retries
      exact .returns (recovers.trans retries)
    · next error t₂ outcome' =>
      rw [outcome'] at retries
      dsimp only
      split <;> exact .raises (cancels t₂ (recovers.trans retries.1))

theorem transfers_awaitTransferee (call : TransferCall ν) (previousTerm i attemptId left : ℕ)
    (t : TransferCluster ν) :
    Transfers mints t (awaitTransferee C call previousTerm i attemptId left t) := by
  induction left generalizing t with
  | zero => exact .returns (.refl t)
  | succ left ih =>
      refine (transfers_awaitElection call previousTerm _ _ t).uncaughtErrors.bind
        fun _ t₁ _ => ?_
      split
      · exact .returns (.refl t₁)
      · exact (transfers_retryTransfer call previousTerm i attemptId _ t₁).bind
          fun _ t₂ _ => ih t₂

theorem transfers_concludeTransfer (call : TransferCall ν) (previousTerm attemptId : ℕ)
    (t : TransferCluster ν) :
    Transfers mints t (concludeTransfer call previousTerm attemptId t) := by
  unfold concludeTransfer
  split
  · exact .raises (moves_cancelTimeoutNow attemptId t)
  · exact .returns (moves_completeTimeoutNow attemptId t)

/-- What follows the dispatch mints nothing. -/
theorem transfers_awaited (call : TransferCall ν) (previousTerm i attemptId left : ℕ)
    (t : TransferCluster ν) :
    Transfers mints t ((awaitTransferee C call previousTerm i attemptId left t).bind fun _ t =>
      concludeTransfer call previousTerm attemptId t) :=
  (transfers_awaitTransferee call previousTerm i attemptId left t).bind fun _ t₁ _ =>
    transfers_concludeTransfer call previousTerm attemptId t₁

theorem transfers_transfer (named : ν → Bool) (call : TransferCall ν) (t : TransferCluster ν) :
    Transfers True t (transfer C named call t) := by
  unfold transfer
  refine (transfers_prepareTransfer call t).bind fun i ready _ => ?_
  refine (transfers_dispatchTimeoutNow named call _ ready).bind fun attemptId sent _ => ?_
  exact transfers_awaited call _ i attemptId _ sent

theorem transfers_transferStep (named : ν → Bool) (event : TransferEvent ν)
    (t : TransferCluster ν) : Transfers True t (transferStep C named event t) := by
  cases event with
  | transport event => exact (transfers_transportStep event t).uncaughtErrors
  | send leader transferee term =>
      refine (transfers_sendTimeoutNow named leader transferee term t).uncaughtErrors.bind
        fun _ t₁ _ => ?_
      exact .returns (.refl t₁)
  | transfer call =>
      exact (transfers_transfer named call t).bind fun _ t₁ _ => .returns (.refl t₁)

theorem moves_transferEvents (named : ν → Bool) (events : List (TransferEvent ν))
    (t : TransferCluster ν) : TransferMoves True t (transferEvents C named events t) :=
  runEvents_invariant (P := TransferMoves True t)
    (fun event t₁ moves => moves.trans (transfers_transferStep named event t₁).state) events t
    (.refl t)

/-- **An attempt starts one election at most**, in every run. -/
theorem attempts_runTransfers (named : ν → Bool) (events : List (TransferEvent ν)) :
    Attempts (runTransfers C named events) := by
  refine (moves_transferEvents named events _).attempts ?_
  refine ⟨fun _ _ found => ?_, fun _ recorded => ?_, fun _ => Nat.zero_le _⟩
  · cases found
  · cases recorded

/-! ## What a call leaves behind -/

section Authority

variable (C) (named : ν → Bool) (call : TransferCall ν) (t : TransferCluster ν)

/-- The state in which a call ends, by a return or by an error. -/
def transferExit : TransferCluster ν := (transfer C named call t).state

/-- The call has minted the attempt. -/
def Created (attemptId : ℕ) : Prop :=
  t.transport.nextAttemptId < attemptId ∧
    attemptId ≤ (transferExit C named call t).transport.nextAttemptId

/-- The call leaves no live authority behind, whatever happens after it. -/
structure LeavesNoAuthority : Prop where
  /-- No attempt of the call is active. -/
  retired : ∀ later attemptId, Created C named call t attemptId →
    ¬ (transferEvents C named later (transferExit C named call t)).IsActive attemptId
  /-- A later delivery of its messages starts no election: the cluster stays as it is. -/
  silent : ∀ later message, Created C named call t message.payload.attemptId →
    (deliverTimeoutNow C message
        (transferEvents C named later (transferExit C named call t))).state.cluster =
      (transferEvents C named later (transferExit C named call t)).cluster
  /-- A new transfer in the same leader term is not refused because of it. -/
  admits : ∀ term, t.activeAttemptFor call.leader term = none →
    (transferExit C named call t).activeAttemptFor call.leader term = none
  /-- Each attempt triggers at most one election. -/
  single : ∀ later attemptId,
    (transferEvents C named later (transferExit C named call t)).elections attemptId ≤ 1

end Authority

/-! ## The condition -/

section Condition

variable (C) (call : TransferCall ν) (previousTerm i attemptId : ℕ)

/-- No error leaves the simulator during a wait while the attempt is active. -/
def WaitContained : ℕ → List (List (TransportEvent ν)) → TransferCluster ν → Prop
  | 0, _, _ => True
  | _ + 1, [], _ => True
  | budget + 1, pass :: passes, t =>
      transferElected call previousTerm t.cluster = false →
        (∀ error t', runTransport C pass t = .raises error t' → ¬ t'.IsActive attemptId) ∧
        ∀ t', runTransport C pass t = .returns () t' → WaitContained budget passes t'

/-- No error but a `ReplicationError` leaves another catch-up while the attempt is active. -/
def RetryContained (windows : ℕ → List (TransportEvent ν)) (t : TransferCluster ν) : Prop :=
  ∀ error t', recoverPeerDuring C i call.transferee call.maxReplicationAttempts windows t =
    .raises error t' → error.isReplication = true ∨ ¬ t'.IsActive attemptId

/-- After the dispatch, the errors of every wait and of every other catch-up are contained. -/
def AwaitContained : ℕ → TransferCluster ν → Prop
  | 0, _ => True
  | left + 1, t =>
      WaitContained C call previousTerm attemptId C.eventBudget (call.passes left) t ∧
      ∀ t', awaitElection C call previousTerm C.eventBudget (call.passes left) t = .returns () t' →
        ¬ (transferElected call previousTerm t'.cluster = true ∨ left = 0) →
        RetryContained C call i attemptId (call.catchUpAgain left) t' ∧
        ∀ t'', retryTransfer C call previousTerm i attemptId (call.catchUpAgain left) t' =
          .returns () t'' → AwaitContained left t''

/-- The leader and the transferee have names where the call mints an attempt, and after the
dispatch the errors are contained. -/
def ErrorsContained (named : ν → Bool) (t : TransferCluster ν) : Prop :=
  ∀ i ready, prepareTransfer C call t = .returns i ready →
    (ready.cluster.alive call.leader = true ∧
        ready.activeAttemptFor call.leader (t.cluster.currentTerm call.leader) = none →
      named call.leader = true ∧ named call.transferee = true) ∧
    ∀ attemptId sent, sendTimeoutNow C named call.leader call.transferee
        (t.cluster.currentTerm call.leader) ready = .returns attemptId sent →
      AwaitContained C call (t.cluster.currentTerm call.leader) i attemptId
        call.maxTimeoutNowAttempts sent

/-- No run of the simulator raises while the attempts wait, and another catch-up raises
nothing but a `ReplicationError`. -/
def awaitCaught : ℕ → TransferCluster ν → Bool
  | 0, _ => true
  | left + 1, t =>
      match awaitElection C call previousTerm C.eventBudget (call.passes left) t with
      | .raises _ _ => false
      | .returns _ t =>
          decide (transferElected call previousTerm t.cluster = true ∨ left = 0) ||
            ((recoverPeerDuring C i call.transferee call.maxReplicationAttempts
                (call.catchUpAgain left) t).error?.all TransportError.isReplication &&
              match retryTransfer C call previousTerm i attemptId (call.catchUpAgain left) t with
              | .raises _ _ => true
              | .returns _ t => awaitCaught left t)

/-- The leader and the transferee have names, no run of the simulator raises while the call
waits, and another catch-up raises nothing but a `ReplicationError`. -/
def errorsCaught (named : ν → Bool) (t : TransferCluster ν) : Bool :=
  named call.leader && named call.transferee &&
    match prepareTransfer C call t with
    | .raises _ _ => true
    | .returns i ready =>
        match sendTimeoutNow C named call.leader call.transferee
            (t.cluster.currentTerm call.leader) ready with
        | .raises _ _ => true
        | .returns attemptId sent =>
            awaitCaught C call (t.cluster.currentTerm call.leader) i attemptId
              call.maxTimeoutNowAttempts sent

end Condition

/-! ## Where an attempt is left active -/

section Exits

variable {call : TransferCall ν} {previousTerm i attemptId : ℕ}

omit [LinearOrder ν] in
theorem not_isActive_retireAttempt (entry : ν × ν × ℕ → ℕ → TimeoutNowRecord ν)
    (t : TransferCluster ν) : ¬ (retireAttempt entry attemptId t).IsActive attemptId := by
  have retired : ¬ (t.retire attemptId).IsActive attemptId :=
    fun active => (TransferCluster.isActive_retire.mp active).1 rfl
  unfold retireAttempt
  split
  · exact retired
  · exact retired

omit [LinearOrder ν] in
theorem not_isActive_concludeTransfer (t : TransferCluster ν) :
    ¬ (concludeTransfer call previousTerm attemptId t).state.IsActive attemptId := by
  unfold concludeTransfer
  split
  · exact not_isActive_retireAttempt .cancelled t
  · exact not_isActive_retireAttempt .completed t

/-- A wait is contained unless it raises while the attempt is active. -/
theorem waitContained_iff (budget : ℕ) (passes : List (List (TransportEvent ν)))
    (t : TransferCluster ν) : WaitContained C call previousTerm attemptId budget passes t ↔
      ∀ error t', awaitElection C call previousTerm budget passes t = .raises error t' →
        ¬ t'.IsActive attemptId := by
  induction budget generalizing passes t with
  | zero => exact iff_of_true trivial fun _ _ raised => by cases raised
  | succ budget ih =>
      cases passes with
      | nil => exact iff_of_true trivial fun _ _ raised => by cases raised
      | cons pass passes =>
          rw [WaitContained, awaitElection]
          cases elected : transferElected call previousTerm t.cluster with
          | true =>
              refine iff_of_true (fun waiting => by cases waiting) fun _ _ raised => ?_
              cases raised
          | false =>
              rw [if_neg (by simp)]
              cases outcome : runTransport C pass t with
              | returns _ t₁ =>
                  rw [Outcome.bind_returns, ← ih passes t₁]
                  constructor
                  · exact fun contained => (contained rfl).2 t₁ rfl
                  · intro contained _
                    refine ⟨fun _ _ raised => (by cases raised), fun t' returned => ?_⟩
                    cases returned
                    exact contained
              | raises error t₁ =>
                  rw [Outcome.bind_raises]
                  constructor
                  · intro contained error' t' raised
                    cases raised
                    exact (contained rfl).1 error t₁ rfl
                  · intro contained _
                    refine ⟨fun error' t' raised => ?_, fun _ returned => by cases returned⟩
                    cases raised
                    exact contained error t₁ rfl

/-- A retry that goes on has contained the errors of its catch-up. -/
theorem retryContained_of_returns {windows : ℕ → List (TransportEvent ν)}
    {t t' : TransferCluster ν}
    (returned : retryTransfer C call previousTerm i attemptId windows t = .returns () t') :
    RetryContained C call i attemptId windows t := by
  intro error t'' raised
  by_contra escapes
  rw [not_or] at escapes
  unfold retryTransfer at returned
  rw [raised] at returned
  simp only [escapes.1] at returned
  cases returned

/-- A retry that raises leaves the attempt active exactly where an error of its catch-up is
not contained; otherwise it has cancelled it. -/
theorem isActive_retryTransfer_iff {windows : ℕ → List (TransportEvent ν)}
    {t t' : TransferCluster ν} {error : TransferError ν}
    (raised : retryTransfer C call previousTerm i attemptId windows t = .raises error t') :
    t'.IsActive attemptId ↔ ¬ RetryContained C call i attemptId windows t := by
  have cancelled : ∀ t₁ : TransferCluster ν,
      (∀ escaped t'', recoverPeerDuring C i call.transferee call.maxReplicationAttempts windows t =
        .raises escaped t'' → escaped.isReplication = true) →
      ((cancelTimeoutNow attemptId t₁).IsActive attemptId ↔
        ¬ RetryContained C call i attemptId windows t) := fun t₁ caught =>
    iff_of_false (not_isActive_retireAttempt .cancelled t₁) fun refuted =>
      refuted fun escaped t'' outcome => .inl (caught escaped t'' outcome)
  unfold retryTransfer at raised
  split at raised
  · next escaped t₁ outcome =>
    split at raised
    · next caught =>
      cases raised
      refine cancelled t₁ fun escaped' t'' same => ?_
      cases outcome.symm.trans same
      exact caught
    · next uncaught =>
      cases raised
      constructor
      · exact fun active contained => (contained escaped _ outcome).elim uncaught fun inactive =>
          inactive active
      · intro refuted
        by_contra inactive
        refine refuted fun escaped' t'' same => ?_
        cases outcome.symm.trans same
        exact .inr inactive
  · next t₁ outcome =>
    cases raised
    refine cancelled t₁ fun _ _ same => ?_
    cases outcome.symm.trans same
  · next t₁ outcome =>
    have caught : ∀ escaped t'', recoverPeerDuring C i call.transferee
        call.maxReplicationAttempts windows t = .raises escaped t'' →
        escaped.isReplication = true := fun _ _ same => by cases outcome.symm.trans same
    split at raised
    · cases raised
      exact cancelled t₁ caught
    split at raised
    · cases raised
      exact cancelled t₁ caught
    split at raised
    · cases raised
    · next t₂ _ =>
      dsimp only at raised
      split at raised <;> cases raised
      · exact cancelled t₂ caught
      · exact cancelled t₂ caught

/-- **The attempt is left active** exactly where the errors are not contained. -/
theorem isActive_awaited_iff (left : ℕ) (t : TransferCluster ν) :
    ((awaitTransferee C call previousTerm i attemptId left t).bind fun _ t =>
        concludeTransfer call previousTerm attemptId t).state.IsActive attemptId ↔
      ¬ AwaitContained C call previousTerm i attemptId left t := by
  induction left generalizing t with
  | zero =>
      rw [awaitTransferee, Outcome.bind_returns, AwaitContained]
      exact iff_of_false (not_isActive_concludeTransfer t) fun refuted => refuted trivial
  | succ left ih =>
      rw [awaitTransferee, AwaitContained, waitContained_iff]
      cases waited : awaitElection C call previousTerm C.eventBudget (call.passes left) t with
      | raises error t₁ =>
          simp only [uncaughtErrors, Outcome.bind_raises, Outcome.state_raises]
          constructor
          · exact fun active contained => contained.1 error t₁ rfl active
          · intro refuted
            by_contra inactive
            refine refuted ⟨fun error' t' raised => ?_, fun _ returned => by cases returned⟩
            cases raised
            exact inactive
      | returns _ t₁ =>
          simp only [uncaughtErrors, Outcome.bind_returns]
          by_cases ended : transferElected call previousTerm t₁.cluster = true ∨ left = 0
          · rw [if_pos ended, Outcome.bind_returns]
            refine iff_of_false (not_isActive_concludeTransfer t₁) fun refuted => refuted ?_
            refine ⟨fun _ _ raised => (by cases raised), fun t' returned waiting => ?_⟩
            cases returned
            exact absurd ended waiting
          · rw [if_neg ended]
            cases retried : retryTransfer C call previousTerm i attemptId (call.catchUpAgain left)
                t₁ with
            | returns _ t₂ =>
                rw [Outcome.bind_returns, ih t₂, not_iff_not]
                constructor
                · intro contained
                  refine ⟨fun _ _ raised => (by cases raised), fun t' returned _ => ?_⟩
                  cases returned
                  refine ⟨retryContained_of_returns retried, fun t'' returned => ?_⟩
                  cases retried.symm.trans returned
                  exact contained
                · exact fun contained => (contained.2 t₁ rfl ended).2 t₂ retried
            | raises error t₂ =>
                rw [Outcome.bind_raises, Outcome.bind_raises, Outcome.state_raises,
                  isActive_retryTransfer_iff retried, not_iff_not]
                constructor
                · intro contained
                  refine ⟨fun _ _ raised => (by cases raised), fun t' returned _ => ?_⟩
                  cases returned
                  refine ⟨contained, fun t'' returned => ?_⟩
                  cases retried.symm.trans returned
                · exact fun contained => (contained.2 t₁ rfl ended).1

/-- Where every error is caught, none is left uncontained. -/
theorem awaitContained_of_caught (left : ℕ) {t : TransferCluster ν}
    (caught : awaitCaught C call previousTerm i attemptId left t = true) :
    AwaitContained C call previousTerm i attemptId left t := by
  induction left generalizing t with
  | zero => trivial
  | succ left ih =>
      rw [awaitCaught] at caught
      rw [AwaitContained, waitContained_iff]
      cases waited : awaitElection C call previousTerm C.eventBudget (call.passes left) t with
      | raises error t₁ =>
          rw [waited] at caught
          cases caught
      | returns _ t₁ =>
          rw [waited, Bool.or_eq_true, Bool.and_eq_true, decide_eq_true_eq] at caught
          refine ⟨fun _ _ raised => (by cases raised), fun t' returned waiting => ?_⟩
          cases returned
          obtain ⟨replication, goes⟩ := caught.resolve_left waiting
          refine ⟨fun error t'' raised => .inl ?_, fun t'' returned => ?_⟩
          · rwa [raised, Outcome.error?_raises, Option.all_some] at replication
          · rw [returned] at goes
            exact ih goes

end Exits

/-! ## The dispatch -/

section Dispatch

variable {call : TransferCall ν} {t ready : TransferCluster ν} {i : ℕ}

/-- The dispatch mints an attempt. -/
def Mints (call : TransferCall ν) (t ready : TransferCluster ν) : Prop :=
  ready.cluster.alive call.leader = true ∧
    ready.activeAttemptFor call.leader (t.cluster.currentTerm call.leader) = none

/-- The attempt that the dispatch mints is active, and it is the only one that is new. -/
structure Minted (ready t' : TransferCluster ν) : Prop where
  next : t'.transport.nextAttemptId = ready.transport.nextAttemptId + 1
  active : t'.IsActive (ready.transport.nextAttemptId + 1)
  before : ∀ attemptId identity, attemptId ≠ ready.transport.nextAttemptId + 1 →
    t'.transport.activeAttempts.lookup attemptId = some identity →
      ready.transport.activeAttempts.lookup attemptId = some identity

omit [LinearOrder ν] in
theorem minted_mint {leader transferee : ν} {term : ℕ} {t' : TransferCluster ν}
    (next : t'.transport.nextAttemptId =
      (ready.mint leader transferee term).transport.nextAttemptId)
    (same : t'.transport.activeAttempts =
      (ready.mint leader transferee term).transport.activeAttempts) : Minted ready t' := by
  refine ⟨next, ?_, fun attemptId identity other found => ?_⟩
  · rw [TransferCluster.IsActive, same]
    simp [TransferCluster.mint]
  · rw [same] at found
    exact (TransferCluster.activeAttempts_mint found).resolve_right other

/-- How the dispatch of a prepared transfer ends. -/
theorem sendTimeoutNow_cases (named : ν → Bool)
    (prepared : prepareTransfer C call t = .returns i ready) :
    (¬ Mints call t ready ∧ ∃ error t', sendTimeoutNow C named call.leader call.transferee
        (t.cluster.currentTerm call.leader) ready = .raises error t' ∧
      t'.transport.nextAttemptId = ready.transport.nextAttemptId ∧
      t'.transport.activeAttempts = ready.transport.activeAttempts) ∨
    (Mints call t ready ∧ ¬ (named call.leader = true ∧ named call.transferee = true) ∧
      ∃ error t', sendTimeoutNow C named call.leader call.transferee
        (t.cluster.currentTerm call.leader) ready = .raises error t' ∧ Minted ready t') ∨
    (Mints call t ready ∧ (named call.leader = true ∧ named call.transferee = true) ∧
      ∃ t', sendTimeoutNow C named call.leader call.transferee
        (t.cluster.currentTerm call.leader) ready =
          .returns (ready.transport.nextAttemptId + 1) t' ∧ Minted ready t') := by
  obtain ⟨leader, transferee, distinct, alive, leads, current⟩ := prepareTransfer_returns prepared
  unfold sendTimeoutNow
  rw [if_neg (by simp [leader, transferee]), if_neg distinct]
  by_cases live : ready.cluster.alive call.leader = true
  · rw [if_neg (not_not.mpr live), if_neg (by simp [leads, current]), if_neg (not_not.mpr alive)]
    cases active : ready.activeAttemptFor call.leader (t.cluster.currentTerm call.leader) with
    | some other =>
        refine .inl ⟨fun mints => ?_, _, _, rfl, rfl, rfl⟩
        cases active.symm.trans mints.2
    | none =>
        dsimp only
        by_cases names : named call.leader = true ∧ named call.transferee = true
        · rw [if_neg (by simp [names])]
          exact .inr (.inr ⟨⟨live, active⟩, names, _, rfl, minted_mint rfl rfl⟩)
        · rw [if_pos (not_and_or.mp names)]
          exact .inr (.inl ⟨⟨live, active⟩, names, _, _, rfl, minted_mint rfl rfl⟩)
  · rw [if_pos live]
    exact .inl ⟨fun mints => live mints.1, _, _, rfl, rfl, rfl⟩

end Dispatch

/-! ## The end of a call -/

section Ends

variable {named : ν → Bool} {call : TransferCall ν} {t : TransferCluster ν}

/-- A call that mints no attempt. -/
structure EndsUnminted (C : Config ν) (named : ν → Bool) (call : TransferCall ν)
    (t : TransferCluster ν) : Prop where
  next : (transferExit C named call t).transport.nextAttemptId = t.transport.nextAttemptId
  before : ∀ attemptId identity,
    (transferExit C named call t).transport.activeAttempts.lookup attemptId = some identity →
      t.transport.activeAttempts.lookup attemptId = some identity
  contained : ErrorsContained C call named t

/-- A call that mints an attempt. -/
structure EndsMinted (C : Config ν) (named : ν → Bool) (call : TransferCall ν)
    (t : TransferCluster ν) : Prop where
  next : (transferExit C named call t).transport.nextAttemptId = t.transport.nextAttemptId + 1
  before : ∀ attemptId identity, attemptId ≠ t.transport.nextAttemptId + 1 →
    (transferExit C named call t).transport.activeAttempts.lookup attemptId = some identity →
      t.transport.activeAttempts.lookup attemptId = some identity
  active_iff : (transferExit C named call t).IsActive (t.transport.nextAttemptId + 1) ↔
    ¬ ErrorsContained C call named t

theorem TransferMoves.before {t t' : TransferCluster ν} (moves : TransferMoves False t t')
    {attemptId : ℕ} {identity : ν × ν × ℕ}
    (found : t'.transport.activeAttempts.lookup attemptId = some identity) :
    t.transport.activeAttempts.lookup attemptId = some identity :=
  (moves.activeAttempts found).resolve_right fun minted => minted.1

theorem endsMinted_of_minted {i : ℕ} {ready t' : TransferCluster ν}
    (prepared : prepareTransfer C call t = .returns i ready) (minted : Minted ready t')
    (moves : TransferMoves False t' (transferExit C named call t))
    (active_iff : (transferExit C named call t).IsActive (ready.transport.nextAttemptId + 1) ↔
      ¬ ErrorsContained C call named t) : EndsMinted C named call t := by
  have prepares : TransferMoves False t (prepareTransfer C call t).state :=
    (transfers_prepareTransfer call t).state
  rw [prepared, Outcome.state_returns] at prepares
  have next := prepares.nextAttemptId_eq
  refine ⟨?_, fun attemptId identity other found => ?_, next ▸ active_iff⟩
  · rw [moves.nextAttemptId_eq, minted.next, next]
  · exact prepares.before (minted.before attemptId identity (next ▸ other) (moves.before found))

/-- How a call ends. -/
theorem transfer_ends (named : ν → Bool) (call : TransferCall ν) (t : TransferCluster ν) :
    EndsUnminted C named call t ∨ EndsMinted C named call t := by
  have prepares : TransferMoves False t (prepareTransfer C call t).state :=
    (transfers_prepareTransfer call t).state
  cases prepared : prepareTransfer C call t with
  | raises error t₁ =>
      have exit : transferExit C named call t = t₁ := by
        rw [transferExit, transfer, prepared]
        rfl
      rw [prepared, Outcome.state_raises] at prepares
      refine .inl ⟨?_, fun attemptId identity found => ?_, fun i ready returned => ?_⟩
      · rw [exit, prepares.nextAttemptId_eq]
      · rw [exit] at found
        exact prepares.before found
      · cases prepared.symm.trans returned
  | returns i ready =>
      rw [prepared, Outcome.state_returns] at prepares
      obtain ⟨kept, error, t₁, sends, next, same⟩ | ⟨mints, nameless, error, t₁, sends, minted⟩ |
        ⟨mints, names, t₁, sends, minted⟩ := sendTimeoutNow_cases named prepared
      · have exit : transferExit C named call t = t₁ := by
          rw [transferExit, transfer, prepared, Outcome.bind_returns, dispatchTimeoutNow, sends]
          dsimp only
          split <;> rfl
        refine .inl ⟨?_, fun attemptId identity found => ?_, fun i' ready' returned => ?_⟩
        · rw [exit, next, prepares.nextAttemptId_eq]
        · rw [exit, same] at found
          exact prepares.before found
        · cases prepared.symm.trans returned
          refine ⟨fun mints => absurd mints kept, fun attemptId sent returned => ?_⟩
          cases sends.symm.trans returned
      · have exit : transferExit C named call t = t₁ := by
          rw [transferExit, transfer, prepared, Outcome.bind_returns, dispatchTimeoutNow, sends]
          dsimp only
          split <;> rfl
        refine .inr (endsMinted_of_minted prepared minted (by rw [exit]; exact .refl t₁) ?_)
        rw [exit]
        exact iff_of_true minted.active fun contained =>
          nameless ((contained i ready prepared).1 mints)
      · have exit : transferExit C named call t =
            ((awaitTransferee C call (t.cluster.currentTerm call.leader) i
                (ready.transport.nextAttemptId + 1) call.maxTimeoutNowAttempts t₁).bind
              fun _ t' => concludeTransfer call (t.cluster.currentTerm call.leader)
                (ready.transport.nextAttemptId + 1) t').state := by
          rw [transferExit, transfer, prepared, Outcome.bind_returns, dispatchTimeoutNow, sends]
          rfl
        have awaits : TransferMoves False t₁ (transferExit C named call t) :=
          exit ▸ (transfers_awaited call _ i _ _ t₁).state
        refine .inr (endsMinted_of_minted prepared minted awaits ?_)
        rw [exit, isActive_awaited_iff, not_iff_not]
        constructor
        · intro contained i' ready' returned
          cases prepared.symm.trans returned
          refine ⟨fun _ => names, fun attemptId sent returned => ?_⟩
          cases sends.symm.trans returned
          exact contained
        · exact fun contained => (contained i ready prepared).2 _ t₁ sends

end Ends

/-! ## The theorem -/

theorem activeAttemptFor_eq_none_iff {t : TransferCluster ν} {leader : ν} {term : ℕ} :
    t.activeAttemptFor leader term = none ↔ ∀ attemptId identity,
      t.transport.activeAttempts.lookup attemptId = some identity →
        ¬ (identity.1 = leader ∧ identity.2.2 = term) := by
  unfold TransferCluster.activeAttemptFor
  rw [List.findSome?_eq_none_iff]
  constructor
  · intro none attemptId identity found own
    have absent := none ⟨attemptId, identity⟩ (AList.mem_lookup_iff.mp found)
    rw [if_pos own] at absent
    cases absent
  · intro free entry member
    exact if_neg (free entry.1 entry.2 (AList.mem_lookup_iff.mpr member))

/-- A message of an attempt that is not active starts no election. -/
theorem cluster_deliverTimeoutNow {message : TimeoutNowMessage ν} {t : TransferCluster ν}
    (inactive : ¬ t.IsActive message.payload.attemptId) :
    (deliverTimeoutNow C message t).state.cluster = t.cluster := by
  unfold deliverTimeoutNow
  split
  · rfl
  split
  · rfl
  · have stale : timeoutNowRejection C message.payload t = some .staleTransferAttempt := by
      refine if_pos fun active => inactive ?_
      rw [TransferCluster.IsActive, active]
      rfl
    have other : t.transport.activeAttempts.lookup message.payload.attemptId ≠
        some message.payload.identity := fun active => inactive (by
      rw [TransferCluster.IsActive, active]
      rfl)
    rw [handleTimeoutNow, stale]
    dsimp only
    rw [if_neg fun active => other active.1]
    rfl

/-- In every run, a call of `transfer` leaves no live authority behind exactly where no error
leaves it while its attempt is active. -/
theorem leavesNoAuthority_iff (named : ν → Bool) (events : List (TransferEvent ν))
    (call : TransferCall ν) :
    LeavesNoAuthority C named call (runTransfers C named events) ↔
      ErrorsContained C call named (runTransfers C named events) := by
  have attempts := attempts_runTransfers (C := C) named events
  generalize runTransfers C named events = t at attempts
  have exits : Attempts (transferExit C named call t) :=
    (transfers_transfer named call t).state.attempts attempts
  obtain unminted | minted := transfer_ends (C := C) named call t
  · refine iff_of_true ?_ unminted.contained
    have none : ∀ attemptId, ¬ Created C named call t attemptId := by
      rintro attemptId ⟨above, within⟩
      rw [unminted.next] at within
      omega
    refine ⟨fun _ attemptId created => absurd created (none _),
      fun _ message created => absurd created (none _), fun term free => ?_,
      fun later attemptId => ?_⟩
    · rw [activeAttemptFor_eq_none_iff] at free ⊢
      exact fun attemptId identity found =>
        free attemptId identity (unminted.before attemptId identity found)
    · exact ((moves_transferEvents named later _).attempts exits).once attemptId
  · constructor
    · intro leaves
      by_contra refuted
      refine leaves.retired [] (t.transport.nextAttemptId + 1) ⟨Nat.lt_succ_self _, ?_⟩
        (minted.active_iff.mpr refuted)
      exact minted.next.ge
    · intro contained
      have inactive : ¬ (transferExit C named call t).IsActive (t.transport.nextAttemptId + 1) :=
        fun active => minted.active_iff.mp active contained
      have retired : ∀ later attemptId, Created C named call t attemptId →
          ¬ (transferEvents C named later (transferExit C named call t)).IsActive attemptId := by
        rintro later attemptId ⟨above, within⟩ active
        obtain ⟨identity, found⟩ := Option.isSome_iff_exists.mp active
        obtain before | ⟨-, beyond⟩ :=
          (moves_transferEvents named later _).activeAttempts found
        · rw [minted.next] at within
          obtain rfl : attemptId = t.transport.nextAttemptId + 1 := by omega
          exact inactive (Option.isSome_iff_exists.mpr ⟨identity, before⟩)
        · omega
      refine ⟨retired, fun later message created =>
        cluster_deliverTimeoutNow (retired later _ created), fun term free => ?_,
        fun later attemptId => ?_⟩
      · rw [activeAttemptFor_eq_none_iff] at free ⊢
        intro attemptId identity found
        refine free attemptId identity (minted.before attemptId identity ?_ found)
        rintro rfl
        exact inactive (Option.isSome_iff_exists.mpr ⟨identity, found⟩)
      · exact ((moves_transferEvents named later _).attempts exits).once attemptId

/-- Where every error is caught, the errors are contained. -/
theorem errorsContained_of_caught {named : ν → Bool} {call : TransferCall ν}
    {t : TransferCluster ν} (caught : errorsCaught C call named t = true) :
    ErrorsContained C call named t := by
  rw [errorsCaught, Bool.and_eq_true, Bool.and_eq_true] at caught
  obtain ⟨names, awaits⟩ := caught
  intro i ready prepared
  refine ⟨fun _ => names, fun attemptId sent sends => ?_⟩
  rw [prepared] at awaits
  dsimp only at awaits
  rw [sends] at awaits
  exact awaitContained_of_caught call.maxTimeoutNowAttempts awaits

/-- **The authority that a transfer leaves behind.** In every run, a call of `transfer`
between nodes with names, in which no run of the simulator raises while the call waits and
another catch-up raises nothing but a `ReplicationError`, leaves no live authority behind:
no attempt of the call is active, so its messages start no election and do not refuse a new
transfer, and every attempt starts one election at most. -/
theorem transfer_leaves_no_authority (named : ν → Bool) (events : List (TransferEvent ν))
    (call : TransferCall ν)
    (caught : errorsCaught C call named (runTransfers C named events) = true) :
    LeavesNoAuthority C named call (runTransfers C named events) :=
  (leavesNoAuthority_iff named events call).mpr (errorsContained_of_caught caught)

/-! ## A transfer that completes, and one whose attempt stays active -/

/-- Three voters of a reconfigurable cluster, without election timers. -/
def relay : Config ℕ where
  nodeIds := [17, 18, 19]
  nonempty := by decide
  nodup := by decide
  kind := .reconfigurable {17, 18, 19}

/-- The first voter is elected by the second one. -/
def relayElection : List (TransferEvent ℕ) :=
  [.transport (.cluster ⟨.startElection 17, trivial⟩),
    .transport (.cluster ⟨.deliver ⟨0, 0⟩, trivial⟩),
    .transport (.cluster ⟨.deliver ⟨2, 0⟩, trivial⟩)]

/-- The leader transfers to the second voter. The first `TimeoutNow` is late: it arrives
after the one of the retry, which has started the election. -/
def relayHandover : TransferCall ℕ where
  leader := 17
  transferee := 18
  snapshotTransport := false
  maxReplicationAttempts := 8
  maxTimeoutNowAttempts := 2
  catchUp := fun _ => []
  passes := fun left => if left = 0 then
    [[.deliver 0 1], [.deliver 0 0], [.cluster ⟨.deliver ⟨3, 0⟩, trivial⟩],
      [.cluster ⟨.deliver ⟨5, 0⟩, trivial⟩]] else []
  catchUpAgain := fun _ _ => []

theorem relayHandover_leaves_no_authority :
    (transfer relay (fun _ => true) relayHandover
        (runTransfers relay (fun _ => true) relayElection)).value? = some ⟨17, 18, 1, 2, 0⟩ ∧
      LeavesNoAuthority relay (fun _ => true) relayHandover
        (runTransfers relay (fun _ => true) relayElection) :=
  ⟨by decide +kernel, transfer_leaves_no_authority _ _ _ (by decide +kernel)⟩

/-- The leader transfers to the second voter. The `TimeoutNow` is lost; while the call
waits, two controllers propose a configuration each; the second catch-up finds both. -/
def relayTransfer : TransferCall ℕ where
  leader := 17
  transferee := 18
  snapshotTransport := false
  maxReplicationAttempts := 8
  maxTimeoutNowAttempts := 2
  catchUp := fun _ => []
  passes := fun _ => [[.cluster ⟨.newTransition 17, trivial⟩, .cluster ⟨.newTransition 17, trivial⟩,
    .cluster ⟨.proposeJoint 0 {17, 18}, trivial⟩, .cluster ⟨.proposeJoint 1 {17, 19}, trivial⟩]]
  catchUpAgain := fun _ _ =>
    [.cluster ⟨.deliver ⟨3, 0⟩, trivial⟩, .cluster ⟨.deliver ⟨4, 0⟩, trivial⟩]

/-- The call ends with the `MembershipChangeError` of the second catch-up. Its attempt is
active, and the leader cannot transfer again in its term. -/
theorem relayTransfer_leaves_authority :
    ¬ LeavesNoAuthority relay (fun _ => true) relayTransfer
        (runTransfers relay (fun _ => true) relayElection) ∧
      (transfer relay (fun _ => true) relayTransfer
        (runTransfers relay (fun _ => true) relayElection)).error? =
          some (.uncaught (.raft (.membershipChange 17))) ∧
      (sendTimeoutNow relay (fun _ => true) 17 19 1 (transferExit relay (fun _ => true)
        relayTransfer (runTransfers relay (fun _ => true) relayElection))).error? =
          some .alreadyActive := by
  refine ⟨fun leaves => leaves.retired [] 1 ?_ ?_, ?_, ?_⟩
  · exact ⟨by decide +kernel, by decide +kernel⟩
  · decide +kernel
  · decide +kernel
  · decide +kernel

end Distlab.Raft
