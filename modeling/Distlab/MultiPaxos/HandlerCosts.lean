import Mathlib.Data.Finset.Basic
import Distlab.MultiPaxos.Spending

/-!
# What handlers send

Each handler spends less than the weight of the message it handles: an answer
costs what the request is worth above itself, a decision is paid by the proposal
it ends, and an attempt of a recovery episode by the attempt it uses up.
-/

set_option autoImplicit false

namespace Distlab.MultiPaxos

open Foundations Paxos

variable {ν : Type} {α : Type} {M : Membership ν} {s t u : Cluster ν α}

/-- A handler raises safety violations only. -/
abbrev SafetyOnly (error : Error ν) (_ : Cluster ν α) : Prop := error.IsSafety

theorem Spends.bind {β γ : Type} {a b : ℕ} {E : Error ν → Cluster ν α → Prop}
    {op : Op ν α β} {next : β → Cluster ν α → Op ν α γ}
    (ensures : op.Ensures (Spends M a s) E)
    (keeps : ∀ v t, op = .returns v t → Spends M a s t → (next v t).Ensures (Spends M b t) E) :
    (op.bind next).Ensures (Spends M (a + b) s) E := by
  refine ensures.bind (fun v t returned spends => ?_) fun t spends =>
    spends.mono (Nat.le_add_right _ _)
  exact (keeps v t returned spends).mono (fun u after => spends.trans after) fun _ _ => id

/-- What a first step without messages saves pays for what follows. -/
theorem Spends.paidBy {saved : ℕ} (network : t.network = s.network)
    (saves : potential M t + saved ≤ potential M s) (after : Spends M saved t u) :
    Spends M 0 s u where
  pays := by
    obtain ⟨sent, sends, members, paid⟩ := after.pays
    exact ⟨sent, by rw [sends, network], members, by omega⟩
  regular := after.regular

/-- A check spends nothing. -/
theorem check_bind_ensures {β γ : Type} {P : Cluster ν α → Prop} {result : Check ν β}
    {next : β → Cluster ν α → Op ν α γ} (stays : P s)
    (keeps : ∀ b, (next b s).Ensures P SafetyOnly) :
    ((check result s).bind next).Ensures P SafetyOnly := by
  cases result with
  | error violation => exact ⟨stays, trivial⟩
  | ok b => exact keeps b

theorem check_ensures {β : Type} {P : Cluster ν α → Prop} {result : Check ν β} (stays : P s) :
    (check result s).Ensures P SafetyOnly := by
  cases result with
  | error violation => exact ⟨stays, trivial⟩
  | ok b => exact stays

variable [LinearOrder ν] [DecidableEq α]

/-! ## Learning -/

omit [LinearOrder ν] in
theorem recordChosen_same (slot : ℕ) (ballot : ProposalNumber ν) (value : α) :
    (recordChosen slot ballot value s).Ensures
      (fun t => t.network = s.network ∧ t.volatile = s.volatile) SafetyOnly := by
  unfold recordChosen
  split
  next => exact ⟨rfl, rfl⟩
  next =>
    split
    next => exact ⟨⟨rfl, rfl⟩, trivial⟩
    next => exact ⟨rfl, rfl⟩

theorem receiveDecision_spends (regular : Regular M s) (self : ν)
    (decision : LeaderDecision ν α) :
    (receiveDecision M self decision s).Ensures (Spends M 0 s) SafetyOnly := by
  unfold receiveDecision
  split
  next => exact regular.spends
  next =>
    split
    next => exact regular.spends
    next =>
      dsimp only
      split
      next =>
        split
        next => exact ⟨regular.spends, trivial⟩
        next => exact check_ensures regular.spends
      next =>
        apply check_bind_ensures regular.spends
        intro _
        exact Spends.of_same regular rfl rfl

/-! ## Phase 2 -/

omit [DecidableEq α] in
/-- A decided proposal leaves what its decisions cost. -/
theorem potential_decided {self : ν} (member : self ∈ M.nodeIds) {slot : ℕ} {value : α}
    (pending : (s.volatile self).pending.lookup slot = some value) :
    potential M (s.updateVolatile self fun w =>
        { w with
          pending := w.pending.erase slot
          acceptedBy := w.acceptedBy.erase slot }) + 2 * M.nodeIds.length ≤ potential M s := by
  have present : slot ∈ (s.volatile self).pending.keys := by
    rw [← AList.mem_keys, ← AList.lookup_isSome, pending]
    rfl
  have shorter : ((s.volatile self).pending.erase slot).keys.length + 1 =
      (s.volatile self).pending.keys.length := by
    rw [AList.keys_erase, List.length_erase_of_mem present]
    exact Nat.sub_add_cancel (List.length_pos_of_mem present)
  have changed := potential_updateVolatile (M := M) (s := s) member fun w =>
    { w with
      pending := w.pending.erase slot
      acceptedBy := w.acceptedBy.erase slot }
  simp only [nodePotential] at changed
  rw [← shorter, Nat.succ_mul] at changed
  omega

/-- A leader that learns its own decision and broadcasts it. -/
theorem announce_spends (regular : Regular M s) {self : ν} (member : self ∈ M.nodeIds)
    (decision : LeaderDecision ν α) :
    ((receiveDecision M self decision s).bind fun _ s =>
      .returns () (s.sendAll self (M.peers self) (.leaderDecision decision))).Ensures
      (Spends M (2 * M.nodeIds.length) s) SafetyOnly := by
  have fewer := peers_length_lt member
  refine (Spends.bind (b := (M.peers self).length * (2 * 1))
    (receiveDecision_spends regular self decision) ?_).mono
    (fun t spends => spends.mono (by omega)) fun _ _ => id
  intro _ t _ learned
  exact Spends.sendAll learned.regular self (fun _ => peers_mem) (.leaderDecision decision)

theorem receiveAccepted_spends (regular : Regular M s) {self : ν}
    (member : self ∈ M.nodeIds) (response : LeaderAccepted ν α) :
    (receiveAccepted M self response s).Ensures (Spends M 0 s) SafetyOnly := by
  unfold receiveAccepted
  split
  next => exact regular.spends
  next =>
    split
    next => exact regular.spends
    next =>
      split
      next => exact regular.spends
      next proposed pending =>
        split
        next => exact regular.spends
        next =>
          split
          next => exact ⟨regular.spends, trivial⟩
          next =>
            dsimp only
            generalize insert response.acceptorId (_ : Finset ν) = acceptedBy
            have counted : Spends M 0 s (s.updateVolatile self fun w =>
                { w with acceptedBy := w.acceptedBy.insert response.slot acceptedBy }) :=
              Spends.updateVolatile_free regular member rfl rfl rfl
            split
            next => exact counted
            next =>
              apply Spends.bind (a := 0) (b := 0)
              · refine (recordChosen_same _ _ _).mono (fun t same => ?_) fun _ _ => id
                exact counted.trans (Spends.of_same counted.regular same.1 same.2)
              · intro _ t recorded spends
                have same := recordChosen_same (s := s.updateVolatile self fun w =>
                    { w with acceptedBy := w.acceptedBy.insert response.slot acceptedBy })
                  response.slot response.ballot response.value
                rw [recorded] at same
                have stillPending : (t.volatile self).pending.lookup response.slot =
                    some proposed := by
                  rw [same.2]
                  simpa using pending
                have saves := potential_decided (s := t) member stillPending
                have removed : Regular M (t.updateVolatile self fun w =>
                    { w with
                      pending := w.pending.erase response.slot
                      acceptedBy := w.acceptedBy.erase response.slot }) := by
                  intro n
                  rw [Cluster.updateVolatile_volatile]
                  split
                  next => exact ⟨(spends.regular self).attempts, (spends.regular self).leader⟩
                  next => exact spends.regular n
                split
                next =>
                  refine (announce_spends removed member _).mono (fun u after => ?_) fun _ _ => id
                  exact Spends.paidBy (t := t.updateVolatile self _) rfl saves after
                next =>
                  have nothing : Spends M (2 * M.nodeIds.length) (t.updateVolatile self _) _ :=
                    removed.spends.mono (Nat.zero_le _)
                  exact Spends.paidBy (t := t.updateVolatile self _) rfl saves nothing

theorem receiveAccept_spends (regular : Regular M s) {self : ν}
    (member : self ∈ M.nodeIds) {request : LeaderAccept ν α}
    (proposer : request.ballot.proposerId ∈ M.nodeIds) :
    (receiveAccept M self request s).Ensures (Spends M 2 s) SafetyOnly := by
  have stays : Spends M 2 s s := regular.spends.mono (Nat.zero_le _)
  unfold receiveAccept
  split
  next => exact stays
  next =>
    apply check_bind_ensures stays
    intro promised
    split
    next => exact stays
    next =>
      dsimp only
      split
      next =>
        have promising : Spends M 0 s (s.updateDurable self fun d =>
            { d with promised := some request.ballot }) := Spends.of_same regular rfl rfl
        exact ⟨promising.mono (Nat.zero_le _), trivial⟩
      next =>
        have accepted : Spends M 0 s ((s.updateDurable self fun d =>
            { d with promised := some request.ballot }).updateDurable self fun d =>
            d.accept request) := Spends.of_same regular rfl rfl
        split
        next =>
          refine (receiveAccepted_spends accepted.regular member _).mono
            (fun t after => ?_) fun _ _ => id
          exact (accepted.trans after).mono (Nat.zero_le _)
        next =>
          exact (accepted.trans (Spends.send accepted.regular self proposer _)).mono le_rfl

/-! ## Phase 1 -/

omit [DecidableEq α] in
theorem receivePromise_spends (regular : Regular M s) {self : ν}
    (member : self ∈ M.nodeIds) (response : LeaderPromise ν α) :
    (receivePromise M self response s).Ensures (Spends M 0 s) SafetyOnly := by
  unfold receivePromise
  split
  next => exact regular.spends
  next =>
    split
    next => exact regular.spends
    next => exact Spends.updateVolatile_free regular member rfl rfl rfl

omit [DecidableEq α] in
theorem receivePrepare_spends (regular : Regular M s) {self : ν}
    (member : self ∈ M.nodeIds) (ballot : ProposalNumber ν)
    (proposer : ballot.proposerId ∈ M.nodeIds) :
    (receivePrepare M self ballot s).Ensures (Spends M 2 s) SafetyOnly := by
  have stays : Spends M 2 s s := regular.spends.mono (Nat.zero_le _)
  unfold receivePrepare
  apply check_bind_ensures stays
  intro promised
  split
  next => exact stays
  next =>
    dsimp only
    have promising : Spends M 0 s (s.updateDurable self fun d =>
        { d with promised := some ballot }) := Spends.of_same regular rfl rfl
    split
    next =>
      refine (receivePromise_spends promising.regular member _).mono
        (fun t after => ?_) fun _ _ => id
      exact (promising.trans after).mono (Nat.zero_le _)
    next =>
      exact (promising.trans (Spends.send promising.regular self proposer _)).mono le_rfl

/-! ## Decision recovery -/

omit [DecidableEq α] in
/-- The requests of one attempt and the timer of the next one. -/
theorem askPeers_spends (regular : Regular M s) {self : ν} (member : self ∈ M.nodeIds)
    (startSlot generation attempt : ℕ) :
    Spends M (6 * M.nodeIds.length + 2) s
      ((s.sendAll self ((M.peers self).insertionSort (· ≤ ·))
        (.decisionRecoveryRequest startSlot)).send self self
        (.decisionRecoveryRetry generation attempt)) := by
  have members : ∀ dst ∈ (M.peers self).insertionSort (· ≤ ·), dst ∈ M.nodeIds := fun dst peer =>
    peers_mem ((List.mem_insertionSort _).mp peer)
  have asked := Spends.sendAll regular self members (.decisionRecoveryRequest startSlot)
  have armed := asked.trans
    (Spends.send asked.regular self member (.decisionRecoveryRetry generation attempt))
  have fewer := peers_length_lt member
  apply armed.mono
  simp only [List.length_insertionSort, Payload.weight]
  omega

omit [DecidableEq α] in
/-- An attempt pays for its requests and its timer. -/
theorem retryRecovery_spends (regular : Regular M s) {self : ν}
    (member : self ∈ M.nodeIds) :
    (retryRecovery M self s).Ensures (Spends M 0 s) SafetyOnly := by
  unfold retryRecovery
  split
  next => exact regular.spends
  next startSlot recovering =>
    split
    next => exact Spends.updateVolatile_free regular member rfl rfl rfl
    next unfinished =>
      dsimp only
      have left : (s.volatile self).recoveryAttempt < recoveryAttempts :=
        lt_of_le_of_ne (regular self).attempts fun last => unfinished (.inr last)
      have saves : potential M (s.updateVolatile self fun w =>
            { w with recoveryAttempt := w.recoveryAttempt + 1 }) +
          (6 * M.nodeIds.length + 2) ≤ potential M s := by
        have changed := potential_updateVolatile (M := M) (s := s) member fun w =>
          { w with recoveryAttempt := w.recoveryAttempt + 1 }
        have attempts : recoveryAttempts - (s.volatile self).recoveryAttempt =
            recoveryAttempts - ((s.volatile self).recoveryAttempt + 1) + 1 := by omega
        simp only [nodePotential] at changed
        rw [attempts] at changed
        have paid := Nat.add_one_mul
          (recoveryAttempts - ((s.volatile self).recoveryAttempt + 1)) (6 * M.nodeIds.length + 2)
        omega
      have counted : Regular M (s.updateVolatile self fun w =>
          { w with recoveryAttempt := w.recoveryAttempt + 1 }) := by
        intro n
        rw [Cluster.updateVolatile_volatile]
        split
        next => exact ⟨left, (regular self).leader⟩
        next => exact regular n
      exact Spends.paidBy (t := s.updateVolatile self _) rfl saves
        (askPeers_spends counted member startSlot _ _)

theorem receiveRecoveryRequest_spends (regular : Regular M s) (self : ν) {requester : ν}
    (member : requester ∈ M.nodeIds) (startSlot : ℕ) :
    (receiveRecoveryRequest M self requester startSlot s).Ensures (Spends M 2 s) SafetyOnly := by
  have stays : Spends M 2 s s := regular.spends.mono (Nat.zero_le _)
  unfold receiveRecoveryRequest
  split
  next => exact stays
  next =>
    apply check_bind_ensures stays
    intro _
    exact (Spends.send regular self member _).mono le_rfl

theorem receiveRecoveryResponse_spends (regular : Regular M s) (self : ν) (startSlot : ℕ)
    (decisions : List (SlotLearnedDecision ν α)) :
    (receiveRecoveryResponse M self startSlot decisions s).Ensures (Spends M 0 s)
      SafetyOnly := by
  unfold receiveRecoveryResponse
  split
  next => exact regular.spends
  next =>
    split
    next => exact regular.spends
    next =>
      apply check_bind_ensures regular.spends
      intro _
      refine Outcome.ensures_forEach (fun decision _ t spends => ?_) s regular.spends
      refine (receiveDecision_spends spends.regular self _).mono (fun u after => ?_) fun _ _ => id
      exact spends.trans after

/-! ## Messages -/

/-- **Handling a message costs less than its weight.** -/
theorem handleMessage_spends (regular : Regular M s) {self : ν}
    (member : self ∈ M.nodeIds) (message : Message ν α) :
    (handleMessage M self message s).Ensures (Spends M (message.payload.weight - 1) s)
      SafetyOnly := by
  have stays : Spends M (message.payload.weight - 1) s s := regular.spends.mono (Nat.zero_le _)
  unfold handleMessage
  split <;> rename_i payload <;> rw [payload] at stays ⊢ <;> split
  case h_1.isFalse invalid =>
    exact receivePrepare_spends regular member _ (by simpa using (not_or.mp invalid).2)
  case h_2.isFalse => exact receivePromise_spends regular member _
  case h_3.isFalse invalid =>
    exact receiveAccept_spends regular member (by simpa using (not_or.mp invalid).2)
  case h_4.isFalse => exact receiveAccepted_spends regular member _
  case h_5.isFalse => exact receiveDecision_spends regular self _
  case h_6.isFalse invalid =>
    have peer : message.src ∈ M.peers self := by simpa using (not_or.mp invalid).2
    exact receiveRecoveryRequest_spends regular self (peers_mem peer) _
  case h_7.isFalse => exact receiveRecoveryResponse_spends regular self _ _
  case h_8.isTrue => exact retryRecovery_spends regular member
  all_goals exact stays

end Distlab.MultiPaxos
