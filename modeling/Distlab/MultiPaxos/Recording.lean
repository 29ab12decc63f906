import Distlab.MultiPaxos.Runs

/-!
# What is recorded stays recorded

A leader records a decision as chosen before any node learns it, so the recorded
decisions cover the learned ones and those that messages report. No operation
changes a recorded or a learned decision; a reconstruction reads the recorded
ones off the durable evidence and finds the same values.
-/

set_option autoImplicit false

namespace Distlab.MultiPaxos

open Foundations Paxos

variable {ν : Type} {α : Type}

/-- The slots whose decisions a payload reports. -/
def Payload.decidedSlots : Payload ν α → List ℕ
  | .leaderDecision decision => [decision.slot]
  | .decisionRecoveryResponse _ decisions => decisions.map (·.slot)
  | _ => []

/-- Whatever is learned, or reported in a message, is recorded. -/
structure Covered (s : Cluster ν α) : Prop where
  learned : ∀ n slot d, learnedDecision s n slot = some d → d.slot ∈ s.chosen
  reported : ∀ m ∈ s.network, ∀ slot ∈ m.payload.decidedSlots, slot ∈ s.chosen

/-- `t` comes after `s`: what was recorded and learned still is, and everything
learned is recorded. -/
structure Recorded (s t : Cluster ν α) : Prop where
  covered : Covered t
  chosen : ∀ slot d, s.chosen.lookup slot = some d → t.chosen.lookup slot = some d
  learned : ∀ n slot d, learnedDecision s n slot = some d → learnedDecision t n slot = some d
  learnDecisions : t.learnDecisions = s.learnDecisions

section Writes

variable {s t u : Cluster ν α}

theorem Covered.recorded (covered : Covered s) : Recorded s s :=
  ⟨covered, fun _ _ => id, fun _ _ _ => id, rfl⟩

theorem Recorded.trans (first : Recorded s t) (second : Recorded t u) : Recorded s u :=
  ⟨second.covered, fun slot d found => second.chosen slot d (first.chosen slot d found),
    fun n slot d found => second.learned n slot d (first.learned n slot d found),
    second.learnDecisions.trans first.learnDecisions⟩

/-- A recorded slot stays recorded. -/
theorem Recorded.mem_chosen (recorded : Recorded s t) {slot : ℕ} (member : slot ∈ s.chosen) :
    slot ∈ t.chosen := by
  obtain ⟨d, found⟩ := Option.isSome_iff_exists.mp (AList.lookup_isSome.mpr member)
  exact AList.lookup_isSome.mp (Option.isSome_iff_exists.mpr ⟨d, recorded.chosen slot d found⟩)

/-- An operation records along the way, whatever it raises. -/
abbrev Records {β : Type} (s : Cluster ν α) (outcome : Op ν α β) : Prop :=
  outcome.Ensures (Recorded s) fun _ _ => True

theorem Recorded.raises {β : Type} (recorded : Recorded s t) (e : Error ν) :
    Records s (.raises e t : Op ν α β) := ⟨recorded, trivial⟩

theorem Recorded.followed {β : Type} {outcome : Op ν α β} (recorded : Recorded s t)
    (records : Records t outcome) : Records s outcome :=
  records.mono (fun _ later => recorded.trans later) fun _ _ => id

theorem Records.bind {β γ : Type} {first : Op ν α β} {next : β → Cluster ν α → Op ν α γ}
    (records : Records s first)
    (keeps : ∀ b t, Recorded s t → Records t (next b t)) : Records s (first.bind next) :=
  Outcome.Ensures.bind records (fun b t _ recorded => recorded.followed (keeps b t recorded))
    fun _ => id

/-- A check writes nothing. -/
theorem Covered.check {β : Type} (covered : Covered s) (result : Check ν β) :
    Records s (MultiPaxos.check result s) := by
  cases result with
  | ok b => exact covered.recorded
  | error violation => exact covered.recorded.raises _

namespace Covered

variable (covered : Covered s)

include covered

/-- Writes that leave the recorded and learned decisions and the messages alone. -/
theorem same (learned : ∀ n slot, learnedDecision t n slot = learnedDecision s n slot)
    (chosen : t.chosen = s.chosen) (network : t.network = s.network)
    (learnDecisions : t.learnDecisions = s.learnDecisions) : Recorded s t where
  covered := by
    refine ⟨fun n slot d found => ?_, fun m member => ?_⟩
    · rw [chosen]
      exact covered.learned n slot d (learned n slot ▸ found)
    · rw [chosen]
      exact covered.reported m (network ▸ member)
  chosen slot d found := by rwa [chosen]
  learned n slot d found := by rwa [learned]
  learnDecisions := learnDecisions

theorem updateVolatile [DecidableEq ν] (n : ν) (f : Volatile ν α → Volatile ν α) :
    Recorded s (s.updateVolatile n f) := covered.same (fun _ _ => rfl) rfl rfl rfl

/-- A durable write that leaves the learned decisions alone. -/
theorem updateDurable [DecidableEq ν] (n : ν) (f : Durable ν α → Durable ν α)
    (kept : ∀ d, (f d).learned = d.learned) : Recorded s (s.updateDurable n f) := by
  refine covered.same (fun m slot => ?_) rfl rfl rfl
  unfold learnedDecision
  by_cases same : m = n
  · subst same
    simp [kept]
  · simp [same]

/-- A message goes out that reports recorded decisions only. -/
theorem send (src dst : ν) {payload : Payload ν α}
    (reports : ∀ slot ∈ payload.decidedSlots, slot ∈ s.chosen) :
    Recorded s (s.send src dst payload) where
  covered := by
    refine ⟨covered.learned, fun m member => ?_⟩
    rcases (Cluster.mem_send_network ..).mp member with old | rfl
    · exact covered.reported m old
    · exact reports
  chosen _ _ := id
  learned _ _ _ := id
  learnDecisions := rfl

theorem sendAll (src : ν) (dsts : List ν) {payload : Payload ν α}
    (reports : ∀ slot ∈ payload.decidedSlots, slot ∈ s.chosen) :
    Recorded s (s.sendAll src dsts payload) where
  covered := by
    refine ⟨covered.learned, fun m member => ?_⟩
    rcases (Cluster.mem_sendAll_network ..).mp member with old | ⟨dst, _, rfl⟩
    · exact covered.reported m old
    · exact reports
  chosen _ _ := id
  learned _ _ _ := id
  learnDecisions := rfl

end Covered

end Writes

theorem not_mem_decidedSlots {slot : ℕ} {P : Prop} (member : slot ∈ ([] : List ℕ)) : P :=
  absurd member List.not_mem_nil

/-! ## Operations -/

section Operations

variable [LinearOrder ν] [DecidableEq α] {M : Membership ν} {s : Cluster ν α}
  (covered : Covered s)

include covered

omit [LinearOrder ν] in
/-- After `_record_chosen` returns, the slot is recorded. -/
theorem recordChosen_records (slot : ℕ) (ballot : ProposalNumber ν) (value : α) :
    (recordChosen slot ballot value s).Ensures (Recorded s) (fun _ _ => True) ∧
      ∀ t, recordChosen slot ballot value s = .returns () t → slot ∈ t.chosen := by
  unfold recordChosen
  cases found : s.chosen.lookup slot with
  | none =>
      have kept : ∀ slot' d, s.chosen.lookup slot' = some d →
          (s.chosen.insert slot ⟨slot, ballot, value⟩).lookup slot' = some d := by
        intro slot' d known
        rw [Dict.lookup_insert, if_neg]
        · exact known
        · rintro rfl
          rw [found] at known
          cases known
      have member : ∀ slot' ∈ s.chosen, slot' ∈ s.chosen.insert slot ⟨slot, ballot, value⟩ :=
        fun slot' old => (AList.mem_insert _).mpr (.inr old)
      refine ⟨⟨⟨fun n slot' d known => member _ (covered.learned n slot' d known),
        fun m sent slot' reported => member _ (covered.reported m sent slot' reported)⟩,
        kept, fun _ _ _ => id, rfl⟩, ?_⟩
      rintro t ⟨⟩
      exact (AList.mem_insert _).mpr (.inl rfl)
  | some current =>
      have known : slot ∈ s.chosen := AList.lookup_isSome.mp (found ▸ rfl)
      dsimp only
      split
      next => exact ⟨covered.recorded.raises _, fun t returned => by cases returned⟩
      next =>
        refine ⟨covered.recorded, ?_⟩
        rintro t ⟨⟩
        exact known

theorem receiveDecision_records (self : ν) {decision : LeaderDecision ν α}
    (recorded : decision.slot ∈ s.chosen) : Records s (receiveDecision M self decision s) := by
  unfold receiveDecision
  cases learns : (s.durable self).learned with
  | none => exact covered.recorded
  | some learned =>
      dsimp only
      split
      next => exact covered.recorded
      next =>
        cases found : learned.lookup decision.slot with
        | some current =>
            dsimp only
            split
            next => exact covered.recorded.raises _
            next => exact covered.check _
        | none =>
            cases requireDecisionEvidence M s ⟨decision.slot, decision.ballot, decision.value⟩ with
            | error violation => exact covered.recorded.raises _
            | ok =>
                refine ⟨⟨fun n slot d known => ?_, covered.reported⟩, fun _ _ => id,
                  fun n slot d known => ?_, rfl⟩
                · by_cases same : n = self
                  · subst same
                    rw [learnedDecision, Cluster.updateDurable_durable, if_pos rfl] at known
                    rcases Dict.of_lookup_insert known with ⟨rfl, rfl⟩ | ⟨_, old⟩
                    · exact recorded
                    · refine covered.learned n slot d ?_
                      rw [learnedDecision, learns]
                      exact old
                  · rw [learnedDecision, Cluster.updateDurable_durable, if_neg same] at known
                    exact covered.learned n slot d known
                · by_cases same : n = self
                  · subst same
                    rw [learnedDecision, learns] at known
                    rw [learnedDecision, Cluster.updateDurable_durable, if_pos rfl]
                    refine (Dict.lookup_insert ..).trans ((if_neg ?_).trans known)
                    rintro rfl
                    rw [Option.getD_some, found] at known
                    cases known
                  · rw [learnedDecision, Cluster.updateDurable_durable, if_neg same]
                    exact known

theorem receiveAccepted_records (self : ν) (response : LeaderAccepted ν α) :
    Records s (receiveAccepted M self response s) := by
  unfold receiveAccepted
  split
  next => exact covered.recorded
  next =>
    split
    next => exact covered.recorded
    next =>
      cases (s.volatile self).pending.lookup response.slot with
      | none => exact covered.recorded
      | some proposed =>
          dsimp only
          split
          next => exact covered.recorded
          next =>
            split
            next => exact covered.recorded.raises _
            next =>
              have counted := covered.updateVolatile self fun w => { w with
                acceptedBy := w.acceptedBy.insert response.slot (insert response.acceptorId
                  (((s.volatile self).acceptedBy.lookup response.slot).getD ∅)) }
              split
              next => exact counted
              next =>
                obtain ⟨records, known⟩ := recordChosen_records counted.covered response.slot
                  response.ballot response.value
                refine counted.followed (Outcome.Ensures.bind records
                  (fun _ t returned recorded => ?_) fun _ => id)
                have erased := recorded.covered.updateVolatile self fun w => { w with
                  pending := w.pending.erase response.slot
                  acceptedBy := w.acceptedBy.erase response.slot }
                refine (recorded.trans erased).followed ?_
                split
                next =>
                  refine Records.bind (receiveDecision_records erased.covered self
                    (known t returned)) fun _ u learned => ?_
                  refine learned.covered.sendAll _ _ fun slot reported => ?_
                  rw [List.mem_singleton.mp reported]
                  exact learned.mem_chosen (erased.mem_chosen (known t returned))
                next => exact erased.covered.recorded

theorem receiveAccept_records (self : ν) (request : LeaderAccept ν α) :
    Records s (receiveAccept M self request s) := by
  unfold receiveAccept
  split
  next => exact covered.recorded
  next =>
    refine Records.bind (covered.check _) fun promised t checked => ?_
    split
    next => exact checked.covered.recorded
    next =>
      have promises := checked.covered.updateDurable self
        (fun d => { d with promised := some request.ballot }) fun _ => rfl
      dsimp only
      split
      next => exact promises.raises _
      next =>
        have accepted := promises.covered.updateDurable self (fun d => d.accept request)
          fun _ => rfl
        refine (promises.trans accepted).followed ?_
        split
        next => exact receiveAccepted_records accepted.covered self _
        next => exact accepted.covered.send _ _ fun _ => not_mem_decidedSlots

omit [DecidableEq α] in
theorem receivePromise_records (self : ν) (response : LeaderPromise ν α) :
    Records s (receivePromise M self response s) := by
  unfold receivePromise
  split
  next => exact covered.recorded
  next =>
    split
    next => exact covered.recorded
    next => exact covered.updateVolatile _ _

omit [DecidableEq α] in
theorem receivePrepare_records (self : ν) (ballot : ProposalNumber ν) :
    Records s (receivePrepare M self ballot s) := by
  unfold receivePrepare
  refine Records.bind (covered.check _) fun promised t checked => ?_
  split
  next => exact checked.covered.recorded
  next =>
    have promises := checked.covered.updateDurable self
      (fun d => { d with promised := some ballot }) fun _ => rfl
    refine promises.followed ?_
    split
    next => exact receivePromise_records promises.covered self _
    next => exact promises.covered.send _ _ fun _ => not_mem_decidedSlots

omit [DecidableEq α] in
theorem prepareLeadership_records (self : ν) (roundNumber : Option ℕ) :
    Records s (prepareLeadership M self roundNumber s) := by
  unfold prepareLeadership
  split
  next => exact covered.recorded.raises _
  next =>
    refine Records.bind (covered.check _) fun promised t checked => ?_
    dsimp only
    split
    next => exact checked.covered.recorded.raises _
    next =>
      set round := roundNumber.getD _
      have counted := checked.covered.updateDurable self
        (fun d => { d with lastRound := round }) fun _ => rfl
      have started := counted.covered.updateVolatile self fun w => { w with
        leaderBallot := some ⟨round, self⟩, promises := ∅, pending := ∅, acceptedBy := ∅ }
      refine (counted.trans started).followed (Records.bind
        (receivePrepare_records started.covered self _) fun _ u prepared => ?_)
      exact prepared.covered.sendAll _ _ fun _ => not_mem_decidedSlots

theorem propose_records (self : ν) (slot : ℕ) (value : α) :
    Records s (propose M self slot value s) := by
  unfold propose
  split
  next => exact covered.recorded.raises _
  next =>
    cases (s.volatile self).leaderBallot with
    | none => exact covered.recorded.raises _
    | some ballot =>
        dsimp only
        split
        next => exact covered.recorded.raises _
        next =>
          split
          next => exact covered.recorded.raises _
          next =>
            refine Records.bind (covered.check _) fun adopted t checked => ?_
            have pending := checked.covered.updateVolatile self fun w => { w with
              pending := w.pending.insert slot (valueToPropose adopted value)
              acceptedBy := w.acceptedBy.insert slot ∅ }
            refine pending.followed (Records.bind
              (receiveAccept_records pending.covered self _) fun _ u accepted => ?_)
            exact accepted.covered.sendAll _ _ fun _ => not_mem_decidedSlots

theorem retryProposal_records (self : ν) (slot : ℕ) :
    Records s (retryProposal M self slot s) := by
  unfold retryProposal
  cases (s.volatile self).leaderBallot with
  | none => exact covered.recorded.raises _
  | some ballot =>
      dsimp only
      split
      next => exact covered.recorded.raises _
      next =>
        refine Records.bind (covered.check _) fun promised t checked => ?_
        split
        next => exact checked.covered.recorded.raises _
        next =>
          cases (t.volatile self).pending.lookup slot with
          | none => exact checked.covered.recorded.raises _
          | some value =>
              refine Records.bind (receiveAccept_records checked.covered self _)
                fun _ u accepted => ?_
              exact accepted.covered.sendAll _ _ fun _ => not_mem_decidedSlots

omit [DecidableEq α] in
theorem retryRecovery_records (self : ν) : Records s (retryRecovery M self s) := by
  unfold retryRecovery
  cases (s.volatile self).recovery with
  | none => exact covered.recorded
  | some startSlot =>
      dsimp only
      split
      next => exact covered.updateVolatile _ _
      next =>
        have counted := covered.updateVolatile self fun w =>
          { w with recoveryAttempt := w.recoveryAttempt + 1 }
        have reports :
            ∀ slot ∈ (Payload.decisionRecoveryRequest startSlot : Payload ν α).decidedSlots,
            slot ∈ (s.updateVolatile self fun w =>
              { w with recoveryAttempt := w.recoveryAttempt + 1 }).chosen :=
          fun _ => not_mem_decidedSlots
        have asked := counted.covered.sendAll self ((M.peers self).insertionSort (· ≤ ·)) reports
        exact (counted.trans asked).trans
          (asked.covered.send self self fun _ => not_mem_decidedSlots)

omit [DecidableEq α] in
theorem recoverDecisions_records (self : ν) (startSlot : ℕ) :
    Records s (recoverDecisions M self startSlot s) := by
  unfold recoverDecisions
  split
  next => exact covered.recorded.raises _
  next =>
    split
    next => exact covered.recorded
    next =>
      split
      next => exact covered.recorded.raises _
      next =>
        split
        next => exact covered.recorded
        next =>
          have started := covered.updateVolatile self fun w => { w with
            recoveryGeneration := w.recoveryGeneration + 1
            recoveryAttempt := 0
            recovery := some startSlot }
          exact started.followed (retryRecovery_records started.covered self)

theorem receiveRecoveryRequest_records (self requester : ν) (startSlot : ℕ) :
    Records s (receiveRecoveryRequest M self requester startSlot s) := by
  unfold receiveRecoveryRequest
  split
  next => exact covered.recorded
  next =>
    set decisions := (List.range recoveryWindow).filterMap fun offset =>
      learnedDecision s self (startSlot + offset)
    have known : ∀ d ∈ decisions, d.slot ∈ s.chosen := by
      intro d member
      obtain ⟨offset, _, found⟩ := List.mem_filterMap.mp member
      exact covered.learned self _ d found
    refine Records.bind (covered.check _) fun _ t checked => ?_
    refine checked.covered.send _ _ fun slot reported => ?_
    obtain ⟨d, member, rfl⟩ := List.mem_map.mp reported
    exact checked.mem_chosen (known d member)

theorem receiveRecoveryResponse_records (self : ν) (startSlot : ℕ)
    {decisions : List (SlotLearnedDecision ν α)} (known : ∀ d ∈ decisions, d.slot ∈ s.chosen) :
    Records s (receiveRecoveryResponse M self startSlot decisions s) := by
  unfold receiveRecoveryResponse
  split
  next => exact covered.recorded
  next =>
    split
    next => exact covered.recorded
    next =>
      refine Records.bind (covered.check _) fun _ t checked => ?_
      refine Outcome.ensures_forEach (P := Recorded t) (fun d member u recorded => ?_) t
        checked.covered.recorded
      exact recorded.followed (receiveDecision_records recorded.covered self
        (recorded.mem_chosen (checked.mem_chosen (known d member))))

theorem handleMessage_records (self : ν) {message : Message ν α} (sent : message ∈ s.network) :
    Records s (handleMessage M self message s) := by
  have reported := covered.reported message sent
  unfold handleMessage
  cases payload : message.payload <;> rw [payload] at reported <;> dsimp only <;> split
  case leaderPrepare.isFalse => exact receivePrepare_records covered self _
  case leaderPromise.isFalse => exact receivePromise_records covered self _
  case leaderAccept.isFalse => exact receiveAccept_records covered self _
  case leaderAccepted.isFalse => exact receiveAccepted_records covered self _
  case leaderDecision.isFalse =>
    exact receiveDecision_records covered self (reported _ List.mem_cons_self)
  case decisionRecoveryRequest.isFalse => exact receiveRecoveryRequest_records covered self _ _
  case decisionRecoveryResponse.isFalse =>
    exact receiveRecoveryResponse_records covered self _ fun d member =>
      reported _ (List.mem_map.mpr ⟨d, member, rfl⟩)
  case decisionRecoveryRetry.isTrue => exact retryRecovery_records covered self
  all_goals exact covered.recorded

omit [DecidableEq α] in
theorem onNode_records {β : Type} {n : ν} {op : Cluster ν α → Op ν α β}
    (records : Records s (op s)) : Records s (onNode M n op s) := by
  unfold onNode
  split
  next => exact Records.bind records fun _ t recorded => recorded.covered.recorded
  next => exact covered.recorded.raises _

/-- **Recording.** An event that is no reconstruction keeps what is recorded and
learned. -/
theorem step_records {event : Event ν α} (kept : ∀ learn, event ≠ .reconstruct learn) :
    Records s (step M event s) := by
  cases event with
  | prepareLeadership n roundNumber =>
      exact onNode_records covered (prepareLeadership_records covered n roundNumber)
  | propose n slot value => exact onNode_records covered (propose_records covered n slot value)
  | retryProposal n slot => exact onNode_records covered (retryProposal_records covered n slot)
  | recoverDecisions n startSlot =>
      exact onNode_records covered (recoverDecisions_records covered n startSlot)
  | deliver position =>
      simp only [step]
      split
      next => exact covered.recorded
      next message found =>
        split
        next =>
          exact onNode_records covered
            (handleMessage_records covered message.dst (List.mem_of_getElem? found))
        next => exact covered.recorded
  | crash n =>
      have crashed : Recorded s (crash n s) := covered.same (fun _ _ => rfl) rfl rfl rfl
      simp only [step]
      exact onNode_records covered (show Records s (.returns () (crash n s)) from crashed)
  | restart n =>
      have restarted : Recorded s (restart n s) := covered.same (fun _ _ => rfl) rfl rfl rfl
      simp only [step]
      exact onNode_records covered (show Records s (.returns () (restart n s)) from restarted)
  | reconstruct learn => exact absurd rfl (kept learn)
  | assertSafety => exact covered.check _

end Operations

/-! ## Reconstruction -/

section Reconstruction

variable [LinearOrder ν] [DecidableEq α] {M : Membership ν} {X : Set (SlotAcceptedValue ν α)}
  {s : Cluster ν α}

/-- The pass of `_recover_chosen` over the recorded slots keeps what it found and
finds each slot with quorum evidence. -/
theorem foldlM_recoverSlot {slots : List ℕ} {before chosen : Dict ℕ (SlotLearnedDecision ν α)}
    (recovers : slots.foldlM (fun chosen slot => do
      match ← recoverSlot M s slot with
      | none => pure chosen
      | some decision => pure (chosen.insert slot decision)) before = .ok chosen) :
    (∀ slot ∈ before, slot ∈ chosen) ∧
      ∀ slot ∈ slots, quorumEvidence M s slot ≠ [] → slot ∈ chosen := by
  induction slots generalizing before with
  | nil =>
      cases recovers
      exact ⟨fun _ => id, fun _ member => absurd member List.not_mem_nil⟩
  | cons first rest ih =>
      rw [List.foldlM_cons] at recovers
      cases found : recoverSlot M s first with
      | error violation =>
          rw [found] at recovers
          cases recovers
      | ok decision? =>
          rw [found] at recovers
          cases decision? with
          | none =>
              obtain ⟨kept, covers⟩ := ih recovers
              refine ⟨kept, fun slot member evidence => ?_⟩
              rcases List.mem_cons.mp member with rfl | later
              · unfold recoverSlot at found
                cases same : quorumEvidence M s slot with
                | nil => exact absurd same evidence
                | cons record records =>
                    rw [same] at found
                    dsimp only at found
                    split at found <;> cases found
              · exact covers slot later evidence
          | some decision =>
              obtain ⟨kept, covers⟩ := ih recovers
              refine ⟨fun slot member => kept slot ((AList.mem_insert _).mpr (.inr member)),
                fun slot member evidence => ?_⟩
              rcases List.mem_cons.mp member with rfl | later
              · exact kept slot ((AList.mem_insert _).mpr (.inl rfl))
              · exact covers slot later evidence

/-- `_recover_chosen` finds every slot with a decision that has evidence. -/
theorem recoverChosen_covers {chosen : Dict ℕ (SlotLearnedDecision ν α)}
    (recovers : recoverChosen M s = .ok chosen) {d : SlotLearnedDecision ν α}
    (evidence : Evidence M s.voting d) : d.slot ∈ chosen := by
  have large := evidence_iff.mp evidence
  have listed : (d.proposal, d.value) ∈ quorumEvidence M s d.slot :=
    Inv.mem_quorumEvidence.mpr large
  have recorded : d.slot ∈ recordedSlots M s := by
    have positive : 0 < (M.nodeIds.filter fun n =>
        (⟨d.slot, d.proposal, d.value⟩ : SlotAcceptedValue ν α) ∈
          (s.durable n).acceptHistory).length := lt_of_lt_of_le (Nat.succ_pos _) large
    obtain ⟨n, member⟩ := List.exists_mem_of_length_pos positive
    obtain ⟨isNode, vote⟩ := List.mem_filter.mp member
    exact List.mem_dedup.mpr (List.mem_flatMap.mpr ⟨n, isNode,
      List.mem_map.mpr ⟨_, of_decide_eq_true vote, rfl⟩⟩)
  unfold recoverChosen at recovers
  cases histories : M.nodeIds.forM fun n => validateDurableHistory M s n with
  | error violation =>
      rw [histories] at recovers
      cases recovers
  | ok =>
      rw [histories] at recovers
      exact (foldlM_recoverSlot recovers).2 d.slot recorded (List.ne_nil_of_mem listed)

omit [LinearOrder ν] [DecidableEq α] in
@[simp] theorem learnedDecision_reloaded (learn : Bool)
    (chosen : Dict ℕ (SlotLearnedDecision ν α)) (n : ν) (slot : ℕ) :
    learnedDecision (s.reloaded learn chosen) n slot = learnedDecision s n slot := by
  cases learn <;> rfl

/-- **Reconstruction.** It succeeds, with everything that was learned and a decision of
the same value for every slot that was recorded. -/
theorem reconstruct_records (inv : Inv M X s) (learn : Bool) :
    ∃ t, reconstruct M learn s = .returns () t ∧ Continues M X s t ∧ Covered t ∧
      t.learnDecisions = learn ∧ (∀ n, t.alive n = true) ∧
      (∀ n slot, learnedDecision t n slot = learnedDecision s n slot) ∧
      ∀ slot d, s.chosen.lookup slot = some d →
        ∃ d', t.chosen.lookup slot = some d' ∧ d'.value = d.value := by
  obtain ⟨chosen, recovered, done, returned⟩ := reconstruct_returns inv learn
  have covers : ∀ d, Evidence M s.voting d → d.slot ∈ chosen := fun d evidence =>
    recoverChosen_covers recovered evidence
  refine ⟨_, returned, done, ⟨fun n slot d found => ?_, fun m sent => by cases sent⟩, rfl,
    fun _ => rfl, fun n slot => learnedDecision_reloaded learn chosen n slot,
    fun slot d found => ?_⟩
  · rw [learnedDecision_reloaded] at found
    exact covers d (inv.evidence_of_learned found).2
  · obtain ⟨atSlot, evidence⟩ := inv.chosen slot d found
    obtain ⟨d', recorded⟩ :=
      Option.isSome_iff_exists.mp (AList.lookup_isSome.mpr (covers d evidence))
    rw [atSlot] at recorded
    obtain ⟨atSlot', evidence'⟩ := done.inv.chosen slot d' recorded
    have before : Evidence M (s.reloaded learn chosen).voting d := evidence
    exact ⟨d', recorded, done.inv.agree evidence' before (atSlot'.trans atSlot.symm)⟩

end Reconstruction

end Distlab.MultiPaxos
