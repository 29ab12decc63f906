import Distlab.MultiPaxos.Invariant

/-!
# Durable evidence under the invariant

A decision has evidence when the accept histories of a majority hold its record.
Under the invariant the evidence at a slot names one value, and every check of
the harness passes.
-/

set_option autoImplicit false

namespace Distlab.MultiPaxos

open Foundations Paxos

variable {ν : Type} {α : Type} [LinearOrder ν] [DecidableEq α] {M : Membership ν}

/-- A durable majority is a quorum of votes. -/
theorem chosen_iff {s : Cluster ν α} {e : SlotAcceptedValue ν α} :
    (s.voting e.slot).Chosen (majorities M) e.proposal e.value ↔ DurableMajority M s e := by
  have nodup : (M.nodeIds.filter fun n => e ∈ (s.durable n).acceptHistory).Nodup :=
    M.nodup.filter _
  constructor
  · rintro ⟨Q, ⟨members, size⟩, votes⟩
    refine size.trans ?_
    rw [← List.toFinset_card_of_nodup nodup]
    refine Finset.card_le_card fun n member => ?_
    simp only [List.mem_toFinset, List.mem_filter, decide_eq_true_eq]
    exact ⟨List.mem_toFinset.mp (members member), votes n member⟩
  · intro large
    refine ⟨(M.nodeIds.filter fun n => e ∈ (s.durable n).acceptHistory).toFinset,
      ⟨fun n member => ?_, ?_⟩, fun n member => ?_⟩
    · exact List.mem_toFinset.mpr (List.mem_filter.mp (List.mem_toFinset.mp member)).1
    · rwa [List.toFinset_card_of_nodup nodup]
    · simp only [List.mem_toFinset, List.mem_filter, decide_eq_true_eq] at member
      exact member.2

theorem evidence_iff {s : Cluster ν α} {d : SlotLearnedDecision ν α} :
    Evidence M s.voting d ↔ DurableMajority M s ⟨d.slot, d.proposal, d.value⟩ :=
  chosen_iff (e := ⟨d.slot, d.proposal, d.value⟩)

theorem foldl_max_mem {β : Type} [LinearOrder β] (b : β) (items : List β) :
    items.foldl max b ∈ b :: items := by
  induction items generalizing b with
  | nil => exact List.mem_cons_self
  | cons item rest ih =>
      rcases List.mem_cons.mp (ih (max b item)) with top | later
      · rw [List.foldl_cons, top]
        rcases max_choice b item with first | second
        · rw [first]
          exact List.mem_cons_self
        · rw [second]
          exact List.mem_cons_of_mem _ List.mem_cons_self
      · exact List.mem_cons_of_mem _ (List.mem_cons_of_mem _ later)

theorem validateBallot_eq {ballot : ProposalNumber ν} (valid : ValidBallot M ballot) :
    validateBallot M ballot = .ok () := by
  rw [validateBallot, if_neg valid.1, if_pos valid.2]

namespace Inv

variable {X : Set (SlotAcceptedValue ν α)} {s : Cluster ν α} (inv : Inv M X s)

include inv

omit [DecidableEq α] in
theorem oneVote (slot : ℕ) : (s.voting slot).OneVote :=
  fun n b v w hv hw => (inv.acceptor n).single ⟨slot, b, v⟩ hv ⟨slot, b, w⟩ hw rfl rfl

omit [DecidableEq α] in
/-- Two decisions of a slot with evidence have one value. -/
theorem agree {d d' : SlotLearnedDecision ν α} (first : Evidence M s.voting d)
    (second : Evidence M s.voting d') (slot : d.slot = d'.slot) : d.value = d'.value := by
  have second' : (s.voting d.slot).Chosen (majorities M) d'.proposal d'.value := slot ▸ second
  exact Voting.chosen_agree (inv.oneVote d.slot) (fun n b v vote => (inv.voted n _ vote).safe)
    first second'

/-- Two records of a slot that majorities hold carry one value. -/
theorem majority_agree {e e' : SlotAcceptedValue ν α} (first : DurableMajority M s e)
    (second : DurableMajority M s e') (slot : e.slot = e'.slot) : e.value = e'.value := by
  have evidence : Evidence M s.voting ⟨e.slot, e.proposal, e.value⟩ := evidence_iff.mpr first
  have evidence' : Evidence M s.voting ⟨e'.slot, e'.proposal, e'.value⟩ := evidence_iff.mpr second
  exact inv.agree evidence evidence' slot

omit inv in
/-- A record that a majority holds was voted for by a member. -/
theorem exists_voter {e : SlotAcceptedValue ν α} (large : DurableMajority M s e) :
    ∃ n, e ∈ (s.durable n).acceptHistory := by
  have positive : 0 < (M.nodeIds.filter fun n => e ∈ (s.durable n).acceptHistory).length :=
    lt_of_lt_of_le (Nat.succ_pos _) large
  obtain ⟨n, member⟩ := List.exists_mem_of_length_pos positive
  exact ⟨n, of_decide_eq_true (List.mem_filter.mp member).2⟩

theorem safe_of_evidence {d : SlotLearnedDecision ν α} (evidence : Evidence M s.voting d) :
    SafeProposal M X s.voting ⟨d.slot, d.proposal, d.value⟩ := by
  obtain ⟨n, vote⟩ := exists_voter (evidence_iff.mp evidence)
  exact inv.voted n _ vote

omit [DecidableEq α] in
theorem promisedBallot_eq (n : ν) : promisedBallot M n s = .ok (s.durable n).promised := by
  unfold promisedBallot
  cases same : (s.durable n).promised with
  | none => rfl
  | some ballot => exact if_pos ((inv.acceptor n).promised ballot same).2

omit [DecidableEq α] in
theorem validateDurableAccepted_eq {n : ν} {e : SlotAcceptedValue ν α}
    (vote : e ∈ (s.durable n).acceptHistory) : validateDurableAccepted M s n e = .ok () := by
  have safe := inv.voted n e vote
  obtain ⟨p, promised, le⟩ := (inv.acceptor n).bounded e vote
  rw [validateDurableAccepted, if_neg safe.slot, validateBallot_eq safe.ballot,
    inv.promisedBallot_eq n, Option.mem_def.mp promised]
  exact if_neg (not_lt.mpr le)

theorem requireDecisionEvidence_eq {d : SlotLearnedDecision ν α}
    (evidence : Evidence M s.voting d) : requireDecisionEvidence M s d = .ok () := by
  have safe := inv.safe_of_evidence evidence
  have checks : (M.nodeIds.filter fun n =>
      (⟨d.slot, d.proposal, d.value⟩ : SlotAcceptedValue ν α) ∈
        (s.durable n).acceptHistory).forM
      (fun n => validateDurableAccepted M s n ⟨d.slot, d.proposal, d.value⟩) = .ok () :=
    forM_eq_ok fun n member =>
      inv.validateDurableAccepted_eq (of_decide_eq_true (List.mem_filter.mp member).2)
  rw [requireDecisionEvidence, if_neg safe.slot, validateBallot_eq safe.ballot]
  simp only [bind, Except.bind, checks]
  exact if_neg (not_lt.mpr (evidence_iff.mp evidence))

theorem validateDurableLearned_eq (n : ν) : validateDurableLearned M s n = .ok () := by
  unfold validateDurableLearned
  cases same : (s.durable n).learned with
  | none => rfl
  | some learned =>
      refine forM_eq_ok fun entry member => ?_
      obtain ⟨slot, evidence⟩ :=
        inv.learned n learned same entry.1 entry.2 (AList.mem_lookup_iff.mpr member)
      have safe := inv.safe_of_evidence evidence
      rw [if_neg, validateBallot_eq safe.ballot]
      rintro (zero | other)
      · exact safe.slot (slot.trans zero)
      · exact other slot

theorem checkRecords_eq {n : ν} {before rest : List (SlotAcceptedValue ν α)}
    (known : ∀ e ∈ before ++ rest, e ∈ (s.durable n).acceptHistory) :
    checkRecords M s n before rest = .ok () := by
  induction rest generalizing before with
  | nil => rfl
  | cons e rest ih =>
      have vote := known e (List.mem_append_right _ List.mem_cons_self)
      rw [checkRecords, inv.validateDurableAccepted_eq vote]
      show (if _ then _ else _) = _
      rw [if_neg]
      · refine ih fun other member => known other ?_
        simp only [List.mem_append, List.mem_cons] at member ⊢
        tauto
      · rw [Option.any_eq_true]
        rintro ⟨other, found, differs⟩
        have key := List.find?_some found
        obtain ⟨slot, proposal⟩ := of_decide_eq_true key
        have vote' := known other (List.mem_append_left _ (List.mem_of_find?_eq_some found))
        exact of_decide_eq_true differs
          ((inv.acceptor n).single other vote' e vote slot proposal)

theorem validateDurableHistory_eq (n : ν) : validateDurableHistory M s n = .ok () := by
  rw [validateDurableHistory, inv.validateDurableLearned_eq n]
  exact inv.checkRecords_eq fun _ member => member

omit inv [LinearOrder ν] [DecidableEq α] in
theorem mem_slotRecords {slot : ℕ} {b : ProposalNumber ν} {v : α} {n : ν} :
    (b, v, n) ∈ slotRecords M s slot ↔
      n ∈ M.nodeIds ∧ (⟨slot, b, v⟩ : SlotAcceptedValue ν α) ∈ (s.durable n).acceptHistory := by
  simp only [slotRecords, List.mem_flatMap, List.mem_map, List.mem_filter, decide_eq_true_eq,
    Prod.mk.injEq]
  constructor
  · rintro ⟨m, isNode, e, ⟨vote, rfl⟩, rfl, rfl, rfl⟩
    exact ⟨isNode, vote⟩
  · rintro ⟨isNode, vote⟩
    exact ⟨n, isNode, _, ⟨vote, rfl⟩, rfl, rfl, rfl⟩

omit inv in
/-- The quorum evidence of a slot is the records that a majority holds. -/
theorem mem_quorumEvidence {slot : ℕ} {b : ProposalNumber ν} {v : α} :
    (b, v) ∈ quorumEvidence M s slot ↔ DurableMajority M s ⟨slot, b, v⟩ := by
  have same : (M.nodeIds.filter fun n => (b, v, n) ∈ slotRecords M s slot) =
      M.nodeIds.filter fun n =>
        (⟨slot, b, v⟩ : SlotAcceptedValue ν α) ∈ (s.durable n).acceptHistory := by
    refine List.filter_congr fun n isNode => ?_
    simp only [mem_slotRecords, isNode, true_and]
  simp only [quorumEvidence, List.mem_map, List.mem_filter, decide_eq_true_eq]
  constructor
  · rintro ⟨⟨b', v', n⟩, ⟨record, large⟩, equal⟩
    obtain ⟨rfl, rfl⟩ := Prod.mk.inj equal
    rwa [same] at large
  · intro large
    obtain ⟨n, member⟩ := List.exists_mem_of_length_pos (lt_of_lt_of_le (Nat.succ_pos _) large)
    have vote := List.mem_filter.mp member
    refine ⟨(b, v, n), ⟨mem_slotRecords.mpr ⟨vote.1, of_decide_eq_true vote.2⟩, ?_⟩, rfl⟩
    rw [same]
    exact large

omit inv in
theorem evidence_of_mem {slot : ℕ} {b : ProposalNumber ν} {v : α}
    (member : (b, v) ∈ quorumEvidence M s slot) : Evidence M s.voting ⟨slot, b, v⟩ :=
  evidence_iff.mpr (mem_quorumEvidence.mp member)

theorem quorumEvidence_agree {slot : ℕ} {b b' : ProposalNumber ν} {v v' : α}
    (first : (b, v) ∈ quorumEvidence M s slot) (second : (b', v') ∈ quorumEvidence M s slot) :
    v = v' :=
  inv.majority_agree (mem_quorumEvidence.mp first) (mem_quorumEvidence.mp second) rfl

/-- The evidence of a slot never conflicts with itself. -/
theorem rest_agree {slot : ℕ} {b : ProposalNumber ν} {v : α}
    {rest : List (ProposalNumber ν × α)} (same : quorumEvidence M s slot = (b, v) :: rest) :
    rest.any (·.2 ≠ v) = false := by
  rw [List.any_eq_false]
  rintro ⟨b', v'⟩ member
  have first : (b, v) ∈ quorumEvidence M s slot := same ▸ List.mem_cons_self
  have second : (b', v') ∈ quorumEvidence M s slot := same ▸ List.mem_cons_of_mem _ member
  simpa using (inv.quorumEvidence_agree first second).symm

/-- The decision recovered from a slot has evidence. -/
theorem recoverSlot_eq (slot : ℕ) : ∃ found : Option (SlotLearnedDecision ν α),
    recoverSlot M s slot = .ok found ∧ ∀ d ∈ found, d.slot = slot ∧ Evidence M s.voting d := by
  unfold recoverSlot
  cases same : quorumEvidence M s slot with
  | nil => exact ⟨none, rfl, fun _ h => absurd h (Option.not_mem_none _)⟩
  | cons first rest =>
      obtain ⟨b, v⟩ := first
      refine ⟨_, if_neg (by simpa using inv.rest_agree same), ?_⟩
      rintro d ⟨⟩
      refine ⟨rfl, evidence_of_mem ?_⟩
      rw [same]
      rcases List.mem_cons.mp (foldl_max_mem b (rest.map Prod.fst)) with top | later
      · rw [top]
        exact List.mem_cons_self
      · obtain ⟨⟨b', v'⟩, member, top⟩ := List.mem_map.mp later
        have head : (b, v) ∈ quorumEvidence M s slot := same ▸ List.mem_cons_self
        have agree := inv.quorumEvidence_agree head (same ▸ List.mem_cons_of_mem _ member)
        rw [← top, agree]
        exact List.mem_cons_of_mem _ member

theorem assertSlot_eq (slot : ℕ) : ∃ found : Option α, assertSlot M s slot = .ok found ∧
    ∀ b v, DurableMajority M s ⟨slot, b, v⟩ → found = some v := by
  unfold assertSlot
  cases same : quorumEvidence M s slot with
  | nil =>
      refine ⟨none, rfl, fun b v large => ?_⟩
      have := mem_quorumEvidence.mpr large
      rw [same] at this
      exact absurd this List.not_mem_nil
  | cons first rest =>
      obtain ⟨b, v⟩ := first
      have head : (b, v) ∈ quorumEvidence M s slot := same ▸ List.mem_cons_self
      have runtime : (s.chosen.lookup slot).any (·.value ≠ v) = false := by
        cases found : s.chosen.lookup slot with
        | none => rfl
        | some d =>
            obtain ⟨atSlot, evidence⟩ := inv.chosen slot d found
            simpa using inv.agree evidence (evidence_of_mem head) atSlot
      refine ⟨some v, ?_, fun b' v' large => ?_⟩
      · simp only [inv.rest_agree same, runtime, Bool.false_eq_true, if_false]
      · exact congrArg some (inv.quorumEvidence_agree head (mem_quorumEvidence.mpr large))

/-- **The harness raises no false alarm.** Under the invariant `assert_safety` passes. -/
theorem assertSafety_eq : assertSafety M s = .ok () := by
  have histories : M.nodeIds.forM (fun n => validateDurableHistory M s n) = .ok () :=
    forM_eq_ok fun n _ => inv.validateDurableHistory_eq n
  have slots : (recordedSlots M s).forM (fun slot => do
      let _ ← assertSlot M s slot) = .ok () := by
    refine forM_eq_ok fun slot _ => ?_
    obtain ⟨found, passes, _⟩ := inv.assertSlot_eq slot
    rw [passes]
    rfl
  have decisions : M.nodeIds.forM (fun n =>
      (((s.durable n).learned.getD ∅).sortedValues).forM fun decision =>
        assertLearned M s n decision) = .ok () := by
    refine forM_eq_ok fun n _ => forM_eq_ok fun d member => ?_
    obtain ⟨slot, found⟩ := Dict.mem_sortedValues.mp member
    have evidence : Evidence M s.voting d := by
      cases same : (s.durable n).learned with
      | none => simp [same] at found
      | some learned =>
          exact (inv.learned n learned same slot d (by simpa [same] using found)).2
    obtain ⟨value, passes, unique⟩ := inv.assertSlot_eq d.slot
    rw [assertLearned, passes, unique _ _ (evidence_iff.mp evidence)]
    exact (if_neg (not_not.mpr rfl)).trans (inv.requireDecisionEvidence_eq evidence)
  rw [assertSafety, histories]
  simp only [bind, Except.bind] at slots decisions ⊢
  rw [slots]
  exact decisions

/-- `_recover_chosen` finds decisions with evidence. -/
theorem recoverChosen_eq : ∃ chosen, recoverChosen M s = .ok chosen ∧
    SoundDecisions M s.voting chosen := by
  have histories : M.nodeIds.forM (fun n => validateDurableHistory M s n) = .ok () :=
    forM_eq_ok fun n _ => inv.validateDurableHistory_eq n
  rw [recoverChosen, histories]
  refine exists_foldlM_eq_ok (fun chosen slot _ sound => ?_) ∅ fun slot d found => ?_
  · obtain ⟨found, recovered, evidence⟩ := inv.recoverSlot_eq slot
    rw [recovered]
    cases found with
    | none => exact ⟨chosen, rfl, sound⟩
    | some decision =>
        refine ⟨_, rfl, fun other d found => ?_⟩
        rcases Dict.of_lookup_insert found with ⟨rfl, rfl⟩ | ⟨_, old⟩
        · exact evidence _ rfl
        · exact sound other d old
  · rw [AList.lookup_empty] at found
    cases found

end Inv

end Distlab.MultiPaxos
