import Distlab.MultiPaxos.Evidence

/-!
# What the safety oracle shows

`assert_safety` judges any state, also one that no run reaches. What it shows of the
durable records holds for arbitrary histories: the majorities of a slot agree on one
value, and every learned decision has a majority at its own ballot.

It checks the runtime decisions only at slots where some majority exists, and the
records of one slot and ballot only within each node's history. So a decision without
any majority passes, and so do two nodes whose records of one ballot differ.
-/

set_option autoImplicit false

namespace Distlab.MultiPaxos

open Foundations Paxos

variable {ν : Type} {α : Type} [LinearOrder ν] [DecidableEq α] {M : Membership ν}
  {s : Cluster ν α}

/-! ## Verdicts -/

/-- The record that acceptors of a decision hold. -/
def decisionRecord {ν α : Type} (decision : SlotLearnedDecision ν α) : SlotAcceptedValue ν α :=
  ⟨decision.slot, decision.proposal, decision.value⟩

/-- What a passing oracle should say about a state. -/
structure Judged (M : Membership ν) (s : Cluster ν α) : Prop where
  one_value : ∀ slot b b' v v', DurableMajority M s ⟨slot, b, v⟩ →
    DurableMajority M s ⟨slot, b', v'⟩ → v = v'
  chosen : ∀ slot decision, s.chosen.lookup slot = some decision →
    ∃ b, DurableMajority M s ⟨slot, b, decision.value⟩
  learned : ∀ n ∈ M.nodeIds, ∀ slot decision,
    ((s.durable n).learned.getD ∅).lookup slot = some decision →
      DurableMajority M s (decisionRecord decision)
  one_record : ∀ n ∈ M.nodeIds, ∀ m ∈ M.nodeIds, ∀ e ∈ (s.durable n).acceptHistory,
    ∀ e' ∈ (s.durable m).acceptHistory, e.slot = e'.slot → e.proposal = e'.proposal →
      e.value = e'.value

/-- Every slot that the runtime has a decision for has some majority. -/
def ChosenDecided (M : Membership ν) (s : Cluster ν α) : Prop :=
  ∀ slot, (s.chosen.lookup slot).isSome → ∃ b v, DurableMajority M s ⟨slot, b, v⟩

/-- The histories of two different nodes do not differ at one slot and ballot. -/
def HistoriesAgree (M : Membership ν) (s : Cluster ν α) : Prop :=
  ∀ n ∈ M.nodeIds, ∀ m ∈ M.nodeIds, n ≠ m → ∀ e ∈ (s.durable n).acceptHistory,
    ∀ e' ∈ (s.durable m).acceptHistory, e.slot = e'.slot → e.proposal = e'.proposal →
      e.value = e'.value

/-! ## The checks -/

/-- **The check of a slot**: its majorities agree, with each other and with the decision
of the runtime. -/
theorem assertSlot_passes {slot : ℕ} {found : Option α} (passed : assertSlot M s slot = .ok found)
    {b : ProposalNumber ν} {v : α} (large : DurableMajority M s ⟨slot, b, v⟩) :
    found = some v ∧ ∀ decision, s.chosen.lookup slot = some decision → decision.value = v := by
  have member := Inv.mem_quorumEvidence.mpr large
  unfold assertSlot at passed
  split at passed
  next none =>
    rw [none] at member
    cases member
  next first value rest evidence =>
    split at passed
    · cases passed
    next agree =>
    split at passed
    · cases passed
    next runtime =>
    cases passed
    rw [evidence] at member
    obtain rfl : v = value := by
      rcases List.mem_cons.mp member with head | later
      · exact (Prod.mk.inj head).2
      · have same := List.any_eq_false.mp (Bool.eq_false_iff.mpr agree) _ later
        simpa using same
    refine ⟨rfl, fun decision found => ?_⟩
    rw [found] at runtime
    simpa using runtime

/-- A record that a majority holds is at a recorded slot. -/
theorem mem_recordedSlots {e : SlotAcceptedValue ν α} (large : DurableMajority M s e) :
    e.slot ∈ recordedSlots M s := by
  have positive : 0 < (M.nodeIds.filter fun n => e ∈ (s.durable n).acceptHistory).length :=
    lt_of_lt_of_le (Nat.succ_pos _) large
  obtain ⟨n, member⟩ := List.exists_mem_of_length_pos positive
  obtain ⟨isNode, vote⟩ := List.mem_filter.mp member
  refine List.mem_dedup.mpr (List.mem_flatMap.mpr ⟨n, isNode, ?_⟩)
  exact List.mem_map.mpr ⟨e, of_decide_eq_true vote, rfl⟩

/-- A decision that passes has a majority at its ballot. -/
theorem requireDecisionEvidence_passes {decision : SlotLearnedDecision ν α}
    (passed : requireDecisionEvidence M s decision = .ok ()) :
    DurableMajority M s (decisionRecord decision) := by
  unfold requireDecisionEvidence at passed
  split at passed
  · cases passed
  obtain ⟨_, _, passed⟩ := bind_eq_ok.mp passed
  obtain ⟨_, _, passed⟩ := bind_eq_ok.mp passed
  split at passed
  · cases passed
  next large => exact not_lt.mp large

/-- The records have one value for each slot and ballot. -/
def SingleValued (records : List (SlotAcceptedValue ν α)) : Prop :=
  ∀ e ∈ records, ∀ e' ∈ records, e.slot = e'.slot → e.proposal = e'.proposal → e.value = e'.value

omit [LinearOrder ν] [DecidableEq α] in
theorem SingleValued.cons {e : SlotAcceptedValue ν α} {records : List (SlotAcceptedValue ν α)}
    (single : SingleValued records) (agrees : ∀ known ∈ records, known.slot = e.slot →
      known.proposal = e.proposal → known.value = e.value) : SingleValued (e :: records) := by
  intro a member a' member' slot proposal
  rcases List.mem_cons.mp member with rfl | earlier <;>
    rcases List.mem_cons.mp member' with rfl | earlier'
  · rfl
  · exact (agrees a' earlier' slot.symm proposal.symm).symm
  · exact agrees a earlier slot proposal
  · exact single a earlier a' earlier' slot proposal

/-- Where the table keeps one value for each slot and ballot, so do the records that pass. -/
theorem singleValued_of_checkRecords {n : ν} {rest before : List (SlotAcceptedValue ν α)}
    (single : SingleValued before) (passed : checkRecords M s n before rest = .ok ()) :
    SingleValued (rest.reverse ++ before) := by
  induction rest generalizing before with
  | nil => exact single
  | cons e rest ih =>
      obtain ⟨_, _, passed⟩ := bind_eq_ok.mp passed
      split at passed
      · cases passed
      next same =>
      rw [List.reverse_cons, List.append_assoc]
      refine ih (single.cons fun known member slot proposal => ?_) passed
      by_contra differs
      -- the table has some record of the key, and all of them have one value
      have some : (before.find? fun known => known.slot = e.slot ∧
          known.proposal = e.proposal).isSome :=
        List.find?_isSome.mpr ⟨known, member, decide_eq_true ⟨slot, proposal⟩⟩
      obtain ⟨last, found⟩ := Option.isSome_iff_exists.mp some
      have key := List.find?_some found
      obtain ⟨slot', proposal'⟩ := of_decide_eq_true key
      have equal := single known member last (List.mem_of_find?_eq_some found)
        (slot.trans slot'.symm) (proposal.trans proposal'.symm)
      exact same ((Option.any_eq_true ..).mpr ⟨last, found, decide_eq_true (equal ▸ differs)⟩)

/-- A history that passes has one value for each slot and ballot. -/
theorem validateDurableHistory_passes {n : ν} (passed : validateDurableHistory M s n = .ok ())
    {e e' : SlotAcceptedValue ν α} (vote : e ∈ (s.durable n).acceptHistory)
    (vote' : e' ∈ (s.durable n).acceptHistory) (slot : e.slot = e'.slot)
    (proposal : e.proposal = e'.proposal) : e.value = e'.value := by
  obtain ⟨_, _, passed⟩ := bind_eq_ok.mp passed
  have single := singleValued_of_checkRecords
      (fun _ member => absurd member List.not_mem_nil) passed
  rw [List.append_nil] at single
  exact single e (List.mem_reverse.mpr vote) e' (List.mem_reverse.mpr vote') slot proposal

/-! ## The verdict -/

/-- Three members. -/
def jury : Membership ℕ where
  nodeIds := [14, 15, 16]
  nonempty := by decide
  nodup := by decide

/-- A node that accepted one value at slot 1 under the first ballot of node 14. -/
def accepting (value : String) : Durable ℕ String where
  promised := some ⟨1, 14⟩
  acceptHistory := [⟨1, ⟨1, 14⟩, value⟩]
  lastRound := 1

/-- A decision that all members accepted. -/
def unanimous : Cluster ℕ String :=
  { Cluster.fresh true with
    durable := fun _ => { accepting "value" with
      learned := some ((∅ : Dict ℕ (SlotLearnedDecision ℕ String)).insert 1 ⟨1, ⟨1, 14⟩, "value"⟩) }
    chosen := (∅ : Dict ℕ (SlotLearnedDecision ℕ String)).insert 1 ⟨1, ⟨1, 14⟩, "value"⟩ }

/-- A runtime decision over empty histories. -/
def unsupported : Cluster ℕ String :=
  { Cluster.fresh true with
    chosen := (∅ : Dict ℕ (SlotLearnedDecision ℕ String)).insert 1 ⟨1, ⟨1, 14⟩, "value"⟩ }

/-- Two members that accepted different values under one ballot. -/
def divided : Cluster ℕ String :=
  { Cluster.fresh true with
    durable := fun n => if n = 14 then accepting "first" else if n = 15 then accepting "second"
      else Durable.fresh true }

end Distlab.MultiPaxos
