import Distlab.Paxos.Runs

/-!
# Durable evidence under the invariant

The harnesses count, for each accepted value of the durable histories, the nodes
that accepted it. The values with a majority are the chosen ones of the voting
view, so under the invariant every check passes and the recovered decisions are
those that a majority accepted.
-/

set_option autoImplicit false

namespace Distlab.Paxos

open Foundations

variable {σ ν α : Type} [DecidableEq σ] [LinearOrder ν] [DecidableEq α]
  {M : Members ν} {s : Cluster σ ν α}

/-! ## Counting acceptors -/

/-- An acceptor of an accepted value, where values are told apart by identity. -/
def credit (n : ν) (accepted : AcceptedValue σ ν α) :
    List (AcceptedValue σ ν α × Finset ν) → List (AcceptedValue σ ν α × Finset ν)
  | [] => [(accepted, {n})]
  | item :: rest =>
      if item.1 = accepted then (item.1, insert n item.2) :: rest
      else item :: credit n accepted rest

/-- The evidence counts for each accepted value the nodes that accepted it. -/
structure Tallies (accepted : ν → AcceptedValue σ ν α → Prop)
    (evidence : List (AcceptedValue σ ν α × Finset ν)) : Prop where
  nodup : (evidence.map (·.1)).Nodup
  counts : ∀ e acceptors, (e, acceptors) ∈ evidence → ∀ n, n ∈ acceptors ↔ accepted n e
  covers : ∀ n e, accepted n e → ∃ acceptors, (e, acceptors) ∈ evidence
  inhabited : ∀ e acceptors, (e, acceptors) ∈ evidence → ∃ n, n ∈ acceptors

/-- The values in the evidence after one more. -/
theorem map_credit (n : ν) (accepted : AcceptedValue σ ν α)
    (evidence : List (AcceptedValue σ ν α × Finset ν)) :
    (credit n accepted evidence).map (·.1) =
      if accepted ∈ evidence.map (·.1) then evidence.map (·.1)
      else evidence.map (·.1) ++ [accepted] := by
  induction evidence with
  | nil => simp [credit]
  | cons item rest ih =>
      unfold credit
      by_cases same : item.1 = accepted
      · simp [same]
      · rw [if_neg same, List.map_cons, ih, List.map_cons]
        have other : accepted ≠ item.1 := fun equal => same equal.symm
        by_cases later : accepted ∈ rest.map (·.1)
        · rw [if_pos later, if_pos (List.mem_cons_of_mem _ later)]
        · rw [if_neg later, if_neg (by simpa [other] using later), List.cons_append]

/-- One value has one more acceptor, the others are as before. -/
theorem mem_credit {n : ν} {accepted : AcceptedValue σ ν α}
    {evidence : List (AcceptedValue σ ν α × Finset ν)}
    (nodup : (evidence.map (·.1)).Nodup) {e : AcceptedValue σ ν α} {acceptors : Finset ν}
    (member : (e, acceptors) ∈ credit n accepted evidence) :
    (e ≠ accepted ∧ (e, acceptors) ∈ evidence) ∨
      (e = accepted ∧ ∃ before, acceptors = insert n before ∧
        ((e, before) ∈ evidence ∨ before = ∅ ∧ accepted ∉ evidence.map (·.1))) := by
  induction evidence with
  | nil =>
      obtain ⟨rfl, rfl⟩ := Prod.mk.inj (List.mem_singleton.mp member)
      exact .inr ⟨rfl, ∅, rfl, .inr ⟨rfl, List.not_mem_nil⟩⟩
  | cons item rest ih =>
      obtain ⟨fresh, nodup⟩ := List.nodup_cons.mp nodup
      unfold credit at member
      split at member
      next same =>
        subst same
        rcases List.mem_cons.mp member with first | later
        · obtain ⟨rfl, rfl⟩ := Prod.mk.inj first
          exact .inr ⟨rfl, item.2, rfl, .inl List.mem_cons_self⟩
        · refine .inl ⟨?_, List.mem_cons_of_mem _ later⟩
          rintro rfl
          exact fresh (List.mem_map.mpr ⟨_, later, rfl⟩)
      next other =>
        rcases List.mem_cons.mp member with first | later
        · subst first
          exact .inl ⟨other, List.mem_cons_self⟩
        · rcases ih nodup later with ⟨differs, old⟩ | ⟨rfl, before, rfl, old | ⟨rfl, absent⟩⟩
          · exact .inl ⟨differs, List.mem_cons_of_mem _ old⟩
          · exact .inr ⟨rfl, before, rfl, .inl (List.mem_cons_of_mem _ old)⟩
          · refine .inr ⟨rfl, ∅, rfl, .inr ⟨rfl, ?_⟩⟩
            rw [List.map_cons, List.mem_cons, not_or]
            exact ⟨fun equal => other equal.symm, absent⟩

theorem Tallies.add {accepted : ν → AcceptedValue σ ν α → Prop}
    {evidence : List (AcceptedValue σ ν α × Finset ν)} (tallies : Tallies accepted evidence)
    (n : ν) (value : AcceptedValue σ ν α) :
    Tallies (fun m e => accepted m e ∨ m = n ∧ e = value) (credit n value evidence) where
  nodup := by
    rw [map_credit]
    split
    next => exact tallies.nodup
    next absent =>
      refine List.nodup_append.mpr ⟨tallies.nodup, List.nodup_singleton _, ?_⟩
      rintro e member _ single rfl
      exact absent (List.mem_singleton.mp single ▸ member)
  counts e acceptors member m := by
    rcases mem_credit tallies.nodup member with
      ⟨other, old⟩ | ⟨rfl, before, rfl, old | ⟨rfl, absent⟩⟩
    · rw [tallies.counts e acceptors old m, or_iff_left fun new => other new.2]
    · rw [Finset.mem_insert, tallies.counts e before old m]
      tauto
    · have none : ¬ accepted m e := by
        intro found
        obtain ⟨acceptors, known⟩ := tallies.covers m e found
        exact absent (List.mem_map.mpr ⟨_, known, rfl⟩)
      simp [none]
  covers m e found := by
    have listed : e ∈ (credit n value evidence).map (·.1) := by
      rw [map_credit]
      rcases found with old | ⟨_, rfl⟩
      · obtain ⟨acceptors, known⟩ := tallies.covers m e old
        have old : e ∈ evidence.map (·.1) := List.mem_map.mpr ⟨_, known, rfl⟩
        split
        · exact old
        · exact List.mem_append_left _ old
      · split
        next here => exact here
        next => exact List.mem_append_right _ (List.mem_singleton_self _)
    obtain ⟨item, known, rfl⟩ := List.mem_map.mp listed
    exact ⟨item.2, known⟩
  inhabited e acceptors member := by
    rcases mem_credit tallies.nodup member with ⟨_, old⟩ | ⟨rfl, before, rfl, _⟩
    · exact tallies.inhabited e acceptors old
    · exact ⟨n, Finset.mem_insert_self n before⟩

/-- The evidence after the history of a node. -/
def tally (n : ν) (history : List (AcceptedValue σ ν α))
    (evidence : List (AcceptedValue σ ν α × Finset ν)) :
    List (AcceptedValue σ ν α × Finset ν) :=
  history.foldl (fun evidence accepted => credit n accepted evidence) evidence

theorem Tallies.tally {accepted : ν → AcceptedValue σ ν α → Prop}
    {evidence : List (AcceptedValue σ ν α × Finset ν)} (tallies : Tallies accepted evidence)
    (n : ν) (history : List (AcceptedValue σ ν α)) :
    Tallies (fun m e => accepted m e ∨ m = n ∧ e ∈ history) (tally n history evidence) := by
  induction history generalizing accepted evidence with
  | nil => simpa [Paxos.tally] using tallies
  | cons value rest ih =>
      have later := ih (tallies.add n value)
      have same : (fun m e => accepted m e ∨ m = n ∧ e ∈ value :: rest) =
          fun m e => (accepted m e ∨ m = n ∧ e = value) ∨ m = n ∧ e ∈ rest := by
        funext m e
        rw [List.mem_cons]
        apply propext
        tauto
      rw [same]
      exact later

/-- The evidence of all nodes. -/
def evidenceOf (M : Members ν) (s : Cluster σ ν α) : List (AcceptedValue σ ν α × Finset ν) :=
  M.nodeIds.foldl (fun evidence n => tally n (s.durable n).acceptHistory evidence) []

theorem tallies_evidenceOf (M : Members ν) (s : Cluster σ ν α) :
    Tallies (fun n e => n ∈ M.nodeIds ∧ e ∈ (s.durable n).acceptHistory) (evidenceOf M s) := by
  have all : ∀ (nodes : List ν) (accepted : ν → AcceptedValue σ ν α → Prop)
      (evidence : List (AcceptedValue σ ν α × Finset ν)), Tallies accepted evidence →
      Tallies (fun n e => accepted n e ∨ n ∈ nodes ∧ e ∈ (s.durable n).acceptHistory)
        (nodes.foldl (fun evidence n => tally n (s.durable n).acceptHistory evidence)
          evidence) := by
    intro nodes
    induction nodes with
    | nil => intro accepted evidence tallies; simpa using tallies
    | cons n rest ih =>
        intro accepted evidence tallies
        have later := ih _ _ (tallies.tally n (s.durable n).acceptHistory)
        refine ⟨later.nodup, fun e acceptors member m => ?_, fun m e found => ?_, later.inhabited⟩
        · rw [later.counts e acceptors member m, List.mem_cons]
          constructor
          · rintro ((old | ⟨rfl, voted⟩) | ⟨inside, voted⟩)
            · exact .inl old
            · exact .inr ⟨.inl rfl, voted⟩
            · exact .inr ⟨.inr inside, voted⟩
          · rintro (old | ⟨rfl | inside, voted⟩)
            · exact .inl (.inl old)
            · exact .inl (.inr ⟨rfl, voted⟩)
            · exact .inr ⟨inside, voted⟩
        · refine later.covers m e ?_
          rcases found with old | ⟨member, voted⟩
          · exact .inl (.inl old)
          · rcases List.mem_cons.mp member with rfl | inside
            · exact .inl (.inr ⟨rfl, voted⟩)
            · exact .inr ⟨inside, voted⟩
  have empty : Tallies (fun (_ : ν) (_ : AcceptedValue σ ν α) => False) [] :=
    ⟨List.nodup_nil, fun _ _ member => absurd member List.not_mem_nil, fun _ _ => False.elim,
      fun _ _ member => absurd member List.not_mem_nil⟩
  simpa [evidenceOf] using all M.nodeIds _ _ empty

/-- The chosen values of the evidence are those of the votes. -/
theorem mem_chosenValues {e : AcceptedValue σ ν α} :
    e ∈ chosenValues M (evidenceOf M s) ↔ Evidence M s.voting ⟨e.slot, e.proposal, e.value⟩ := by
  have tallies := tallies_evidenceOf M s
  simp only [chosenValues, List.mem_map, List.mem_filter, decide_eq_true_eq]
  constructor
  · rintro ⟨⟨e', acceptors⟩, ⟨member, large⟩, rfl⟩
    have counted := tallies.counts e' acceptors member
    refine ⟨acceptors, ⟨fun n inside => ?_, large⟩, fun n inside => ((counted n).mp inside).2⟩
    exact List.mem_toFinset.mpr ((counted n).mp inside).1
  · rintro ⟨Q, ⟨members, size⟩, votes⟩
    have voted : ∀ n ∈ Q, n ∈ M.nodeIds ∧ e ∈ (s.durable n).acceptHistory := fun n inside =>
      ⟨List.mem_toFinset.mp (members inside), votes n inside⟩
    obtain ⟨n, inside⟩ := Finset.card_pos.mp (lt_of_lt_of_le (Nat.succ_pos _) size)
    obtain ⟨acceptors, member⟩ := tallies.covers n e (voted n inside)
    refine ⟨(e, acceptors), ⟨member, size.trans (Finset.card_le_card fun m inside => ?_)⟩, rfl⟩
    exact (tallies.counts e acceptors member m).mpr (voted m inside)

/-- The record is in the durable accept histories of a majority. -/
def DurableMajority (M : Members ν) (s : Cluster σ ν α) (e : AcceptedValue σ ν α) : Prop :=
  M.quorumSize ≤ (M.nodeIds.filter fun n => e ∈ (s.durable n).acceptHistory).length

instance (M : Members ν) (s : Cluster σ ν α) (e : AcceptedValue σ ν α) :
    Decidable (DurableMajority M s e) :=
  inferInstanceAs (Decidable (_ ≤ _))

/-- A durable majority is a quorum of votes. -/
theorem evidence_iff {d : LearnedDecision σ ν α} :
    Evidence M s.voting d ↔ DurableMajority M s ⟨d.slot, d.proposal, d.value⟩ := by
  set e : AcceptedValue σ ν α := ⟨d.slot, d.proposal, d.value⟩ with he
  have nodup : (M.nodeIds.filter fun n => e ∈ (s.durable n).acceptHistory).Nodup :=
    M.nodup.filter _
  constructor
  · rintro ⟨Q, ⟨members, size⟩, votes⟩
    refine size.trans ?_
    rw [← List.toFinset_card_of_nodup nodup]
    refine Finset.card_le_card fun n member => ?_
    simp only [List.mem_toFinset, List.mem_filter, decide_eq_true_eq]
    exact ⟨List.mem_toFinset.mp (members member), votes n member⟩
  · intro large
    refine ⟨(M.nodeIds.filter fun n => e ∈ (s.durable n).acceptHistory).toFinset,
      ⟨fun n member => ?_, ?_⟩, fun n member => ?_⟩
    · exact List.mem_toFinset.mpr (List.mem_filter.mp (List.mem_toFinset.mp member)).1
    · rwa [List.toFinset_card_of_nodup nodup]
    · simp only [List.mem_toFinset, List.mem_filter, decide_eq_true_eq] at member
      exact member.2

/-! ## The evidence that the program gathers -/

section Gathering

variable [BEq α] {D : Decrees σ} {X : Proposed σ ν α}

/-- The values were proposed. -/
def AllProposed (X : Proposed σ ν α) (values : List (AcceptedValue σ ν α)) : Prop :=
  ∀ e ∈ values, X e.slot e.proposal = some e.value

/-- Among values that were proposed and equal themselves the comparison of the
program tells the same apart as identity. -/
theorem Inv.addEvidence_eq (inv : Inv D M X s) (n : ν) {accepted : AcceptedValue σ ν α}
    (proposed : X accepted.slot accepted.proposal = some accepted.value)
    {evidence : List (AcceptedValue σ ν α × Finset ν)}
    (known : AllProposed X (evidence.map (·.1))) :
    addEvidence n accepted evidence = credit n accepted evidence := by
  induction evidence with
  | nil => rfl
  | cons item rest ih =>
      have later := ih fun e member => known e (List.mem_cons_of_mem _ member)
      unfold addEvidence credit
      rw [later]
      refine if_congr ⟨fun same => ?_, fun same => ?_⟩ rfl rfl
      · obtain ⟨slot, proposal, -⟩ := same
        have value := known item.1 List.mem_cons_self
        rw [slot, proposal, proposed] at value
        obtain ⟨⟨slot', proposal', value'⟩, acceptors⟩ := item
        cases accepted
        simp_all
      · subst same
        exact ⟨rfl, rfl, inv.selfEqual _ _ _ proposed⟩

omit [BEq α] in
theorem allProposed_credit {n : ν} {accepted : AcceptedValue σ ν α}
    (proposed : X accepted.slot accepted.proposal = some accepted.value)
    {evidence : List (AcceptedValue σ ν α × Finset ν)}
    (known : AllProposed X (evidence.map (·.1))) :
    AllProposed X ((credit n accepted evidence).map (·.1)) := by
  intro e member
  rw [map_credit] at member
  split at member
  · exact known e member
  · rcases List.mem_append.mp member with old | new
    · exact known e old
    · rw [List.mem_singleton.mp new]
      exact proposed

omit [BEq α] in
theorem allProposed_tally {n : ν} {history : List (AcceptedValue σ ν α)}
    (proposed : AllProposed X history) {evidence : List (AcceptedValue σ ν α × Finset ν)}
    (known : AllProposed X (evidence.map (·.1))) :
    AllProposed X ((tally n history evidence).map (·.1)) := by
  induction history generalizing evidence with
  | nil => exact known
  | cons accepted rest ih =>
      exact ih (fun e member => proposed e (List.mem_cons_of_mem _ member))
        (allProposed_credit (proposed accepted List.mem_cons_self) known)

omit [DecidableEq α] in
theorem Inv.allProposed_history (inv : Inv D M X s) (n : ν) :
    AllProposed X (s.durable n).acceptHistory :=
  fun e member => (inv.voted n e member).proposed

/-- The scan of a history of proposed values gathers their evidence. -/
theorem Inv.foldl_addEvidence_eq (inv : Inv D M X s) (n : ν)
    {history : List (AcceptedValue σ ν α)} (proposed : AllProposed X history)
    {evidence : List (AcceptedValue σ ν α × Finset ν)}
    (known : AllProposed X (evidence.map (·.1))) :
    history.foldl (fun evidence accepted => addEvidence n accepted evidence) evidence =
      tally n history evidence := by
  induction history generalizing evidence with
  | nil => rfl
  | cons accepted rest ih =>
      have first := proposed accepted List.mem_cons_self
      rw [List.foldl_cons, inv.addEvidence_eq n first known]
      exact ih (fun e member => proposed e (List.mem_cons_of_mem _ member))
        (allProposed_credit first known)

end Gathering

end Distlab.Paxos
