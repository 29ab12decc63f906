import Mathlib.Order.Interval.Finset.Nat
import Distlab.Paxos.Evidence

/-!
# Agreement

The checkpoints of both harnesses pass in every reachable state, and every
reachable cluster agrees on one value for each slot.
-/

set_option autoImplicit false

namespace Distlab.Paxos

open Foundations

variable {σ ν α : Type} [DecidableEq σ] [LinearOrder ν] [DecidableEq α] [BEq α] {D : Decrees σ}
  {M : Members ν} {X : Proposed σ ν α} {s : Cluster σ ν α}

/-! ## The checks of both harnesses -/

namespace Inv

variable (inv : Inv D M X s)

include inv

/-- The chosen values of a slot agree. -/
theorem chosen_agree {e e' : AcceptedValue σ ν α} (first : e ∈ chosenValues M (evidenceOf M s))
    (second : e' ∈ chosenValues M (evidenceOf M s)) (slot : e.slot = e'.slot) :
    e.value = e'.value :=
  inv.agree (mem_chosenValues.mp first) (mem_chosenValues.mp second) slot

theorem assertOneChosen_eq (slot : σ) :
    assertOneChosen (chosenValues M (evidenceOf M s)) slot = .ok () := by
  unfold assertOneChosen
  split
  next => rfl
  next first rest listed =>
    have known : ∀ e ∈ first :: rest, e ∈ chosenValues M (evidenceOf M s) ∧ e.slot = slot := by
      intro e member
      rw [← listed] at member
      obtain ⟨chosen, atSlot⟩ := List.mem_filter.mp member
      exact ⟨chosen, of_decide_eq_true atSlot⟩
    obtain ⟨chosen, atSlot⟩ := known first List.mem_cons_self
    rw [if_neg]
    rw [List.any_eq_true]
    rintro ⟨e, member, differs⟩
    obtain ⟨chosen', atSlot'⟩ := known e (List.mem_cons_of_mem _ member)
    exact inv.not_ne_of_evidence (mem_chosenValues.mp chosen') (mem_chosenValues.mp chosen)
      (atSlot'.trans atSlot.symm) differs

/-- A decision with evidence is the first chosen value of its slot. -/
theorem hasEvidence_eq {d : LearnedDecision σ ν α} (evidence : Evidence M s.voting d) :
    hasEvidence (chosenValues M (evidenceOf M s)) d.slot d.value = true := by
  have member : (⟨d.slot, d.proposal, d.value⟩ : AcceptedValue σ ν α) ∈
      chosenValues M (evidenceOf M s) := mem_chosenValues.mpr evidence
  have found : ((chosenValues M (evidenceOf M s)).find? (·.slot = d.slot)).isSome = true := by
    rw [List.find?_isSome]
    exact ⟨_, member, by simp⟩
  obtain ⟨e, first⟩ := Option.isSome_iff_exists.mp found
  have atSlot : e.slot = d.slot := by simpa using List.find?_some first
  have chosen := mem_chosenValues.mp (List.mem_of_find?_eq_some first)
  unfold hasEvidence firstChosen
  rw [first, Option.map_some, Option.any_some, Bool.not_eq_true']
  exact Bool.eq_false_iff.mpr (inv.not_ne_of_evidence chosen evidence atSlot)

omit [DecidableEq α] in
/-- A value of a history has one value for its slot and proposal. -/
theorem noteValue_eq {values : List (AcceptedValue σ ν α)} {accepted : AcceptedValue σ ν α}
    (known : AllProposed X values)
    (proposed : X accepted.slot accepted.proposal = some accepted.value) :
    ∃ values', noteValue values accepted = .ok values' ∧ AllProposed X values' := by
  unfold noteValue
  split
  next e found =>
    have same := List.find?_some found
    obtain ⟨slot, proposal⟩ := of_decide_eq_true same
    have equal := known e (List.mem_of_find?_eq_some found)
    rw [slot, proposal, proposed] at equal
    rw [if_neg ((inv.selfEqual _ _ _ proposed).not_ne (Option.some.inj equal).symm)]
    exact ⟨values, rfl, known⟩
  next =>
    refine ⟨_, rfl, fun e member => ?_⟩
    rcases List.mem_append.mp member with old | new
    · exact known e old
    · rw [List.mem_singleton.mp new]
      exact proposed

/-- The loop over the history of a node raises nothing. -/
theorem gatherNode_eq (n : ν) {gathered : Gathered σ ν α}
    (known : AllProposed X gathered.proposalValues)
    (counted : AllProposed X (gathered.evidence.map (·.1))) :
    ∃ values, gatherNode s gathered n =
        .ok ⟨tally n (s.durable n).acceptHistory gathered.evidence, values⟩ ∧
      AllProposed X values := by
  have all : ∀ history : List (AcceptedValue σ ν α), AllProposed X history →
      ∀ gathered : Gathered σ ν α, AllProposed X gathered.proposalValues →
      AllProposed X (gathered.evidence.map (·.1)) →
      ∃ values, history.foldlM (gather n) gathered =
          .ok ⟨tally n history gathered.evidence, values⟩ ∧ AllProposed X values := by
    intro history
    induction history with
    | nil => exact fun _ gathered known _ => ⟨gathered.proposalValues, rfl, known⟩
    | cons e rest ih =>
        intro proposed gathered known counted
        have first := proposed e List.mem_cons_self
        obtain ⟨values, noted, known'⟩ := inv.noteValue_eq known first
        rw [List.foldlM_cons, gather, noted]
        have credited := inv.addEvidence_eq n first counted
        simp only [bind, Except.bind, credited]
        exact ih (fun e' member => proposed e' (List.mem_cons_of_mem _ member)) _ known'
          (allProposed_credit first counted)
  exact all _ (inv.allProposed_history n) gathered known counted

/-- The loop over all nodes gathers their evidence. -/
theorem gatherNodes_eq (body : Gathered σ ν α → ν → Check σ ν (Gathered σ ν α))
    (same : ∀ gathered n, body gathered n = gatherNode s gathered n) :
    ∃ values, M.nodeIds.foldlM body {} = .ok ⟨evidenceOf M s, values⟩ := by
  have all : ∀ (nodes : List ν) (gathered : Gathered σ ν α),
      AllProposed X gathered.proposalValues → AllProposed X (gathered.evidence.map (·.1)) →
      ∃ values, nodes.foldlM body gathered = .ok ⟨nodes.foldl (fun evidence n =>
        tally n (s.durable n).acceptHistory evidence) gathered.evidence, values⟩ := by
    intro nodes
    induction nodes with
    | nil => exact fun gathered _ _ => ⟨gathered.proposalValues, rfl⟩
    | cons n rest ih =>
        intro gathered known counted
        obtain ⟨values, gathers, known'⟩ := inv.gatherNode_eq n known counted
        rw [List.foldlM_cons, same, gathers]
        exact ih _ known' (allProposed_tally (inv.allProposed_history n) counted)
  exact all M.nodeIds {} (fun e member => absurd member List.not_mem_nil)
    fun e member => absurd member List.not_mem_nil

end Inv

/-! ## The single decree -/

section Single

variable {X : Proposed Unit ν α} {s : Cluster Unit ν α}

theorem Inv.acceptorsByPair_eq (inv : Inv singleDecree M X s) :
    acceptorsByPair M s = .ok (evidenceOf M s) := by
  have all : ∀ (nodes : List ν) (evidence : List (AcceptedValue Unit ν α × Finset ν)),
      AllProposed X (evidence.map (·.1)) → nodes.foldlM (fun evidence n => do
        validateDurableState singleDecree n s
        .ok ((s.durable n).acceptHistory.foldl (fun evidence accepted =>
          addEvidence n accepted evidence) evidence)) evidence =
      (.ok (nodes.foldl (fun evidence n => tally n (s.durable n).acceptHistory evidence)
        evidence) : Check Unit ν _) := by
    intro nodes
    induction nodes with
    | nil => exact fun _ _ => rfl
    | cons n rest ih =>
        intro evidence known
        have history := inv.allProposed_history n
        rw [List.foldlM_cons, inv.validateDurableState_eq n]
        simp only [bind, Except.bind, inv.foldl_addEvidence_eq n history known]
        exact ih _ (allProposed_tally history known)
  exact all M.nodeIds [] fun e member => absurd member List.not_mem_nil

omit [DecidableEq α] in
/-- A learned decision has evidence. -/
theorem Inv.evidence_of_learned (inv : Inv singleDecree M X s) {d : LearnedDecision Unit ν α}
    (member : d ∈ learnedDecisions M s) : Evidence M s.voting d := by
  obtain ⟨n, _, found⟩ := List.mem_filterMap.mp member
  exact (inv.learned n () d found).2

theorem Inv.assertLearned_eq (inv : Inv singleDecree M X s) :
    assertLearned (learnedDecisions M s) (chosenValues M (evidenceOf M s)) = .ok () := by
  unfold assertLearned
  split
  next => rfl
  next first rest listed =>
    have evidence : ∀ d ∈ first :: rest, Evidence M s.voting d := fun d member =>
      inv.evidence_of_learned (listed ▸ member)
    have head := evidence first List.mem_cons_self
    rw [if_neg, if_neg (not_not.mpr (inv.hasEvidence_eq head))]
    rw [List.any_eq_true]
    rintro ⟨d, member, differs⟩
    exact inv.not_ne_of_evidence (evidence d (List.mem_cons_of_mem _ member)) head rfl differs

theorem Inv.assertObjective_eq (inv : Inv singleDecree M X s) :
    assertObjective (s.chosen.lookup ()) (learnedDecisions M s)
      (chosenValues M (evidenceOf M s)) = .ok () := by
  unfold assertObjective
  split
  next => rfl
  next decision found =>
    have evidence := (inv.chosen () decision found).2
    rw [if_neg (not_not.mpr (inv.hasEvidence_eq evidence)), if_neg]
    rw [Option.any_eq_true]
    rintro ⟨d, first, differs⟩
    have learned := inv.evidence_of_learned (List.mem_of_head? first)
    exact inv.not_ne_of_evidence learned evidence rfl differs

/-- The values of the evidence are noted without conflict. -/
theorem Inv.noteValues_eq (inv : Inv singleDecree M X s) :
    ∃ values, ((evidenceOf M s).map (·.1)).foldlM noteValue [] = .ok values := by
  have proposed : AllProposed X ((evidenceOf M s).map (·.1)) := by
    intro e member
    obtain ⟨⟨e', acceptors⟩, item, rfl⟩ := List.mem_map.mp member
    have tallies := tallies_evidenceOf M s
    obtain ⟨n, inside⟩ := tallies.inhabited _ _ item
    exact (inv.voted n _ ((tallies.counts _ _ item n).mp inside).2).proposed
  have all : ∀ items values : List (AcceptedValue Unit ν α),
      AllProposed X items → AllProposed X values →
        ∃ values', items.foldlM noteValue values = .ok values' := by
    intro items
    induction items with
    | nil => exact fun values _ _ => ⟨values, rfl⟩
    | cons e rest ih =>
        intro values proposed known
        obtain ⟨values', noted, known'⟩ := inv.noteValue_eq known (proposed e List.mem_cons_self)
        rw [List.foldlM_cons, noted]
        exact ih values' (fun e' member => proposed e' (List.mem_cons_of_mem _ member)) known'
  exact all _ [] proposed fun e member => absurd member List.not_mem_nil

/-- **The harness raises no false alarm.** -/
theorem Inv.checkpoint_eq (inv : Inv singleDecree M X s) : checkpoint M s = .ok () := by
  obtain ⟨values, noted⟩ := inv.noteValues_eq
  unfold checkpoint
  rw [inv.acceptorsByPair_eq]
  simp only [bind, Except.bind] at noted ⊢
  rw [noted, inv.assertOneChosen_eq (), inv.assertLearned_eq, inv.assertObjective_eq]

/-- **Single-decree agreement.** In every state of a run of a `PaxosCluster` whose proposed
values equal themselves at most one value has a durable majority at one proposal; every
learned decision and the recorded one have such a majority, so they carry this value; no
event raises a safety violation, and the checkpoint passes. -/
theorem single_decree_agreement (M : Members ν) (events : List (Event Unit ν α))
    (own : ∀ event ∈ events, event.ProposesSelfEqual) :
    (∀ e e' : AcceptedValue Unit ν α, DurableMajority M (run M events) e →
      DurableMajority M (run M events) e' → e.value = e'.value) ∧
    (∀ n d, ((run M events).durable n).learned.lookup () = some d →
      DurableMajority M (run M events) ⟨(), d.proposal, d.value⟩) ∧
    (∀ d, (run M events).chosen.lookup () = some d →
      DurableMajority M (run M events) ⟨(), d.proposal, d.value⟩) ∧
    (∀ event : Event Unit ν α, event.ProposesSelfEqual → ∀ error,
      (step singleDecree M event (run M events)).error? = some error → ¬ error.IsSafety) ∧
    checkpoint M (run M events) = .ok () := by
  obtain ⟨X, inv⟩ := run_inv M events own
  refine ⟨fun e e' first second => ?_, fun n d found => ?_, fun d found => ?_,
    fun event proposes error raised => ?_, inv.checkpoint_eq⟩
  · have decided : ∀ e : AcceptedValue Unit ν α, DurableMajority M (run M events) e →
        Evidence M (run M events).voting ⟨e.slot, e.proposal, e.value⟩ :=
      fun e majority => evidence_iff.mpr majority
    exact inv.agree (decided e first) (decided e' second) rfl
  · exact evidence_iff.mp (inv.learned n () d found).2
  · exact evidence_iff.mp (inv.chosen () d found).2
  · exact (step_ensures inv proposes).error raised

/-- Three nodes. -/
def threeMembers : Members ℕ where
  nodeIds := [1, 2, 3]
  nonempty := by decide
  nodup := by decide

/-- The first node accepts its own value; the second one takes over with a higher
proposal, hears of that value, proposes it in place of its own and decides it. -/
def takeover : List (Event Unit ℕ ℕ) :=
  [.startProposal 1 () 7 none, .deliver 0, .deliver 2, .startProposal 2 () 8 (some 2),
    .deliver 5, .deliver 7, .deliver 9, .deliver 10, .deliver 11]

theorem takeover_decides :
    ((run threeMembers takeover).chosen.lookup ()).map (·.value) = some 7 ∧
      DurableMajority threeMembers (run threeMembers takeover) ⟨(), ⟨2, 2⟩, 7⟩ ∧
      checkpoint threeMembers (run threeMembers takeover) = .ok () := by
  have own : ∀ event ∈ takeover, event.ProposesSelfEqual := by decide
  obtain ⟨_, _, recorded, _, passes⟩ := single_decree_agreement threeMembers takeover own
  have chosen : (run threeMembers takeover).chosen.lookup () = some ⟨(), ⟨2, 2⟩, 7⟩ := by
    decide +kernel
  refine ⟨?_, recorded _ chosen, passes⟩
  rw [chosen]
  rfl

/-- A number, or the float that is none and does not equal itself. -/
inductive Sample where
  | number (n : ℕ)
  | nan
  deriving DecidableEq

instance : BEq Sample where
  beq v w := decide (v = w ∧ v ≠ .nan)

/-- The first node proposes a value that does not equal itself. With the promise of
the second node it accepts the value itself. -/
def proposesNan : List (Event Unit ℕ Sample) :=
  [.startProposal 1 () .nan none, .deliver 0]

/-- The delivery of the promise raises: the node compares its own answer with the
value that it proposed. -/
theorem proposesNan_violates :
    ¬ ∀ (events : List (Event Unit ℕ Sample)) (event : Event Unit ℕ Sample) error,
      (step singleDecree threeMembers event (run threeMembers events)).error? = some error →
        ¬ error.IsSafety := by
  intro never
  have raised : (step singleDecree threeMembers (.deliver 2)
      (run threeMembers proposesNan)).error? = some (.safety .acceptedChangedValue) := by
    decide +kernel
  exact never proposesNan (.deliver 2) _ raised trivial

end Single

/-! ## The log -/

section Log

variable {X : Proposed ℕ ν α} {s : Cluster ℕ ν α}

omit [LinearOrder ν] [DecidableEq α] [BEq α] in
/-- The decisions of a prefix stand at consecutive slots. -/
theorem lookup_of_prefixFrom {decisions : Dict ℕ (LearnedDecision ℕ ν α)} {fuel slot i : ℕ}
    {d : LearnedDecision ℕ ν α} (found : (prefixFrom decisions fuel slot)[i]? = some d) :
    decisions.lookup (slot + i) = some d := by
  induction fuel generalizing slot i with
  | zero => cases found
  | succ fuel ih =>
      unfold prefixFrom at found
      split at found
      · cases found
      · next first here =>
        cases i with
        | zero =>
            cases found
            exact here
        | succ i =>
            rw [Nat.add_succ, ← Nat.succ_add]
            exact ih found

omit [LinearOrder ν] [DecidableEq α] [BEq α] in
/-- The loop stops at the first slot without a decision, or where its fuel ends. -/
theorem prefixFrom_stops (decisions : Dict ℕ (LearnedDecision ℕ ν α)) (fuel slot : ℕ) :
    (prefixFrom decisions fuel slot).length = fuel ∨
      decisions.lookup (slot + (prefixFrom decisions fuel slot).length) = none := by
  induction fuel generalizing slot with
  | zero => exact .inl rfl
  | succ fuel ih =>
      cases here : decisions.lookup slot with
      | none =>
          have ends : prefixFrom decisions (fuel + 1) slot = [] := by rw [prefixFrom, here]
          exact .inr (by rw [ends]; exact here)
      | some first =>
          have goes : prefixFrom decisions (fuel + 1) slot =
              first :: prefixFrom decisions fuel (slot + 1) := by rw [prefixFrom, here]
          rw [goes, List.length_cons]
          rcases ih (slot + 1) with ended | missing
          · exact .inl (congrArg Nat.succ ended)
          · refine .inr ?_
            rw [Nat.add_succ, ← Nat.succ_add]
            exact missing

omit [LinearOrder ν] [DecidableEq α] [BEq α] in
/-- `learned_prefix` ends before the first slot that the node has not learned. -/
theorem learnedPrefix_complete (s : Cluster ℕ ν α) (n : ν) :
    (s.durable n).learned.lookup ((learnedPrefix s n).length + 1) = none := by
  rcases prefixFrom_stops (s.durable n).learned (s.durable n).learned.entries.length 1 with
    ended | missing
  · -- The slots of the prefix are all the keys, so the next slot is none of them.
    by_contra present
    have size : (learnedPrefix s n).length = (s.durable n).learned.entries.length := ended
    have slots : Finset.Icc 1 ((s.durable n).learned.entries.length + 1) ⊆
        (s.durable n).learned.keySet := by
      intro slot inside
      obtain ⟨low, high⟩ := Finset.mem_Icc.mp inside
      rw [Dict.mem_keySet]
      rcases Nat.lt_or_ge slot ((s.durable n).learned.entries.length + 1) with below | above
      · have bound : slot - 1 < (learnedPrefix s n).length := by
          rw [size]
          omega
        refine ⟨(learnedPrefix s n)[slot - 1], ?_⟩
        have found : (s.durable n).learned.lookup (1 + (slot - 1)) =
            some (learnedPrefix s n)[slot - 1] :=
          lookup_of_prefixFrom (List.getElem?_eq_getElem bound)
        rwa [Nat.add_sub_cancel' low] at found
      · obtain rfl : slot = (learnedPrefix s n).length + 1 := by omega
        exact Option.ne_none_iff_exists'.mp present
    have card := Finset.card_le_card slots
    have keys : (s.durable n).learned.keySet.card = (s.durable n).learned.entries.length := by
      change (s.durable n).learned.keys.length = _
      exact List.length_map _
    rw [Nat.card_Icc, keys] at card
    omega
  · rw [Nat.add_comm]
    exact missing

namespace Inv

variable (inv : Inv slotDecrees M X s)

include inv

omit [DecidableEq α] in
/-- Two nodes learned one value at each slot of their prefixes. -/
theorem prefixes_agree {n m : ν} {i : ℕ} {d d' : LearnedDecision ℕ ν α}
    (first : (learnedPrefix s n)[i]? = some d) (second : (learnedPrefix s m)[i]? = some d') :
    d.value = d'.value := by
  obtain ⟨slot, evidence⟩ := inv.learned n _ d (lookup_of_prefixFrom first)
  obtain ⟨slot', evidence'⟩ := inv.learned m _ d' (lookup_of_prefixFrom second)
  exact inv.agree evidence evidence' (slot.trans slot'.symm)

omit [DecidableEq α] in
theorem take_prefixes (n m : ν) {k : ℕ} (left : k ≤ (learnedPrefix s n).length)
    (right : k ≤ (learnedPrefix s m).length) :
    ((learnedPrefix s n).map (·.value)).take k = ((learnedPrefix s m).map (·.value)).take k := by
  refine List.ext_getElem (by simp [left, right]) fun i hi _ => ?_
  have below : i < k := by
    rw [List.length_take] at hi
    omega
  simp only [List.getElem_take, List.getElem_map]
  exact inv.prefixes_agree (List.getElem?_eq_getElem (by omega))
    (List.getElem?_eq_getElem (by omega))

omit [DecidableEq α] in
/-- The learned prefixes of two nodes are comparable. -/
theorem prefixes_comparable (n m : ν) :
    (learnedPrefix s n).map (·.value) <+: (learnedPrefix s m).map (·.value) ∨
      (learnedPrefix s m).map (·.value) <+: (learnedPrefix s n).map (·.value) := by
  have shorter : ∀ a b, (learnedPrefix s a).length ≤ (learnedPrefix s b).length →
      (learnedPrefix s a).map (·.value) <+: (learnedPrefix s b).map (·.value) := by
    intro a b le
    have same := inv.take_prefixes a b le_rfl le
    rw [List.take_of_length_le (by simp)] at same
    rw [same]
    exact List.take_prefix _ _
  rcases Nat.le_total (learnedPrefix s n).length (learnedPrefix s m).length with le | le
  · exact .inl (shorter n m le)
  · exact .inr (shorter m n le)

theorem assertEvidence_eq {violation : ℕ → SafetyViolation ℕ ν}
    {decisions : Dict ℕ (LearnedDecision ℕ ν α)} (sound : SoundDecisions M s.voting decisions) :
    assertEvidence violation (chosenValues M (evidenceOf M s)) decisions = .ok () := by
  refine forM_eq_ok fun entry member => ?_
  obtain ⟨slot, evidence⟩ := sound entry.1 entry.2 (AList.mem_lookup_iff.mpr member)
  rw [← slot, if_neg (not_not.mpr (inv.hasEvidence_eq evidence))]

/-- **The harness of the log raises no false alarm.** -/
theorem logCheckpoint_eq : logCheckpoint M s = .ok () := by
  obtain ⟨values, gathers⟩ := inv.gatherNodes_eq (fun gathered n => do
    validateDurableState slotDecrees n s
    gatherNode s gathered n) fun gathered n => by
      rw [inv.validateDurableState_eq n]
      rfl
  have slots : ((chosenValues M (evidenceOf M s)).map (·.slot)).forM
      (assertOneChosen (ν := ν) (chosenValues M (evidenceOf M s))) = .ok () :=
    forM_eq_ok fun slot _ => inv.assertOneChosen_eq slot
  have learned : M.nodeIds.forM (fun n => assertEvidence .learnedWithoutEvidence
      (chosenValues M (evidenceOf M s)) (s.durable n).learned) = .ok () :=
    forM_eq_ok fun n _ => inv.assertEvidence_eq (inv.learned n)
  have prefixes : M.nodeIds.forM (fun left => M.nodeIds.forM fun right =>
      assertComparable s left right) = .ok () := by
    refine forM_eq_ok fun left _ => forM_eq_ok fun right _ => if_neg (not_not.mpr ?_)
    rw [inv.take_prefixes left right (by simp) (by simp)]
    exact isEqv_itemEqual_self _
  rw [logCheckpoint, gathers]
  simp only [bind, Except.bind] at slots learned prefixes ⊢
  rw [slots, learned, inv.assertEvidence_eq inv.chosen]
  exact prefixes

end Inv

/-! ## Recovery -/

namespace Inv

variable (inv : Inv slotDecrees M X s)

include inv

/-- The recovered decision of a chosen slot is a chosen value. -/
theorem recoverSlot_eq {slot : ℕ}
    (decided : slot ∈ (chosenValues M (evidenceOf M s)).map (·.slot)) :
    ∃ d, recoverSlot (chosenValues M (evidenceOf M s)) slot = .ok (some d) ∧ d.slot = slot ∧
      Evidence M s.voting d := by
  obtain ⟨e, member, rfl⟩ := List.mem_map.mp decided
  have here : e ∈ (chosenValues M (evidenceOf M s)).filter (·.slot = e.slot) :=
    List.mem_filter.mpr ⟨member, by simp⟩
  cases lowest : ((chosenValues M (evidenceOf M s)).filter (·.slot = e.slot)).argmin
      (·.proposal) with
  | none =>
      rw [List.argmin_eq_none.mp lowest] at here
      exact absurd here List.not_mem_nil
  | some first =>
      obtain ⟨chosen, atSlot⟩ := List.mem_filter.mp (List.argmin_mem lowest)
      have slot : first.slot = e.slot := of_decide_eq_true atSlot
      obtain ⟨head, isHead⟩ := Option.isSome_iff_exists.mp
        (List.isSome_head?.mpr (List.ne_nil_of_mem here))
      obtain ⟨chosen', atSlot'⟩ := List.mem_filter.mp (List.mem_of_head? isHead)
      have value : head.value = first.value :=
        inv.chosen_agree chosen' chosen ((of_decide_eq_true atSlot').trans slot.symm)
      refine ⟨⟨e.slot, first.proposal, first.value⟩, ?_, rfl, slot ▸ mem_chosenValues.mp chosen⟩
      rw [recoverSlot, inv.assertOneChosen_eq]
      simp only [bind, Except.bind, Option.bind, isHead, lowest, value]

/-- The loop over the chosen slots, with the body `body`. -/
theorem recoverSlots_eq
    (body : Dict ℕ (LearnedDecision ℕ ν α) → ℕ → Check ℕ ν (Dict ℕ (LearnedDecision ℕ ν α)))
    (inserts : ∀ recovered slot d,
      recoverSlot (chosenValues M (evidenceOf M s)) slot = .ok (some d) →
      body recovered slot = .ok (recovered.insert slot d))
    (slots : List ℕ)
    (decided : ∀ slot ∈ slots, slot ∈ (chosenValues M (evidenceOf M s)).map (·.slot))
    (start : Dict ℕ (LearnedDecision ℕ ν α)) (sound : SoundDecisions M s.voting start) :
    ∃ recovered, slots.foldlM body start = .ok recovered ∧
      SoundDecisions M s.voting recovered ∧
      (∀ slot d, start.lookup slot = some d → ∃ d', recovered.lookup slot = some d') ∧
      ∀ slot ∈ slots, ∃ d, recovered.lookup slot = some d := by
  induction slots generalizing start with
  | nil =>
      exact ⟨start, rfl, sound, fun slot d found => ⟨d, found⟩,
        fun slot member => absurd member List.not_mem_nil⟩
  | cons slot rest ih =>
      obtain ⟨d, recovers, rfl, evidence⟩ := inv.recoverSlot_eq (decided slot List.mem_cons_self)
      obtain ⟨recovered, folds, sound', kept, found⟩ :=
        ih (fun slot member => decided slot (List.mem_cons_of_mem _ member))
          (start.insert d.slot d) (sound.insert evidence)
      refine ⟨recovered, ?_, sound', fun slot d' old => ?_, fun slot member => ?_⟩
      · rw [List.foldlM_cons, inserts start d.slot d recovers]
        exact folds
      · by_cases same : slot = d.slot
        · exact kept slot d (by rw [Dict.lookup_insert, if_pos same])
        · exact kept slot d' (by rw [Dict.lookup_insert, if_neg same, old])
      · rcases List.mem_cons.mp member with rfl | later
        · exact kept _ d (by rw [Dict.lookup_insert, if_pos rfl])
        · exact found slot later

/-- **The recovered table.** It has a decision with evidence at each slot with a
chosen value, and at no other slot. -/
theorem recoverChosen_eq : ∃ recovered, recoverChosen M s = .ok recovered ∧
    SoundDecisions M s.voting recovered ∧
    ∀ e ∈ chosenValues M (evidenceOf M s), ∃ d, recovered.lookup e.slot = some d := by
  obtain ⟨values, gathers⟩ := inv.gatherNodes_eq (gatherNode s) fun _ _ => rfl
  rw [recoverChosen, gathers]
  refine (inv.recoverSlots_eq _ (fun _ slot d recovers => ?_) _ (fun slot member => ?_) ∅
    fun slot d found => ?_).imp fun recovered after =>
      ⟨after.1, after.2.1, fun e member => after.2.2.2 e.slot ?_⟩
  · rw [recovers]
    rfl
  · exact List.mem_dedup.mp (List.mem_insertionSort _ |>.mp member)
  · simp at found
  · exact (List.mem_insertionSort _).mpr (List.mem_dedup.mpr (List.mem_map.mpr ⟨e, member, rfl⟩))

/-- **Reconstruction** raises nothing. -/
theorem reconstruct_eq : ∃ recovered,
    reconstruct M s = .returns () { Cluster.over s.durable with chosen := recovered } ∧
      Inv slotDecrees M X { Cluster.over s.durable with chosen := recovered } ∧
      SoundDecisions M s.voting recovered ∧
      ∀ d, Evidence M s.voting d → ∃ d', recovered.lookup d.slot = some d' := by
  have fresh := (inv.over ∅ fun slot d found => by simp at found).inv
  obtain ⟨recovered, recovers, sound, complete⟩ := fresh.recoverChosen_eq
  have rebuilt := (inv.over recovered sound).inv
  refine ⟨recovered, ?_, rebuilt, sound, fun d evidence => ?_⟩
  · have valid : M.nodeIds.forM (fun n =>
        validateDurableState slotDecrees n (Cluster.over s.durable)) = .ok () :=
      forM_eq_ok fun n _ => fresh.validateDurableState_eq n
    have recovers' : recoverChosen M (Cluster.over s.durable) = .ok recovered := recovers
    unfold reconstruct
    simp only [valid, recovers', rebuilt.logCheckpoint_eq]
  · exact complete ⟨d.slot, d.proposal, d.value⟩ (mem_chosenValues.mpr evidence)

end Inv

theorem logStep_ensures (inv : Inv slotDecrees M X s) {event : LogEvent ν α}
    (own : event.ProposesSelfEqual) :
    (logStep M event s).Ensures (fun t => ∃ Y, Inv slotDecrees M Y t) Permitted := by
  cases event with
  | event event =>
      exact (step_ensures inv own).mono
        (fun _ after => after.imp fun _ follows => follows.inv) fun _ _ => id
  | reconstruct =>
      obtain ⟨recovered, rebuilds, rebuilt, -⟩ := inv.reconstruct_eq
      unfold logStep
      dsimp only
      rw [rebuilds]
      exact ⟨X, rebuilt⟩

/-- **The run lemma** of the log. -/
theorem logRun_inv (M : Members ν) (events : List (LogEvent ν α))
    (own : ∀ event ∈ events, event.ProposesSelfEqual) :
    ∃ X, Inv slotDecrees M X (logRun M events) :=
  runEvents_invariant_of_forall (P := fun s => ∃ X, Inv slotDecrees M X s)
    (fun event s inv own => by
      obtain ⟨X, inv⟩ := inv
      exact (logStep_ensures inv own).state)
    events _ ⟨_, fresh_inv slotDecrees M⟩ own

/-- **Agreement of the log.** In every state of a run of a `PaxosLogCluster` whose proposed
values equal themselves at most one value of a slot has a durable majority at one proposal;
every learned decision and every recorded one has such a majority; the learned prefixes of
any two nodes are comparable; no event raises a safety violation, and the checkpoint
passes. -/
theorem log_agreement (M : Members ν) (events : List (LogEvent ν α))
    (own : ∀ event ∈ events, event.ProposesSelfEqual) :
    (∀ e e' : AcceptedValue ℕ ν α, DurableMajority M (logRun M events) e →
      DurableMajority M (logRun M events) e' → e.slot = e'.slot → e.value = e'.value) ∧
    (∀ n slot d, ((logRun M events).durable n).learned.lookup slot = some d →
      DurableMajority M (logRun M events) ⟨slot, d.proposal, d.value⟩) ∧
    (∀ slot d, (logRun M events).chosen.lookup slot = some d →
      DurableMajority M (logRun M events) ⟨slot, d.proposal, d.value⟩) ∧
    (∀ n m, (learnedPrefix (logRun M events) n).map (·.value) <+:
          (learnedPrefix (logRun M events) m).map (·.value) ∨
        (learnedPrefix (logRun M events) m).map (·.value) <+:
          (learnedPrefix (logRun M events) n).map (·.value)) ∧
    (∀ event : LogEvent ν α, event.ProposesSelfEqual → ∀ error,
      (logStep M event (logRun M events)).error? = some error → ¬ error.IsSafety) ∧
    logCheckpoint M (logRun M events) = .ok () := by
  obtain ⟨X, inv⟩ := logRun_inv M events own
  refine ⟨fun e e' first second slot => ?_, fun n slot d found => ?_, fun slot d found => ?_,
    inv.prefixes_comparable, fun event proposes error raised => ?_, inv.logCheckpoint_eq⟩
  · have decided : ∀ e : AcceptedValue ℕ ν α, DurableMajority M (logRun M events) e →
        Evidence M (logRun M events).voting ⟨e.slot, e.proposal, e.value⟩ :=
      fun e majority => evidence_iff.mpr majority
    exact inv.agree (decided e first) (decided e' second) slot
  · obtain ⟨rfl, evidence⟩ := inv.learned n slot d found
    exact evidence_iff.mp evidence
  · obtain ⟨rfl, evidence⟩ := inv.chosen slot d found
    exact evidence_iff.mp evidence
  · exact (logStep_ensures inv proposes).error raised

/-- The first node decides the second slot and has a value accepted at the first
one by the second node, whose answer it never receives. -/
def partialObservation : List (LogEvent ℕ ℕ) :=
  [.event (.startProposal 1 2 7 none), .event (.deliver 0), .event (.deliver 2),
    .event (.deliver 3), .event (.deliver 5), .event (.startProposal 1 1 8 none),
    .event (.deliver 8), .event (.deliver 10), .event (.deliver 11)]

theorem partialObservation_agrees :
    ((logRun threeMembers partialObservation).chosen.lookup 2).map (·.value) = some 7 ∧
      DurableMajority threeMembers (logRun threeMembers partialObservation) ⟨2, ⟨1, 1⟩, 7⟩ ∧
      logCheckpoint threeMembers (logRun threeMembers partialObservation) = .ok () := by
  have own : ∀ event ∈ partialObservation, event.ProposesSelfEqual := by decide
  obtain ⟨_, _, recorded, _, _, passes⟩ := log_agreement threeMembers partialObservation own
  have chosen : (logRun threeMembers partialObservation).chosen.lookup 2 =
      some ⟨2, ⟨1, 1⟩, 7⟩ := by decide +kernel
  refine ⟨?_, recorded 2 _ chosen, passes⟩
  rw [chosen]
  rfl

/-- The first node proposes at the first slot a value that does not equal itself. -/
def logsNan : List (LogEvent ℕ Sample) :=
  [.event (.startProposal 1 1 .nan none), .event (.deliver 0)]

/-- The handler of the promise raises, as in the single decree. -/
theorem logsNan_violates :
    ¬ ∀ (events : List (LogEvent ℕ Sample)) (event : LogEvent ℕ Sample) error,
      (logStep threeMembers event (logRun threeMembers events)).error? = some error →
        ¬ error.IsSafety := by
  intro never
  have raised : (logStep threeMembers (.event (.deliver 2))
      (logRun threeMembers logsNan)).error? = some (.safety .acceptedChangedValue) := by
    decide +kernel
  exact never logsNan (.event (.deliver 2)) _ raised trivial

/-- **Reconstruction extends what was decided.** From every state of a run of a
`PaxosLogCluster` whose proposed values equal themselves a recovering cluster is built over
the durable state without an error. It has, with the same value, every decision that the
cluster had recorded and every decision that a node had learned, and each of its decisions
has a durable majority at its proposal. -/
theorem reconstruction_extends (M : Members ν) (events : List (LogEvent ν α))
    (own : ∀ event ∈ events, event.ProposesSelfEqual) :
    ∃ recovered, reconstruct M (logRun M events) =
        .returns () { Cluster.over (logRun M events).durable with chosen := recovered } ∧
      (∀ slot d, (logRun M events).chosen.lookup slot = some d →
        ∃ d', recovered.lookup slot = some d' ∧ d'.value = d.value) ∧
      (∀ n slot d, ((logRun M events).durable n).learned.lookup slot = some d →
        ∃ d', recovered.lookup slot = some d' ∧ d'.value = d.value) ∧
      ∀ slot d, recovered.lookup slot = some d →
        d.slot = slot ∧ DurableMajority M (logRun M events) ⟨slot, d.proposal, d.value⟩ := by
  obtain ⟨X, inv⟩ := logRun_inv M events own
  obtain ⟨recovered, rebuilds, _, sound, complete⟩ := inv.reconstruct_eq
  have extends_ : ∀ decisions, SoundDecisions M (logRun M events).voting decisions →
      ∀ slot d, decisions.lookup slot = some d →
        ∃ d', recovered.lookup slot = some d' ∧ d'.value = d.value := by
    intro decisions known slot d found
    obtain ⟨rfl, evidence⟩ := known slot d found
    obtain ⟨d', found'⟩ := complete d evidence
    obtain ⟨atSlot, evidence'⟩ := sound _ d' found'
    exact ⟨d', found', inv.agree evidence' evidence atSlot⟩
  refine ⟨recovered, rebuilds, extends_ _ inv.chosen, fun n => extends_ _ (inv.learned n),
    fun slot d found => ?_⟩
  obtain ⟨rfl, evidence⟩ := sound slot d found
  exact ⟨rfl, evidence_iff.mp evidence⟩

/-- The recovered decision of the second slot is the one that was recorded. -/
theorem partialObservation_recovers : ∃ recovered,
    reconstruct threeMembers (logRun threeMembers partialObservation) = .returns ()
      { Cluster.over (logRun threeMembers partialObservation).durable with
        chosen := recovered } ∧
    ∃ d, recovered.lookup 2 = some d ∧ d.value = 7 := by
  have own : ∀ event ∈ partialObservation, event.ProposesSelfEqual := by decide
  obtain ⟨recovered, rebuilds, extends_, -⟩ :=
    reconstruction_extends threeMembers partialObservation own
  have chosen : (logRun threeMembers partialObservation).chosen.lookup 2 =
      some ⟨2, ⟨1, 1⟩, 7⟩ := by decide +kernel
  exact ⟨recovered, rebuilds, extends_ 2 _ chosen⟩

-- The value of the first slot is recovered although no node saw it decided.
example : (logRun threeMembers partialObservation).chosen.lookup 1 = none ∧
    ((recoverChosen threeMembers (logRun threeMembers partialObservation)).toOption.bind
      (·.lookup 1)).map (·.value) = some 8 := by
  decide +kernel

/-- Five nodes. -/
def fiveMembers : Members ℕ where
  nodeIds := [1, 2, 3, 4, 5]
  nonempty := by decide
  nodup := by decide

/-- The first node starts a proposal of a value that does not equal itself. It has
promised the second node's higher proposal by the time a majority has answered, so
it refuses its own request, which two other nodes accept. -/
def nanAcceptedTwice : List (LogEvent ℕ Sample) :=
  [.event (.startProposal 1 1 .nan none), .event (.startProposal 2 1 (.number 8) none),
    .event (.deliver 4), .event (.deliver 1), .event (.deliver 2), .event (.deliver 9),
    .event (.deliver 10), .event (.deliver 12), .event (.deliver 13)]

/-- The reconstruction compares the value of the third node with that of the fourth
one and raises. -/
theorem nanAcceptedTwice_not_recovered :
    ¬ ∀ events : List (LogEvent ℕ Sample),
      (reconstruct fiveMembers (logRun fiveMembers events)).error? = none := by
  intro never
  have raised : (reconstruct fiveMembers (logRun fiveMembers nanAcceptedTwice)).error? =
      some (.safety (.conflictingAccepted 1 ⟨1, 1⟩)) := by
    decide +kernel
  rw [never nanAcceptedTwice] at raised
  cases raised

end Log

end Distlab.Paxos
