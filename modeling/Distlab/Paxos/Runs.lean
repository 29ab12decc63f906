import Distlab.Paxos.Harness
import Distlab.Paxos.Preservation

/-!
# Runs of a Paxos cluster

The remaining operations keep the invariant, hence every event does, and every
run of events. The durable state of a node passes its validation.
-/

set_option autoImplicit false

namespace Distlab.Paxos

open Foundations

variable {σ ν α : Type} [DecidableEq σ] [LinearOrder ν] [BEq α] {D : Decrees σ}
  {M : Members ν} {X : Proposed σ ν α} {s : Cluster σ ν α}

/-! ## Durable state -/

theorem Inv.validAt (inv : Inv D M X s) {slot : σ} {d : LearnedDecision σ ν α}
    {decisions : Dict σ (LearnedDecision σ ν α)} (sound : SoundDecisions M s.voting decisions)
    (found : decisions.lookup slot = some d) : D.validSlot slot = true := by
  obtain ⟨rfl, evidence⟩ := sound slot d found
  exact (inv.safe_of_evidence evidence).slot

theorem Inv.wellFormedDurable_eq (inv : Inv D M X s) (n : ν) :
    wellFormedDurable D (s.durable n) = true := by
  have acceptor := inv.acceptor n
  simp only [wellFormedDurable, Bool.and_eq_true, List.all_eq_true, decide_eq_true_eq]
  refine ⟨⟨fun entry member => ?_, fun entry member => ?_⟩, fun entry member => ?_⟩
  · exact acceptor.slots entry.1 entry.2 (AList.mem_lookup_iff.mpr member)
  · obtain ⟨atSlot, voted⟩ := acceptor.current entry.1 entry.2 (AList.mem_lookup_iff.mpr member)
    exact ⟨atSlot ▸ (inv.voted n _ voted).slot, atSlot⟩
  · have found := AList.mem_lookup_iff.mpr member
    exact ⟨inv.validAt (inv.learned n) found, (inv.learned n entry.1 entry.2 found).1⟩

theorem Inv.not_exceedsPromise (inv : Inv D M X s) {n : ν} {slot : σ} {c : AcceptedValue σ ν α}
    (found : (s.durable n).accepted.lookup slot = some c) :
    ¬ exceedsPromise (s.durable n) c = true := by
  obtain ⟨_, voted⟩ := (inv.acceptor n).current slot c found
  obtain ⟨p, promised, le⟩ := (inv.acceptor n).bounded c voted
  intro exceeds
  obtain ⟨q, promised', below⟩ := (Option.any_eq_true _ _).mp exceeds
  obtain rfl : p = q := Option.some.inj (promised.symm.trans promised')
  exact absurd (of_decide_eq_true below) (not_lt.mpr le)

section Validation

variable [DecidableEq α]

omit [DecidableEq α] in
/-- A history with one value for each slot and proposal passes. -/
theorem checkHistory_eq {history before : List (AcceptedValue σ ν α)}
    (single : ∀ e ∈ before ++ history, ∀ e' ∈ history, e.slot = e'.slot →
      e.proposal = e'.proposal → e.value = e'.value)
    (reflexive : ∀ e ∈ history, SelfEqual e.value) :
    checkHistory before history = .ok () := by
  induction history generalizing before with
  | nil => rfl
  | cons item rest ih =>
      unfold checkHistory
      rw [if_neg]
      · refine ih (fun e member e' later => single e ?_ e' (List.mem_cons_of_mem _ later))
          fun e later => reflexive e (List.mem_cons_of_mem _ later)
        simp only [List.mem_append, List.mem_cons] at member ⊢
        tauto
      · rw [Option.any_eq_true]
        rintro ⟨known, found, differs⟩
        have same := List.find?_some found
        obtain ⟨slot, proposal⟩ := of_decide_eq_true same
        have earlier := List.mem_append_left (item :: rest) (List.mem_of_find?_eq_some found)
        exact (reflexive item List.mem_cons_self).not_ne
          (single known earlier item List.mem_cons_self slot proposal) differs

/-- **Durable states are valid.** -/
theorem Inv.validateDurableState_eq (inv : Inv D M X s) (n : ν) :
    validateDurableState D n s = .ok () := by
  have promises : checkPromises (s.durable n) = .ok () := by
    refine forM_eq_ok fun entry member => if_neg ?_
    exact inv.not_exceedsPromise (AList.mem_lookup_iff.mpr member)
  have single : ∀ e ∈ (s.durable n).acceptHistory, ∀ e' ∈ (s.durable n).acceptHistory,
      e.slot = e'.slot → e.proposal = e'.proposal → e.value = e'.value := by
    intro e member e' member' slot proposal
    have first := (inv.voted n e member).proposed
    have second := (inv.voted n e' member').proposed
    rw [slot, proposal, second] at first
    exact (Option.some.inj first).symm
  have history : checkHistory [] (s.durable n).acceptHistory = .ok () :=
    checkHistory_eq single fun e member => inv.selfEqual _ _ _ (inv.voted n e member).proposed
  have accepted : checkAccepted (s.durable n) = .ok () := by
    refine forM_eq_ok fun entry member => ?_
    have found := AList.mem_lookup_iff.mpr member
    have voted := ((inv.acceptor n).current _ _ found).2
    have here := (hasAccepted_iff fun e member => single e member _ voted).mpr voted
    rw [if_neg (not_not.mpr here), if_neg (inv.not_exceedsPromise found)]
  unfold validateDurableState
  rw [if_neg (not_not.mpr (inv.wellFormedDurable_eq n)), promises, history, accepted]
  split <;> rfl

end Validation

/-! ## Operations -/

theorem Inv.startProposal (inv : Inv D M X s) {n : ν} {slot : σ} {round : ℕ} {value : α}
    (own : SelfEqual value) (valid : D.validSlot slot = true)
    (later : (s.durable n).lastRound < round) :
    Follows D M X s X ((s.updateDurable n fun d => { d with lastRound := round }).updateProposals n
      fun proposals => proposals.insert slot
        { proposal := ⟨round, n⟩, originalValue := value }) := by
  have acceptor := inv.acceptor n
  have wrote := inv.updateDurable n (fun d => { d with lastRound := round })
    ⟨acceptor.slots, acceptor.bounded, acceptor.current, acceptor.covered⟩
    (fun _ p here => ⟨p, here, le_rfl⟩) (fun _ => id) (fun _ => .inl) later.le (inv.learned n)
  refine wrote.trans (wrote.inv.setProposal ?_)
  refine ⟨valid, rfl, ?_, own, fun a r found => ?_, ?_, fun _ => rfl, fun v started => ?_,
    fun v started => ?_⟩
  · simp [Cluster.updateDurable]
  · simp at found
  · cases found : X slot ⟨round, n⟩ with
    | none => rfl
    | some v => exact absurd (inv.rounds slot _ v found) (not_le.mpr later)
  · cases started
  · cases started

variable [DecidableEq α]

theorem startProposal_ensures (inv : Inv D M X s) {self : ν} (isNode : self ∈ M.nodeIds)
    (slot : σ) {value : α} (own : SelfEqual value) (roundNumber : Option ℕ) :
    (startProposal D M self slot value roundNumber s).Ensures (Continues D M X s) Permitted := by
  unfold startProposal
  split
  next => exact ⟨inv.continues rfl, id⟩
  next valid =>
  rw [not_not] at valid
  split
  next => exact ⟨inv.continues rfl, id⟩
  split
  next => exact ⟨inv.continues rfl, id⟩
  dsimp only
  split
  next => exact ⟨inv.continues rfl, id⟩
  next later =>
  have started := inv.startProposal own valid (not_le.mp later)
  refine started.followed (Continues.bind
    (receivePrepare_ensures started.inv isNode ⟨slot, _⟩ valid) fun _ t Y _ after => ?_)
  exact (after.inv.sendAll self (M.peers self) (.prepare ⟨slot, _⟩) valid).continues

theorem handleMessage_ensures (inv : Inv D M X s) {self : ν} (isNode : self ∈ M.nodeIds)
    {message : Message σ ν α} (sound : SoundPayload D M X s.voting message.payload) :
    (handleMessage D M self message s).Ensures (Continues D M X s) Permitted := by
  unfold handleMessage
  split
  next => exact inv.continues rfl
  next =>
  cases payload : message.payload with
  | prepare request =>
      rw [payload] at sound
      exact receivePrepare_ensures inv isNode _ sound
  | promise response =>
      rw [payload] at sound
      exact receivePromise_ensures inv isNode sound
  | acceptRequest request =>
      rw [payload] at sound
      exact receiveAcceptRequest_ensures inv isNode _ sound
  | accepted response =>
      rw [payload] at sound
      exact receiveAccepted_ensures inv self sound.1 sound.2
  | learn message =>
      rw [payload] at sound
      exact receiveLearn_ensures inv self _ sound

omit [DecidableEq α] in
/-- A crash and a restart forget the proposals of a node. -/
theorem Inv.forget (inv : Inv D M X s) (n : ν) (alive : ν → Bool) :
    Follows D M X s X
      (({ s with alive := alive } : Cluster σ ν α).updateProposals n fun _ => ∅) := by
  have kept : Follows D M X s X { s with alive := alive } :=
    Inv.follows ⟨inv.acceptor, inv.voted, inv.proposer, inv.rounds, inv.message, inv.chosen,
      inv.learned, inv.selfEqual⟩ rfl
  refine kept.trans (kept.inv.updateProposals fun slot state found => ?_)
  simp at found

theorem restart_ensures (inv : Inv D M X s) (n : ν) :
    (restart D n s).Ensures (Continues D M X s) Permitted := by
  have started := inv.forget n (Function.update s.alive n true)
  unfold restart
  dsimp only
  rw [started.inv.validateDurableState_eq n]
  exact started.continues

omit [DecidableEq α] in
theorem onNode_ensures {β : Type} (inv : Inv D M X s) {n : ν} {op : Cluster σ ν α → Op σ ν α β}
    (ensures : n ∈ M.nodeIds → (op s).Ensures (Continues D M X s) Permitted) :
    (onNode M n op s).Ensures (Continues D M X s) Permitted := by
  unfold onNode
  split
  next isNode =>
    exact Continues.bind (ensures isNode) fun _ t Y _ after => after.inv.continues rfl
  next => exact ⟨inv.continues rfl, id⟩

/-- **The step lemma.** An event that proposes no value unequal to itself keeps the
invariant and raises no safety violation. -/
theorem step_ensures (inv : Inv D M X s) {event : Event σ ν α}
    (own : event.ProposesSelfEqual) :
    (step D M event s).Ensures (Continues D M X s) Permitted := by
  cases event with
  | startProposal n slot value roundNumber =>
      exact onNode_ensures inv fun isNode =>
        startProposal_ensures inv isNode slot own roundNumber
  | deliver position =>
      unfold step
      dsimp only
      split
      next => exact inv.continues rfl
      next message found =>
        have sound := inv.message message (List.mem_of_getElem? found)
        split
        next => exact onNode_ensures inv fun isNode => handleMessage_ensures inv isNode sound
        next => exact inv.continues rfl
  | crash n => exact onNode_ensures inv fun _ => (inv.forget n _).continues
  | restart n => exact onNode_ensures inv fun _ => restart_ensures inv n

omit [DecidableEq α] in
/-- A cluster over durable state without messages and proposals. -/
theorem Inv.over (inv : Inv D M X s) (chosen : Dict σ (LearnedDecision σ ν α))
    (sound : SoundDecisions M s.voting chosen) :
    Follows D M X s X { Cluster.over s.durable with chosen := chosen } := by
  refine Inv.follows ⟨inv.acceptor, inv.voted, fun n slot state found => ?_, inv.rounds,
    fun m member => ?_, sound, inv.learned, inv.selfEqual⟩ rfl
  · simp [Cluster.over] at found
  · cases member

omit [DecidableEq α] in
/-- A new cluster has the invariant. -/
theorem fresh_inv (D : Decrees σ) (M : Members ν) :
    Inv D M (fun _ _ => none) (Cluster.fresh : Cluster σ ν α) where
  acceptor n := by
    refine ⟨?_, ?_, ?_, ?_⟩ <;> simp [Cluster.fresh, Cluster.over]
  voted n e member := by cases member
  proposer n slot state found := by simp [Cluster.fresh, Cluster.over] at found
  rounds slot p v found := by cases found
  message m member := by cases member
  chosen slot d found := by simp [Cluster.fresh, Cluster.over] at found
  learned n slot d found := by simp [Cluster.fresh, Cluster.over] at found
  selfEqual slot p v found := by cases found

/-- **The run lemma** of the single decree. -/
theorem run_inv (M : Members ν) (events : List (Event Unit ν α))
    (own : ∀ event ∈ events, event.ProposesSelfEqual) :
    ∃ X, Inv singleDecree M X (run M events) :=
  runEvents_invariant_of_forall (P := fun s => ∃ X, Inv singleDecree M X s)
    (fun event s inv own => by
      obtain ⟨X, inv⟩ := inv
      obtain ⟨Y, follows⟩ := (step_ensures inv own).state
      exact ⟨Y, follows.inv⟩)
    events _ ⟨_, fresh_inv singleDecree M⟩ own

end Distlab.Paxos
