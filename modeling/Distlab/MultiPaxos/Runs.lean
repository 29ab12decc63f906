import Distlab.MultiPaxos.Preservation

/-!
# Runs of a Multi-Paxos cluster

The remaining operations (decision recovery, crash, restart, reconstruction)
keep the invariant, hence every event does, and every run of events.
-/

set_option autoImplicit false

namespace Distlab.MultiPaxos

open Foundations Paxos

variable {ν : Type} {α : Type} [LinearOrder ν] {M : Membership ν}
  {X : Set (SlotAcceptedValue ν α)} {s : Cluster ν α}

/-! ## Decision recovery -/

/-- A write of the recovery fields alone. -/
theorem Inv.setRecovery (inv : Inv M X s) {n : ν} {f : Volatile ν α → Volatile ν α}
    (same : ∀ w, ∃ recovery generation attempt, f w = { w with
      recovery := recovery, recoveryGeneration := generation, recoveryAttempt := attempt }) :
    Continues M X s (s.updateVolatile n f) := by
  refine inv.updateVolatile fun ballot leads => ?_
  obtain ⟨recovery, generation, attempt, equal⟩ := same (s.volatile n)
  rw [equal] at leads ⊢
  have leader := inv.leader n ballot leads
  exact ⟨leader.valid, leader.promises, leader.pending, leader.accepted⟩

theorem retryRecovery_ensures (inv : Inv M X s) (self : ν) :
    (retryRecovery M self s).Ensures (Continues M X s) (Permitted X) := by
  unfold retryRecovery
  cases (s.volatile self).recovery with
  | none => exact inv.continues rfl
  | some startSlot =>
      dsimp only
      split
      next => exact inv.setRecovery fun w => ⟨_, _, _, rfl⟩
      next =>
        have counted := inv.setRecovery (n := self)
          (f := fun w => { w with recoveryAttempt := w.recoveryAttempt + 1 })
          fun w => ⟨_, _, _, rfl⟩
        have request : SoundPayload M X s.voting (.decisionRecoveryRequest startSlot) := trivial
        have asked := counted.inv.sendAll self ((M.peers self).insertionSort (· ≤ ·)) request
        exact (counted.trans asked).trans (asked.inv.send self self trivial)

theorem recoverDecisions_ensures (inv : Inv M X s) (self : ν) (startSlot : ℕ) :
    (recoverDecisions M self startSlot s).Ensures (Continues M X s) (Permitted X) := by
  unfold recoverDecisions
  split
  next => exact ⟨inv.continues rfl, trivial⟩
  next =>
    split
    next => exact inv.continues rfl
    next =>
      split
      next => exact ⟨inv.continues rfl, trivial⟩
      next =>
        split
        next => exact inv.continues rfl
        next =>
          have started := inv.setRecovery (n := self) (f := fun w => { w with
              recoveryGeneration := w.recoveryGeneration + 1
              recoveryAttempt := 0
              recovery := some startSlot })
            fun w => ⟨_, _, _, rfl⟩
          exact started.followed (retryRecovery_ensures started.inv self)

/-- A learned decision has evidence. -/
theorem Inv.evidence_of_learned (inv : Inv M X s) {n : ν} {slot : ℕ}
    {d : SlotLearnedDecision ν α} (found : learnedDecision s n slot = some d) :
    d.slot = slot ∧ Evidence M s.voting d := by
  unfold learnedDecision at found
  cases learns : (s.durable n).learned with
  | none => simp [learns] at found
  | some learned => exact inv.learned n learned learns slot d (by simpa [learns] using found)

variable [DecidableEq α]

theorem receiveRecoveryRequest_ensures (inv : Inv M X s) (self requester : ν) (startSlot : ℕ) :
    (receiveRecoveryRequest M self requester startSlot s).Ensures (Continues M X s)
      (Permitted X) := by
  unfold receiveRecoveryRequest
  split
  next => exact inv.continues rfl
  next =>
    have evidence : ∀ d ∈ (List.range recoveryWindow).filterMap fun offset =>
        learnedDecision s self (startSlot + offset), Evidence M s.voting d := by
      intro d member
      obtain ⟨offset, _, found⟩ := List.mem_filterMap.mp member
      exact (inv.evidence_of_learned found).2
    dsimp only
    rw [forM_eq_ok fun d member => inv.requireDecisionEvidence_eq (evidence d member)]
    exact inv.send _ _ evidence

theorem receiveRecoveryResponse_ensures (inv : Inv M X s) (self : ν) {startSlot : ℕ}
    {decisions : List (SlotLearnedDecision ν α)}
    (evidence : ∀ d ∈ decisions, Evidence M s.voting d) :
    (receiveRecoveryResponse M self startSlot decisions s).Ensures (Continues M X s)
      (Permitted X) := by
  unfold receiveRecoveryResponse
  split
  next => exact inv.continues rfl
  next =>
    split
    next => exact inv.continues rfl
    next =>
      rw [forM_eq_ok]
      · refine Outcome.ensures_forEach (fun d member t after => ?_) s (inv.continues rfl)
        refine after.followed (receiveDecision_ensures after.inv self ?_)
        exact (evidence d member).evolves after.evolves
      · intro d member
        rw [if_neg, inv.requireDecisionEvidence_eq (evidence d member)]
        cases found : learnedDecision s self d.slot with
        | none => simp
        | some current =>
            obtain ⟨atSlot, known⟩ := inv.evidence_of_learned found
            simpa using inv.agree known (evidence d member) atSlot

/-! ## Messages -/

theorem handleMessage_ensures (inv : Inv M X s) {self : ν} (isNode : self ∈ M.nodeIds)
    {message : Message ν α} (sound : SoundPayload M X s.voting message.payload) :
    (handleMessage M self message s).Ensures (Continues M X s) (Permitted X) := by
  unfold handleMessage
  cases payload : message.payload <;> rw [payload] at sound <;> dsimp only <;> split
  case leaderPrepare.isFalse => exact receivePrepare_ensures inv isNode sound
  case leaderPromise.isFalse => exact receivePromise_ensures inv self sound
  case leaderAccept.isFalse => exact receiveAccept_ensures inv self sound
  case leaderAccepted.isFalse => exact receiveAccepted_ensures inv self sound
  case leaderDecision.isFalse => exact receiveDecision_ensures inv self sound
  case decisionRecoveryRequest.isFalse => exact receiveRecoveryRequest_ensures inv self _ _
  case decisionRecoveryResponse.isFalse => exact receiveRecoveryResponse_ensures inv self sound
  case decisionRecoveryRetry.isTrue => exact retryRecovery_ensures inv self
  all_goals exact inv.continues rfl

/-! ## Lifecycle -/

omit [DecidableEq α] in
/-- The volatile state of a crashed node leads nothing. -/
theorem Inv.handleCrash (inv : Inv M X s) (n : ν) : Continues M X s (handleCrash n s) :=
  inv.updateVolatile fun _ leads => by cases leads

omit [DecidableEq α] in
theorem Inv.setAlive (inv : Inv M X s) (alive : ν → Bool) :
    Continues M X s { s with alive := alive } :=
  Inv.continues ⟨inv.acceptor, inv.voted, inv.leader, inv.message, inv.chosen, inv.learned⟩ rfl

/-- The cluster that the constructor finds over the durable state of `s`, with the
decisions it recovers. -/
def Cluster.reloaded (learn : Bool) (s : Cluster ν α)
    (chosen : Dict ℕ (SlotLearnedDecision ν α)) : Cluster ν α :=
  { Cluster.fresh learn with
    durable := fun n =>
      { s.durable n with
        learned := if learn then some ((s.durable n).learned.getD ∅) else (s.durable n).learned }
    chosen := chosen }

omit [DecidableEq α] in
/-- Recovered decisions with evidence make a cluster with the invariant. -/
theorem Inv.reloaded (inv : Inv M X s) (learn : Bool) {chosen : Dict ℕ (SlotLearnedDecision ν α)}
    (sound : SoundDecisions M s.voting chosen) : Continues M X s (s.reloaded learn chosen) := by
  refine Inv.continues ⟨fun n => ?_, inv.voted, fun n ballot leads => ?_, fun m member => ?_,
    sound, fun n l found => ?_⟩ rfl
  · have acceptor := inv.acceptor n
    exact ⟨acceptor.promised, acceptor.bounded, acceptor.current, acceptor.covered,
      acceptor.single⟩
  · cases leads
  · cases member
  · cases known : (s.durable n).learned with
    | none =>
        cases learn <;> simp [Cluster.reloaded, known] at found
        subst found
        intro slot d found
        simp at found
    | some old =>
        obtain rfl : old = l := by
          cases learn <;> simpa [Cluster.reloaded, known] using found
        exact inv.learned n old known

/-- A reconstruction succeeds, with the decisions `_recover_chosen` finds. -/
theorem reconstruct_returns (inv : Inv M X s) (learn : Bool) :
    ∃ chosen, recoverChosen M (s.reloaded learn ∅) = .ok chosen ∧
      Continues M X s (s.reloaded learn chosen) ∧
      reconstruct M learn s = .returns () (s.reloaded learn chosen) := by
  have start : Continues M X s (s.reloaded learn ∅) :=
    inv.reloaded learn fun slot d found => by simp at found
  obtain ⟨chosen, recovered, sound⟩ := start.inv.recoverChosen_eq
  have done := inv.reloaded learn sound
  refine ⟨chosen, recovered, done, ?_⟩
  unfold reconstruct
  set fresh : Cluster ν α := { Cluster.fresh learn with durable := fun n => { s.durable n with
    learned := if learn then some ((s.durable n).learned.getD ∅) else (s.durable n).learned } }
  have recovers : recoverChosen M fresh = .ok chosen := recovered
  have passes : assertSafety M { fresh with chosen := chosen } = .ok () := done.inv.assertSafety_eq
  simp only [recovers, passes]
  rfl

theorem reconstruct_ensures (inv : Inv M X s) (learn : Bool) :
    (reconstruct M learn s).Ensures (Continues M X s) (Permitted X) := by
  obtain ⟨chosen, _, done, returned⟩ := reconstruct_returns inv learn
  rw [returned]
  exact done

/-! ## Events -/

/-- The proposals an event may add lie in `X`. -/
def ProposesWithin (M : Membership ν) (X : Set (SlotAcceptedValue ν α)) (s : Cluster ν α) :
    Event ν α → Prop
  | .propose n slot value => ∀ p ∈ proposalOf M s n slot value, p ∈ X
  | _ => True

theorem proposesWithin_univ (M : Membership ν) (s : Cluster ν α) (event : Event ν α) :
    ProposesWithin M Set.univ s event := by
  cases event <;> simp [ProposesWithin]

omit [DecidableEq α] in
theorem onNode_ensures {β : Type} (inv : Inv M X s) {n : ν} {op : Cluster ν α → Op ν α β}
    (ensures : n ∈ M.nodeIds → (op s).Ensures (Continues M X s) (Permitted X)) :
    (onNode M n op s).Ensures (Continues M X s) (Permitted X) := by
  unfold onNode
  split
  next isNode => exact Continues.bind (ensures isNode) fun _ t _ after => after.inv.continues rfl
  next => exact ⟨inv.continues rfl, trivial⟩

/-- **The step lemma.** An event whose proposals lie in `X` keeps the invariant,
and raises a safety violation only on two values for one slot and ballot. -/
theorem step_ensures (inv : Inv M X s) {event : Event ν α} (within : ProposesWithin M X s event) :
    (step M event s).Ensures (Continues M X s) (Permitted X) := by
  cases event with
  | prepareLeadership n roundNumber =>
      exact onNode_ensures inv fun isNode => prepareLeadership_ensures inv isNode roundNumber
  | propose n slot value => exact onNode_ensures inv fun _ => propose_ensures inv n within
  | retryProposal n slot => exact onNode_ensures inv fun _ => retryProposal_ensures inv n slot
  | recoverDecisions n startSlot =>
      exact onNode_ensures inv fun _ => recoverDecisions_ensures inv n startSlot
  | deliver position =>
      simp only [step]
      split
      next => exact inv.continues rfl
      next message found =>
        have sound := inv.message message (List.mem_of_getElem? found)
        split
        next => exact onNode_ensures inv fun isNode => handleMessage_ensures inv isNode sound
        next => exact inv.continues rfl
  | crash n =>
      have stopped := inv.setAlive (Function.update s.alive n false)
      have crashed : Continues M X s (crash n s) := stopped.trans (stopped.inv.handleCrash n)
      simp only [step]
      exact onNode_ensures inv fun _ => crashed
  | restart n =>
      have started := inv.setAlive (Function.update s.alive n true)
      have restarted : Continues M X s (restart n s) := started.trans (started.inv.handleCrash n)
      simp only [step]
      exact onNode_ensures inv fun _ => restarted
  | reconstruct learn => exact reconstruct_ensures inv learn
  | assertSafety =>
      unfold step
      rw [inv.assertSafety_eq]
      exact inv.continues rfl

omit [DecidableEq α] in
/-- A new cluster has the invariant. -/
theorem fresh_inv (M : Membership ν) (X : Set (SlotAcceptedValue ν α)) (learn : Bool) :
    Inv M X (Cluster.fresh learn) where
  acceptor n := by
    refine ⟨?_, ?_, ?_, ?_, ?_⟩ <;> simp [Cluster.fresh, Durable.fresh]
  voted n e member := by cases member
  leader n ballot leads := by cases leads
  message m member := by cases member
  chosen slot d found := by simp [Cluster.fresh] at found
  learned n l found slot d entry := by
    cases learn <;> simp [Cluster.fresh, Durable.fresh] at found
    subst found
    simp at entry

/-- The state a run of events leads to from a new cluster. -/
def run (M : Membership ν) (learn : Bool) (events : List (Event ν α)) : Cluster ν α :=
  runEvents (step M) events (Cluster.fresh learn)

/-- **The run lemma.** Every run reaches a state with the invariant for the set
of all proposals. -/
theorem run_inv (M : Membership ν) (learn : Bool) (events : List (Event ν α)) :
    Inv M Set.univ (run M learn events) :=
  runEvents_invariant (P := Inv M Set.univ)
    (fun event s inv => (step_ensures inv (proposesWithin_univ M s event)).state.inv)
    events _ (fresh_inv M _ learn)

end Distlab.MultiPaxos
