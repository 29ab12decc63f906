import Mathlib.Data.Fintype.Basic
import Distlab.MultiPaxos.Runs

/-!
# Agreement, and when the harness raises

In every reachable state the majorities of a slot hold one value, whatever was
proposed, so neither `_record_chosen` nor `_recover_chosen` sees two.

A leader may propose at a slot it has already decided. It then sends a second
value under one ballot, unless Phase 1 adopts the first, and the acceptors that
hold the first raise. While no such proposal is made, nothing raises a safety
violation and each ballot has one value at a slot.
-/

set_option autoImplicit false

namespace Distlab.MultiPaxos

open Foundations Paxos

variable {ν : Type} {α : Type} [LinearOrder ν] [DecidableEq α]

/-! ## Agreement -/

/-- **Agreement.** In every reachable state any two records of a slot that
majorities hold durably carry one value, and no event makes `_record_chosen` or
`_recover_chosen` see two values. The values are those of a reflexive equality. -/
theorem agreement (M : Membership ν) (learn : Bool) (events : List (Event ν α)) :
    (∀ slot ballot ballot' value value',
      DurableMajority M (run M learn events) ⟨slot, ballot, value⟩ →
      DurableMajority M (run M learn events) ⟨slot, ballot', value'⟩ → value = value') ∧
    ∀ event slot,
      (step M event (run M learn events)).error? ≠ some (.safety (.choseConflicting slot)) ∧
      (step M event (run M learn events)).error? ≠
        some (.safety (.conflictingDurableQuorums slot)) := by
  have inv := run_inv M learn events
  refine ⟨fun slot ballot ballot' value value' first second => ?_, fun event slot => ?_⟩
  · exact inv.majority_agree first second rfl
  · have ensures := step_ensures inv (proposesWithin_univ M _ event)
    exact ⟨fun raised => (ensures.error raised).1, fun raised => (ensures.error raised).1⟩

/-! ## One value for each ballot -/

/-- The proposals a cluster has made: voted for, requested or pending. -/
def Proposed (s : Cluster ν α) : Set (SlotAcceptedValue ν α) :=
  {p | (∃ n, p ∈ (s.durable n).acceptHistory) ∨
    (∃ m ∈ s.network, m.payload = .leaderAccept ⟨p.slot, p.proposal, p.value⟩) ∨
    ∃ n, (s.volatile n).leaderBallot = some p.proposal ∧
      (s.volatile n).pending.lookup p.slot = some p.value}

/-- The Phase-2 request of a payload. -/
def Payload.accept? : Payload ν α → Option (LeaderAccept ν α)
  | .leaderAccept request => some request
  | _ => none

omit [LinearOrder ν] [DecidableEq α] in
theorem Payload.accept?_eq_some {payload : Payload ν α} {request : LeaderAccept ν α} :
    payload.accept? = some request ↔ payload = .leaderAccept request := by
  cases payload <;> simp [Payload.accept?]

namespace Inv

variable {M : Membership ν} {X : Set (SlotAcceptedValue ν α)} {s : Cluster ν α}

omit [DecidableEq α] in
theorem proposed_subset (inv : Inv M X s) : Proposed s ⊆ X := by
  rintro p (⟨n, voted⟩ | ⟨m, sent, payload⟩ | ⟨n, leads, pending⟩)
  · exact (inv.voted n p voted).proposed
  · have sound := inv.message m sent
    rw [payload] at sound
    exact SafeProposal.proposed sound
  · exact ((inv.leader n _ leads).pending _ _ pending).proposed

omit [DecidableEq α] in
/-- The invariant holds for every set that has the proposals made. -/
theorem retarget {Y : Set (SlotAcceptedValue ν α)} (inv : Inv M X s) (made : Proposed s ⊆ Y) :
    Inv M Y s where
  acceptor := inv.acceptor
  voted n e member := { inv.voted n e member with proposed := made (.inl ⟨n, member⟩) }
  leader n ballot leads :=
    { inv.leader n ballot leads with
      pending := fun slot v found =>
        { (inv.leader n ballot leads).pending slot v found with
          proposed := made (.inr (.inr ⟨n, leads, found⟩)) } }
  message m member := by
    have sound := inv.message m member
    cases payload : m.payload with
    | leaderAccept request =>
        rw [payload] at sound
        exact { (sound : SafeProposal ..) with
          proposed := made (.inr (.inl ⟨m, member, payload⟩)) }
    | _ =>
        rw [payload] at sound
        exact sound
  chosen := inv.chosen
  learned := inv.learned

end Inv

/-- The proposals that an event adds. -/
def newProposals (M : Membership ν) (event : Event ν α) (s : Cluster ν α) :
    Set (SlotAcceptedValue ν α) :=
  match event with
  | .propose n slot value => {p | p ∈ proposalOf M s n slot value}
  | _ => ∅

/-- The event proposes no second value at a slot under one ballot. -/
def ProposesOnce (M : Membership ν) (event : Event ν α) (s : Cluster ν α) : Prop :=
  ∀ p ∈ newProposals M event s, ∀ q ∈ Proposed s,
    q.slot = p.slot → q.proposal = p.proposal → q.value = p.value

omit [LinearOrder ν] [DecidableEq α] in
theorem forall_proposed {s : Cluster ν α} {P : SlotAcceptedValue ν α → Prop} :
    (∀ q ∈ Proposed s, P q) ↔
      (∀ n, ∀ q ∈ (s.durable n).acceptHistory, P q) ∧
      (∀ m ∈ s.network, ∀ request ∈ m.payload.accept?,
        P ⟨request.slot, request.ballot, request.value⟩) ∧
      (∀ n, ∀ ballot ∈ (s.volatile n).leaderBallot, ∀ entry ∈ (s.volatile n).pending.entries,
        P ⟨entry.1, ballot, entry.2⟩) := by
  constructor
  · intro all
    refine ⟨fun n q voted => all q (.inl ⟨n, voted⟩), fun m sent request same => ?_,
      fun n ballot leads entry member => ?_⟩
    · exact all _ (.inr (.inl ⟨m, sent, Payload.accept?_eq_some.mp same⟩))
    · exact all _ (.inr (.inr ⟨n, leads, AList.mem_lookup_iff.mpr member⟩))
  · rintro ⟨voted, requested, pending⟩ q (⟨n, member⟩ | ⟨m, sent, payload⟩ | ⟨n, leads, found⟩)
    · exact voted n q member
    · exact requested m sent _ (Payload.accept?_eq_some.mpr payload)
    · exact pending n _ leads ⟨q.slot, q.value⟩ (AList.mem_lookup_iff.mp found)

instance decidableForallProposed [Fintype ν] {s : Cluster ν α} {P : SlotAcceptedValue ν α → Prop}
    [DecidablePred P] : Decidable (∀ q ∈ Proposed s, P q) :=
  decidable_of_iff _ forall_proposed.symm

instance decidableProposesOnce [Fintype ν] (M : Membership ν) (event : Event ν α)
    (s : Cluster ν α) : Decidable (ProposesOnce M event s) :=
  match event with
  | .propose n slot value =>
      inferInstanceAs (Decidable (∀ p ∈ proposalOf M s n slot value, ∀ q ∈ Proposed s,
        q.slot = p.slot → q.proposal = p.proposal → q.value = p.value))
  | .prepareLeadership .. | .retryProposal .. | .recoverDecisions .. | .deliver _ | .crash _
  | .restart _ | .reconstruct _ | .assertSafety => isTrue fun _ => False.elim

section SingleValued

variable {M : Membership ν} {s : Cluster ν α}

theorem subsingleton_newProposals (M : Membership ν) (event : Event ν α) (s : Cluster ν α) :
    (newProposals M event s).Subsingleton := by
  intro p first q second
  cases event with
  | propose n slot value =>
      exact Option.some.inj ((Option.mem_def.mp first).symm.trans (Option.mem_def.mp second))
  | _ => exact absurd first (Set.notMem_empty p)

/-- A step adds at most the event's own proposal. -/
theorem step_proposed {X : Set (SlotAcceptedValue ν α)} (inv : Inv M X s) (event : Event ν α) :
    (step M event s).Ensures
      (Continues M (Proposed s ∪ newProposals M event s) s)
      (Permitted (Proposed s ∪ newProposals M event s)) := by
  refine step_ensures (inv.retarget fun p => .inl) ?_
  cases event with
  | propose n slot value => exact fun p made => .inr made
  | _ => trivial

theorem oneValue_union (one : OneValue (Proposed s)) {event : Event ν α}
    (once : ProposesOnce M event s) : OneValue (Proposed s ∪ newProposals M event s) := by
  rintro p (old | new) q (old' | new') slot proposal
  · exact one p old q old' slot proposal
  · exact once q new' p old slot proposal
  · exact (once p new q old' slot.symm proposal.symm).symm
  · exact congrArg (·.value) (subsingleton_newProposals M event s new new')

/-- A step that proposes no second value keeps one value for each ballot and
raises no safety violation. -/
theorem step_oneValue {X : Set (SlotAcceptedValue ν α)} (inv : Inv M X s)
    (one : OneValue (Proposed s)) {event : Event ν α} (once : ProposesOnce M event s) :
    (step M event s).Ensures (fun t => OneValue (Proposed t)) (fun e _ => ¬ e.IsSafety) := by
  have single := oneValue_union one once
  refine (step_proposed inv event).mono (fun t after => ?_) fun e _ permitted => ?_
  · intro p made q made'
    exact single p (after.inv.proposed_subset made) q (after.inv.proposed_subset made')
  · intro safety
    cases e with
    | safety violation => exact permitted.2 single
    | _ => exact safety

omit [LinearOrder ν] [DecidableEq α] in
theorem oneValue_fresh (learn : Bool) :
    OneValue (Proposed (Cluster.fresh learn : Cluster ν α)) := by
  have empty : Proposed (Cluster.fresh learn : Cluster ν α) = ∅ := by
    ext p
    simp [Proposed, Cluster.fresh, Durable.fresh]
  rw [empty]
  exact fun p made => absurd made (Set.notMem_empty p)

/-- In a run that proposes no second value under one ballot, every state
reached has one value for each slot and ballot. -/
theorem run_oneValue (M : Membership ν) (learn : Bool) (events : List (Event ν α))
    (once : EveryStep (step M) (ProposesOnce M) events (Cluster.fresh learn)) :
    OneValue (Proposed (run M learn events)) := by
  have both := runEvents_invariant_of_everyStep
    (P := fun s => Inv M Set.univ s ∧ OneValue (Proposed s))
    (fun event s holds once => ⟨(step_ensures holds.1 (proposesWithin_univ M s event)).state.inv,
      (step_oneValue holds.1 holds.2 once).state⟩)
    events _ ⟨fresh_inv M _ learn, oneValue_fresh learn⟩ once
  exact both.2

end SingleValued

/-- **No false alarm.** In a run whose every step proposes no second value at a
slot under one ballot, no event raises a safety violation, and all acceptors
that accepted at a slot and ballot accepted one value. -/
theorem no_false_alarm (M : Membership ν) (learn : Bool) (events : List (Event ν α))
    (event : Event ν α)
    (once : EveryStep (step M) (ProposesOnce M) (events ++ [event]) (Cluster.fresh learn)) :
    (∀ violation, (step M event (run M learn events)).error? ≠ some (.safety violation)) ∧
    ∀ n n', ∀ e ∈ ((run M learn (events ++ [event])).durable n).acceptHistory,
      ∀ e' ∈ ((run M learn (events ++ [event])).durable n').acceptHistory,
        e.slot = e'.slot → e.proposal = e'.proposal → e.value = e'.value := by
  refine ⟨fun violation raised => ?_, fun n n' e voted e' voted' => ?_⟩
  · have before := run_oneValue M learn events once.append_left
    have last : ProposesOnce M event (run M learn events) := once.append_right.1
    exact (step_oneValue (run_inv M learn events) before last).error raised trivial
  · exact run_oneValue M learn _ once e (.inl ⟨n, voted⟩) e' (.inl ⟨n', voted'⟩)

end Distlab.MultiPaxos
