import Distlab.Foundations.BallotVoting
import Distlab.MultiPaxos.Node

/-!
# The invariant of a Multi-Paxos cluster

At each slot the durable accept histories and promises of the nodes are votes in
the sense of `Foundations.Voting`. The invariant says that every vote, every
Phase-2 request and every pending value is safe at its ballot, that every
Phase-1 promise reports what its acceptor voted for, and that the recorded and
learned decisions have durable quorums.

It also keeps the proposals of the cluster within a set `X`. Agreement takes
every proposal; the absence of false alarms takes a set with one value for each
slot and ballot.
-/

set_option autoImplicit false

namespace Distlab.MultiPaxos

open Foundations Paxos

variable {ν : Type} {α : Type}

/-! ## The voting view -/

/-- The votes and promises of the acceptors at each slot. -/
def Cluster.voting (s : Cluster ν α) (slot : ℕ) : Voting ν (ProposalNumber ν) α where
  votes n :=
    {vote | (⟨slot, vote.1, vote.2⟩ : SlotAcceptedValue ν α) ∈ (s.durable n).acceptHistory}
  promised n := (s.durable n).promised

@[simp] theorem Cluster.voting_send (s : Cluster ν α) (n m : ν) (p : Payload ν α) :
    (s.send n m p).voting = s.voting := rfl

@[simp] theorem Cluster.voting_sendAll (s : Cluster ν α) (n : ν) (dsts : List ν)
    (p : Payload ν α) : (s.sendAll n dsts p).voting = s.voting := rfl

@[simp] theorem Cluster.voting_updateVolatile [DecidableEq ν] (s : Cluster ν α) (n : ν)
    (f : Volatile ν α → Volatile ν α) : (s.updateVolatile n f).voting = s.voting := rfl

variable [LinearOrder ν] (M : Membership ν)

/-- The majorities of the cluster. -/
def majorities : QuorumSystem ν :=
  QuorumSystem.ofSize M.nodeIds.toFinset M.quorumSize (by
    have := M.nodeIds.toFinset_card_le
    unfold Membership.quorumSize
    omega)

/-- A round is positive and its proposer a member. -/
def ValidBallot (ballot : ProposalNumber ν) : Prop :=
  ballot.round ≠ 0 ∧ ballot.proposerId ∈ M.nodeIds

/-- The proposal is one of `X`, well formed and safe. -/
structure SafeProposal (X : Set (SlotAcceptedValue ν α))
    (V : ℕ → Voting ν (ProposalNumber ν) α) (p : SlotAcceptedValue ν α) : Prop where
  proposed : p ∈ X
  slot : p.slot ≠ 0
  ballot : ValidBallot M p.proposal
  safe : (V p.slot).Safe (majorities M) p.proposal p.value

/-- The votes a promise reports at a slot. -/
def reportAt (accepted : List (SlotAcceptedValue ν α)) (slot : ℕ) :
    Set (ProposalNumber ν × α) :=
  {vote | (⟨slot, vote.1, vote.2⟩ : SlotAcceptedValue ν α) ∈ accepted}

/-- A promise of a member reports its votes, none above the promised ballot. -/
structure SoundPromise (V : ℕ → Voting ν (ProposalNumber ν) α) (r : LeaderPromise ν α) :
    Prop where
  member : r.acceptorId ∈ M.nodeIds
  reports : ∀ slot, (V slot).Reports r.acceptorId r.ballot (reportAt r.accepted slot)
  bounded : ∀ e ∈ r.accepted, e.proposal ≤ r.ballot

/-- A majority voted for the decision. -/
def Evidence (V : ℕ → Voting ν (ProposalNumber ν) α) (d : SlotLearnedDecision ν α) : Prop :=
  (V d.slot).Chosen (majorities M) d.proposal d.value

/-- What the messages of the protocol tell. -/
def SoundPayload (X : Set (SlotAcceptedValue ν α)) (V : ℕ → Voting ν (ProposalNumber ν) α) :
    Payload ν α → Prop
  | .leaderPrepare ballot => ValidBallot M ballot
  | .leaderPromise response => SoundPromise M V response
  | .leaderAccept request =>
      SafeProposal M X V ⟨request.slot, request.ballot, request.value⟩
  | .leaderAccepted response =>
      (response.ballot, response.value) ∈ (V response.slot).votes response.acceptorId
  | .leaderDecision decision => Evidence M V ⟨decision.slot, decision.ballot, decision.value⟩
  | .decisionRecoveryResponse _ decisions => ∀ d ∈ decisions, Evidence M V d
  | .decisionRecoveryRequest _ => True
  | .decisionRecoveryRetry _ _ => True

/-! ## The invariant -/

/-- The durable records of one acceptor: the record of a slot is its highest
vote there, it has one value for each ballot, and its promise bounds its votes. -/
structure AcceptorInv (d : Durable ν α) : Prop where
  promised : ∀ p ∈ d.promised, ValidBallot M p
  bounded : ∀ e ∈ d.acceptHistory, ∃ p ∈ d.promised, e.proposal ≤ p
  current : ∀ slot c, d.accepted.lookup slot = some c → c.slot = slot ∧ c ∈ d.acceptHistory
  covered : ∀ e ∈ d.acceptHistory, ∃ c, d.accepted.lookup e.slot = some c ∧
    e.proposal ≤ c.proposal
  single : ∀ e ∈ d.acceptHistory, ∀ e' ∈ d.acceptHistory,
    e.slot = e'.slot → e.proposal = e'.proposal → e.value = e'.value

/-- The volatile records of a node that leads at `ballot`. -/
structure LeaderInv (X : Set (SlotAcceptedValue ν α)) (V : ℕ → Voting ν (ProposalNumber ν) α)
    (ballot : ProposalNumber ν) (w : Volatile ν α) : Prop where
  valid : ValidBallot M ballot
  promises : ∀ a r, w.promises.lookup a = some r →
    r.acceptorId = a ∧ r.ballot = ballot ∧ SoundPromise M V r
  pending : ∀ slot v, w.pending.lookup slot = some v → SafeProposal M X V ⟨slot, ballot, v⟩
  accepted : ∀ slot v, w.pending.lookup slot = some v →
    ∀ a ∈ (w.acceptedBy.lookup slot).getD ∅, a ∈ M.nodeIds ∧ (ballot, v) ∈ (V slot).votes a

/-- The entries of a table of decisions stand at their slots with evidence. -/
def SoundDecisions (V : ℕ → Voting ν (ProposalNumber ν) α)
    (decisions : Dict ℕ (SlotLearnedDecision ν α)) : Prop :=
  ∀ slot d, decisions.lookup slot = some d → d.slot = slot ∧ Evidence M V d

/-- The invariant of a cluster whose proposals lie in `X`. -/
structure Inv (X : Set (SlotAcceptedValue ν α)) (s : Cluster ν α) : Prop where
  acceptor : ∀ n, AcceptorInv M (s.durable n)
  voted : ∀ n, ∀ e ∈ (s.durable n).acceptHistory, SafeProposal M X s.voting e
  leader : ∀ n ballot, (s.volatile n).leaderBallot = some ballot →
    LeaderInv M X s.voting ballot (s.volatile n)
  message : ∀ m ∈ s.network, SoundPayload M X s.voting m.payload
  chosen : SoundDecisions M s.voting s.chosen
  learned : ∀ n, ∀ l ∈ (s.durable n).learned, SoundDecisions M s.voting l

/-! ## The invariant follows the votes -/

section Evolving

variable {M} {X : Set (SlotAcceptedValue ν α)} {V W : ℕ → Voting ν (ProposalNumber ν) α}
  (step : ∀ slot, (V slot).Evolves (W slot))

include step

theorem SafeProposal.evolves {p : SlotAcceptedValue ν α} (safe : SafeProposal M X V p) :
    SafeProposal M X W p :=
  ⟨safe.proposed, safe.slot, safe.ballot, safe.safe.evolves (step p.slot)⟩

theorem SoundPromise.evolves {r : LeaderPromise ν α} (sound : SoundPromise M V r) :
    SoundPromise M W r :=
  ⟨sound.member, fun slot => (step slot).reports (sound.reports slot), sound.bounded⟩

theorem Evidence.evolves {d : SlotLearnedDecision ν α} (evidence : Evidence M V d) :
    Evidence M W d :=
  Voting.Chosen.evolves (step d.slot) evidence

theorem SoundPayload.evolves {payload : Payload ν α} (sound : SoundPayload M X V payload) :
    SoundPayload M X W payload := by
  cases payload with
  | leaderPrepare ballot => exact sound
  | leaderPromise response => exact SoundPromise.evolves step sound
  | leaderAccept request => exact SafeProposal.evolves step sound
  | leaderAccepted response => exact (step response.slot).votes_mono _ sound
  | leaderDecision decision => exact Evidence.evolves step sound
  | decisionRecoveryRequest startSlot => trivial
  | decisionRecoveryResponse startSlot decisions =>
      exact fun d member => (sound d member).evolves step
  | decisionRecoveryRetry generation attempt => trivial

theorem LeaderInv.evolves {ballot : ProposalNumber ν} {w : Volatile ν α}
    (inv : LeaderInv M X V ballot w) : LeaderInv M X W ballot w where
  valid := inv.valid
  promises a r found := by
    obtain ⟨acceptor, same, sound⟩ := inv.promises a r found
    exact ⟨acceptor, same, sound.evolves step⟩
  pending slot v found := (inv.pending slot v found).evolves step
  accepted slot v found a member := by
    obtain ⟨isNode, vote⟩ := inv.accepted slot v found a member
    exact ⟨isNode, (step slot).votes_mono a vote⟩

theorem SoundDecisions.evolves {decisions : Dict ℕ (SlotLearnedDecision ν α)}
    (sound : SoundDecisions M V decisions) : SoundDecisions M W decisions :=
  fun slot d found => ⟨(sound slot d found).1, (sound slot d found).2.evolves step⟩

end Evolving

/-! ## Elementary writes -/

/-- `t` comes after `s`: it has the invariant and its votes evolved from those of `s`. -/
structure Continues (X : Set (SlotAcceptedValue ν α)) (s t : Cluster ν α) : Prop where
  inv : Inv M X t
  evolves : ∀ slot, (s.voting slot).Evolves (t.voting slot)

section Writes

variable {M} {X : Set (SlotAcceptedValue ν α)} {s t u : Cluster ν α}

theorem Continues.trans (first : Continues M X s t) (second : Continues M X t u) :
    Continues M X s u :=
  ⟨second.inv, fun slot => (first.evolves slot).trans (second.evolves slot)⟩

theorem Inv.continues (inv : Inv M X t) (same : s.voting = t.voting) : Continues M X s t :=
  ⟨inv, fun _ => same ▸ Voting.Evolves.refl _⟩

/-- What an operation does after earlier writes. -/
theorem Continues.followed {ε β : Type} {E : ε → Cluster ν α → Prop}
    {outcome : Outcome ε (Cluster ν α) β}
    (before : Continues M X s t) (ensures : outcome.Ensures (Continues M X t) E) :
    outcome.Ensures (Continues M X s) E :=
  ensures.mono (fun _ later => before.trans later) fun _ _ => id

/-- Operations that continue the state they start in compose. -/
theorem Continues.bind {ε β γ : Type} {E : ε → Cluster ν α → Prop}
    {first : Outcome ε (Cluster ν α) β}
    {next : β → Cluster ν α → Outcome ε (Cluster ν α) γ}
    (ensures : first.Ensures (Continues M X s) E)
    (keeps : ∀ b t, first = .returns b t → Continues M X s t →
      (next b t).Ensures (Continues M X t) E) :
    (first.bind next).Ensures (Continues M X s) E :=
  ensures.bind (fun b t returned after => after.followed (keeps b t returned after)) fun _ => id

namespace Inv

/-- A write to the durable state of a node. -/
theorem updateDurable (inv : Inv M X s) {n : ν} {f : Durable ν α → Durable ν α}
    (acceptor : AcceptorInv M (f (s.durable n)))
    (promised : ∀ p ∈ (s.durable n).promised, ∃ q ∈ (f (s.durable n)).promised, p ≤ q)
    (kept : ∀ e ∈ (s.durable n).acceptHistory, e ∈ (f (s.durable n)).acceptHistory)
    (fresh : ∀ e ∈ (f (s.durable n)).acceptHistory, e ∈ (s.durable n).acceptHistory ∨
      ((∀ p ∈ (s.durable n).promised, p ≤ e.proposal) ∧ SafeProposal M X s.voting e))
    (learned : ∀ l ∈ (f (s.durable n)).learned, SoundDecisions M s.voting l) :
    Continues M X s (s.updateDurable n f) := by
  have evolves : ∀ slot, (s.voting slot).Evolves ((s.updateDurable n f).voting slot) := by
    refine fun slot => ⟨fun m vote => ?_, fun m p => ?_, fun m b v => ?_⟩ <;>
      by_cases same : m = n
    · subst same
      simpa [Cluster.voting] using kept _
    · simp [Cluster.voting, same]
    · subst same
      simpa [Cluster.voting] using promised p
    · simpa [Cluster.voting, same] using fun h => ⟨p, h, le_rfl⟩
    · subst same
      intro vote
      rcases fresh ⟨slot, b, v⟩ (by simpa [Cluster.voting] using vote) with old | ⟨isOpen, _⟩
      · exact .inl old
      · exact .inr isOpen
    · simpa [Cluster.voting, same] using fun h => .inl h
  refine ⟨⟨fun m => ?_, fun m e member => ?_, fun m ballot leads => ?_, fun msg member => ?_,
    SoundDecisions.evolves evolves inv.chosen, fun m l found => ?_⟩, evolves⟩
  · by_cases same : m = n
    · subst same
      simpa using acceptor
    · simpa [same] using inv.acceptor m
  · by_cases same : m = n
    · subst same
      rcases fresh e (by simpa using member) with old | ⟨_, safe⟩
      · exact (inv.voted m e old).evolves evolves
      · exact safe.evolves evolves
    · exact (inv.voted m e (by simpa [same] using member)).evolves evolves
  · exact (inv.leader m ballot leads).evolves evolves
  · exact SoundPayload.evolves evolves (inv.message msg member)
  · by_cases same : m = n
    · subst same
      exact SoundDecisions.evolves evolves (learned l (by simpa using found))
    · exact SoundDecisions.evolves evolves (inv.learned m l (by simpa [same] using found))

/-- A write to the volatile state of a node. -/
theorem updateVolatile (inv : Inv M X s) {n : ν} {f : Volatile ν α → Volatile ν α}
    (leader : ∀ ballot, (f (s.volatile n)).leaderBallot = some ballot →
      LeaderInv M X s.voting ballot (f (s.volatile n))) :
    Continues M X s (s.updateVolatile n f) := by
  refine Inv.continues ⟨inv.acceptor, inv.voted, fun m ballot leads => ?_, inv.message,
    inv.chosen, inv.learned⟩ rfl
  by_cases same : m = n
  · subst same
    simpa using leader ballot (by simpa using leads)
  · simpa [same] using inv.leader m ballot (by simpa [same] using leads)

/-- A message goes out. -/
theorem send (inv : Inv M X s) (src dst : ν) {payload : Payload ν α}
    (sound : SoundPayload M X s.voting payload) : Continues M X s (s.send src dst payload) := by
  refine Inv.continues ⟨inv.acceptor, inv.voted, inv.leader, fun m member => ?_, inv.chosen,
    inv.learned⟩ rfl
  rcases (Cluster.mem_send_network ..).mp member with old | rfl
  · exact inv.message m old
  · exact sound

/-- A broadcast goes out. -/
theorem sendAll (inv : Inv M X s) (src : ν) (dsts : List ν) {payload : Payload ν α}
    (sound : SoundPayload M X s.voting payload) :
    Continues M X s (s.sendAll src dsts payload) := by
  refine Inv.continues ⟨inv.acceptor, inv.voted, inv.leader, fun m member => ?_, inv.chosen,
    inv.learned⟩ rfl
  rcases (Cluster.mem_sendAll_network ..).mp member with old | ⟨dst, _, rfl⟩
  · exact inv.message m old
  · exact sound

end Inv

end Writes

end Distlab.MultiPaxos
