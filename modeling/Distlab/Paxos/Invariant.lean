import Distlab.Foundations.BallotVoting
import Distlab.Paxos.Node

/-!
# The invariant of a Paxos cluster

At each slot the durable accept histories and promises of the nodes are votes in
the sense of `Foundations.Voting`. The invariant says that every vote, every
request and every started accept phase is safe at its proposal, that every
promise reports what its acceptor voted for, and that the recorded and learned
decisions have durable quorums.

A proposer uses a proposal number once, since its rounds grow in its durable
state, and starts one accept phase for it. The invariant keeps the value proposed
at each slot and number in `X`. Every one of them equals itself, so that no
comparison of it with itself fails.
-/

set_option autoImplicit false

namespace Distlab.Paxos

open Foundations

variable {σ ν α : Type}

/-- The values proposed at each slot and proposal number. -/
abbrev Proposed (σ ν α : Type) := σ → ProposalNumber ν → Option α

/-- The votes at each slot. -/
abbrev Votes (σ ν α : Type) := σ → Voting ν (ProposalNumber ν) α

variable [DecidableEq σ]

/-! ## The voting view -/

/-- The votes and promises of the acceptors at each slot. -/
def Cluster.voting (s : Cluster σ ν α) : Votes σ ν α := fun slot =>
  { votes := fun n =>
      {vote | (⟨slot, vote.1, vote.2⟩ : AcceptedValue σ ν α) ∈ (s.durable n).acceptHistory}
    promised := fun n => (s.durable n).promised.lookup slot }

variable [LinearOrder ν] [BEq α] (D : Decrees σ) (M : Members ν)

omit [DecidableEq σ] in
/-- The majorities of the cluster. -/
def majorities : QuorumSystem ν :=
  QuorumSystem.ofSize M.nodeIds.toFinset M.quorumSize (by
    have := M.nodeIds.toFinset_card_le
    unfold Members.quorumSize
    omega)

/-- The value was proposed, at a slot, and is safe. -/
structure SafeProposal (X : Proposed σ ν α) (V : Votes σ ν α) (p : AcceptedValue σ ν α) :
    Prop where
  proposed : X p.slot p.proposal = some p.value
  slot : D.validSlot p.slot = true
  safe : (V p.slot).Safe (majorities M) p.proposal p.value

/-- The votes that a promise reports. -/
def reportOf (accepted : Option (AcceptedValue σ ν α)) : Set (ProposalNumber ν × α) :=
  {vote | ∃ e ∈ accepted, (e.proposal, e.value) = vote}

/-- A promise of a member reports its votes at the slot. -/
structure SoundPromise (V : Votes σ ν α) (r : Promise σ ν α) : Prop where
  member : r.acceptorId ∈ M.nodeIds
  atSlot : ∀ e ∈ r.accepted, e.slot = r.slot
  reports : (V r.slot).Reports r.acceptorId r.proposal (reportOf r.accepted)

/-- A majority voted for the decision. -/
def Evidence (V : Votes σ ν α) (d : LearnedDecision σ ν α) : Prop :=
  (V d.slot).Chosen (majorities M) d.proposal d.value

/-- What the messages of the protocol tell. -/
def SoundPayload (X : Proposed σ ν α) (V : Votes σ ν α) : Payload σ ν α → Prop
  | .prepare request => D.validSlot request.slot = true
  | .promise response => SoundPromise M V response
  | .acceptRequest request =>
      SafeProposal D M X V ⟨request.slot, request.proposal, request.value⟩
  | .accepted response =>
      response.acceptorId ∈ M.nodeIds ∧
        (response.proposal, response.value) ∈ (V response.slot).votes response.acceptorId
  | .learn message => Evidence M V ⟨message.slot, message.proposal, message.value⟩

/-- The durable records of one acceptor: the accepted value of a slot is its
highest vote there, and its promise bounds its votes. -/
structure AcceptorInv (d : Durable σ ν α) : Prop where
  slots : ∀ slot p, d.promised.lookup slot = some p → D.validSlot slot = true
  bounded : ∀ e ∈ d.acceptHistory, ∃ p ∈ d.promised.lookup e.slot, e.proposal ≤ p
  current : ∀ slot c, d.accepted.lookup slot = some c → c.slot = slot ∧ c ∈ d.acceptHistory
  covered : ∀ e ∈ d.acceptHistory, ∃ c, d.accepted.lookup e.slot = some c ∧
    e.proposal ≤ c.proposal

/-- The state of a proposal: its number is the node's own, and has a proposed
value once its accept phase has started. -/
structure ProposerInv (X : Proposed σ ν α) (V : Votes σ ν α) (n : ν) (lastRound : ℕ) (slot : σ)
    (state : ProposalState σ ν α) : Prop where
  valid : D.validSlot slot = true
  owner : state.proposal.proposerId = n
  used : state.proposal.round ≤ lastRound
  original : SelfEqual state.originalValue
  promises : ∀ a r, state.promises.lookup a = some r →
    r.acceptorId = a ∧ r.slot = slot ∧ r.proposal = state.proposal ∧ SoundPromise M V r
  proposed : X slot state.proposal = state.acceptValue
  idle : state.acceptValue = none → state.acceptedBy = ∅
  safe : ∀ v, state.acceptValue = some v → SafeProposal D M X V ⟨slot, state.proposal, v⟩
  accepted : ∀ v, state.acceptValue = some v → ∀ a ∈ state.acceptedBy,
    a ∈ M.nodeIds ∧ (state.proposal, v) ∈ (V slot).votes a

/-- The entries of a table of decisions stand at their slots with evidence. -/
def SoundDecisions (V : Votes σ ν α) (decisions : Dict σ (LearnedDecision σ ν α)) : Prop :=
  ∀ slot d, decisions.lookup slot = some d → d.slot = slot ∧ Evidence M V d

/-- The invariant of a cluster that proposed the values `X`. -/
structure Inv (X : Proposed σ ν α) (s : Cluster σ ν α) : Prop where
  acceptor : ∀ n, AcceptorInv D (s.durable n)
  voted : ∀ n, ∀ e ∈ (s.durable n).acceptHistory, SafeProposal D M X s.voting e
  proposer : ∀ n slot state, (s.proposals n).lookup slot = some state →
    ProposerInv D M X s.voting n (s.durable n).lastRound slot state
  rounds : ∀ slot p v, X slot p = some v → p.round ≤ (s.durable p.proposerId).lastRound
  message : ∀ m ∈ s.network, SoundPayload D M X s.voting m.payload
  chosen : SoundDecisions M s.voting s.chosen
  learned : ∀ n, SoundDecisions M s.voting (s.durable n).learned
  selfEqual : ∀ slot p v, X slot p = some v → SelfEqual v

/-! ## The invariant follows the votes -/

section Evolving

variable {D M} {X Y : Proposed σ ν α} {V W : Votes σ ν α}

/-- No value is replaced. -/
def Extends (X Y : Proposed σ ν α) : Prop := ∀ slot p v, X slot p = some v → Y slot p = some v

omit [DecidableEq σ] [LinearOrder ν] [BEq α] in
theorem Extends.refl (X : Proposed σ ν α) : Extends X X := fun _ _ _ => id

omit [DecidableEq σ] [LinearOrder ν] [BEq α] in
theorem Extends.trans {Z : Proposed σ ν α} (first : Extends X Y) (second : Extends Y Z) :
    Extends X Z := fun slot p v found => second slot p v (first slot p v found)

variable (more : Extends X Y) (step : ∀ slot, (V slot).Evolves (W slot))

omit [DecidableEq σ] [BEq α] in
include more step in
theorem SafeProposal.evolves {p : AcceptedValue σ ν α} (safe : SafeProposal D M X V p) :
    SafeProposal D M Y W p :=
  ⟨more _ _ _ safe.proposed, safe.slot, safe.safe.evolves (step p.slot)⟩

omit [DecidableEq σ] [BEq α] in
include step in
theorem SoundPromise.evolves {r : Promise σ ν α} (sound : SoundPromise M V r) :
    SoundPromise M W r :=
  ⟨sound.member, sound.atSlot, (step r.slot).reports sound.reports⟩

omit [DecidableEq σ] [BEq α] in
include step in
theorem Evidence.evolves {d : LearnedDecision σ ν α} (evidence : Evidence M V d) :
    Evidence M W d :=
  Voting.Chosen.evolves (step d.slot) evidence

omit [DecidableEq σ] [BEq α] in
include more step in
theorem SoundPayload.evolves {payload : Payload σ ν α} (sound : SoundPayload D M X V payload) :
    SoundPayload D M Y W payload := by
  cases payload with
  | prepare request => exact sound
  | promise response => exact SoundPromise.evolves step sound
  | acceptRequest request => exact SafeProposal.evolves more step sound
  | accepted response => exact ⟨sound.1, (step response.slot).votes_mono _ sound.2⟩
  | learn message => exact Evidence.evolves step sound

omit [BEq α] in
include step in
theorem SoundDecisions.evolves {decisions : Dict σ (LearnedDecision σ ν α)}
    (sound : SoundDecisions M V decisions) : SoundDecisions M W decisions :=
  fun slot d found => ⟨(sound slot d found).1, (sound slot d found).2.evolves step⟩

omit [DecidableEq σ] in
include more step in
/-- The value of the proposal itself must not have changed. -/
theorem ProposerInv.evolves {n : ν} {lastRound later : ℕ} {slot : σ}
    {state : ProposalState σ ν α} (inv : ProposerInv D M X V n lastRound slot state)
    (rounds : lastRound ≤ later) (same : Y slot state.proposal = X slot state.proposal) :
    ProposerInv D M Y W n later slot state where
  valid := inv.valid
  owner := inv.owner
  used := inv.used.trans rounds
  original := inv.original
  promises a r found := by
    obtain ⟨acceptor, atSlot, proposal, sound⟩ := inv.promises a r found
    exact ⟨acceptor, atSlot, proposal, sound.evolves step⟩
  proposed := same.trans inv.proposed
  idle := inv.idle
  safe v started := (inv.safe v started).evolves more step
  accepted v started a member := by
    obtain ⟨isNode, vote⟩ := inv.accepted v started a member
    exact ⟨isNode, (step slot).votes_mono a vote⟩

end Evolving

/-! ## Elementary writes -/

/-- `t` has the invariant with the values `Y`, and its votes evolved from those of `s`. -/
structure Follows (X : Proposed σ ν α) (s : Cluster σ ν α) (Y : Proposed σ ν α)
    (t : Cluster σ ν α) : Prop where
  more : Extends X Y
  inv : Inv D M Y t
  evolves : ∀ slot, (s.voting slot).Evolves (t.voting slot)

/-- `t` comes after `s`. -/
def Continues (X : Proposed σ ν α) (s t : Cluster σ ν α) : Prop := ∃ Y, Follows D M X s Y t

section Writes

variable {D M} {X Y Z : Proposed σ ν α} {s t u : Cluster σ ν α}

theorem Follows.trans (first : Follows D M X s Y t) (second : Follows D M Y t Z u) :
    Follows D M X s Z u :=
  ⟨first.more.trans second.more, second.inv,
    fun slot => (first.evolves slot).trans (second.evolves slot)⟩

theorem Follows.continues (follows : Follows D M X s Y t) : Continues D M X s t := ⟨Y, follows⟩

theorem Inv.follows (inv : Inv D M X t) (same : s.voting = t.voting) : Follows D M X s X t :=
  ⟨.refl X, inv, fun _ => same ▸ Voting.Evolves.refl _⟩

theorem Inv.continues (inv : Inv D M X t) (same : s.voting = t.voting) :
    Continues D M X s t := (inv.follows same).continues

/-- What an operation does after earlier writes. -/
theorem Follows.followed {ε β : Type} {E : ε → Cluster σ ν α → Prop}
    {outcome : Outcome ε (Cluster σ ν α) β} (before : Follows D M X s Y t)
    (ensures : outcome.Ensures (Continues D M Y t) E) :
    outcome.Ensures (Continues D M X s) E :=
  ensures.mono (fun _ later => later.imp fun _ later => before.trans later) fun _ _ => id

/-- Operations that continue the state they start in compose. -/
theorem Continues.bind {ε β γ : Type} {E : ε → Cluster σ ν α → Prop}
    {first : Outcome ε (Cluster σ ν α) β}
    {next : β → Cluster σ ν α → Outcome ε (Cluster σ ν α) γ}
    (ensures : first.Ensures (Continues D M X s) E)
    (keeps : ∀ b t Y, first = .returns b t → Follows D M X s Y t →
      (next b t).Ensures (Continues D M Y t) E) :
    (first.bind next).Ensures (Continues D M X s) E := by
  refine Outcome.Ensures.bind ensures (fun b t returned after => ?_) fun _ => id
  obtain ⟨Y, follows⟩ := after
  exact follows.followed (keeps b t Y returned follows)

namespace Inv

/-- A write to the durable state of a node. -/
theorem updateDurable (inv : Inv D M X s) (n : ν) (f : Durable σ ν α → Durable σ ν α)
    (acceptor : AcceptorInv D (f (s.durable n)))
    (promised : ∀ slot, ∀ p ∈ (s.durable n).promised.lookup slot,
      ∃ q ∈ (f (s.durable n)).promised.lookup slot, p ≤ q)
    (kept : ∀ e ∈ (s.durable n).acceptHistory, e ∈ (f (s.durable n)).acceptHistory)
    (fresh : ∀ e ∈ (f (s.durable n)).acceptHistory, e ∈ (s.durable n).acceptHistory ∨
      ((∀ p ∈ (s.durable n).promised.lookup e.slot, p ≤ e.proposal) ∧
        SafeProposal D M X s.voting e))
    (rounds : (s.durable n).lastRound ≤ (f (s.durable n)).lastRound)
    (learned : SoundDecisions M s.voting (f (s.durable n)).learned) :
    Follows D M X s X (s.updateDurable n f) := by
  have own : (s.updateDurable n f).durable n = f (s.durable n) := Function.update_self ..
  have others : ∀ m, m ≠ n → (s.updateDurable n f).durable m = s.durable m :=
    fun m other => Function.update_of_ne other ..
  have evolves : ∀ slot, (s.voting slot).Evolves ((s.updateDurable n f).voting slot) := by
    refine fun slot => ⟨fun m vote => ?_, fun m p => ?_, fun m b v => ?_⟩ <;>
      by_cases same : m = n
    · subst same
      simpa [Cluster.voting, own] using kept _
    · simp [Cluster.voting, others m same]
    · subst same
      simpa [Cluster.voting, own] using promised slot p
    · simpa [Cluster.voting, others m same] using fun h => ⟨p, h, le_rfl⟩
    · subst same
      intro vote
      rcases fresh ⟨slot, b, v⟩ (by simpa [Cluster.voting, own] using vote) with old | isOpen
      · exact .inl old
      · exact .inr isOpen.1
    · simpa [Cluster.voting, others m same] using fun h => .inl h
  have later : ∀ m, (s.durable m).lastRound ≤ ((s.updateDurable n f).durable m).lastRound := by
    intro m
    by_cases same : m = n
    · subst same
      rw [own]
      exact rounds
    · rw [others m same]
  refine ⟨.refl X, ⟨fun m => ?_, fun m e member => ?_, fun m slot state found => ?_,
    fun slot p v found => (inv.rounds slot p v found).trans (later _), fun msg member => ?_,
    SoundDecisions.evolves evolves inv.chosen, fun m => ?_, inv.selfEqual⟩, evolves⟩
  · by_cases same : m = n
    · subst same
      rw [own]
      exact acceptor
    · rw [others m same]
      exact inv.acceptor m
  · by_cases same : m = n
    · subst same
      rw [own] at member
      rcases fresh e member with old | ⟨_, safe⟩
      · exact (inv.voted m e old).evolves (.refl X) evolves
      · exact safe.evolves (.refl X) evolves
    · rw [others m same] at member
      exact (inv.voted m e member).evolves (.refl X) evolves
  · exact (inv.proposer m slot state found).evolves (.refl X) evolves (later m) rfl
  · exact SoundPayload.evolves (.refl X) evolves (inv.message msg member)
  · by_cases same : m = n
    · subst same
      rw [own]
      exact SoundDecisions.evolves evolves learned
    · rw [others m same]
      exact SoundDecisions.evolves evolves (inv.learned m)

/-- A write to the proposals of a node. -/
theorem updateProposals (inv : Inv D M X s) {n : ν}
    {f : Dict σ (ProposalState σ ν α) → Dict σ (ProposalState σ ν α)}
    (proposer : ∀ slot state, (f (s.proposals n)).lookup slot = some state →
      ProposerInv D M X s.voting n (s.durable n).lastRound slot state) :
    Follows D M X s X (s.updateProposals n f) := by
  refine Inv.follows ⟨inv.acceptor, inv.voted, fun m slot state found => ?_, inv.rounds,
    inv.message, inv.chosen, inv.learned, inv.selfEqual⟩ rfl
  by_cases same : m = n
  · subst same
    refine proposer slot state ?_
    simpa [Cluster.updateProposals] using found
  · refine inv.proposer m slot state ?_
    simpa [Cluster.updateProposals, same] using found

/-- One proposal of a node changes. -/
theorem setProposal (inv : Inv D M X s) {n : ν} {slot : σ} {state : ProposalState σ ν α}
    (proposer : ProposerInv D M X s.voting n (s.durable n).lastRound slot state) :
    Follows D M X s X (s.updateProposals n fun proposals => proposals.insert slot state) := by
  refine inv.updateProposals fun slot' state' found => ?_
  rcases Dict.of_lookup_insert found with ⟨rfl, rfl⟩ | ⟨_, old⟩
  · exact proposer
  · exact inv.proposer n slot' state' old

/-- A message goes out. -/
theorem send (inv : Inv D M X s) (src dst : ν) (payload : Payload σ ν α)
    (sound : SoundPayload D M X s.voting payload) : Follows D M X s X (s.send src dst payload) := by
  refine Inv.follows ⟨inv.acceptor, inv.voted, inv.proposer, inv.rounds, fun m member => ?_,
    inv.chosen, inv.learned, inv.selfEqual⟩ rfl
  rcases List.mem_append.mp member with old | new
  · exact inv.message m old
  · rw [List.mem_singleton.mp new]
    exact sound

/-- A broadcast goes out. -/
theorem sendAll (inv : Inv D M X s) (src : ν) (dsts : List ν) (payload : Payload σ ν α)
    (sound : SoundPayload D M X s.voting payload) :
    Follows D M X s X (s.sendAll src dsts payload) := by
  refine Inv.follows ⟨inv.acceptor, inv.voted, inv.proposer, inv.rounds, fun m member => ?_,
    inv.chosen, inv.learned, inv.selfEqual⟩ rfl
  rcases List.mem_append.mp member with old | new
  · exact inv.message m old
  · obtain ⟨dst, _, rfl⟩ := List.mem_map.mp new
    exact sound

end Inv

end Writes

end Distlab.Paxos
