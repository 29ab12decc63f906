import Distlab.Paxos.Invariant

/-!
# Every operation keeps the invariant

Each operation of a node continues the state it starts from and raises no safety
violation.
-/

set_option autoImplicit false

namespace Distlab.Paxos

open Foundations

/-- The errors that an operation may raise. -/
def Permitted {σ ν α : Type} (error : Error σ ν) (_ : Cluster σ ν α) : Prop := ¬ error.IsSafety

variable {σ ν α : Type} [DecidableEq σ] [LinearOrder ν] [BEq α] {D : Decrees σ}
  {M : Members ν} {X : Proposed σ ν α} {s : Cluster σ ν α}

/-! ## Agreement under the invariant -/

omit [BEq α] in
/-- Evidence has a voter. -/
theorem Evidence.exists_voter {d : LearnedDecision σ ν α} (evidence : Evidence M s.voting d) :
    ∃ n ∈ M.nodeIds,
      (⟨d.slot, d.proposal, d.value⟩ : AcceptedValue σ ν α) ∈ (s.durable n).acceptHistory := by
  obtain ⟨Q, ⟨members, size⟩, votes⟩ := evidence
  have positive : 0 < Q.card := lt_of_lt_of_le (Nat.succ_pos _) size
  obtain ⟨n, member⟩ := Finset.card_pos.mp positive
  exact ⟨n, List.mem_toFinset.mp (members member), votes n member⟩

namespace Inv

variable (inv : Inv D M X s)

include inv

theorem oneVote (slot : σ) : (s.voting slot).OneVote := by
  intro n b v w first second
  have proposed : X slot b = some v := (inv.voted n ⟨slot, b, v⟩ first).proposed
  have proposed' : X slot b = some w := (inv.voted n ⟨slot, b, w⟩ second).proposed
  exact Option.some.inj (proposed.symm.trans proposed')

/-- Two decisions of a slot with evidence have one value. -/
theorem agree {d d' : LearnedDecision σ ν α} (first : Evidence M s.voting d)
    (second : Evidence M s.voting d') (slot : d.slot = d'.slot) : d.value = d'.value := by
  have second' : (s.voting d.slot).Chosen (majorities M) d'.proposal d'.value := slot ▸ second
  exact Voting.chosen_agree (inv.oneVote d.slot) (fun n b v vote => (inv.voted n _ vote).safe)
    first second'

theorem safe_of_evidence {d : LearnedDecision σ ν α} (evidence : Evidence M s.voting d) :
    SafeProposal D M X s.voting ⟨d.slot, d.proposal, d.value⟩ := by
  obtain ⟨n, _, vote⟩ := evidence.exists_voter
  exact inv.voted n _ vote

/-- A decision with evidence does not differ from another one of its slot. -/
theorem not_ne_of_evidence {d d' : LearnedDecision σ ν α} (first : Evidence M s.voting d)
    (second : Evidence M s.voting d') (slot : d.slot = d'.slot) :
    ¬ (d.value != d'.value) = true :=
  (inv.selfEqual _ _ _ (inv.safe_of_evidence second).proposed).not_ne
    (inv.agree first second slot)

end Inv

/-! ## Learning -/

omit [DecidableEq σ] in
/-- The members that a proposer has counted are evidence. -/
theorem ProposerInv.evidence {V : Votes σ ν α} {n : ν} {lastRound : ℕ} {slot : σ}
    {state : ProposalState σ ν α} (inv : ProposerInv D M X V n lastRound slot state) {v : α}
    (started : state.acceptValue = some v) (enough : M.quorumSize ≤ state.acceptedBy.card) :
    Evidence M V ⟨slot, state.proposal, v⟩ :=
  ⟨state.acceptedBy,
    ⟨fun a member => List.mem_toFinset.mpr (inv.accepted v started a member).1, enough⟩,
    fun a member => (inv.accepted v started a member).2⟩

omit [BEq α] in
theorem SoundDecisions.insert {V : Votes σ ν α} {decisions : Dict σ (LearnedDecision σ ν α)}
    (sound : SoundDecisions M V decisions) {d : LearnedDecision σ ν α}
    (evidence : Evidence M V d) : SoundDecisions M V (decisions.insert d.slot d) := by
  intro slot d' found
  rcases Dict.of_lookup_insert found with ⟨rfl, rfl⟩ | ⟨_, old⟩
  · exact ⟨rfl, evidence⟩
  · exact sound slot d' old

theorem recordChosen_ensures (inv : Inv D M X s) {slot : σ} {proposal : ProposalNumber ν}
    {value : α} {acceptors : Finset ν} (evidence : Evidence M s.voting ⟨slot, proposal, value⟩)
    (enough : M.quorumSize ≤ acceptors.card) :
    (recordChosen M slot proposal value acceptors s).Ensures (Continues D M X s) Permitted := by
  unfold recordChosen
  rw [if_neg (not_lt.mpr enough)]
  split
  next current found =>
    obtain ⟨atSlot, known⟩ := inv.chosen slot current found
    rw [if_neg (inv.not_ne_of_evidence known evidence atSlot)]
    exact inv.continues rfl
  next =>
    exact Inv.continues ⟨inv.acceptor, inv.voted, inv.proposer, inv.rounds, inv.message,
      inv.chosen.insert evidence, inv.learned, inv.selfEqual⟩ rfl

theorem receiveLearn_ensures (inv : Inv D M X s) (self : ν) (message : Learn σ ν α)
    (evidence : Evidence M s.voting ⟨message.slot, message.proposal, message.value⟩) :
    (receiveLearn self message s).Ensures (Continues D M X s) Permitted := by
  unfold receiveLearn
  split
  next current found =>
    obtain ⟨atSlot, known⟩ := inv.learned self _ current found
    rw [if_neg (inv.not_ne_of_evidence known evidence atSlot)]
    exact inv.continues rfl
  next =>
    have acceptor := inv.acceptor self
    exact (inv.updateDurable self
      (fun d => { d with learned := d.learned.insert message.slot _ })
      ⟨acceptor.slots, acceptor.bounded, acceptor.current, acceptor.covered⟩
      (fun _ p here => ⟨p, here, le_rfl⟩) (fun _ => id) (fun _ => .inl) le_rfl
      ((inv.learned self).insert evidence)).continues

/-! ## Phase 2 -/

theorem receiveAccepted_ensures (inv : Inv D M X s) (self : ν) {response : Accepted σ ν α}
    (member : response.acceptorId ∈ M.nodeIds)
    (vote : (response.proposal, response.value) ∈
      (s.voting response.slot).votes response.acceptorId) :
    (receiveAccepted M self response s).Ensures (Continues D M X s) Permitted := by
  unfold receiveAccepted
  split
  next => exact inv.continues rfl
  next state found =>
  split
  next => exact inv.continues rfl
  next own =>
  rw [not_not] at own
  split
  next => exact inv.continues rfl
  next value started =>
  have proposer := inv.proposer self response.slot state found
  have voted := (inv.voted response.acceptorId _ vote).proposed
  have sameValue : response.value = value := by
    have proposed := proposer.proposed
    rw [started, ← own] at proposed
    exact Option.some.inj (voted.symm.trans proposed)
  have reflexive : SelfEqual value := sameValue ▸ inv.selfEqual _ _ _ voted
  rw [if_neg (reflexive.not_ne sameValue)]
  dsimp only
  rw [own, sameValue] at vote
  have counted : ProposerInv D M X s.voting self (s.durable self).lastRound response.slot
      { state with acceptedBy := insert response.acceptorId state.acceptedBy } := by
    refine ⟨proposer.valid, proposer.owner, proposer.used, proposer.original,
      proposer.promises, proposer.proposed, fun idle => ?_, proposer.safe,
      fun v started' a counted => ?_⟩
    · rw [started] at idle
      cases idle
    · rw [started] at started'
      cases started'
      rcases Finset.mem_insert.mp counted with rfl | old
      · exact ⟨member, vote⟩
      · exact proposer.accepted value started a old
  have stored := inv.setProposal counted
  split
  next => exact stored.continues
  next enough =>
  have evidence : Evidence M s.voting ⟨response.slot, state.proposal, value⟩ :=
    counted.evidence started (not_lt.mp enough)
  refine stored.followed (Continues.bind
    (recordChosen_ensures stored.inv evidence (not_lt.mp enough)) fun _ t Y _ recorded => ?_)
  have evidence₁ : Evidence M t.voting ⟨response.slot, state.proposal, value⟩ :=
    Evidence.evolves recorded.evolves evidence
  refine Continues.bind (receiveLearn_ensures recorded.inv self
    ⟨response.slot, state.proposal, self, value⟩ evidence₁)
    fun _ u Z _ learned => ?_
  have evidence₂ : Evidence M u.voting ⟨response.slot, state.proposal, value⟩ :=
    Evidence.evolves learned.evolves evidence₁
  have announced := learned.inv.sendAll self (M.peers self)
    (.learn ⟨response.slot, state.proposal, self, value⟩) evidence₂
  refine (announced.trans (announced.inv.updateProposals fun slot' state' found' => ?_)).continues
  exact announced.inv.proposer self slot' state' (Dict.of_lookup_erase found').2

omit [BEq α] in
/-- A promise at least as high as the current one. -/
theorem AcceptorInv.promise {d : Durable σ ν α} (inv : AcceptorInv D d) {slot : σ}
    {proposal : ProposalNumber ν} (valid : D.validSlot slot = true)
    (higher : ∀ p ∈ d.promised.lookup slot, p ≤ proposal) :
    AcceptorInv D { d with promised := d.promised.insert slot proposal } where
  slots slot' p found := by
    rcases Dict.of_lookup_insert found with ⟨rfl, _⟩ | ⟨_, old⟩
    · exact valid
    · exact inv.slots slot' p old
  bounded e member := by
    obtain ⟨p, promised, le⟩ := inv.bounded e member
    by_cases same : e.slot = slot
    · rw [same] at promised ⊢
      exact ⟨proposal, by rw [Dict.lookup_insert, if_pos rfl]; rfl,
        le.trans (higher p promised)⟩
    · exact ⟨p, by rw [Dict.lookup_insert, if_neg same]; exact promised, le⟩
  current := inv.current
  covered := inv.covered

variable [DecidableEq α]

/-- A history with one value for each slot and proposal has a record equal to this
one if and only if it has this one. -/
theorem hasAccepted_iff {d : Durable σ ν α} {accepted : AcceptedValue σ ν α}
    (single : ∀ e ∈ d.acceptHistory, e.slot = accepted.slot → e.proposal = accepted.proposal →
      e.value = accepted.value) :
    d.hasAccepted accepted = true ↔ accepted ∈ d.acceptHistory := by
  unfold Durable.hasAccepted AcceptedValue.recordEqual
  rw [List.any_eq_true]
  constructor
  · rintro ⟨e, member, equal⟩
    simp only [Bool.and_eq_true, decide_eq_true_eq] at equal
    obtain ⟨⟨slot, proposal⟩, -⟩ := equal
    have value := single e member slot proposal
    obtain rfl : e = accepted := by
      cases e
      cases accepted
      simp_all
    exact member
  · exact fun member => ⟨accepted, member, by simp⟩

theorem mem_accept {d : Durable σ ν α} {request : AcceptRequest σ ν α}
    (single : ∀ e ∈ d.acceptHistory, e.slot = request.slot → e.proposal = request.proposal →
      e.value = request.value)
    {e : AcceptedValue σ ν α} : e ∈ (d.accept request).acceptHistory ↔
      e ∈ d.acceptHistory ∨ e = ⟨request.slot, request.proposal, request.value⟩ := by
  have present : d.hasAccepted ⟨request.slot, request.proposal, request.value⟩ = true ↔
      ⟨request.slot, request.proposal, request.value⟩ ∈ d.acceptHistory := hasAccepted_iff single
  unfold Durable.accept
  dsimp only
  split
  next here => exact ⟨.inl, fun h => h.elim id fun same => same ▸ present.mp here⟩
  next => rw [List.mem_append, List.mem_singleton]

/-- A vote that the promise allows. -/
theorem AcceptorInv.accept {d : Durable σ ν α} (inv : AcceptorInv D d)
    {request : AcceptRequest σ ν α} (valid : D.validSlot request.slot = true)
    (higher : ∀ p ∈ d.promised.lookup request.slot, p ≤ request.proposal)
    (single : ∀ e ∈ d.acceptHistory, e.slot = request.slot → e.proposal = request.proposal →
      e.value = request.value) :
    AcceptorInv D (d.accept request) := by
  have mem_accept {e : AcceptedValue σ ν α} := mem_accept single (e := e)
  have promised := inv.promise valid higher
  have votes : ∀ e ∈ d.acceptHistory, e.slot = request.slot → e.proposal ≤ request.proposal := by
    intro e member same
    obtain ⟨p, bound, le⟩ := inv.bounded e member
    exact le.trans (higher p (same ▸ bound))
  refine ⟨promised.slots, fun e member => ?_, fun slot c found => ?_, fun e member => ?_⟩
  · rcases mem_accept.mp member with old | rfl
    · exact promised.bounded e old
    · exact ⟨request.proposal, by simp [Durable.accept], le_rfl⟩
  · rcases Dict.of_lookup_insert found with ⟨rfl, rfl⟩ | ⟨_, old⟩
    · exact ⟨rfl, mem_accept.mpr (.inr rfl)⟩
    · obtain ⟨atSlot, voted⟩ := inv.current slot c old
      exact ⟨atSlot, mem_accept.mpr (.inl voted)⟩
  · by_cases same : e.slot = request.slot
    · refine ⟨⟨request.slot, request.proposal, request.value⟩, ?_, ?_⟩
      · exact (Dict.lookup_insert ..).trans (if_pos same)
      · rcases mem_accept.mp member with old | rfl
        · exact votes e old same
        · exact le_rfl
    · rcases mem_accept.mp member with old | rfl
      · obtain ⟨c, found, le⟩ := inv.covered e old
        exact ⟨c, (Dict.lookup_insert ..).trans ((if_neg same).trans found), le⟩
      · exact absurd rfl same

omit [DecidableEq α] in
theorem le_of_not_refuses {promised : Option (ProposalNumber ν)} {proposal : ProposalNumber ν}
    (accepts : ¬ refuses promised proposal = true) : ∀ p ∈ promised, p ≤ proposal := by
  rintro p ⟨⟩
  exact not_lt.mp (by simpa [refuses] using accepts)

theorem receiveAcceptRequest_ensures (inv : Inv D M X s) {self : ν} (isNode : self ∈ M.nodeIds)
    (request : AcceptRequest σ ν α)
    (safe : SafeProposal D M X s.voting ⟨request.slot, request.proposal, request.value⟩) :
    (receiveAcceptRequest M self request s).Ensures (Continues D M X s) Permitted := by
  unfold receiveAcceptRequest
  split
  next => exact inv.continues rfl
  next accepts =>
  have higher := le_of_not_refuses accepts
  have acceptor := inv.acceptor self
  have single : ∀ e ∈ (s.durable self).acceptHistory, e.slot = request.slot →
      e.proposal = request.proposal → e.value = request.value := by
    intro e member slot proposal
    have proposed := (inv.voted self e member).proposed
    rw [slot, proposal, safe.proposed] at proposed
    exact (Option.some.inj proposed).symm
  have agrees : ¬ conflicts ((s.durable self).accepted.lookup request.slot) request = true := by
    intro conflict
    obtain ⟨c, found, differs⟩ := (Option.any_eq_true _ _).mp conflict
    obtain ⟨sameProposal, other⟩ := Bool.and_eq_true_iff.mp differs
    obtain ⟨atSlot, voted⟩ := acceptor.current _ c found
    exact (inv.selfEqual _ _ _ safe.proposed).not_ne
      (single c voted atSlot (of_decide_eq_true sameProposal)) other
  rw [if_neg agrees]
  have mem_accept {e : AcceptedValue σ ν α} := mem_accept single (e := e)
  have promised : ∀ slot, ∀ p ∈ (s.durable self).promised.lookup slot,
      ∃ q ∈ ((s.durable self).accept request).promised.lookup slot, p ≤ q := by
    intro slot p here
    by_cases same : slot = request.slot
    · subst same
      exact ⟨request.proposal, by simp [Durable.accept], higher p here⟩
    · exact ⟨p, by simpa [Durable.accept, Dict.lookup_insert, same] using here, le_rfl⟩
  have fresh : ∀ e ∈ ((s.durable self).accept request).acceptHistory,
      e ∈ (s.durable self).acceptHistory ∨
        ((∀ p ∈ (s.durable self).promised.lookup e.slot, p ≤ e.proposal) ∧
          SafeProposal D M X s.voting e) := by
    intro e member
    rcases mem_accept.mp member with old | rfl
    · exact .inl old
    · exact .inr ⟨higher, safe⟩
  have wrote := inv.updateDurable self (fun d => d.accept request)
    (acceptor.accept safe.slot higher single) promised
    (fun e member => mem_accept.mpr (.inl member))
    fresh le_rfl (inv.learned self)
  have vote : (request.proposal, request.value) ∈
      ((s.updateDurable self fun d => d.accept request).voting request.slot).votes self := by
    simp only [Cluster.voting, Cluster.updateDurable, Function.update_self, Set.mem_ofPred_eq]
    exact mem_accept.mpr (.inr rfl)
  dsimp only
  split
  next => exact wrote.followed (receiveAccepted_ensures wrote.inv self isNode vote)
  next =>
    exact (wrote.trans (wrote.inv.send self _
      (.accepted ⟨request.slot, request.proposal, self, request.value⟩)
      ⟨isNode, vote⟩)).continues

/-! ## Phase 1 -/

omit [DecidableEq α] in
/-- The accept phase of a proposal starts with a safe value. -/
theorem Inv.propose (inv : Inv D M X s) {n : ν} {slot : σ} {state : ProposalState σ ν α}
    (proposer : ProposerInv D M X s.voting n (s.durable n).lastRound slot state)
    (waiting : state.acceptValue = none)
    {v : α} (safe : (s.voting slot).Safe (majorities M) state.proposal v)
    (reflexive : SelfEqual v) :
    ∃ Y, Follows D M X s Y (s.updateProposals n fun proposals =>
        proposals.insert slot { state with acceptValue := some v }) ∧
      Y slot state.proposal = some v := by
  set Y : Proposed σ ν α := Function.update X slot
    (Function.update (X slot) state.proposal (some v)) with hY
  have here : Y slot state.proposal = some v := by simp [hY]
  have elsewhere : ∀ slot' p, ¬ (slot' = slot ∧ p = state.proposal) → Y slot' p = X slot' p := by
    intro slot' p other
    by_cases same : slot' = slot
    · subst same
      have differs : p ≠ state.proposal := fun equal => other ⟨rfl, equal⟩
      simp [hY, differs]
    · simp [hY, same]
  have more : Extends X Y := by
    intro slot' p w found
    rw [elsewhere]
    · exact found
    · rintro ⟨rfl, rfl⟩
      rw [proposer.proposed, waiting] at found
      cases found
  have unchanged : ∀ slot, (s.voting slot).Evolves (s.voting slot) := fun _ => .refl _
  refine ⟨Y, ⟨more, ⟨inv.acceptor, fun m e member => (inv.voted m e member).evolves more unchanged,
    fun m slot' state' found => ?_, fun slot' p w found => ?_,
    fun msg member => SoundPayload.evolves more unchanged (inv.message msg member), inv.chosen,
    inv.learned, fun slot' p w found => ?_⟩, unchanged⟩, here⟩
  · have started : ProposerInv D M Y s.voting n (s.durable n).lastRound slot
        { state with acceptValue := some v } := by
      refine ⟨proposer.valid, proposer.owner, proposer.used, proposer.original,
        proposer.promises, here, fun idle => (by cases idle), fun w same => ?_,
        fun w _ a member => ?_⟩
      · cases same
        exact ⟨here, proposer.valid, safe⟩
      · have nobody : a ∈ state.acceptedBy := member
        rw [proposer.idle waiting] at nobody
        exact absurd nobody (Finset.notMem_empty a)
    have kept : ∀ a b c, (s.proposals a).lookup b = some c → ¬ (a = n ∧ b = slot) →
        ProposerInv D M Y s.voting a (s.durable a).lastRound b c := by
      intro a b c stored other
      refine (inv.proposer a b c stored).evolves more unchanged le_rfl (elsewhere _ _ ?_)
      rintro ⟨sameSlot, sameProposal⟩
      have owner := (inv.proposer a b c stored).owner
      rw [sameProposal, proposer.owner] at owner
      exact other ⟨owner.symm, sameSlot⟩
    by_cases same : m = n
    · subst same
      have found' : ((s.proposals m).insert slot { state with acceptValue := some v }).lookup
          slot' = some state' := by simpa [Cluster.updateProposals] using found
      rcases Dict.of_lookup_insert found' with ⟨rfl, rfl⟩ | ⟨other, old⟩
      · exact started
      · exact kept m slot' state' old fun both => other both.2
    · refine kept m slot' state' ?_ fun both => same both.1
      simpa [Cluster.updateProposals, same] using found
  · by_cases new : slot' = slot ∧ p = state.proposal
    · obtain ⟨rfl, rfl⟩ := new
      change state.proposal.round ≤ (s.durable state.proposal.proposerId).lastRound
      rw [proposer.owner]
      exact proposer.used
    · rw [elsewhere slot' p new] at found
      exact inv.rounds slot' p w found
  · by_cases new : slot' = slot ∧ p = state.proposal
    · obtain ⟨rfl, rfl⟩ := new
      exact Option.some.inj (here.symm.trans found) ▸ reflexive
    · rw [elsewhere slot' p new] at found
      exact inv.selfEqual slot' p w found

omit [DecidableEq σ] [DecidableEq α] in
/-- A promise for the proposal is kept. -/
theorem ProposerInv.insertPromise {V : Votes σ ν α} {n : ν} {lastRound : ℕ} {slot : σ}
    {state : ProposalState σ ν α} (inv : ProposerInv D M X V n lastRound slot state)
    {r : Promise σ ν α} (atSlot : r.slot = slot) (own : r.proposal = state.proposal)
    (sound : SoundPromise M V r) :
    ProposerInv D M X V n lastRound slot
      { state with promises := state.promises.setDefault r.acceptorId r } where
  valid := inv.valid
  owner := inv.owner
  used := inv.used
  original := inv.original
  promises a r' found := by
    rcases Dict.of_lookup_setDefault found with old | ⟨rfl, rfl⟩
    · exact inv.promises a r' old
    · exact ⟨rfl, atSlot, own, sound⟩
  proposed := inv.proposed
  idle := inv.idle
  safe := inv.safe
  accepted := inv.accepted

omit [DecidableEq α] in
/-- A quorum of promises names a safe value. -/
theorem valueToPropose_eq (inv : Inv D M X s) {n : ν} {lastRound : ℕ} {slot : σ}
    {state : ProposalState σ ν α}
    (proposer : ProposerInv D M X s.voting n lastRound slot state)
    (enough : M.quorumSize ≤ state.promises.keySet.card) :
    ∃ v, valueToPropose slot state = .ok v ∧
      (s.voting slot).Safe (majorities M) state.proposal v ∧ SelfEqual v := by
  set report : ν → Set (ProposalNumber ν × α) :=
    fun a => reportOf ((state.promises.lookup a).bind (·.accepted))
  have isQuorum : state.promises.keySet ∈ (majorities M).quorums := by
    refine ⟨fun a member => ?_, enough⟩
    obtain ⟨r, found⟩ := Dict.mem_keySet.mp member
    obtain ⟨rfl, _, _, sound⟩ := proposer.promises a r found
    exact List.mem_toFinset.mpr sound.member
  have reports : ∀ a ∈ state.promises.keySet,
      (s.voting slot).Reports a state.proposal (report a) := by
    intro a member
    obtain ⟨r, found⟩ := Dict.mem_keySet.mp member
    obtain ⟨rfl, rfl, same, sound⟩ := proposer.promises a r found
    simp only [report, found, Option.bind_some]
    exact same ▸ sound.reports
  have listed : ∀ a e, e ∈ (state.promises.lookup a).bind (·.accepted) →
      e ∈ state.promises.values.filterMap (·.accepted) := by
    intro a e reported
    obtain ⟨r, found, accepted⟩ := Option.bind_eq_some_iff.mp reported
    exact List.mem_filterMap.mpr ⟨r, Dict.mem_values.mpr ⟨a, found⟩, accepted⟩
  have cast : ∀ e ∈ state.promises.values.filterMap (·.accepted),
      e.slot = slot ∧ SafeProposal D M X s.voting e := by
    intro e member
    obtain ⟨r, kept, accepted⟩ := List.mem_filterMap.mp member
    obtain ⟨a, found⟩ := Dict.mem_values.mp kept
    obtain ⟨rfl, rfl, _, sound⟩ := proposer.promises a r found
    have atSlot := sound.atSlot e accepted
    have vote := sound.reports.cast ⟨e, accepted, rfl⟩
    refine ⟨atSlot, inv.voted r.acceptorId e ?_⟩
    rw [← atSlot] at vote
    exact vote
  unfold valueToPropose
  dsimp only
  split
  next none =>
    refine ⟨_, rfl, Voting.safe_of_no_reports isQuorum reports (fun a _ => ?_) _,
      proposer.original⟩
    rw [Set.eq_empty_iff_forall_notMem]
    rintro vote ⟨e, reported, -⟩
    have member := listed a e reported
    rw [List.argmax_eq_none.mp none] at member
    exact absurd member List.not_mem_nil
  next highest top =>
    have member := List.argmax_mem top
    obtain ⟨atSlot, safe⟩ := cast highest member
    have same : ∀ e ∈ state.promises.values.filterMap (·.accepted),
        e.proposal = highest.proposal → e.value = highest.value := by
      intro e other sameProposal
      obtain ⟨atSlot', safe'⟩ := cast e other
      have proposed := safe'.proposed
      rw [atSlot', sameProposal, ← atSlot, safe.proposed] at proposed
      exact (Option.some.inj proposed).symm
    have reflexive : SelfEqual highest.value := inv.selfEqual _ _ _ safe.proposed
    have one : ∀ v ∈ ((state.promises.values.filterMap (·.accepted)).filter
        (·.proposal = highest.proposal)).map (·.value), v = highest.value := by
      intro v inside
      obtain ⟨e, listed', rfl⟩ := List.mem_map.mp inside
      obtain ⟨other, sameProposal⟩ := List.mem_filter.mp listed'
      exact same e other (of_decide_eq_true sameProposal)
    have head : (((state.promises.values.filterMap (·.accepted)).filter
        (·.proposal = highest.proposal)).map (·.value)).headD highest.value =
          highest.value := by
      rw [List.headD_eq_head?_getD]
      cases first : (((state.promises.values.filterMap (·.accepted)).filter
        (·.proposal = highest.proposal)).map (·.value)).head? with
      | none => rfl
      | some v => exact one v (List.mem_of_head? first)
    rw [head, if_neg]
    · refine ⟨_, rfl, Voting.safe_of_highest (inv.oneVote slot) isQuorum reports
        (fun a _ => ?_) (fun a _ => ?_) (atSlot ▸ safe.safe), reflexive⟩
      · rintro _ ⟨e, reported, rfl⟩
        exact List.le_of_mem_argmax (listed a e reported) top
      · rintro _ ⟨e, reported, rfl⟩ atTop
        exact same e (listed a e reported) atTop
    · rw [List.any_eq_true]
      rintro ⟨v, inside, differs⟩
      exact reflexive.not_ne (one v (List.mem_of_mem_tail inside)) differs

theorem receivePromise_ensures (inv : Inv D M X s) {self : ν} (isNode : self ∈ M.nodeIds)
    {response : Promise σ ν α} (sound : SoundPromise M s.voting response) :
    (receivePromise M self response s).Ensures (Continues D M X s) Permitted := by
  unfold receivePromise
  split
  next => exact inv.continues rfl
  next state found =>
  split
  next => exact inv.continues rfl
  next own =>
  rw [if_neg (not_not.mpr sound.member)]
  dsimp only
  have proposer := (inv.proposer self _ state found).insertPromise rfl (not_not.mp own) sound
  have stored := inv.setProposal proposer
  split
  next => exact stored.continues
  next ready =>
  rw [not_or, not_lt, Bool.not_eq_true, Option.isSome_eq_false_iff, Option.isNone_iff_eq_none]
    at ready
  obtain ⟨value, chosen, safe, reflexive⟩ := valueToPropose_eq inv proposer ready.2
  rw [chosen, check_ok, Outcome.bind_returns]
  obtain ⟨Y, started, proposed⟩ := stored.inv.propose proposer ready.1 safe reflexive
  refine (stored.trans started).followed ?_
  have request : SafeProposal D M Y _ ⟨response.slot, state.proposal, value⟩ :=
    ⟨proposed, proposer.valid, safe.evolves (started.evolves response.slot)⟩
  refine Continues.bind (receiveAcceptRequest_ensures started.inv isNode
    ⟨response.slot, state.proposal, value⟩ request) fun _ t Z _ accepted => ?_
  exact (accepted.inv.sendAll self (M.peers self)
    (.acceptRequest ⟨response.slot, state.proposal, value⟩)
    (request.evolves accepted.more accepted.evolves)).continues

theorem receivePrepare_ensures (inv : Inv D M X s) {self : ν} (isNode : self ∈ M.nodeIds)
    (request : Prepare σ ν) (valid : D.validSlot request.slot = true) :
    (receivePrepare M self request s).Ensures (Continues D M X s) Permitted := by
  unfold receivePrepare
  split
  next => exact inv.continues rfl
  next accepts =>
  have higher := le_of_not_refuses accepts
  have acceptor := inv.acceptor self
  have promised : ∀ slot, ∀ p ∈ (s.durable self).promised.lookup slot,
      ∃ q ∈ ((s.durable self).promised.insert request.slot request.proposal).lookup slot,
        p ≤ q := by
    intro slot p here
    by_cases same : slot = request.slot
    · subst same
      exact ⟨request.proposal, by simp, higher p here⟩
    · exact ⟨p, by simpa [Dict.lookup_insert, same] using here, le_rfl⟩
  have wrote := inv.updateDurable self
    (fun d => { d with promised := d.promised.insert request.slot request.proposal })
    (acceptor.promise valid higher) promised (fun _ => id) (fun _ => .inl) le_rfl
    (inv.learned self)
  set t := s.updateDurable self fun d =>
    { d with promised := d.promised.insert request.slot request.proposal } with ht
  have here : t.durable self = { s.durable self with
      promised := (s.durable self).promised.insert request.slot request.proposal } := by
    simp [ht, Cluster.updateDurable]
  have promise : SoundPromise M t.voting
      ⟨request.slot, request.proposal, self, (t.durable self).accepted.lookup request.slot⟩ := by
    have after := wrote.inv.acceptor self
    refine ⟨isNode, fun e found => (after.current _ e found).1,
      ⟨⟨request.proposal, by simp [Cluster.voting, here], le_rfl⟩, ?_, fun b v vote _ => ?_⟩⟩
    · rintro _ ⟨e, found, rfl⟩
      obtain ⟨atSlot, voted⟩ := after.current _ e found
      change (⟨request.slot, e.proposal, e.value⟩ : AcceptedValue σ ν α) ∈
        (t.durable self).acceptHistory
      exact atSlot ▸ voted
    · obtain ⟨c, found, le⟩ := after.covered _ vote
      exact ⟨_, ⟨c, found, rfl⟩, le⟩
  dsimp only
  split
  next => exact wrote.followed (receivePromise_ensures wrote.inv isNode promise)
  next => exact (wrote.trans (wrote.inv.send self _ (.promise _) promise)).continues

end Distlab.Paxos
