import Distlab.MultiPaxos.Evidence

/-!
# Every operation keeps the invariant

Each operation of a node continues the state it starts from. A safety violation
it raises reports two values proposed at one slot and ballot, so none is raised
while the proposals have one value for each slot and ballot.
-/

set_option autoImplicit false

namespace Distlab.MultiPaxos

open Foundations Paxos

variable {ν : Type} {α : Type}

/-- One value is proposed at each slot and ballot. -/
def OneValue (X : Set (SlotAcceptedValue ν α)) : Prop :=
  ∀ p ∈ X, ∀ q ∈ X, p.slot = q.slot → p.proposal = q.proposal → p.value = q.value

/-- The violation reports two values proposed at one slot and ballot. -/
def SafetyViolation.IsReproposal : SafetyViolation ν → Prop
  | .promisedConflict _ _ | .acceptedConflict | .acceptedChangedValue => True
  | _ => False

/-- The errors that an operation may raise while its proposals lie in `X`. -/
def Permitted (X : Set (SlotAcceptedValue ν α)) : Error ν → Cluster ν α → Prop
  | .safety violation, _ => violation.IsReproposal ∧ ¬ OneValue X
  | _, _ => True

variable [LinearOrder ν] {M : Membership ν} {X : Set (SlotAcceptedValue ν α)}

/-! ## Writes of the leader's table -/

namespace LeaderInv

variable {V : ℕ → Voting ν (ProposalNumber ν) α} {ballot : ProposalNumber ν} {w : Volatile ν α}

/-- A new proposal starts without acceptances. -/
theorem insertPending (inv : LeaderInv M X V ballot w) {slot : ℕ} {v : α}
    (safe : SafeProposal M X V ⟨slot, ballot, v⟩) :
    LeaderInv M X V ballot
      { w with pending := w.pending.insert slot v, acceptedBy := w.acceptedBy.insert slot ∅ } where
  valid := inv.valid
  promises := inv.promises
  pending slot' v' found := by
    rcases Dict.of_lookup_insert found with ⟨rfl, rfl⟩ | ⟨_, old⟩
    · exact safe
    · exact inv.pending slot' v' old
  accepted slot' v' found a member := by
    rw [Dict.lookup_insert] at member
    rcases Dict.of_lookup_insert found with ⟨rfl, rfl⟩ | ⟨other, old⟩
    · rw [if_pos rfl] at member
      exact absurd member (Finset.notMem_empty a)
    · rw [if_neg other] at member
      exact inv.accepted slot' v' old a member

/-- A member that voted for the pending value is counted. -/
theorem insertAccepted (inv : LeaderInv M X V ballot w) {slot : ℕ} {v : α} {a : ν}
    (found : w.pending.lookup slot = some v) (isNode : a ∈ M.nodeIds)
    (vote : (ballot, v) ∈ (V slot).votes a) :
    LeaderInv M X V ballot
      { w with
        acceptedBy := w.acceptedBy.insert slot
          (insert a ((w.acceptedBy.lookup slot).getD ∅)) } where
  valid := inv.valid
  promises := inv.promises
  pending := inv.pending
  accepted slot' v' found' a' member := by
    rw [Dict.lookup_insert] at member
    split at member
    next same =>
      subst same
      obtain rfl : v = v' := Option.some.inj (found.symm.trans found')
      rcases Finset.mem_insert.mp member with rfl | old
      · exact ⟨isNode, vote⟩
      · exact inv.accepted slot' v found a' old
    next other => exact inv.accepted slot' v' found' a' member

/-- A decided slot leaves the table. -/
theorem erasePending (inv : LeaderInv M X V ballot w) (slot : ℕ) :
    LeaderInv M X V ballot
      { w with pending := w.pending.erase slot, acceptedBy := w.acceptedBy.erase slot } where
  valid := inv.valid
  promises := inv.promises
  pending slot' v' found := inv.pending slot' v' (Dict.of_lookup_erase found).2
  accepted slot' v' found a member := by
    obtain ⟨other, old⟩ := Dict.of_lookup_erase found
    rw [Dict.lookup_erase, if_neg other] at member
    exact inv.accepted slot' v' old a member

/-- A promise for the leader's ballot is kept. -/
theorem insertPromise (inv : LeaderInv M X V ballot w) {r : LeaderPromise ν α}
    (same : r.ballot = ballot) (sound : SoundPromise M V r) :
    LeaderInv M X V ballot { w with promises := w.promises.setDefault r.acceptorId r } where
  valid := inv.valid
  promises a r' found := by
    rcases Dict.of_lookup_setDefault found with old | ⟨rfl, rfl⟩
    · exact inv.promises a r' old
    · exact ⟨rfl, same, sound⟩
  pending := inv.pending
  accepted := inv.accepted

/-- A new leadership starts with empty tables. -/
theorem start (valid : ValidBallot M ballot) (recovery : Option ℕ) (generation attempt : ℕ) :
    LeaderInv M X V ballot
      { leaderBallot := some ballot, promises := ∅, pending := ∅, acceptedBy := ∅,
        recovery := recovery, recoveryGeneration := generation, recoveryAttempt := attempt } where
  valid := valid
  promises a r found := by simp at found
  pending slot v found := by simp at found
  accepted slot v found := by simp at found

end LeaderInv

namespace AcceptorInv

variable {d : Durable ν α} (inv : AcceptorInv M d)

include inv

/-- A promise for a ballot at least as high as the current one. -/
theorem promise {ballot : ProposalNumber ν} (valid : ValidBallot M ballot)
    (higher : ∀ p ∈ d.promised, p ≤ ballot) :
    AcceptorInv M { d with promised := some ballot } where
  promised p same := by
    obtain rfl := Option.mem_some.mp same
    exact valid
  bounded e member := by
    obtain ⟨p, promised, le⟩ := inv.bounded e member
    exact ⟨ballot, rfl, le.trans (higher p promised)⟩
  current := inv.current
  covered := inv.covered
  single := inv.single

/-- A vote at the promised ballot, which the current record does not contradict. -/
theorem accept [DecidableEq α] {request : LeaderAccept ν α}
    (promised : d.promised = some request.ballot)
    (agrees : ∀ c, d.accepted.lookup request.slot = some c → c.proposal = request.ballot →
      c.value = request.value) :
    AcceptorInv M (d.accept request) := by
  have members : ∀ e, e ∈ (d.accept request).acceptHistory ↔
      e ∈ d.acceptHistory ∨ e = ⟨request.slot, request.ballot, request.value⟩ := by
    intro e
    by_cases present : (⟨request.slot, request.ballot, request.value⟩ : SlotAcceptedValue ν α) ∈
        d.acceptHistory
    · simp only [Durable.accept, present, if_true]
      exact ⟨.inl, fun h => h.elim id fun same => same ▸ present⟩
    · simp only [Durable.accept, present, if_false, List.mem_append, List.mem_singleton]
  -- A vote of the slot at the request's ballot is the current record of the slot.
  have same : ∀ e ∈ d.acceptHistory, e.slot = request.slot → e.proposal = request.ballot →
      e.value = request.value := by
    intro e member slot proposal
    obtain ⟨c, found, le⟩ := inv.covered e member
    obtain ⟨atSlot, voted⟩ := inv.current _ c found
    obtain ⟨p, bound, below⟩ := inv.bounded c voted
    obtain rfl : request.ballot = p := Option.some.inj (promised.symm.trans bound)
    have top : c.proposal = e.proposal := le_antisymm (proposal ▸ below) le
    rw [inv.single e member c voted atSlot.symm top.symm]
    exact agrees c (slot ▸ found) (top.trans proposal)
  refine ⟨inv.promised, fun e member => ?_, fun slot c found => ?_, fun e member => ?_,
    fun e member e' member' slot proposal => ?_⟩
  · rcases (members e).mp member with old | rfl
    · exact inv.bounded e old
    · exact ⟨request.ballot, promised, le_rfl⟩
  · rcases Dict.of_lookup_insert found with ⟨rfl, rfl⟩ | ⟨_, old⟩
    · exact ⟨rfl, (members _).mpr (.inr rfl)⟩
    · obtain ⟨atSlot, voted⟩ := inv.current slot c old
      exact ⟨atSlot, (members c).mpr (.inl voted)⟩
  · by_cases slot : e.slot = request.slot
    · refine ⟨⟨request.slot, request.ballot, request.value⟩, ?_, ?_⟩
      · exact (Dict.lookup_insert ..).trans (if_pos slot)
      · rcases (members e).mp member with old | rfl
        · obtain ⟨p, bound, le⟩ := inv.bounded e old
          obtain rfl : request.ballot = p := Option.some.inj (promised.symm.trans bound)
          exact le
        · exact le_rfl
    · rcases (members e).mp member with old | rfl
      · obtain ⟨c, found, le⟩ := inv.covered e old
        exact ⟨c, (Dict.lookup_insert ..).trans ((if_neg slot).trans found), le⟩
      · exact absurd rfl slot
  · rcases (members e).mp member with old | rfl <;> rcases (members e').mp member' with old' | rfl
    · exact inv.single e old e' old' slot proposal
    · exact same e old slot proposal
    · exact (same e' old' slot.symm proposal.symm).symm
    · rfl

/-- The promise of an acceptor for its promised ballot reports its votes. -/
theorem soundPromise {s : Cluster ν α} {n : ν} (here : s.durable n = d) (member : n ∈ M.nodeIds)
    {ballot : ProposalNumber ν} (promised : d.promised = some ballot) :
    SoundPromise M s.voting ⟨ballot, n, d.accepted.values⟩ := by
  have votes : ∀ slot (vote : ProposalNumber ν × α), vote ∈ (s.voting slot).votes n ↔
      (⟨slot, vote.1, vote.2⟩ : SlotAcceptedValue ν α) ∈ d.acceptHistory := by
    intro slot vote
    rw [← here]
    exact Iff.rfl
  refine ⟨member, fun slot => ⟨⟨ballot, ?_, le_rfl⟩, fun vote reported => ?_,
    fun b v vote _ => ?_⟩, fun e reported => ?_⟩
  · exact (congrArg Durable.promised here).trans promised
  · obtain ⟨key, found⟩ := Dict.mem_values.mp reported
    exact (votes slot vote).mpr (inv.current key _ found).2
  · obtain ⟨c, found, le⟩ := inv.covered _ ((votes slot (b, v)).mp vote)
    obtain ⟨atSlot, _⟩ := inv.current _ c found
    refine ⟨(c.proposal, c.value), ?_, le⟩
    have record : (⟨slot, c.proposal, c.value⟩ : SlotAcceptedValue ν α) = c := by
      rw [← show c.slot = slot from atSlot]
    show (⟨slot, c.proposal, c.value⟩ : SlotAcceptedValue ν α) ∈ d.accepted.values
    rw [record]
    exact Dict.mem_values.mpr ⟨_, found⟩
  · obtain ⟨key, found⟩ := Dict.mem_values.mp reported
    obtain ⟨p, bound, le⟩ := inv.bounded e (inv.current key e found).2
    exact le.trans (Option.some.inj (promised.symm.trans bound)).ge

end AcceptorInv

/-! ## Operations -/

section Operations

variable [DecidableEq α] {s : Cluster ν α}

theorem recordChosen_ensures (inv : Inv M X s) {slot : ℕ} {ballot : ProposalNumber ν} {value : α}
    (evidence : Evidence M s.voting ⟨slot, ballot, value⟩) :
    (recordChosen slot ballot value s).Ensures (Continues M X s) (Permitted X) := by
  unfold recordChosen
  cases found : s.chosen.lookup slot with
  | none =>
      refine Inv.continues ⟨inv.acceptor, inv.voted, inv.leader, inv.message, ?_, inv.learned⟩ rfl
      intro slot' d found'
      rcases Dict.of_lookup_insert found' with ⟨rfl, rfl⟩ | ⟨_, old⟩
      · exact ⟨rfl, evidence⟩
      · exact inv.chosen slot' d old
  | some current =>
      obtain ⟨atSlot, known⟩ := inv.chosen slot current found
      have agree : current.value = value := inv.agree known evidence atSlot
      dsimp only
      rw [if_neg (not_not.mpr agree)]
      exact inv.continues rfl

omit [DecidableEq α] in
/-- A write of the learned table alone. -/
theorem Inv.learn (inv : Inv M X s) {n : ν} {learned : Dict ℕ (SlotLearnedDecision ν α)}
    (sound : SoundDecisions M s.voting learned) :
    Continues M X s (s.updateDurable n fun d => { d with learned := some learned }) := by
  have acceptor := inv.acceptor n
  refine inv.updateDurable ⟨acceptor.promised, acceptor.bounded, acceptor.current,
    acceptor.covered, acceptor.single⟩ (fun p h => ⟨p, h, le_rfl⟩) (fun _ => id)
    (fun _ => .inl) ?_
  rintro l ⟨⟩
  exact sound

theorem receiveDecision_ensures (inv : Inv M X s) (self : ν) {decision : LeaderDecision ν α}
    (evidence : Evidence M s.voting ⟨decision.slot, decision.ballot, decision.value⟩) :
    (receiveDecision M self decision s).Ensures (Continues M X s) (Permitted X) := by
  unfold receiveDecision
  cases learns : (s.durable self).learned with
  | none => exact inv.continues rfl
  | some learned =>
      dsimp only
      split
      next => exact inv.continues rfl
      next =>
        cases found : learned.lookup decision.slot with
        | some current =>
            obtain ⟨atSlot, known⟩ := inv.learned self learned learns _ current found
            have agree : current.value = decision.value := inv.agree known evidence atSlot
            dsimp only
            rw [if_neg (not_not.mpr agree), inv.requireDecisionEvidence_eq evidence]
            exact inv.continues rfl
        | none =>
            dsimp only
            rw [inv.requireDecisionEvidence_eq evidence]
            refine inv.learn fun slot d found' => ?_
            rcases Dict.of_lookup_insert found' with ⟨rfl, rfl⟩ | ⟨_, old⟩
            · exact ⟨rfl, evidence⟩
            · exact inv.learned self learned learns slot d old

/-- What a leader does once a quorum has accepted its proposal. -/
theorem decide_ensures (inv : Inv M X s) {self : ν} {slot : ℕ} {ballot : ProposalNumber ν}
    {value : α} (evidence : Evidence M s.voting ⟨slot, ballot, value⟩) :
    ((recordChosen slot ballot value s).bind fun _ s =>
      let s := s.updateVolatile self fun w =>
        { w with pending := w.pending.erase slot, acceptedBy := w.acceptedBy.erase slot }
      if s.learnDecisions then
        (receiveDecision M self ⟨slot, ballot, value⟩ s).bind fun _ s =>
          .returns () (s.sendAll self (M.peers self) (.leaderDecision ⟨slot, ballot, value⟩))
      else .returns () s).Ensures (Continues M X s) (Permitted X) := by
  refine Continues.bind (recordChosen_ensures inv evidence) fun _ t _ recorded => ?_
  have erased := recorded.inv.updateVolatile (n := self) (f := fun w =>
    { w with pending := w.pending.erase slot, acceptedBy := w.acceptedBy.erase slot })
    fun ballot leads => (recorded.inv.leader self ballot leads).erasePending slot
  dsimp only
  split
  next =>
    have evidence' := (evidence.evolves recorded.evolves).evolves erased.evolves
    refine erased.followed (Continues.bind (receiveDecision_ensures erased.inv self evidence')
      fun _ u _ learned => ?_)
    exact learned.inv.sendAll _ _ (evidence'.evolves learned.evolves)
  next => exact erased

theorem receiveAccepted_ensures (inv : Inv M X s) (self : ν) {response : LeaderAccepted ν α}
    (vote : (response.ballot, response.value) ∈
      (s.voting response.slot).votes response.acceptorId) :
    (receiveAccepted M self response s).Ensures (Continues M X s) (Permitted X) := by
  unfold receiveAccepted
  split
  next => exact inv.continues rfl
  next =>
    split
    next => exact inv.continues rfl
    next leads =>
      have leads : (s.volatile self).leaderBallot = some response.ballot :=
        (not_not.mp leads).symm
      have leader := inv.leader self response.ballot leads
      cases found : (s.volatile self).pending.lookup response.slot with
      | none => exact inv.continues rfl
      | some proposed =>
          dsimp only
          split
          next => exact inv.continues rfl
          next isNode =>
            split
            next differ =>
              refine ⟨inv.continues rfl, trivial, fun one => differ ?_⟩
              exact one _ (inv.voted _ _ vote).proposed _
                (leader.pending _ _ found).proposed rfl rfl
            next same =>
              obtain rfl : response.value = proposed := not_not.mp same
              have leader' := leader.insertAccepted found (not_not.mp isNode) vote
              have counted : Continues M X s (s.updateVolatile self fun w =>
                  { w with
                    acceptedBy := w.acceptedBy.insert response.slot
                      (insert response.acceptorId
                        (((s.volatile self).acceptedBy.lookup response.slot).getD ∅)) }) := by
                refine inv.updateVolatile fun ballot leads' => ?_
                obtain rfl : response.ballot = ballot := Option.some.inj (leads.symm.trans leads')
                exact leader'
              split
              next => exact counted
              next large =>
                refine counted.followed (decide_ensures counted.inv ?_)
                refine ⟨_, ⟨fun a member => ?_, not_lt.mp large⟩, fun a member => ?_⟩
                · exact List.mem_toFinset.mpr
                    (leader'.accepted _ _ found a (by simpa using member)).1
                · exact (leader'.accepted _ _ found a (by simpa using member)).2

theorem not_refuses {promised : Option (ProposalNumber ν)} {ballot : ProposalNumber ν}
    (passes : ¬ refuses promised ballot = true) : ∀ p ∈ promised, p ≤ ballot := by
  rintro p rfl
  simpa [refuses] using passes

omit [DecidableEq α] in
/-- A promise for a ballot at least as high as the current one. -/
theorem Inv.promise (inv : Inv M X s) {n : ν} {ballot : ProposalNumber ν}
    (valid : ValidBallot M ballot) (higher : ∀ p ∈ (s.durable n).promised, p ≤ ballot) :
    Continues M X s (s.updateDurable n fun d => { d with promised := some ballot }) :=
  inv.updateDurable ((inv.acceptor n).promise valid higher)
    (fun p h => ⟨ballot, rfl, higher p h⟩) (fun _ => id) (fun _ => .inl) (inv.learned n)

/-- A vote for a safe proposal at the promised ballot. -/
theorem Inv.vote (inv : Inv M X s) {n : ν} {request : LeaderAccept ν α}
    (safe : SafeProposal M X s.voting ⟨request.slot, request.ballot, request.value⟩)
    (promised : (s.durable n).promised = some request.ballot)
    (agrees : ∀ c, (s.durable n).accepted.lookup request.slot = some c →
      c.proposal = request.ballot → c.value = request.value) :
    Continues M X s (s.updateDurable n fun d => d.accept request) := by
  refine inv.updateDurable ((inv.acceptor n).accept promised agrees)
    (fun p h => ⟨p, h, le_rfl⟩) (fun e member => ?_) (fun e member => ?_) (inv.learned n)
  · unfold Durable.accept
    dsimp only
    split
    next => exact member
    next => exact List.mem_append_left _ member
  · unfold Durable.accept at member
    dsimp only at member
    split at member
    next => exact .inl member
    next =>
      rcases List.mem_append.mp member with old | new
      · exact .inl old
      · obtain rfl := List.mem_singleton.mp new
        exact .inr ⟨fun p h => (Option.some.inj (promised.symm.trans h)).ge, safe⟩

/-- The request is in the history of the acceptor that wrote it. -/
theorem mem_accept (d : Durable ν α) (request : LeaderAccept ν α) :
    (⟨request.slot, request.ballot, request.value⟩ : SlotAcceptedValue ν α) ∈
      (d.accept request).acceptHistory := by
  unfold Durable.accept
  dsimp only
  split
  next present => exact present
  next => exact List.mem_append_right _ (List.mem_singleton.mpr rfl)

theorem receiveAccept_ensures (inv : Inv M X s) (self : ν) {request : LeaderAccept ν α}
    (safe : SafeProposal M X s.voting ⟨request.slot, request.ballot, request.value⟩) :
    (receiveAccept M self request s).Ensures (Continues M X s) (Permitted X) := by
  unfold receiveAccept
  rw [if_neg safe.slot, inv.promisedBallot_eq self]
  simp only [check, Outcome.bind_returns]
  split
  next => exact inv.continues rfl
  next passes =>
    have promised := inv.promise (n := self) safe.ballot (not_refuses passes)
    refine promised.followed ?_
    generalize reached : (s.updateDurable self fun d =>
      { d with promised := some request.ballot }) = t at promised ⊢
    have bound : (t.durable self).promised = some request.ballot := by
      rw [← reached]
      simp
    split
    next conflict =>
      refine ⟨promised.inv.continues rfl, trivial, fun one => ?_⟩
      obtain ⟨c, found, proposal, differ⟩ : ∃ c,
          (t.durable self).accepted.lookup request.slot = some c ∧
            c.proposal = request.ballot ∧ c.value ≠ request.value := by
        simpa [conflicts, Option.any_eq_true] using conflict
      obtain ⟨atSlot, voted⟩ := (promised.inv.acceptor self).current _ c found
      exact differ (one _ (promised.inv.voted self c voted).proposed _ safe.proposed atSlot
        proposal)
    next agrees =>
      have voted := promised.inv.vote (n := self) (safe.evolves promised.evolves) bound
        fun c found proposal => by
          by_contra differ
          exact agrees (by simp [conflicts, found, proposal, differ])
      have here : (request.ballot, request.value) ∈
          ((t.updateDurable self fun d => d.accept request).voting request.slot).votes self := by
        simpa [Cluster.voting] using mem_accept (t.durable self) request
      refine voted.followed ?_
      split
      next => exact receiveAccepted_ensures voted.inv self here
      next => exact voted.inv.send _ _ here

omit [DecidableEq α] in
theorem receivePromise_ensures (inv : Inv M X s) (self : ν) {response : LeaderPromise ν α}
    (sound : SoundPromise M s.voting response) :
    (receivePromise M self response s).Ensures (Continues M X s) (Permitted X) := by
  unfold receivePromise
  split
  next => exact inv.continues rfl
  next current =>
    split
    next => exact inv.continues rfl
    next =>
      refine inv.updateVolatile fun ballot leads => ?_
      have same : some response.ballot = (s.volatile self).leaderBallot :=
        not_not.mp (not_or.mp current).1
      exact (inv.leader self ballot leads).insertPromise (Option.some.inj (same.trans leads)) sound

omit [DecidableEq α] in
theorem receivePrepare_ensures (inv : Inv M X s) {self : ν} (isNode : self ∈ M.nodeIds)
    {ballot : ProposalNumber ν} (valid : ValidBallot M ballot) :
    (receivePrepare M self ballot s).Ensures (Continues M X s) (Permitted X) := by
  unfold receivePrepare
  rw [inv.promisedBallot_eq self]
  simp only [check, Outcome.bind_returns]
  split
  next => exact inv.continues rfl
  next passes =>
    have promised := inv.promise (n := self) valid (not_refuses passes)
    have bound : ((s.updateDurable self fun d =>
        { d with promised := some ballot }).durable self).promised = some ballot := by simp
    have sound := (promised.inv.acceptor self).soundPromise rfl isNode bound
    refine promised.followed ?_
    split
    next => exact receivePromise_ensures promised.inv self sound
    next => exact promised.inv.send _ _ sound

omit [DecidableEq α] in
theorem prepareLeadership_ensures (inv : Inv M X s) {self : ν} (isNode : self ∈ M.nodeIds)
    (roundNumber : Option ℕ) :
    (prepareLeadership M self roundNumber s).Ensures (Continues M X s) (Permitted X) := by
  unfold prepareLeadership
  split
  next => exact ⟨inv.continues rfl, trivial⟩
  next =>
    rw [inv.promisedBallot_eq self]
    simp only [check, Outcome.bind_returns]
    split
    next => exact ⟨inv.continues rfl, trivial⟩
    next increases =>
      set round := roundNumber.getD
        (max (s.durable self).lastRound ((s.durable self).promised.elim 0 (·.round)) + 1)
      have positive : round ≠ 0 := by omega
      have valid : ValidBallot M ⟨round, self⟩ := ⟨positive, isNode⟩
      have acceptor := inv.acceptor self
      have numbered := inv.updateDurable (n := self)
        (f := fun d => { d with lastRound := round })
        ⟨acceptor.promised, acceptor.bounded, acceptor.current, acceptor.covered, acceptor.single⟩
        (fun p h => ⟨p, h, le_rfl⟩) (fun _ => id) (fun _ => .inl) (inv.learned self)
      have started := numbered.inv.updateVolatile (n := self)
        (f := fun w => { w with
          leaderBallot := some ⟨round, self⟩, promises := ∅, pending := ∅, acceptedBy := ∅ })
        fun ballot leads => by
          obtain rfl := Option.some.inj leads
          exact LeaderInv.start valid _ _ _
      refine (numbered.trans started).followed (Continues.bind
        (receivePrepare_ensures started.inv isNode valid) fun _ t _ prepared => ?_)
      exact prepared.inv.sendAll _ _ valid

/-! ## Proposals -/

omit [DecidableEq α] in
/-- What the promises of a leader carry for a slot was voted for. -/
theorem LeaderInv.of_promisedAt {n : ν} {ballot : ProposalNumber ν}
    (leader : LeaderInv M X s.voting ballot (s.volatile n)) {slot : ℕ}
    {e : SlotAcceptedValue ν α} (member : e ∈ promisedAt s n slot) :
    e.slot = slot ∧ ∃ a, e ∈ (s.durable a).acceptHistory := by
  obtain ⟨listed, atSlot⟩ := List.mem_filter.mp member
  obtain ⟨r, stored, carried⟩ := List.mem_flatMap.mp listed
  obtain ⟨a, found⟩ := Dict.mem_values.mp stored
  obtain ⟨_, _, sound⟩ := leader.promises a r found
  refine ⟨of_decide_eq_true atSlot, r.acceptorId, ?_⟩
  exact (sound.reports e.slot).cast (show (e.proposal, e.value) ∈ reportAt r.accepted e.slot
    from carried)

/-- **Phase 1.** The value a leader proposes after a quorum of promises is safe
at its ballot. -/
theorem LeaderInv.safe_valueToPropose (inv : Inv M X s) {n : ν} {ballot : ProposalNumber ν}
    (leader : LeaderInv M X s.voting ballot (s.volatile n))
    (authority : M.quorumSize ≤ (s.volatile n).promises.keySet.card) {slot : ℕ}
    {adopted : Option (SlotAcceptedValue ν α)} (adopts : adoptedValue s n slot = .ok adopted)
    (value : α) :
    (s.voting slot).Safe (majorities M) ballot (valueToPropose adopted value) := by
  let report : ν → Set (ProposalNumber ν × α) := fun a =>
    ((s.volatile n).promises.lookup a).elim ∅ fun r => reportAt r.accepted slot
  have isQuorum : (s.volatile n).promises.keySet ∈ (majorities M).quorums := by
    refine ⟨fun a member => ?_, authority⟩
    obtain ⟨r, found⟩ := Dict.mem_keySet.mp member
    obtain ⟨acceptor, _, sound⟩ := leader.promises a r found
    exact List.mem_toFinset.mpr (acceptor ▸ sound.member)
  have reports : ∀ a ∈ (s.volatile n).promises.keySet,
      (s.voting slot).Reports a ballot (report a) := by
    intro a member
    obtain ⟨r, found⟩ := Dict.mem_keySet.mp member
    obtain ⟨rfl, rfl, sound⟩ := leader.promises a r found
    simp only [report, found, Option.elim_some]
    exact sound.reports slot
  have listed : ∀ a, ∀ vote ∈ report a,
      (⟨slot, vote.1, vote.2⟩ : SlotAcceptedValue ν α) ∈ promisedAt s n slot := by
    intro a vote reported
    cases found : (s.volatile n).promises.lookup a with
    | none => simp [report, found] at reported
    | some r =>
        refine List.mem_filter.mpr ⟨List.mem_flatMap.mpr ⟨r, Dict.mem_values.mpr ⟨a, found⟩, ?_⟩,
          decide_eq_true rfl⟩
        simpa [report, found, reportAt] using reported
  unfold adoptedValue at adopts
  cases top : (promisedAt s n slot).argmax (·.proposal) with
  | none =>
      have empty := List.argmax_eq_none.mp top
      refine Voting.safe_of_no_reports isQuorum reports (fun a _ => ?_) _
      refine Set.eq_empty_of_forall_notMem fun vote reported => ?_
      exact List.not_mem_nil (empty ▸ listed a vote reported)
  | some highest =>
      rw [top] at adopts
      dsimp only at adopts
      split at adopts
      next => cases adopts
      next agrees =>
        obtain rfl := Except.ok.inj adopts
        obtain ⟨atSlot, a, voted⟩ := leader.of_promisedAt (List.argmax_mem top)
        have safe := (inv.voted a highest voted).safe
        rw [atSlot] at safe
        refine Voting.safe_of_highest (inv.oneVote slot) isQuorum reports
          (fun a _ vote reported => ?_) (fun a _ vote reported level => ?_) safe
        · exact List.le_of_mem_argmax (listed a vote reported) top
        · by_contra differ
          exact agrees (List.any_eq_true.mpr
            ⟨_, listed a vote reported, decide_eq_true ⟨level, differ⟩⟩)

/-- Phase 1 raises only on two values reported for one ballot. -/
theorem LeaderInv.adoptedValue_error (inv : Inv M X s) {n : ν} {ballot : ProposalNumber ν}
    (leader : LeaderInv M X s.voting ballot (s.volatile n)) {slot : ℕ}
    {violation : SafetyViolation ν} (raises : adoptedValue s n slot = .error violation) :
    violation.IsReproposal ∧ ¬ OneValue X := by
  unfold adoptedValue at raises
  cases top : (promisedAt s n slot).argmax (·.proposal) with
  | none =>
      rw [top] at raises
      cases raises
  | some highest =>
      rw [top] at raises
      dsimp only at raises
      split at raises
      next conflict =>
        obtain rfl := Except.error.inj raises
        obtain ⟨e, member, clash⟩ := List.any_eq_true.mp conflict
        obtain ⟨proposal, differ⟩ := of_decide_eq_true clash
        obtain ⟨atSlot, a, voted⟩ := leader.of_promisedAt member
        obtain ⟨atSlot', a', voted'⟩ := leader.of_promisedAt (List.argmax_mem top)
        refine ⟨trivial, fun one => differ ?_⟩
        exact one _ (inv.voted a e voted).proposed _ (inv.voted a' highest voted').proposed
          (atSlot.trans atSlot'.symm) proposal
      next => cases raises

/-- The proposal that `propose` sends out; none when it raises before. -/
def proposalOf (M : Membership ν) (s : Cluster ν α) (n : ν) (slot : ℕ) (value : α) :
    Option (SlotAcceptedValue ν α) :=
  if slot = 0 ∨ ¬ hasLeaderAuthority M s n ∨ slot ∈ (s.volatile n).pending then none
  else
    match (s.volatile n).leaderBallot, adoptedValue s n slot with
    | some ballot, .ok adopted => some ⟨slot, ballot, valueToPropose adopted value⟩
    | _, _ => none

theorem propose_ensures (inv : Inv M X s) (self : ν) {slot : ℕ} {value : α}
    (proposed : ∀ p ∈ proposalOf M s self slot value, p ∈ X) :
    (propose M self slot value s).Ensures (Continues M X s) (Permitted X) := by
  unfold propose
  split
  next => exact ⟨inv.continues rfl, trivial⟩
  next positive =>
    cases leads : (s.volatile self).leaderBallot with
    | none => exact ⟨inv.continues rfl, trivial⟩
    | some ballot =>
        have leader := inv.leader self ballot leads
        dsimp only
        split
        next => exact ⟨inv.continues rfl, trivial⟩
        next authority =>
          split
          next => exact ⟨inv.continues rfl, trivial⟩
          next inactive =>
            have large : M.quorumSize ≤ (s.volatile self).promises.keySet.card := by
              simpa [hasLeaderAuthority, leads] using authority
            cases adopts : adoptedValue s self slot with
            | error violation =>
                exact ⟨inv.continues rfl, leader.adoptedValue_error inv adopts⟩
            | ok adopted =>
                simp only [check, Outcome.bind_returns]
                have safe : SafeProposal M X s.voting
                    ⟨slot, ballot, valueToPropose adopted value⟩ :=
                  ⟨proposed _ (by simp [proposalOf, positive, authority, inactive, leads, adopts]),
                    positive, leader.valid,
                    leader.safe_valueToPropose inv large adopts value⟩
                have pending := inv.updateVolatile (n := self) (f := fun w => { w with
                    pending := w.pending.insert slot (valueToPropose adopted value)
                    acceptedBy := w.acceptedBy.insert slot ∅ })
                  fun ballot' leads' => by
                    obtain rfl : ballot = ballot' := Option.some.inj (leads.symm.trans leads')
                    exact leader.insertPending safe
                refine pending.followed (Continues.bind
                  (receiveAccept_ensures pending.inv self (safe.evolves pending.evolves))
                  fun _ t _ accepted => ?_)
                exact accepted.inv.sendAll _ _
                  ((safe.evolves pending.evolves).evolves accepted.evolves)

theorem retryProposal_ensures (inv : Inv M X s) (self : ν) (slot : ℕ) :
    (retryProposal M self slot s).Ensures (Continues M X s) (Permitted X) := by
  unfold retryProposal
  cases leads : (s.volatile self).leaderBallot with
  | none => exact ⟨inv.continues rfl, trivial⟩
  | some ballot =>
      dsimp only
      split
      next => exact ⟨inv.continues rfl, trivial⟩
      next =>
        rw [inv.promisedBallot_eq self]
        simp only [check, Outcome.bind_returns]
        split
        next => exact ⟨inv.continues rfl, trivial⟩
        next =>
          cases found : (s.volatile self).pending.lookup slot with
          | none => exact ⟨inv.continues rfl, trivial⟩
          | some value =>
              have safe := (inv.leader self ballot leads).pending slot value found
              refine Continues.bind (receiveAccept_ensures inv self safe) fun _ t _ accepted => ?_
              exact accepted.inv.sendAll _ _ (safe.evolves accepted.evolves)

end Operations

end Distlab.MultiPaxos
