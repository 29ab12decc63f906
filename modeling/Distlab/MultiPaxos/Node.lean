import Distlab.MultiPaxos.Cluster

/-!
# The operations of a Multi-Paxos cluster

`MultiPaxosCluster` and `MultiPaxosNode`, operation by operation. Checks that
only read the state are `Except` values; operations that write it are `Op`s.
-/

set_option autoImplicit false

namespace Distlab.MultiPaxos

open Foundations Paxos


variable {ν : Type} {α : Type} [LinearOrder ν] [DecidableEq α] (M : Membership ν)

/-- A check of the harness: it reads the state and raises a safety violation. -/
abbrev Check (ν : Type) (β : Type*) := Except (SafetyViolation ν) β

/-- Run a check as an operation. -/
def check {β : Type*} (result : Check ν β) (s : Cluster ν α) : Op ν α β :=
  match result with
  | .ok b => .returns b s
  | .error violation => .raises (.safety violation) s

/-! ## Safety checks -/

/-- `MultiPaxosNode.promised_ballot`. -/
def promisedBallot (self : ν) (s : Cluster ν α) : Check ν (Option (ProposalNumber ν)) :=
  match (s.durable self).promised with
  | none => .ok none
  | some ballot =>
      if ballot.proposerId ∈ M.nodeIds then .ok (some ballot)
      else .error (.promiseNonMember ballot.proposerId)

/-- `_validate_ballot`. -/
def validateBallot (ballot : ProposalNumber ν) : Check ν Unit :=
  if ballot.round = 0 then .error .invalidBallot
  else if ballot.proposerId ∈ M.nodeIds then .ok ()
  else .error (.nonMemberProposer ballot.proposerId)

/-- `_validate_durable_accepted`. -/
def validateDurableAccepted (s : Cluster ν α) (n : ν) (accepted : SlotAcceptedValue ν α) :
    Check ν Unit :=
  if accepted.slot = 0 then .error (.durableInvalidSlot accepted.slot)
  else do
    validateBallot M accepted.proposal
    match ← promisedBallot M n s with
    | none => .error .acceptedExceedsPromise
    | some promised =>
        if promised < accepted.proposal then .error .acceptedExceedsPromise else .ok ()

/-- `_require_decision_evidence`: the decision's exact record is in the durable
histories of a quorum. -/
def requireDecisionEvidence (s : Cluster ν α) (decision : SlotLearnedDecision ν α) :
    Check ν Unit :=
  if decision.slot = 0 then .error .invalidDecision
  else do
    validateBallot M decision.proposal
    let record : SlotAcceptedValue ν α := ⟨decision.slot, decision.proposal, decision.value⟩
    let acceptors := M.nodeIds.filter fun n => record ∈ (s.durable n).acceptHistory
    acceptors.forM fun n => validateDurableAccepted M s n record
    if acceptors.length < M.quorumSize then
      .error (.lacksQuorumEvidence decision.slot decision.proposal)
    else .ok ()

/-- The record is in the durable accept histories of a majority. -/
def DurableMajority (s : Cluster ν α) (e : SlotAcceptedValue ν α) : Prop :=
  M.quorumSize ≤ (M.nodeIds.filter fun n => e ∈ (s.durable n).acceptHistory).length

instance (s : Cluster ν α) (e : SlotAcceptedValue ν α) : Decidable (DurableMajority M s e) :=
  inferInstanceAs (Decidable (_ ≤ _))

/-- `_validate_durable_learned`. -/
def validateDurableLearned (s : Cluster ν α) (n : ν) : Check ν Unit :=
  match (s.durable n).learned with
  | none => .ok ()
  | some learned =>
      learned.entries.forM fun entry =>
        if entry.1 = 0 ∨ entry.2.slot ≠ entry.1 then .error (.durableLearnedInvalid entry.1)
        else validateBallot M entry.2.proposal

/-- The records of a history are valid, and none differs from the last one before it at its
slot and ballot, which the running table has. -/
def checkRecords (s : Cluster ν α) (n : ν) (before : List (SlotAcceptedValue ν α)) :
    List (SlotAcceptedValue ν α) → Check ν Unit
  | [] => .ok ()
  | accepted :: rest => do
      validateDurableAccepted M s n accepted
      if (before.find? fun known => known.slot = accepted.slot ∧
          known.proposal = accepted.proposal).any (·.value ≠ accepted.value) then
        .error .durableConflict
      else checkRecords s n (accepted :: before) rest

/-- `_validate_durable_history`. -/
def validateDurableHistory (s : Cluster ν α) (n : ν) : Check ν Unit := do
  validateDurableLearned M s n
  checkRecords M s n [] (s.durable n).acceptHistory

/-- The accept records of all nodes at one slot: `by_slot`, with their nodes. -/
def slotRecords (s : Cluster ν α) (slot : ℕ) : List (ProposalNumber ν × α × ν) :=
  M.nodeIds.flatMap fun n =>
    ((s.durable n).acceptHistory.filter (·.slot = slot)).map fun accepted =>
      (accepted.proposal, accepted.value, n)

/-- The slots of the accept records of all nodes. -/
def recordedSlots (s : Cluster ν α) : List ℕ :=
  (M.nodeIds.flatMap fun n => (s.durable n).acceptHistory.map (·.slot)).dedup

/-- The records of a slot that a quorum of nodes holds. -/
def quorumEvidence (s : Cluster ν α) (slot : ℕ) : List (ProposalNumber ν × α) :=
  ((slotRecords M s slot).filter fun record =>
      M.quorumSize ≤
        (M.nodeIds.filter fun n => (record.1, record.2.1, n) ∈ slotRecords M s slot).length).map
    fun record => (record.1, record.2.1)

/-- The decision `_recover_chosen` reads off the durable evidence of a slot. -/
def recoverSlot (s : Cluster ν α) (slot : ℕ) : Check ν (Option (SlotLearnedDecision ν α)) :=
  match quorumEvidence M s slot with
  | [] => .ok none
  | (ballot, value) :: rest =>
      if rest.any (·.2 ≠ value) then .error (.conflictingDurableQuorums slot)
      else .ok (some ⟨slot, (rest.map Prod.fst).foldl max ballot, value⟩)

/-- The checks `assert_safety` makes of one slot. It returns the value that the
durable evidence of the slot supports. -/
def assertSlot (s : Cluster ν α) (slot : ℕ) : Check ν (Option α) :=
  match quorumEvidence M s slot with
  | [] => .ok none
  | (_, value) :: rest =>
      if rest.any (·.2 ≠ value) then .error (.conflictingQuorums slot)
      else if (s.chosen.lookup slot).any (·.value ≠ value) then
        .error (.runtimeDurableMismatch slot)
      else .ok (some value)

/-- The checks `assert_safety` makes of one learned decision. -/
def assertLearned (s : Cluster ν α) (n : ν) (decision : SlotLearnedDecision ν α) :
    Check ν Unit := do
  match ← assertSlot M s decision.slot with
  | none => .error (.learnedWithoutEvidence n decision.slot)
  | some value =>
      if value ≠ decision.value then .error (.learnedWithoutEvidence n decision.slot)
      else requireDecisionEvidence M s decision

/-- `assert_safety`. -/
def assertSafety (s : Cluster ν α) : Check ν Unit := do
  M.nodeIds.forM fun n => validateDurableHistory M s n
  (recordedSlots M s).forM fun slot => do
    let _ ← assertSlot M s slot
  M.nodeIds.forM fun n =>
    (((s.durable n).learned.getD ∅).sortedValues).forM fun decision =>
      assertLearned M s n decision

/-- `_recover_chosen`, before its final `assert_safety`: the decisions that the
durable evidence supports. -/
def recoverChosen (s : Cluster ν α) : Check ν (Dict ℕ (SlotLearnedDecision ν α)) := do
  M.nodeIds.forM fun n => validateDurableHistory M s n
  (recordedSlots M s).foldlM (fun chosen slot => do
    match ← recoverSlot M s slot with
    | none => pure chosen
    | some decision => pure (chosen.insert slot decision)) ∅

/-! ## Learning -/

/-- `_record_chosen`. -/
def recordChosen (slot : ℕ) (ballot : ProposalNumber ν) (value : α) (s : Cluster ν α) :
    Op ν α Unit :=
  match s.chosen.lookup slot with
  | none => .returns () { s with chosen := s.chosen.insert slot ⟨slot, ballot, value⟩ }
  | some current =>
      if current.value ≠ value then .raises (.safety (.choseConflicting slot)) s
      else .returns () s

/-- `learned_decision`. -/
def learnedDecision (s : Cluster ν α) (n : ν) (slot : ℕ) : Option (SlotLearnedDecision ν α) :=
  ((s.durable n).learned.getD ∅).lookup slot

/-- `learned_decisions`. -/
def learnedDecisions (s : Cluster ν α) (n : ν) : List (SlotLearnedDecision ν α) :=
  ((s.durable n).learned.getD ∅).sortedValues

/-- `_receive_decision`. -/
def receiveDecision (self : ν) (decision : LeaderDecision ν α) (s : Cluster ν α) : Op ν α Unit :=
  match (s.durable self).learned with
  | none => .returns () s
  | some learned =>
      if decision.slot = 0 then .returns () s
      else
        let record : SlotLearnedDecision ν α := ⟨decision.slot, decision.ballot, decision.value⟩
        match learned.lookup decision.slot with
        | some current =>
            if current.value ≠ decision.value then
              .raises (.safety (.learnerConflict self decision.slot)) s
            else check (requireDecisionEvidence M s record) s
        | none =>
            (check (requireDecisionEvidence M s record) s).bind fun _ s =>
              .returns () (s.updateDurable self fun d =>
                { d with learned := some (learned.insert decision.slot record) })

/-! ## Phase 2 -/

/-- `_receive_accepted`. -/
def receiveAccepted (self : ν) (response : LeaderAccepted ν α) (s : Cluster ν α) : Op ν α Unit :=
  if response.slot = 0 then .returns () s
  else if some response.ballot ≠ (s.volatile self).leaderBallot then .returns () s
  else
    match (s.volatile self).pending.lookup response.slot with
    | none => .returns () s
    | some proposed =>
        if response.acceptorId ∉ M.nodeIds then .returns () s
        else if response.value ≠ proposed then .raises (.safety .acceptedChangedValue) s
        else
          let acceptedBy :=
            insert response.acceptorId
              (((s.volatile self).acceptedBy.lookup response.slot).getD ∅)
          let s := s.updateVolatile self fun w =>
            { w with acceptedBy := w.acceptedBy.insert response.slot acceptedBy }
          if acceptedBy.card < M.quorumSize then .returns () s
          else
            (recordChosen response.slot response.ballot response.value s).bind fun _ s =>
              let s := s.updateVolatile self fun w =>
                { w with
                  pending := w.pending.erase response.slot
                  acceptedBy := w.acceptedBy.erase response.slot }
              if s.learnDecisions then
                let decision : LeaderDecision ν α :=
                  ⟨response.slot, response.ballot, response.value⟩
                (receiveDecision M self decision s).bind fun _ s =>
                  .returns () (s.sendAll self (M.peers self) (.leaderDecision decision))
              else .returns () s

/-- The promise refuses the ballot: it is for a higher one. -/
def refuses (promised : Option (ProposalNumber ν)) (ballot : ProposalNumber ν) : Bool :=
  promised.any (ballot < ·)

/-- The acceptor's current record at the slot has the request's ballot and
another value. -/
def conflicts (current : Option (SlotAcceptedValue ν α)) (request : LeaderAccept ν α) : Bool :=
  current.any fun c => c.proposal = request.ballot ∧ c.value ≠ request.value

/-- The durable writes of an accepted Phase-2 request. -/
def Durable.accept (d : Durable ν α) (request : LeaderAccept ν α) : Durable ν α :=
  let accepted : SlotAcceptedValue ν α := ⟨request.slot, request.ballot, request.value⟩
  { d with
    accepted := d.accepted.insert request.slot accepted
    acceptHistory :=
      if accepted ∈ d.acceptHistory then d.acceptHistory else d.acceptHistory ++ [accepted] }

/-- `_receive_accept`. -/
def receiveAccept (self : ν) (request : LeaderAccept ν α) (s : Cluster ν α) : Op ν α Unit :=
  if request.slot = 0 then .returns () s
  else
    (check (promisedBallot M self s) s).bind fun promised s =>
      if refuses promised request.ballot then .returns () s
      else
        let s := s.updateDurable self fun d => { d with promised := some request.ballot }
        if conflicts ((s.durable self).accepted.lookup request.slot) request then
          .raises (.safety .acceptedConflict) s
        else
          let s := s.updateDurable self fun d => d.accept request
          let response : LeaderAccepted ν α :=
            ⟨request.slot, request.ballot, self, request.value⟩
          if request.ballot.proposerId = self then receiveAccepted M self response s
          else .returns () (s.send self request.ballot.proposerId (.leaderAccepted response))

/-! ## Phase 1 -/

/-- A promise carries evidence that `_receive_promise` rejects. -/
def invalidEvidence (response : LeaderPromise ν α) : Bool :=
  response.accepted.any fun accepted =>
    accepted.slot = 0 ∨ accepted.proposal.proposerId ∉ M.nodeIds ∨
      response.ballot < accepted.proposal

/-- `_receive_promise`. -/
def receivePromise (self : ν) (response : LeaderPromise ν α) (s : Cluster ν α) : Op ν α Unit :=
  if some response.ballot ≠ (s.volatile self).leaderBallot ∨
      response.acceptorId ∉ M.nodeIds then .returns () s
  else if invalidEvidence M response then .returns () s
  else
    .returns () (s.updateVolatile self fun w =>
      { w with promises := w.promises.setDefault response.acceptorId response })

/-- `_receive_prepare`. -/
def receivePrepare (self : ν) (ballot : ProposalNumber ν) (s : Cluster ν α) : Op ν α Unit :=
  (check (promisedBallot M self s) s).bind fun promised s =>
    if refuses promised ballot then .returns () s
    else
      let s := s.updateDurable self fun d => { d with promised := some ballot }
      let promise : LeaderPromise ν α := ⟨ballot, self, (s.durable self).accepted.values⟩
      if ballot.proposerId = self then receivePromise M self promise s
      else .returns () (s.send self ballot.proposerId (.leaderPromise promise))

/-- `has_leader_authority`. -/
def hasLeaderAuthority (s : Cluster ν α) (n : ν) : Bool :=
  (s.volatile n).leaderBallot.isSome ∧ M.quorumSize ≤ (s.volatile n).promises.keySet.card

/-- `prepare_leadership`. -/
def prepareLeadership (self : ν) (roundNumber : Option ℕ) (s : Cluster ν α) :
    Op ν α (ProposalNumber ν) :=
  if ¬ s.alive self then .raises .crashedPrepare s
  else
    (check (promisedBallot M self s) s).bind fun promised s =>
      let last := (s.durable self).lastRound
      let round := roundNumber.getD (max last (promised.elim 0 (·.round)) + 1)
      if round ≤ last then .raises .roundNotIncreasing s
      else
        let ballot : ProposalNumber ν := ⟨round, self⟩
        let s := s.updateDurable self fun d => { d with lastRound := round }
        let s := s.updateVolatile self fun w =>
          { w with leaderBallot := some ballot, promises := ∅, pending := ∅, acceptedBy := ∅ }
        (receivePrepare M self ballot s).bind fun _ s =>
          .returns ballot (s.sendAll self (M.peers self) (.leaderPrepare ballot))

/-! ## Proposals -/

/-- The accepted records at a slot that the promises of a leader carry. -/
def promisedAt (s : Cluster ν α) (n : ν) (slot : ℕ) : List (SlotAcceptedValue ν α) :=
  ((s.volatile n).promises.values.flatMap (·.accepted)).filter (·.slot = slot)

/-- `_adopted_value`. -/
def adoptedValue (s : Cluster ν α) (n : ν) (slot : ℕ) :
    Check ν (Option (SlotAcceptedValue ν α)) :=
  match (promisedAt s n slot).argmax (·.proposal) with
  | none => .ok none
  | some highest =>
      if (promisedAt s n slot).any fun item =>
          item.proposal = highest.proposal ∧ item.value ≠ highest.value then
        .error (.promisedConflict slot highest.proposal)
      else .ok (some highest)

/-- The value a proposal carries: the adopted one, else the caller's. -/
def valueToPropose (adopted : Option (SlotAcceptedValue ν α)) (value : α) : α :=
  adopted.elim value (·.value)

/-- `propose`. -/
def propose (self : ν) (slot : ℕ) (value : α) (s : Cluster ν α) : Op ν α Unit :=
  if slot = 0 then .raises .slotNotPositive s
  else
    match (s.volatile self).leaderBallot with
    | none => .raises .proposalNeedsAuthority s
    | some ballot =>
        if ¬ hasLeaderAuthority M s self then .raises .proposalNeedsAuthority s
        else if slot ∈ (s.volatile self).pending then .raises (.slotActive slot) s
        else
          (check (adoptedValue s self slot) s).bind fun adopted s =>
            let chosenValue := valueToPropose adopted value
            let s := s.updateVolatile self fun w =>
              { w with
                pending := w.pending.insert slot chosenValue
                acceptedBy := w.acceptedBy.insert slot ∅ }
            let request : LeaderAccept ν α := ⟨slot, ballot, chosenValue⟩
            (receiveAccept M self request s).bind fun _ s =>
              .returns () (s.sendAll self (M.peers self) (.leaderAccept request))

/-- `retry_proposal`. -/
def retryProposal (self : ν) (slot : ℕ) (s : Cluster ν α) : Op ν α Unit :=
  match (s.volatile self).leaderBallot with
  | none => .raises .retryNeedsAuthority s
  | some ballot =>
      if ¬ s.alive self ∨ ¬ hasLeaderAuthority M s self then .raises .retryNeedsAuthority s
      else
        (check (promisedBallot M self s) s).bind fun promised s =>
          if some ballot ≠ promised then .raises .retryNeedsAuthority s
          else
            match (s.volatile self).pending.lookup slot with
            | none => .raises .retryNeedsProposal s
            | some value =>
                let request : LeaderAccept ν α := ⟨slot, ballot, value⟩
                (receiveAccept M self request s).bind fun _ s =>
                  .returns () (s.sendAll self (M.peers self) (.leaderAccept request))

/-! ## Decision recovery -/

/-- `_retry_recovery`. -/
def retryRecovery (self : ν) (s : Cluster ν α) : Op ν α Unit :=
  match (s.volatile self).recovery with
  | none => .returns () s
  | some startSlot =>
      if (learnedDecision s self startSlot).isSome ∨
          (s.volatile self).recoveryAttempt = recoveryAttempts then
        .returns () (s.updateVolatile self fun w => { w with recovery := none })
      else
        let s := s.updateVolatile self fun w =>
          { w with recoveryAttempt := w.recoveryAttempt + 1 }
        let s := s.sendAll self ((M.peers self).insertionSort (· ≤ ·))
          (.decisionRecoveryRequest startSlot)
        .returns () (s.send self self (.decisionRecoveryRetry
          (s.volatile self).recoveryGeneration (s.volatile self).recoveryAttempt))

/-- `recover_decisions`. -/
def recoverDecisions (self : ν) (startSlot : ℕ) (s : Cluster ν α) : Op ν α Unit :=
  if startSlot = 0 then .raises .recoverySlotNotPositive s
  else if ¬ s.learnDecisions ∨ M.peers self = [] then .returns () s
  else if ¬ s.alive self then .raises .crashedRecover s
  else if (s.volatile self).recovery = some startSlot then .returns () s
  else
    retryRecovery M self (s.updateVolatile self fun w =>
      { w with
        recoveryGeneration := w.recoveryGeneration + 1
        recoveryAttempt := 0
        recovery := some startSlot })

/-- `_receive_recovery_request`. -/
def receiveRecoveryRequest (self requester : ν) (startSlot : ℕ) (s : Cluster ν α) :
    Op ν α Unit :=
  if startSlot = 0 then .returns () s
  else
    let decisions := (List.range recoveryWindow).filterMap fun offset =>
      learnedDecision s self (startSlot + offset)
    (check (decisions.forM fun decision => requireDecisionEvidence M s decision) s).bind
      fun _ s =>
        .returns () (s.send self requester (.decisionRecoveryResponse startSlot decisions))

/-- The decisions of a response lie in its window, in increasing slot order,
each under a ballot of a member. -/
def wellFormedWindow (startSlot : ℕ) : ℕ → List (SlotLearnedDecision ν α) → Bool
  | _, [] => true
  | previous, decision :: rest =>
      decision.slot ≠ 0 ∧ previous < decision.slot ∧
        decision.slot < startSlot + recoveryWindow ∧ decision.proposal.round ≠ 0 ∧
        decision.proposal.proposerId ∈ M.nodeIds ∧
        wellFormedWindow startSlot decision.slot rest

/-- `_receive_recovery_response`. -/
def receiveRecoveryResponse (self : ν) (startSlot : ℕ)
    (decisions : List (SlotLearnedDecision ν α)) (s : Cluster ν α) : Op ν α Unit :=
  if startSlot = 0 ∨ recoveryWindow < decisions.length then .returns () s
  else if ¬ wellFormedWindow M startSlot (startSlot - 1) decisions then .returns () s
  else
    (check (decisions.forM fun decision =>
        if (learnedDecision s self decision.slot).any (·.value ≠ decision.value) then
          .error (.recoveryConflict decision.slot)
        else requireDecisionEvidence M s decision) s).bind fun _ s =>
      Outcome.forEach decisions
        (fun decision s =>
          receiveDecision M self ⟨decision.slot, decision.proposal, decision.value⟩ s) s

/-! ## Messages -/

/-- `handle_message`. -/
def handleMessage (self : ν) (message : Message ν α) (s : Cluster ν α) : Op ν α Unit :=
  match message.payload with
  | .leaderPrepare ballot =>
      if message.src ≠ ballot.proposerId ∨ ballot.proposerId ∉ M.nodeIds then .returns () s
      else receivePrepare M self ballot s
  | .leaderPromise response =>
      if message.src ≠ response.acceptorId then .returns () s
      else receivePromise M self response s
  | .leaderAccept request =>
      if message.src ≠ request.ballot.proposerId ∨ request.ballot.proposerId ∉ M.nodeIds then
        .returns () s
      else receiveAccept M self request s
  | .leaderAccepted response =>
      if message.src ≠ response.acceptorId then .returns () s
      else receiveAccepted M self response s
  | .leaderDecision decision =>
      if message.src ≠ decision.ballot.proposerId ∨ decision.ballot.proposerId ∉ M.nodeIds then
        .returns () s
      else receiveDecision M self decision s
  | .decisionRecoveryRequest startSlot =>
      if ¬ s.learnDecisions ∨ message.src ∉ M.peers self then .returns () s
      else receiveRecoveryRequest M self message.src startSlot s
  | .decisionRecoveryResponse startSlot decisions =>
      if ¬ s.learnDecisions ∨ message.src ∉ M.peers self then .returns () s
      else receiveRecoveryResponse M self startSlot decisions s
  | .decisionRecoveryRetry generation attempt =>
      if message.src = self ∧ generation = (s.volatile self).recoveryGeneration ∧
          attempt = (s.volatile self).recoveryAttempt then
        retryRecovery M self s
      else .returns () s

/-- `handle_crash`: the volatile state is lost, the recovery generation moves on. -/
def handleCrash (self : ν) (s : Cluster ν α) : Cluster ν α :=
  s.updateVolatile self fun w => { recoveryGeneration := w.recoveryGeneration + 1 }

/-- `Simulator.crash`. -/
def crash (n : ν) (s : Cluster ν α) : Cluster ν α :=
  handleCrash n { s with alive := Function.update s.alive n false }

/-- `Simulator.restart`. -/
def restart (n : ν) (s : Cluster ν α) : Cluster ν α :=
  handleCrash n { s with alive := Function.update s.alive n true }

/-- The constructor of `MultiPaxosCluster` over a new simulator that has the
durable state of the old one. -/
def reconstruct (learn : Bool) (s : Cluster ν α) : Op ν α Unit :=
  let fresh : Cluster ν α :=
    { Cluster.fresh learn with
      durable := fun n =>
        { s.durable n with
          learned := if learn then some ((s.durable n).learned.getD ∅)
            else (s.durable n).learned } }
  match recoverChosen M fresh with
  | .error violation => .raises (.safety violation) s
  | .ok chosen =>
      match assertSafety M { fresh with chosen := chosen } with
      | .error violation => .raises (.safety violation) s
      | .ok _ => .returns () { fresh with chosen := chosen }

/-! ## Events -/

/-- What can happen to a cluster. -/
inductive Event (ν : Type) (α : Type) where
  | prepareLeadership (node : ν) (roundNumber : Option ℕ)
  | propose (node : ν) (slot : ℕ) (value : α)
  | retryProposal (node : ν) (slot : ℕ)
  | recoverDecisions (node : ν) (startSlot : ℕ)
  /-- The simulator delivers the message at this position, now. -/
  | deliver (position : ℕ)
  | crash (node : ν)
  | restart (node : ν)
  | reconstruct (learn : Bool)
  | assertSafety
  deriving DecidableEq

/-- Run an operation on a node of the cluster. -/
def onNode {β : Type*} (n : ν) (op : Cluster ν α → Op ν α β) (s : Cluster ν α) : Op ν α Unit :=
  if n ∈ M.nodeIds then (op s).bind fun _ s => .returns () s else .raises (.unknownNode n) s

/-- One event. -/
def step (event : Event ν α) (s : Cluster ν α) : Op ν α Unit :=
  match event with
  | .prepareLeadership n roundNumber => onNode M n (prepareLeadership M n roundNumber) s
  | .propose n slot value => onNode M n (propose M n slot value) s
  | .retryProposal n slot => onNode M n (retryProposal M n slot) s
  | .recoverDecisions n startSlot => onNode M n (recoverDecisions M n startSlot) s
  | .deliver position =>
      match s.network[position]? with
      | none => .returns () s
      | some message =>
          -- A crashed destination discards the message (`discard-crashed`).
          if s.alive message.dst then
            onNode M message.dst (handleMessage M message.dst message) s
          else .returns () s
  | .crash n => onNode M n (fun s => .returns () (crash n s)) s
  | .restart n => onNode M n (fun s => .returns () (restart n s)) s
  | .reconstruct learn => reconstruct M learn s
  | .assertSafety => check (assertSafety M s) s

end Distlab.MultiPaxos
