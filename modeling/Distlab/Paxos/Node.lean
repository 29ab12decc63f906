import Mathlib.Data.List.MinMax
import Distlab.Paxos.Cluster

/-!
# The operations of a Paxos cluster

`PaxosNode` and `PaxosLogNode`, operation by operation. Checks that only read the
state are `Except` values; operations that write it are `Op`s.
-/

set_option autoImplicit false

namespace Distlab.Paxos

open Foundations

variable {σ ν α : Type} [DecidableEq σ] [LinearOrder ν] [DecidableEq α] [BEq α]
  (D : Decrees σ) (M : Members ν)

/-- A check reads the state and raises an error. -/
abbrev Check (σ ν : Type) (β : Type*) := Except (Error σ ν) β

/-- Run a check as an operation. -/
def check {β : Type*} (result : Check σ ν β) (s : Cluster σ ν α) : Op σ ν α β :=
  match result with
  | .ok b => .returns b s
  | .error violation => .raises violation s

omit [DecidableEq σ] [LinearOrder ν] [DecidableEq α] [BEq α] in
@[simp] theorem check_ok {β : Type*} (b : β) (s : Cluster σ ν α) :
    check (.ok b) s = .returns b s := rfl

/-! ## Durable state -/

/-- The slots of the durable records are slots, and each record stands at its slot. -/
def wellFormedDurable (d : Durable σ ν α) : Bool :=
  (d.promised.entries.all fun entry => D.validSlot entry.1) &&
    (d.accepted.entries.all fun entry =>
      D.validSlot entry.1 && decide (entry.2.slot = entry.1)) &&
    d.learned.entries.all fun entry => D.validSlot entry.1 && decide (entry.2.slot = entry.1)

/-- The accepted value of a slot exceeds its promise. -/
def exceedsPromise (d : Durable σ ν α) (current : AcceptedValue σ ν α) : Bool :=
  (d.promised.lookup current.slot).any (· < current.proposal)

/-- No accepted value exceeds its promise. -/
def checkPromises (d : Durable σ ν α) : Check σ ν Unit :=
  d.accepted.entries.forM fun entry =>
    if exceedsPromise d entry.2 then .error (.safety (.acceptedExceedsPromise entry.1)) else .ok ()

/-- The history has one value for each slot and proposal: no item differs from
the last one before it, which the running table has. -/
def checkHistory (before : List (AcceptedValue σ ν α)) :
    List (AcceptedValue σ ν α) → Check σ ν Unit
  | [] => .ok ()
  | item :: rest =>
      if (before.find? fun known =>
          known.slot = item.slot ∧ known.proposal = item.proposal).any (·.value != item.value) then
        .error (.safety (.durableConflict item.slot item.proposal))
      else checkHistory (item :: before) rest

/-- The history has a record equal to this one. -/
def Durable.hasAccepted (d : Durable σ ν α) (accepted : AcceptedValue σ ν α) : Bool :=
  d.acceptHistory.any (·.recordEqual accepted)

/-- The accepted values are in the history and do not exceed their promises. -/
def checkAccepted (d : Durable σ ν α) : Check σ ν Unit :=
  d.accepted.entries.forM fun entry =>
    if ¬ d.hasAccepted entry.2 then .error (.safety (.acceptedMissing entry.1))
    else if exceedsPromise d entry.2 then .error (.safety (.acceptedExceedsPromise entry.1))
    else .ok ()

/-- `_validate_durable_state`. -/
def validateDurableState (n : ν) (s : Cluster σ ν α) : Check σ ν Unit :=
  let d := s.durable n
  if ¬ wellFormedDurable D d then .error (.durableInvalid n)
  else do
    if D.promiseCheckedFirst then checkPromises d
    checkHistory [] d.acceptHistory
    checkAccepted d

/-! ## Learning -/

/-- `_record_chosen`. -/
def recordChosen (slot : σ) (proposal : ProposalNumber ν) (value : α) (acceptors : Finset ν)
    (s : Cluster σ ν α) : Op σ ν α Unit :=
  if acceptors.card < M.quorumSize then .raises (.safety .lacksMajority) s
  else
    match s.chosen.lookup slot with
    | some current =>
        if current.value != value then .raises (.safety (.choseConflicting slot)) s
        else .returns () s
    | none => .returns () { s with chosen := s.chosen.insert slot ⟨slot, proposal, value⟩ }

/-- `_receive_learn`. -/
def receiveLearn (self : ν) (message : Learn σ ν α) (s : Cluster σ ν α) : Op σ ν α Unit :=
  match (s.durable self).learned.lookup message.slot with
  | some current =>
      if current.value != message.value then
        .raises (.safety (.learnerConflict self message.slot)) s
      else .returns () s
  | none =>
      .returns () (s.updateDurable self fun d =>
        { d with
          learned := d.learned.insert message.slot
            ⟨message.slot, message.proposal, message.value⟩ })

/-! ## Phase 2 -/

/-- `_receive_accepted`. -/
def receiveAccepted (self : ν) (response : Accepted σ ν α) (s : Cluster σ ν α) :
    Op σ ν α Unit :=
  match (s.proposals self).lookup response.slot with
  | none => .returns () s
  | some state =>
      if response.proposal ≠ state.proposal then .returns () s
      else
        match state.acceptValue with
        | none => .returns () s
        | some value =>
            if response.value != value then .raises (.safety .acceptedChangedValue) s
            else
              let acceptedBy := insert response.acceptorId state.acceptedBy
              let s := s.updateProposals self fun proposals =>
                proposals.insert response.slot { state with acceptedBy := acceptedBy }
              if acceptedBy.card < M.quorumSize then .returns () s
              else
                let learn : Learn σ ν α := ⟨response.slot, state.proposal, self, value⟩
                (recordChosen M response.slot state.proposal value acceptedBy s).bind fun _ s =>
                  (receiveLearn self learn s).bind fun _ s =>
                    let s := s.sendAll self (M.peers self) (.learn learn)
                    .returns () (s.updateProposals self fun proposals =>
                      proposals.erase response.slot)

/-- The promise refuses the proposal: it is for a higher one. -/
def refuses (promised : Option (ProposalNumber ν)) (proposal : ProposalNumber ν) : Bool :=
  promised.any (proposal < ·)

/-- The accepted value of the slot has the request's proposal and another value. -/
def conflicts (current : Option (AcceptedValue σ ν α)) (request : AcceptRequest σ ν α) : Bool :=
  current.any fun c => decide (c.proposal = request.proposal) && c.value != request.value

/-- The durable writes of an accepted request. -/
def Durable.accept (d : Durable σ ν α) (request : AcceptRequest σ ν α) : Durable σ ν α :=
  let accepted : AcceptedValue σ ν α := ⟨request.slot, request.proposal, request.value⟩
  { d with
    promised := d.promised.insert request.slot request.proposal
    accepted := d.accepted.insert request.slot accepted
    acceptHistory :=
      if d.hasAccepted accepted then d.acceptHistory else d.acceptHistory ++ [accepted] }

/-- `_receive_accept_request`. -/
def receiveAcceptRequest (self : ν) (request : AcceptRequest σ ν α) (s : Cluster σ ν α) :
    Op σ ν α Unit :=
  if refuses ((s.durable self).promised.lookup request.slot) request.proposal then .returns () s
  else if conflicts ((s.durable self).accepted.lookup request.slot) request then
    .raises (.safety (.acceptedConflict request.slot request.proposal)) s
  else
    let s := s.updateDurable self fun d => d.accept request
    let response : Accepted σ ν α := ⟨request.slot, request.proposal, self, request.value⟩
    if request.proposal.proposerId = self then receiveAccepted M self response s
    else .returns () (s.send self request.proposal.proposerId (.accepted response))

/-! ## Phase 1 -/

/-- The value of the accept phase: the one of the highest accepted proposal that
the promises report, else the proposer's own. -/
def valueToPropose (slot : σ) (state : ProposalState σ ν α) : Check σ ν α :=
  let accepted := state.promises.values.filterMap (·.accepted)
  match accepted.argmax (·.proposal) with
  | none => .ok state.originalValue
  | some highest =>
      let highestValues :=
        (accepted.filter (·.proposal = highest.proposal)).map (·.value)
      let first := highestValues.headD highest.value
      if highestValues.tail.any (· != first) then
        .error (.safety (.promisedConflict slot highest.proposal))
      else .ok first

/-- `_receive_promise`. -/
def receivePromise (self : ν) (response : Promise σ ν α) (s : Cluster σ ν α) : Op σ ν α Unit :=
  match (s.proposals self).lookup response.slot with
  | none => .returns () s
  | some state =>
      if response.proposal ≠ state.proposal then .returns () s
      else if response.acceptorId ∉ M.nodeIds then .raises (.safety .unknownAcceptor) s
      else
        let state :=
          { state with promises := state.promises.setDefault response.acceptorId response }
        let s := s.updateProposals self fun proposals => proposals.insert response.slot state
        if state.acceptValue.isSome ∨ state.promises.keySet.card < M.quorumSize then
          .returns () s
        else
          (check (valueToPropose response.slot state) s).bind fun value s =>
            let s := s.updateProposals self fun proposals =>
              proposals.insert response.slot { state with acceptValue := some value }
            let request : AcceptRequest σ ν α := ⟨response.slot, state.proposal, value⟩
            (receiveAcceptRequest M self request s).bind fun _ s =>
              .returns () (s.sendAll self (M.peers self) (.acceptRequest request))

/-- `_receive_prepare`. -/
def receivePrepare (self : ν) (request : Prepare σ ν) (s : Cluster σ ν α) : Op σ ν α Unit :=
  if refuses ((s.durable self).promised.lookup request.slot) request.proposal then .returns () s
  else
    let s := s.updateDurable self fun d =>
      { d with promised := d.promised.insert request.slot request.proposal }
    let promise : Promise σ ν α :=
      ⟨request.slot, request.proposal, self, (s.durable self).accepted.lookup request.slot⟩
    if request.proposal.proposerId = self then receivePromise M self promise s
    else .returns () (s.send self request.proposal.proposerId (.promise promise))

/-! ## Proposals -/

/-- The rounds that the durable state of a node knows. -/
def knownRounds (d : Durable σ ν α) : List ℕ :=
  d.promised.values.map (·.round) ++ d.accepted.values.map (·.proposal.round) ++
    d.learned.values.map (·.proposal.round)

/-- `start_proposal`. -/
def startProposal (self : ν) (slot : σ) (value : α) (roundNumber : Option ℕ)
    (s : Cluster σ ν α) : Op σ ν α (ProposalNumber ν) :=
  if ¬ D.validSlot slot then .raises .slotNotPositive s
  else if ¬ s.alive self then .raises (.crashedProposer self) s
  else if slot ∈ s.proposals self then .raises (.proposalActive slot) s
  else
    let last := (s.durable self).lastRound
    let round := roundNumber.getD ((knownRounds (s.durable self)).foldl max last + 1)
    if round ≤ last then .raises .roundNotIncreasing s
    else
      let proposal : ProposalNumber ν := ⟨round, self⟩
      let s := s.updateDurable self fun d => { d with lastRound := round }
      let s := s.updateProposals self fun proposals =>
        proposals.insert slot { proposal := proposal, originalValue := value }
      (receivePrepare M self ⟨slot, proposal⟩ s).bind fun _ s =>
        .returns proposal (s.sendAll self (M.peers self) (.prepare ⟨slot, proposal⟩))

/-! ## Messages and lifecycle -/

/-- The node that a payload claims as its sender. -/
def claimedSender : Payload σ ν α → ν
  | .prepare request => request.proposal.proposerId
  | .promise response => response.acceptorId
  | .acceptRequest request => request.proposal.proposerId
  | .accepted response => response.acceptorId
  | .learn message => message.proposerId

/-- The receiver of the message rejects its envelope. -/
def rejectsEnvelope (message : Message σ ν α) : Bool :=
  (D.rejectsUnknown && decide (claimedSender message.payload ∉ M.nodeIds)) ||
    decide (message.src ≠ claimedSender message.payload)

/-- `handle_message`. -/
def handleMessage (self : ν) (message : Message σ ν α) (s : Cluster σ ν α) : Op σ ν α Unit :=
  if rejectsEnvelope D M message then .returns () s
  else
    match message.payload with
    | .prepare request => receivePrepare M self request s
    | .promise response => receivePromise M self response s
    | .acceptRequest request => receiveAcceptRequest M self request s
    | .accepted response => receiveAccepted M self response s
    | .learn message => receiveLearn self message s

/-- `Simulator.crash` with `handle_crash`. -/
def crash (n : ν) (s : Cluster σ ν α) : Op σ ν α Unit :=
  let s := { s with alive := Function.update s.alive n false }
  .returns () (s.updateProposals n fun _ => ∅)

/-- `Simulator.restart` with `handle_restart`. -/
def restart (n : ν) (s : Cluster σ ν α) : Op σ ν α Unit :=
  let s := { s with alive := Function.update s.alive n true }
  let s := s.updateProposals n fun _ => ∅
  check (validateDurableState D n s) s

/-! ## Events -/

/-- What can happen to a cluster. -/
inductive Event (σ ν α : Type) where
  | startProposal (node : ν) (slot : σ) (value : α) (roundNumber : Option ℕ)
  /-- The simulator delivers the message at this position, now. -/
  | deliver (position : ℕ)
  | crash (node : ν)
  | restart (node : ν)
  deriving DecidableEq

omit [DecidableEq σ] [LinearOrder ν] [DecidableEq α] in
/-- A value that the event proposes equals itself. -/
def Event.ProposesSelfEqual : Event σ ν α → Prop
  | .startProposal _ _ value _ => SelfEqual value
  | _ => True

instance (event : Event σ ν α) : Decidable event.ProposesSelfEqual :=
  match event with
  | .startProposal _ _ value _ => inferInstanceAs (Decidable (SelfEqual value))
  | .deliver _ | .crash _ | .restart _ => instDecidableTrue

/-- Run an operation on a node of the cluster. -/
def onNode {β : Type*} (n : ν) (op : Cluster σ ν α → Op σ ν α β) (s : Cluster σ ν α) :
    Op σ ν α Unit :=
  if n ∈ M.nodeIds then (op s).bind fun _ s => .returns () s else .raises (.unknownNode n) s

/-- One event. -/
def step (event : Event σ ν α) (s : Cluster σ ν α) : Op σ ν α Unit :=
  match event with
  | .startProposal n slot value roundNumber =>
      onNode M n (startProposal D M n slot value roundNumber) s
  | .deliver position =>
      match s.network[position]? with
      | none => .returns () s
      | some message =>
          -- A crashed destination discards the message (`discard-crashed`).
          if s.alive message.dst then
            onNode M message.dst (handleMessage D M message.dst message) s
          else .returns () s
  | .crash n => onNode M n (crash n) s
  | .restart n => onNode M n (restart D n) s

end Distlab.Paxos
