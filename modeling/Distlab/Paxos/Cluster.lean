import Distlab.Foundations.Dict
import Distlab.Foundations.Outcome
import Distlab.Paxos.ProposalNumber

/-!
# The state of a Paxos cluster

`PaxosCluster` decides one value; `PaxosLogCluster` composes independent decrees
of the same protocol into a log, one for each slot. The model has a type `σ` of
slots: `Unit` for the single decree, `ℕ` for the log. `Decrees` keeps what else
the two programs do differently.

The network keeps every message sent since the cluster was built, so a message
can be delivered at any later time, in any order, any number of times or never.
Trace records are not part of the state; no operation of the protocol reads them.

The values are arbitrary objects. Equality in a type of values is identity of
objects; what the program compares is `==`, any Boolean function of two values. A
value need not equal itself: a float that is not a number does not.
-/

set_option autoImplicit false

namespace Distlab.Paxos

open Foundations

/-- What the two programs do differently. -/
structure Decrees (σ : Type) where
  /-- `_require_slot`. -/
  validSlot : σ → Bool
  /-- An envelope whose claimed sender is no member is rejected. -/
  rejectsUnknown : Bool
  /-- `_validate_durable_state` compares the accepted value with the promise
  before it reads the history. -/
  promiseCheckedFirst : Bool

/-- The decree of a `PaxosCluster`. -/
def singleDecree : Decrees Unit where
  validSlot _ := true
  rejectsUnknown := false
  promiseCheckedFirst := true

/-- The decrees of a `PaxosLogCluster`. -/
def slotDecrees : Decrees ℕ where
  validSlot slot := slot ≠ 0
  rejectsUnknown := true
  promiseCheckedFirst := false

/-- The members of a cluster: non-empty and without repetition, as the
constructors require. -/
structure Members (ν : Type) where
  nodeIds : List ν
  nonempty : nodeIds ≠ []
  nodup : nodeIds.Nodup

/-- `quorum_size`. -/
def Members.quorumSize {ν : Type} (M : Members ν) : ℕ := M.nodeIds.length / 2 + 1

/-- The other nodes of the cluster. -/
def Members.peers {ν : Type} [DecidableEq ν] (M : Members ν) (self : ν) : List ν :=
  M.nodeIds.filter (· ≠ self)

/-! ## Messages -/

/-- `AcceptedValue`, or `SlotAcceptedValue`. -/
structure AcceptedValue (σ ν α : Type) where
  slot : σ
  proposal : ProposalNumber ν
  value : α
  deriving DecidableEq

/-- `LearnedDecision`, or `SlotLearnedDecision`. -/
structure LearnedDecision (σ ν α : Type) where
  slot : σ
  proposal : ProposalNumber ν
  value : α
  deriving DecidableEq

/-- `Prepare`, or `SlotPrepare`. Its proposer owns the number. -/
structure Prepare (σ ν : Type) where
  slot : σ
  proposal : ProposalNumber ν
  deriving DecidableEq

/-- `Promise`, or `SlotPromise`. -/
structure Promise (σ ν α : Type) where
  slot : σ
  proposal : ProposalNumber ν
  acceptorId : ν
  accepted : Option (AcceptedValue σ ν α)
  deriving DecidableEq

/-- `AcceptRequest`, or `SlotAcceptRequest`. Its proposer owns the number. -/
structure AcceptRequest (σ ν α : Type) where
  slot : σ
  proposal : ProposalNumber ν
  value : α
  deriving DecidableEq

/-- `Accepted`, or `SlotAccepted`. -/
structure Accepted (σ ν α : Type) where
  slot : σ
  proposal : ProposalNumber ν
  acceptorId : ν
  value : α
  deriving DecidableEq

/-- `Learn`, or `SlotLearn`. -/
structure Learn (σ ν α : Type) where
  slot : σ
  proposal : ProposalNumber ν
  proposerId : ν
  value : α
  deriving DecidableEq

/-- The payloads of the protocol. -/
inductive Payload (σ ν α : Type) where
  | prepare (request : Prepare σ ν)
  | promise (response : Promise σ ν α)
  | acceptRequest (request : AcceptRequest σ ν α)
  | accepted (response : Accepted σ ν α)
  | learn (message : Learn σ ν α)
  deriving DecidableEq

/-- `Message`: a payload on a link. -/
structure Message (σ ν α : Type) where
  src : ν
  dst : ν
  payload : Payload σ ν α
  deriving DecidableEq

/-! ## Errors -/

/-- What a `PaxosSafetyViolation` reports, one constructor for each `raise`. -/
inductive SafetyViolation (σ ν : Type) where
  /-- "promise references unknown acceptor" -/
  | unknownAcceptor
  /-- "proposal ... was accepted with conflicting values" -/
  | promisedConflict (slot : σ) (proposal : ProposalNumber ν)
  /-- "proposal ... attempted conflicting accepted values" -/
  | acceptedConflict (slot : σ) (proposal : ProposalNumber ν)
  /-- "accepted response changed the proposal value" -/
  | acceptedChangedValue
  /-- "Paxos decision requires a majority of acceptors" -/
  | lacksMajority
  /-- "Paxos chose conflicting values ... and ..." -/
  | choseConflicting (slot : σ)
  /-- "learner ... observed conflicting Paxos decisions" -/
  | learnerConflict (node : ν) (slot : σ)
  /-- "accepted proposal cannot exceed durable promise" -/
  | acceptedExceedsPromise (slot : σ)
  /-- "durable accept history conflicts at proposal ..." -/
  | durableConflict (slot : σ) (proposal : ProposalNumber ν)
  /-- "current accepted value must appear in durable history" -/
  | acceptedMissing (slot : σ)
  /-- "proposal ... has conflicting accepted values" -/
  | conflictingAccepted (slot : σ) (proposal : ProposalNumber ν)
  /-- "durable quorum evidence chose multiple Paxos values: ..." -/
  | multipleChosen (slot : σ)
  /-- "learners contain conflicting Paxos decisions" -/
  | learnersConflict
  /-- "learned Paxos decision lacks matching durable majority acceptance" -/
  | learnedWithoutEvidence (slot : σ)
  /-- "cluster chosen value lacks matching durable majority acceptance" -/
  | objectiveWithoutEvidence (slot : σ)
  /-- "objective and learned Paxos decisions diverged" -/
  | objectiveDiverged
  /-- "learned Paxos log prefixes diverged between ... and ..." -/
  | prefixesDiverged (left right : ν)
  deriving DecidableEq

/-- The errors of the protocol's operations. -/
inductive Error (σ ν : Type) where
  /-- `KeyError`: an operation on a node the cluster does not have. -/
  | unknownNode (node : ν)
  /-- `ValueError`: "Paxos log slot must be a positive integer". -/
  | slotNotPositive
  /-- `PaxosError`: "crashed proposer ... cannot start Paxos". -/
  | crashedProposer (node : ν)
  /-- `PaxosProposalActive`. -/
  | proposalActive (slot : σ)
  /-- `ValueError`: "proposer round ... must exceed durable local round ...". -/
  | roundNotIncreasing
  /-- `TypeError` of `_validate_durable_state`. -/
  | durableInvalid (node : ν)
  /-- `PaxosSafetyViolation`. -/
  | safety (violation : SafetyViolation σ ν)
  deriving DecidableEq

/-- The error is a `PaxosSafetyViolation`. -/
def Error.IsSafety {σ ν : Type} : Error σ ν → Prop
  | .safety _ => True
  | _ => False

/-! ## State -/

/-- The durable state of a node. -/
structure Durable (σ ν α : Type) where
  promised : Dict σ (ProposalNumber ν) := ∅
  accepted : Dict σ (AcceptedValue σ ν α) := ∅
  acceptHistory : List (AcceptedValue σ ν α) := []
  learned : Dict σ (LearnedDecision σ ν α) := ∅
  lastRound : ℕ := 0

/-- `_ProposalState`, or `_SlotProposalState`. A proposal has an accept value once
its accept phase has started (`accept_phase_started`, `chosen_value`). -/
structure ProposalState (σ ν α : Type) where
  proposal : ProposalNumber ν
  originalValue : α
  promises : Dict ν (Promise σ ν α) := ∅
  acceptedBy : Finset ν := ∅
  acceptValue : Option α := none

/-- A cluster over the simulator. -/
structure Cluster (σ ν α : Type) where
  durable : ν → Durable σ ν α
  proposals : ν → Dict σ (ProposalState σ ν α)
  alive : ν → Bool
  network : List (Message σ ν α)
  chosen : Dict σ (LearnedDecision σ ν α)

variable {σ ν α : Type}

/-! ## Comparing values -/

section Comparing

variable [BEq α]

/-- The value equals itself. -/
def SelfEqual (v : α) : Prop := (v == v) = true

instance (v : α) : Decidable (SelfEqual v) := inferInstanceAs (Decidable (_ = _))

/-- A value that equals itself does not differ from itself. -/
theorem SelfEqual.not_ne {v w : α} (reflexive : SelfEqual w) (same : v = w) :
    ¬ (v != w) = true := by
  subst same
  simp [bne, show (v == v) = true from reflexive]

/-- The comparison of two items of a tuple: by identity first, then by `==`. -/
def itemEqual [DecidableEq α] (v w : α) : Bool := decide (v = w) || v == w

@[simp] theorem itemEqual_self [DecidableEq α] (v : α) : itemEqual v v = true := by
  simp [itemEqual]

theorem isEqv_itemEqual_self [DecidableEq α] (values : List α) :
    values.isEqv values itemEqual = true := by
  induction values with
  | nil => rfl
  | cons v rest ih => simp [List.isEqv, ih]

/-- The comparison of two records of accepted values. -/
def AcceptedValue.recordEqual [DecidableEq σ] [DecidableEq ν] [DecidableEq α]
    (a b : AcceptedValue σ ν α) : Bool :=
  decide (a.slot = b.slot) && decide (a.proposal = b.proposal) && itemEqual a.value b.value

end Comparing

/-- An operation on a cluster. -/
abbrev Op (σ ν α : Type) (β : Type*) := Outcome (Error σ ν) (Cluster σ ν α) β

/-- A cluster over a new simulator. -/
def Cluster.over (durable : ν → Durable σ ν α) : Cluster σ ν α where
  durable := durable
  proposals := fun _ => ∅
  alive := fun _ => true
  network := []
  chosen := ∅

/-- A cluster over an empty simulator. -/
def Cluster.fresh : Cluster σ ν α := .over fun _ => {}

namespace Cluster

/-- `Simulator.send`. -/
def send (s : Cluster σ ν α) (src dst : ν) (payload : Payload σ ν α) : Cluster σ ν α :=
  { s with network := s.network ++ [⟨src, dst, payload⟩] }

/-- One message to each of the destinations, in order. -/
def sendAll (s : Cluster σ ν α) (src : ν) (dsts : List ν) (payload : Payload σ ν α) :
    Cluster σ ν α :=
  { s with network := s.network ++ dsts.map fun dst => ⟨src, dst, payload⟩ }

variable [DecidableEq ν]

def updateDurable (s : Cluster σ ν α) (n : ν) (f : Durable σ ν α → Durable σ ν α) :
    Cluster σ ν α :=
  { s with durable := Function.update s.durable n (f (s.durable n)) }

def updateProposals (s : Cluster σ ν α) (n : ν)
    (f : Dict σ (ProposalState σ ν α) → Dict σ (ProposalState σ ν α)) : Cluster σ ν α :=
  { s with proposals := Function.update s.proposals n (f (s.proposals n)) }

end Cluster

end Distlab.Paxos
