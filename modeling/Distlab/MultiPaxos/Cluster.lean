import Mathlib.Data.List.MinMax
import Distlab.Foundations.Dict
import Distlab.Foundations.Outcome
import Distlab.Paxos.ProposalNumber

/-!
# The state of a Multi-Paxos cluster

A cluster is the durable and volatile state of its nodes, the messages in
flight and the decisions the harness has recorded as chosen.

The network keeps every message sent since the cluster was built. Delivering a
message leaves it there, so a message can be delivered at any later time, in
any order, any number of times or never: every fault plan of the simulator is
one of these schedules. Trace records are not part of the state; no operation
of the protocol reads them.

The program compares values with `==`. Here `==` is the decidable equality of
their type, so every value equals itself, as the strings and the requests do
that the runners and the clients propose.
-/

set_option autoImplicit false

namespace Distlab.MultiPaxos

open Foundations Paxos


/-! ## Messages -/

/-- `LeaderPromise`: a promise for a ballot with the acceptor's accepted records. -/
structure LeaderPromise (ν : Type) (α : Type) where
  ballot : ProposalNumber ν
  acceptorId : ν
  accepted : List (SlotAcceptedValue ν α)
  deriving DecidableEq

/-- `LeaderAccept`: a Phase-2 request. -/
structure LeaderAccept (ν : Type) (α : Type) where
  slot : ℕ
  ballot : ProposalNumber ν
  value : α
  deriving DecidableEq

/-- `LeaderAccepted`: an acceptor's answer to a Phase-2 request. -/
structure LeaderAccepted (ν : Type) (α : Type) where
  slot : ℕ
  ballot : ProposalNumber ν
  acceptorId : ν
  value : α
  deriving DecidableEq

/-- `LeaderDecision`: the decision a leader broadcasts. -/
structure LeaderDecision (ν : Type) (α : Type) where
  slot : ℕ
  ballot : ProposalNumber ν
  value : α
  deriving DecidableEq

/-- The payloads of the protocol. -/
inductive Payload (ν : Type) (α : Type) where
  | leaderPrepare (ballot : ProposalNumber ν)
  | leaderPromise (response : LeaderPromise ν α)
  | leaderAccept (request : LeaderAccept ν α)
  | leaderAccepted (response : LeaderAccepted ν α)
  | leaderDecision (decision : LeaderDecision ν α)
  | decisionRecoveryRequest (startSlot : ℕ)
  | decisionRecoveryResponse (startSlot : ℕ) (decisions : List (SlotLearnedDecision ν α))
  | decisionRecoveryRetry (generation attempt : ℕ)
  deriving DecidableEq

/-- `Message`: a payload on a link. -/
structure Message (ν : Type) (α : Type) where
  src : ν
  dst : ν
  payload : Payload ν α
  deriving DecidableEq

/-- `RECOVERY_WINDOW`. -/
def recoveryWindow : ℕ := 16

/-- `RECOVERY_ATTEMPTS`. -/
def recoveryAttempts : ℕ := 3

/-! ## Errors -/

/-- What a `PaxosSafetyViolation` reports, one constructor for each `raise`. -/
inductive SafetyViolation (ν : Type) where
  /-- "Multi-Paxos evidence has invalid ballot" -/
  | invalidBallot
  /-- "Multi-Paxos evidence has non-member proposer ..." -/
  | nonMemberProposer (proposer : ν)
  /-- "Multi-Paxos decision has invalid slot or record" -/
  | invalidDecision
  /-- "Multi-Paxos slot ... lacks matching durable quorum evidence for ballot ..." -/
  | lacksQuorumEvidence (slot : ℕ) (ballot : ProposalNumber ν)
  /-- "Multi-Paxos durable history has invalid slot ..." -/
  | durableInvalidSlot (slot : ℕ)
  /-- "Multi-Paxos durable accepted proposal exceeds promised ballot" -/
  | acceptedExceedsPromise
  /-- "same Multi-Paxos ballot has conflicting durable accepted values" -/
  | durableConflict
  /-- "Multi-Paxos slot ... has conflicting durable quorums" -/
  | conflictingDurableQuorums (slot : ℕ)
  /-- "Multi-Paxos slot ... chose conflicting values" -/
  | choseConflicting (slot : ℕ)
  /-- "Multi-Paxos slot ... has conflicting quorums" -/
  | conflictingQuorums (slot : ℕ)
  /-- "Multi-Paxos slot ... runtime/durable mismatch" -/
  | runtimeDurableMismatch (slot : ℕ)
  /-- "node ... learned Multi-Paxos slot ... without matching durable quorum evidence" -/
  | learnedWithoutEvidence (node : ν) (slot : ℕ)
  /-- "Multi-Paxos durable promise has non-member proposer ..." -/
  | promiseNonMember (proposer : ν)
  /-- "Multi-Paxos recovery observed conflicting decisions for slot ..." -/
  | recoveryConflict (slot : ℕ)
  /-- "slot ... has conflicting accepted values at ..." -/
  | promisedConflict (slot : ℕ) (ballot : ProposalNumber ν)
  /-- "same Multi-Paxos ballot accepted conflicting values" -/
  | acceptedConflict
  /-- "Multi-Paxos accepted response changed proposed value" -/
  | acceptedChangedValue
  /-- "Multi-Paxos learner ... observed conflicting decisions for slot ..." -/
  | learnerConflict (node : ν) (slot : ℕ)
  /-- "Multi-Paxos durable learned decision for slot ... is invalid" -/
  | durableLearnedInvalid (slot : ℕ)
  deriving DecidableEq

/-- The errors of the protocol's operations. -/
inductive Error (ν : Type) where
  /-- `KeyError`: an operation on a node the cluster does not have. -/
  | unknownNode (node : ν)
  /-- `PaxosError`: "crashed node cannot prepare Multi-Paxos leadership". -/
  | crashedPrepare
  /-- `ValueError`: "leader ballot round must increase monotonically". -/
  | roundNotIncreasing
  /-- `ValueError`: "Multi-Paxos slot must be positive". -/
  | slotNotPositive
  /-- `PaxosError`: "Multi-Paxos proposal requires Phase-1 quorum authority". -/
  | proposalNeedsAuthority
  /-- `PaxosError`: "slot ... already has an active proposal". -/
  | slotActive (slot : ℕ)
  /-- `PaxosError`: "Multi-Paxos retry requires live Phase-1 authority". -/
  | retryNeedsAuthority
  /-- `PaxosError`: "Multi-Paxos retry requires an active proposal". -/
  | retryNeedsProposal
  /-- `ValueError`: "recovery start slot must be a positive integer". -/
  | recoverySlotNotPositive
  /-- `PaxosError`: "crashed node cannot recover Multi-Paxos decisions". -/
  | crashedRecover
  /-- `PaxosSafetyViolation`. -/
  | safety (violation : SafetyViolation ν)
  deriving DecidableEq

/-- The error is a `PaxosSafetyViolation`. -/
def Error.IsSafety {ν : Type} : Error ν → Prop
  | .safety _ => True
  | _ => False

/-! ## State -/

/-- The members of a cluster: non-empty and without repetition, as the
constructor of `MultiPaxosCluster` requires. -/
structure Membership (ν : Type) where
  nodeIds : List ν
  nonempty : nodeIds ≠ []
  nodup : nodeIds.Nodup

/-- The durable state of a node. `learned` is present once the cluster was built
with `learn_decisions`. -/
structure Durable (ν : Type) (α : Type) where
  promised : Option (ProposalNumber ν) := none
  accepted : Dict ℕ (SlotAcceptedValue ν α) := ∅
  acceptHistory : List (SlotAcceptedValue ν α) := []
  lastRound : ℕ := 0
  learned : Option (Dict ℕ (SlotLearnedDecision ν α)) := none

/-- The volatile state of a node. -/
structure Volatile (ν : Type) (α : Type) where
  leaderBallot : Option (ProposalNumber ν) := none
  promises : Dict ν (LeaderPromise ν α) := ∅
  pending : Dict ℕ α := ∅
  acceptedBy : Dict ℕ (Finset ν) := ∅
  recovery : Option ℕ := none
  recoveryGeneration : ℕ := 0
  recoveryAttempt : ℕ := 0

/-- A cluster over the simulator. -/
structure Cluster (ν : Type) (α : Type) where
  learnDecisions : Bool
  durable : ν → Durable ν α
  volatile : ν → Volatile ν α
  alive : ν → Bool
  network : List (Message ν α)
  chosen : Dict ℕ (SlotLearnedDecision ν α)

variable {ν : Type} {α : Type}

/-- An operation on a cluster. -/
abbrev Op (ν : Type) (α : Type) (β : Type*) := Outcome (Error ν) (Cluster ν α) β

/-- The durable state of a node of a fresh cluster. -/
def Durable.fresh (learn : Bool) : Durable ν α :=
  { learned := if learn then some ∅ else none }

/-- A cluster over an empty simulator. -/
def Cluster.fresh (learn : Bool) : Cluster ν α where
  learnDecisions := learn
  durable := fun _ => Durable.fresh learn
  volatile := fun _ => {}
  alive := fun _ => true
  network := []
  chosen := ∅

/-- `quorum_size`. -/
def Membership.quorumSize (M : Membership ν) : ℕ := M.nodeIds.length / 2 + 1

namespace Cluster

/-- `Simulator.send`. -/
def send (s : Cluster ν α) (src dst : ν) (payload : Payload ν α) : Cluster ν α :=
  { s with network := s.network ++ [⟨src, dst, payload⟩] }

/-- One message to each of the destinations, in order. -/
def sendAll (s : Cluster ν α) (src : ν) (dsts : List ν) (payload : Payload ν α) : Cluster ν α :=
  { s with network := s.network ++ dsts.map fun dst => ⟨src, dst, payload⟩ }

section Sending

variable (s : Cluster ν α) (n m : ν) (p : Payload ν α) (dsts : List ν)

@[simp] theorem send_durable : (s.send n m p).durable = s.durable := rfl
@[simp] theorem send_volatile : (s.send n m p).volatile = s.volatile := rfl
@[simp] theorem send_chosen : (s.send n m p).chosen = s.chosen := rfl
@[simp] theorem send_alive : (s.send n m p).alive = s.alive := rfl
@[simp] theorem send_learnDecisions : (s.send n m p).learnDecisions = s.learnDecisions := rfl

@[simp] theorem mem_send_network {msg : Message ν α} :
    msg ∈ (s.send n m p).network ↔ msg ∈ s.network ∨ msg = ⟨n, m, p⟩ := by
  simp only [send, List.mem_append, List.mem_singleton]

@[simp] theorem sendAll_durable : (s.sendAll n dsts p).durable = s.durable := rfl
@[simp] theorem sendAll_volatile : (s.sendAll n dsts p).volatile = s.volatile := rfl
@[simp] theorem sendAll_chosen : (s.sendAll n dsts p).chosen = s.chosen := rfl
@[simp] theorem sendAll_alive : (s.sendAll n dsts p).alive = s.alive := rfl
@[simp] theorem sendAll_learnDecisions :
    (s.sendAll n dsts p).learnDecisions = s.learnDecisions := rfl

@[simp] theorem mem_sendAll_network {msg : Message ν α} :
    msg ∈ (s.sendAll n dsts p).network ↔
      msg ∈ s.network ∨ ∃ dst ∈ dsts, msg = ⟨n, dst, p⟩ := by
  simp only [sendAll, List.mem_append, List.mem_map, eq_comm]

end Sending

end Cluster

section Updates

variable [DecidableEq ν]

/-- The other nodes of the cluster. -/
def Membership.peers (M : Membership ν) (self : ν) : List ν := M.nodeIds.filter (· ≠ self)

namespace Cluster

def updateDurable (s : Cluster ν α) (n : ν) (f : Durable ν α → Durable ν α) : Cluster ν α :=
  { s with durable := Function.update s.durable n (f (s.durable n)) }

def updateVolatile (s : Cluster ν α) (n : ν) (f : Volatile ν α → Volatile ν α) : Cluster ν α :=
  { s with volatile := Function.update s.volatile n (f (s.volatile n)) }

variable (s : Cluster ν α) (n m : ν) (f : Durable ν α → Durable ν α)
  (g : Volatile ν α → Volatile ν α)

@[simp] theorem updateDurable_durable :
    (s.updateDurable n f).durable m = if m = n then f (s.durable n) else s.durable m := by
  simp only [updateDurable, Function.update_apply]

@[simp] theorem updateDurable_volatile : (s.updateDurable n f).volatile = s.volatile := rfl
@[simp] theorem updateDurable_network : (s.updateDurable n f).network = s.network := rfl
@[simp] theorem updateDurable_chosen : (s.updateDurable n f).chosen = s.chosen := rfl
@[simp] theorem updateDurable_alive : (s.updateDurable n f).alive = s.alive := rfl
@[simp] theorem updateDurable_learnDecisions :
    (s.updateDurable n f).learnDecisions = s.learnDecisions := rfl

@[simp] theorem updateVolatile_volatile :
    (s.updateVolatile n g).volatile m = if m = n then g (s.volatile n) else s.volatile m := by
  simp only [updateVolatile, Function.update_apply]

@[simp] theorem updateVolatile_durable : (s.updateVolatile n g).durable = s.durable := rfl
@[simp] theorem updateVolatile_network : (s.updateVolatile n g).network = s.network := rfl
@[simp] theorem updateVolatile_chosen : (s.updateVolatile n g).chosen = s.chosen := rfl
@[simp] theorem updateVolatile_alive : (s.updateVolatile n g).alive = s.alive := rfl
@[simp] theorem updateVolatile_learnDecisions :
    (s.updateVolatile n g).learnDecisions = s.learnDecisions := rfl

end Cluster

end Updates

end Distlab.MultiPaxos
