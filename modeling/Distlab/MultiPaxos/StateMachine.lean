import Distlab.MultiPaxos.Node
import Distlab.MultiPaxos.Requests

/-!
# The state machine over a Multi-Paxos cluster

`MultiPaxosStateMachine` applies the learned decisions of each node in slot
order. The applied prefix is durable; the key/value state and the request table
are volatile and reloaded by replay. The client's journal is kept beside them.
-/

set_option autoImplicit false

namespace Distlab.MultiPaxos

open Foundations Paxos Clients

/-! ## Errors -/

/-- What a `PaxosSafetyViolation` of the state machine reports. -/
inductive ApplicationViolation (ν : Type) where
  /-- "durable Multi-Paxos applied slot is invalid" -/
  | appliedSlotInvalid
  /-- "durable Multi-Paxos applied history for ... applies slot ... twice" -/
  | appliesTwice (node : ν) (slot : ℕ)
  /-- "durable Multi-Paxos applied history for ... skips slot ..." -/
  | skips (node : ν) (slot : ℕ)
  /-- "node ... applied Multi-Paxos slot ... without a matching durable learned decision" -/
  | withoutLearned (node : ν) (slot : ℕ)
  /-- "node ... applied Multi-Paxos slot ... without matching chosen quorum evidence" -/
  | withoutChosen (node : ν) (slot : ℕ)
  /-- "Multi-Paxos applied slot ... diverged: ..." -/
  | appliedDiverged (slot : ℕ) (node other : ν)
  /-- "Multi-Paxos state machine for ... diverged from its durable applied prefix" -/
  | machineDiverged (node : ν)
  deriving DecidableEq

/-- What the calls of the state machine and of its client raise. -/
inductive ApplicationError (ν : Type) where
  | protocol (error : Error ν)
  | violation (violation : ApplicationViolation ν)
  | conflict (conflict : RequestConflict)
  | history (error : HistoryError)
  /-- `ValueError`: "Multi-Paxos application requires learn_decisions=True". -/
  | learningDisabled
  /-- `ValueError`: "unknown Multi-Paxos node ...". -/
  | unknownNode (node : ν)
  /-- `PaxosError`: "crashed node ... cannot run its state machine". -/
  | crashed (node : ν)
  /-- `ValueError`: "slot must be a positive integer". -/
  | slotNotPositive
  /-- `ValueError`: "poll requires the original registered request". -/
  | notRegistered
  /-- `AssertionError`: "client completion lacks matching applied request". -/
  | completionUnmatched
  /-- `AssertionError`: "reconstructed client result changed". -/
  | resultChanged
  deriving DecidableEq

/-! ## State -/

/-- The volatile machine of a node. -/
structure Machine where
  appliedThrough : ℕ
  image : KVImage

/-- `ClientJournal`. -/
structure ClientJournal where
  history : OperationHistory := {}
  requests : Dict String MultiPaxosRequest := ∅

/-- A cluster with its state machines and the journal of its clients. -/
structure Application (ν : Type) where
  cluster : Cluster ν Value
  applied : ν → List (SlotLearnedDecision ν Value)
  machine : ν → Option Machine
  journal : ClientJournal

/-- An operation on an application. -/
abbrev AppOp (ν : Type) (β : Type*) := Outcome (ApplicationError ν) (Application ν) β

variable {ν : Type} [LinearOrder ν] (M : Membership ν)

namespace Application

/-- An operation of the protocol. -/
def protocol {β : Type*} (op : Cluster ν Value → Op ν Value β) (a : Application ν) : AppOp ν β :=
  match op a.cluster with
  | .returns b cluster => .returns b { a with cluster := cluster }
  | .raises e cluster => .raises (.protocol e) { a with cluster := cluster }

/-- A check that reads the application. -/
def require {β : Type*} (result : Except (ApplicationError ν) β) (a : Application ν) :
    AppOp ν β :=
  match result with
  | .ok b => .returns b a
  | .error e => .raises e a

/-- A check of the protocol. -/
def protocolCheck {β : Type} (result : Check ν β) : Except (ApplicationError ν) β :=
  result.mapError fun violation => .protocol (.safety violation)

/-! ## Checks -/

/-- `_durable_applied` on the decisions from an expected slot on. -/
def checkSlots (n : ν) : ℕ → List (SlotLearnedDecision ν Value) → Except (ApplicationError ν) Unit
  | _, [] => .ok ()
  | expected, item :: rest =>
      if item.slot = 0 then .error (.violation .appliedSlotInvalid)
      else if item.slot < expected then .error (.violation (.appliesTwice n item.slot))
      else if expected < item.slot then .error (.violation (.skips n expected))
      else checkSlots n (expected + 1) rest

/-- `_durable_applied`. -/
def durableApplied (n : ν) (a : Application ν) :
    Except (ApplicationError ν) (List (SlotLearnedDecision ν Value)) := do
  checkSlots n 1 (a.applied n)
  return a.applied n

/-- `_require_chosen`. -/
def requireChosen (n : ν) (decision : SlotLearnedDecision ν Value) (s : Cluster ν Value) :
    Except (ApplicationError ν) Unit :=
  if learnedDecision s n decision.slot ≠ some decision then
    .error (.violation (.withoutLearned n decision.slot))
  else if (s.chosen.lookup decision.slot).map (·.value) ≠ some decision.value then
    .error (.violation (.withoutChosen n decision.slot))
  else protocolCheck (requireDecisionEvidence M s decision)

/-- `_require_node` and `_require_alive`. -/
def requireAlive (n : ν) (a : Application ν) : Except (ApplicationError ν) Unit :=
  if n ∉ M.nodeIds then .error (.unknownNode n)
  else if ¬ a.cluster.alive n then .error (.crashed n)
  else .ok ()

/-- `_replay`, as a check. -/
def replayed (applied : List (SlotLearnedDecision ν Value)) :
    Except (ApplicationError ν) KVImage :=
  (replay applied).mapError .conflict

/-! ## The machine of a node -/

/-- Load the machine of a node. -/
def setMachine (n : ν) (machine : Machine) (a : Application ν) : Application ν :=
  { a with machine := Function.update a.machine n (some machine) }

@[simp] theorem setMachine_machine (n m : ν) (machine : Machine) (a : Application ν) :
    (a.setMachine n machine).machine m = if m = n then some machine else a.machine m := by
  simp only [setMachine, Function.update_apply]

/-- `_machine`. -/
def loadMachine (n : ν) (a : Application ν) : AppOp ν Machine :=
  (require (durableApplied n a) a).bind fun applied a =>
    (require (applied.forM fun decision => requireChosen M n decision a.cluster) a).bind
      fun _ a =>
        match a.machine n with
        | none =>
            (require (replayed applied) a).bind fun image a =>
              .returns ⟨applied.length, image⟩ (a.setMachine n ⟨applied.length, image⟩)
        | some machine =>
            if machine.appliedThrough ≠ applied.length then
              .raises (.violation (.machineDiverged n)) a
            else .returns machine a

/-- `applied`. -/
def appliedOf (n : ν) (a : Application ν) :
    Except (ApplicationError ν) (List (SlotLearnedDecision ν Value)) :=
  if n ∉ M.nodeIds then .error (.unknownNode n) else durableApplied n a

/-- `blocked_on`. -/
def blockedOn (n : ν) (a : Application ν) : Except (ApplicationError ν) (Option ℕ) := do
  let applied ← appliedOf M n a
  let nextSlot := applied.length + 1
  if (learnedDecision a.cluster n nextSlot).isSome then return none
  else if (learnedDecisions a.cluster n).any (nextSlot < ·.slot) then return some nextSlot
  else return none

/-- `state`. -/
def stateOf (n : ν) (a : Application ν) : AppOp ν (Dict String String) :=
  (require (requireAlive M n a) a).bind fun _ a =>
    (loadMachine M n a).bind fun machine a => .returns machine.image.kv a

/-- `client_requests`. -/
def clientRequests (n : ν) (a : Application ν) : AppOp ν (Dict RequestIdentity AppliedRequest) :=
  (require (requireAlive M n a) a).bind fun _ a =>
    (loadMachine M n a).bind fun machine a => .returns machine.image.requests a

/-! ## Applying -/

/-- The writes of one applied decision: the machine's tables, the durable prefix
and the machine's counter. -/
def writeApplied (n : ν) (decision : SlotLearnedDecision ν Value) (image : KVImage)
    (a : Application ν) : Application ν :=
  { a with
    applied := Function.update a.applied n (a.applied n ++ [decision])
    machine := Function.update a.machine n (some ⟨decision.slot, image⟩) }

section Writing

variable (n m : ν) (decision : SlotLearnedDecision ν Value) (image : KVImage) (a : Application ν)

@[simp] theorem writeApplied_applied :
    (a.writeApplied n decision image).applied m =
      if m = n then a.applied n ++ [decision] else a.applied m := by
  simp only [writeApplied, Function.update_apply]

@[simp] theorem writeApplied_machine :
    (a.writeApplied n decision image).machine m =
      if m = n then some ⟨decision.slot, image⟩ else a.machine m := by
  simp only [writeApplied, Function.update_apply]

end Writing

/-- The loop of `apply_ready`, for at most so many slots. -/
def applyLoop (n : ν) : ℕ → Machine → Application ν →
    AppOp ν (List (SlotLearnedDecision ν Value))
  | 0, _, a => .returns [] a
  | fuel + 1, machine, a =>
      match learnedDecision a.cluster n ((a.applied n).length + 1) with
      | none => .returns [] a
      | some decision =>
          (require (requireChosen M n decision a.cluster) a).bind fun _ a =>
            (require ((applyDecision machine.image decision).mapError .conflict) a).bind
              fun image a =>
                (applyLoop n fuel ⟨decision.slot, image⟩ (a.writeApplied n decision image)).bind
                  fun rest a => .returns (decision :: rest) a

/-- The slots that a node has learned. -/
def learnedSlots (n : ν) (a : Application ν) : List ℕ :=
  ((a.cluster.durable n).learned.getD ∅).keys

/-- `apply_ready`. The loop applies at most the slots the node has learned. -/
def applyReady (n : ν) (a : Application ν) : AppOp ν (List (SlotLearnedDecision ν Value)) :=
  (require (requireAlive M n a) a).bind fun _ a =>
    (loadMachine M n a).bind fun machine a =>
      (applyLoop M n ((a.learnedSlots n).length + 1) machine a).bind fun appliedNow a =>
        -- The gap is only traced.
        (require (blockedOn M n a) a).bind fun _ a =>
          (protocol (recoverDecisions M n ((a.applied n).length + 1)) a).bind fun _ a =>
            .returns appliedNow a

/-! ## Safety -/

/-- The value that some node applied at each slot, with that node. -/
abbrev Reference (ν : Type) := Dict ℕ (ν × Value)

/-- The check of one applied decision against the other nodes. -/
def assertApplied (n : ν) (a : Application ν) (reference : Reference ν)
    (decision : SlotLearnedDecision ν Value) : Except (ApplicationError ν) (Reference ν) := do
  requireChosen M n decision a.cluster
  match reference.lookup decision.slot with
  | some canonical =>
      if canonical.2 ≠ decision.value then
        .error (.violation (.appliedDiverged decision.slot canonical.1 n))
      else return reference
  | none => return reference.insert decision.slot (n, decision.value)

/-- The dictionaries have the same items. -/
def sameItems {κ β : Type} [DecidableEq κ] [DecidableEq β] (d e : Dict κ β) : Bool :=
  d.entries.all (fun entry => e.lookup entry.1 = some entry.2) &&
    e.entries.all fun entry => d.lookup entry.1 = some entry.2

/-- The checks of one node. -/
def assertNode (a : Application ν) (reference : Reference ν) (n : ν) :
    Except (ApplicationError ν) (Reference ν) := do
  let applied ← durableApplied n a
  let reference ← applied.foldlM (assertApplied M n a) reference
  let expected ← replayed applied
  match a.machine n with
  | none => return reference
  | some machine =>
      if machine.appliedThrough ≠ applied.length ∨ ¬ sameItems machine.image.kv expected.kv ∨
          ¬ sameItems machine.image.requests expected.requests then
        .error (.violation (.machineDiverged n))
      else return reference

/-- `assert_safety`. -/
def assertSafety (a : Application ν) : Except (ApplicationError ν) Unit := do
  protocolCheck (MultiPaxos.assertSafety M a.cluster)
  let _ ← M.nodeIds.foldlM (assertNode M a) ∅

/-! ## Lifecycle -/

/-- `Simulator.crash`: the volatile state of the node is cleared. -/
def crash (n : ν) (a : Application ν) : Application ν :=
  { a with
    cluster := MultiPaxos.crash n a.cluster
    machine := Function.update a.machine n none }

/-- `Simulator.restart`. -/
def restart (n : ν) (a : Application ν) : Application ν :=
  { a with
    cluster := MultiPaxos.restart n a.cluster
    machine := Function.update a.machine n none }

/-- The constructor of `MultiPaxosStateMachine`. -/
def construct (a : Application ν) : AppOp ν Unit :=
  if ¬ a.cluster.learnDecisions then .raises .learningDisabled a
  else require (assertSafety M a) a

/-- A new simulator over the persistent state, with a new cluster and a new state
machine. The journal belongs to the clients and is kept. -/
def reconstruct (a : Application ν) : AppOp ν Unit :=
  match MultiPaxos.reconstruct M true a.cluster with
  | .raises e _ => .raises (.protocol e) a
  | .returns _ cluster =>
      match construct M { a with cluster := cluster, machine := fun _ => none } with
      | .raises e _ => .raises e a
      | .returns _ rebuilt => .returns () rebuilt

/-- An application over a new simulator. -/
def fresh : Application ν where
  cluster := Cluster.fresh true
  applied := fun _ => []
  machine := fun _ => none
  journal := {}

end Application

end Distlab.MultiPaxos
