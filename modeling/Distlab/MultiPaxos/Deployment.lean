import Distlab.Foundations.Draining
import Distlab.MultiPaxos.Node
import Distlab.Simulation.Queue

/-!
# A Multi-Paxos cluster on the simulator

A deployment is a cluster with the simulator that carries its messages. What an
operation sends meets the links and the fault plan at once and is queued; the
simulator takes the queued messages in the order of their time, each once. The
retry timers of decision recovery are scheduled and meet no fault.

The operations are those of the cluster. Only the messages are handled
differently: the queue decides which one comes next.
-/

set_option autoImplicit false

namespace Distlab.MultiPaxos

open Foundations Paxos Simulation

/-- `RECOVERY_RETRY_DELAY`. -/
def recoveryRetryDelay : ℕ := 4

instance {ν α : Type} : PayloadType (Payload ν α) where
  typeName
    | .leaderPrepare _ => "LeaderPrepare"
    | .leaderPromise _ => "LeaderPromise"
    | .leaderAccept _ => "LeaderAccept"
    | .leaderAccepted _ => "LeaderAccepted"
    | .leaderDecision _ => "LeaderDecision"
    | .decisionRecoveryRequest _ => "DecisionRecoveryRequest"
    | .decisionRecoveryResponse _ _ => "DecisionRecoveryResponse"
    | .decisionRecoveryRetry _ _ => "_DecisionRecoveryRetry"

/-- A cluster with its simulator. -/
structure Deployment (ν : Type) (α : Type) where
  cluster : Cluster ν α
  simulator : Simulator ν (Payload ν α)

variable {ν : Type} {α : Type}

/-- A new cluster on a new simulator. -/
def Deployment.fresh (learn : Bool) (faultPlan : FaultPlan ν) : Deployment ν α :=
  ⟨Cluster.fresh learn, { faultPlan := faultPlan }⟩

variable [LinearOrder ν]

/-- One message of an operation: a timer is scheduled, any other message sent. -/
def transmitMessage (message : Message ν α) (sim : Simulator ν (Payload ν α)) :
    Simulator ν (Payload ν α) :=
  match message.payload with
  | .decisionRecoveryRetry _ _ =>
      sim.schedule ⟨message.src, message.dst, message.payload, 0⟩ recoveryRetryDelay
  | _ => sim.send message.src message.dst message.payload 1

/-- The messages of an operation, in order. -/
def transmit (messages : List (Message ν α)) (sim : Simulator ν (Payload ν α)) :
    Simulator ν (Payload ν α) :=
  messages.foldl (fun sim message => transmitMessage message sim) sim

/-- The deployment once its cluster is in the given state: the simulator takes
over the messages that are new in it. -/
def Deployment.follow (system : Deployment ν α) (cluster : Cluster ν α) : Deployment ν α :=
  ⟨cluster, transmit (cluster.network.drop system.cluster.network.length) system.simulator⟩

/-- An operation of the cluster. -/
def Deployment.perform (system : Deployment ν α) (op : Cluster ν α → Op ν α Unit) :
    Outcome (Error ν) (Deployment ν α) Unit :=
  match op system.cluster with
  | .returns _ cluster => .returns () (system.follow cluster)
  | .raises error cluster => .raises error (system.follow cluster)

variable [DecidableEq α] (M : Membership ν)

/-- The delivery of one message that the simulator took from its queue. -/
def Deployment.receive (message : Simulation.Message ν (Payload ν α)) (system : Deployment ν α) :
    Outcome (Error ν) (Deployment ν α) Unit :=
  -- A crashed destination discards the message (`discard-crashed`).
  if ¬ system.cluster.alive message.dst then .returns () system
  else system.perform (onNode M message.dst
    (handleMessage M message.dst ⟨message.src, message.dst, message.payload⟩))

/-- One pass of the loop of `Simulator.run`. -/
def Deployment.deliverNext (system : Deployment ν α) :
    Option (Outcome (Error ν) (Deployment ν α) Unit) :=
  match system.simulator.pop with
  | none => none
  | some (first, sim) => some (Deployment.receive M first.message ⟨system.cluster, sim⟩)

/-- `Simulator.run`, with the passes that its loop is given. -/
def Deployment.run (maxEvents : Option ℕ) (fuel : ℕ) (system : Deployment ν α) :
    Option (Outcome (Error ν) (Deployment ν α) ℕ) :=
  drain (Deployment.deliverNext M) maxEvents fuel 0 system

/-- A run with `max_events` needs no more passes than that, and one to stop. -/
theorem Deployment.exists_run_of_maxEvents (maxEvents : ℕ) (system : Deployment ν α) :
    ∃ outcome, Deployment.run M (some maxEvents) (maxEvents + 1) system = some outcome :=
  exists_drain_of_limit (Nat.lt_succ_self maxEvents) system (Nat.succ_pos maxEvents)

/-! ## Calls -/

/-- What a driver can call. -/
inductive Call (ν : Type) (α : Type) where
  | prepareLeadership (node : ν) (roundNumber : Option ℕ)
  | propose (node : ν) (slot : ℕ) (value : α)
  | retryProposal (node : ν) (slot : ℕ)
  | recoverDecisions (node : ν) (startSlot : ℕ)
  | crash (node : ν)
  | restart (node : ν)
  /-- `Simulator.send` of any message of the protocol to a node of the cluster. -/
  | send (src dst : ν) (payload : Payload ν α) (delay : ℕ)
  | blockLink (src dst : ν)
  | healLink (src dst : ν)
  | partition (left right : Finset ν)
  | healPartition (left right : Finset ν)
  | setLinkDelay (src dst : ν) (extraDelay : ℕ)
  | clearLinkDelay (src dst : ν)
  /-- `Simulator.run` with `max_events`. -/
  | run (maxEvents : ℕ)
  /-- A new cluster on a new simulator with the durable state of the old one. -/
  | reconstruct (learn : Bool) (faultPlan : FaultPlan ν)

/-- A call that concerns the simulator alone. -/
def Deployment.configure (system : Deployment ν α)
    (change : Simulator ν (Payload ν α) → Simulator ν (Payload ν α)) :
    Outcome (Error ν) (Deployment ν α) Unit :=
  .returns () { system with simulator := change system.simulator }

/-- One call. -/
def Deployment.call (event : Call ν α) (system : Deployment ν α) :
    Outcome (Error ν) (Deployment ν α) Unit :=
  match event with
  | .prepareLeadership n roundNumber => system.perform (step M (.prepareLeadership n roundNumber))
  | .propose n slot value => system.perform (step M (.propose n slot value))
  | .retryProposal n slot => system.perform (step M (.retryProposal n slot))
  | .recoverDecisions n startSlot => system.perform (step M (.recoverDecisions n startSlot))
  | .crash n => system.perform (step M (.crash n))
  | .restart n => system.perform (step M (.restart n))
  | .send src dst payload delay =>
      if dst ∈ M.nodeIds then system.configure (·.send src dst payload delay)
      else .raises (.unknownNode dst) system
  | .blockLink src dst => system.configure (·.blockLink src dst)
  | .healLink src dst => system.configure (·.healLink src dst)
  | .partition left right => system.configure (·.partition left right)
  | .healPartition left right => system.configure (·.healPartition left right)
  | .setLinkDelay src dst extraDelay => system.configure (·.setLinkDelay src dst extraDelay)
  | .clearLinkDelay src dst => system.configure (·.clearLinkDelay src dst)
  | .run maxEvents =>
      match Deployment.run M (some maxEvents) (maxEvents + 1) system with
      | none => .returns () system
      | some (.returns _ system) => .returns () system
      | some (.raises error system) => .raises error system
  | .reconstruct learn faultPlan =>
      match reconstruct M learn system.cluster with
      | .returns _ cluster => .returns () ⟨cluster, { faultPlan := faultPlan }⟩
      | .raises error _ => .raises error system

/-- A deployment after a list of calls, errors included. -/
def Deployment.after (learn : Bool) (faultPlan : FaultPlan ν) (calls : List (Call ν α)) :
    Deployment ν α :=
  runEvents (Deployment.call M) calls (Deployment.fresh learn faultPlan)

end Distlab.MultiPaxos
