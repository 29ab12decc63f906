import Distlab.Foundations.Draining
import Distlab.Raft.Events
import Distlab.Simulation.Queue

/-!
# A Raft cluster on the simulator

A deployment is a cluster with the simulator that carries its messages. What an
operation sends meets the links and the fault plan at once and is queued; an
election timeout is scheduled for its deadline and meets no fault. The simulator
takes the queued messages in the order of their time, each once, and its clock is
the cluster's.
-/

set_option autoImplicit false

namespace Distlab.Raft

open Foundations Simulation

instance {ν : Type} : PayloadType (Payload ν) where
  typeName
    | .electionTimeout _ _ => "_ElectionTimeout"
    | .preVote _ => "PreVote"
    | .preVoteResponse _ => "PreVoteResponse"
    | .requestVote _ => "RequestVote"
    | .requestVoteResponse _ => "RequestVoteResponse"
    | .appendEntries _ => "AppendEntries"
    | .appendEntriesResponse _ => "AppendEntriesResponse"
    | .installSnapshotRequest _ => "InstallSnapshotRequest"
    | .installSnapshotResponse _ => "InstallSnapshotResponse"

/-- A cluster with its simulator. -/
structure Deployment (ν : Type) where
  cluster : Cluster ν
  simulator : Simulator ν (Payload ν)

variable {ν : Type} [LinearOrder ν]

/-- One message of an operation: an election timeout is scheduled for its
deadline, any other message sent. -/
def transmitMessage (message : Message ν) (sim : Simulator ν (Payload ν)) :
    Simulator ν (Payload ν) :=
  let queued : Simulation.Message ν (Payload ν) :=
    ⟨message.src, message.dst, message.payload, message.ordinal⟩
  match message.payload with
  | .electionTimeout _ deadline => sim.schedule queued (deadline.getD 0 - sim.time)
  | _ => sim.dispatch queued 1

/-- The messages of an operation, in order. -/
def transmit (messages : List (Message ν)) (sim : Simulator ν (Payload ν)) :
    Simulator ν (Payload ν) :=
  messages.foldl (fun sim message => transmitMessage message sim) sim

namespace Deployment

/-- The deployment once its cluster is in the given state: the simulator takes
over the messages that are new in it. -/
def follow (system : Deployment ν) (cluster : Cluster ν) : Deployment ν :=
  ⟨cluster, transmit (cluster.network.drop system.cluster.network.length) system.simulator⟩

/-- An operation of the cluster. -/
def perform (system : Deployment ν) (op : Cluster ν → Op ν Unit) :
    Outcome (Error ν) (Deployment ν) Unit :=
  match op system.cluster with
  | .returns _ cluster => .returns () (system.follow cluster)
  | .raises error cluster => .raises error (system.follow cluster)

variable (C : Config ν)

/-- The handler of a delivered message. -/
def handle (message : Message ν) (s : Cluster ν) : Op ν Unit :=
  let s := s.record (.deliver message)
  if validEnvelope C message then handleMessage C message s else .returns () s

/-- The delivery of one message that the simulator took from its queue. -/
def receive (message : Simulation.Message ν (Payload ν)) (system : Deployment ν) :
    Outcome (Error ν) (Deployment ν) Unit :=
  -- A crashed destination discards the message (`discard-crashed`).
  if ¬ system.cluster.alive message.dst then .returns () system
  else system.perform (handle C ⟨message.src, message.dst, message.payload, message.ordinal⟩)

/-- The next message, taken from the queue at its time. -/
def takeNext (system : Deployment ν) :
    Option (ScheduledDelivery ν (Payload ν) × Deployment ν) :=
  match system.simulator.pop with
  | none => none
  | some (first, sim) => some (first, ⟨{ system.cluster with time := first.time }, sim⟩)

/-- One pass of the loop of `Simulator.run`. -/
def deliverNext (system : Deployment ν) : Option (Outcome (Error ν) (Deployment ν) Unit) :=
  match system.takeNext with
  | none => none
  | some (first, system) => some (receive C first.message system)

/-- The end of `Simulator.run_until_time`: no message is due by the deadline. -/
def reachTime (deadline : ℕ) (system : Deployment ν) : Deployment ν :=
  if deadline < system.simulator.time ∨
      system.simulator.queue.events.head?.any (·.time ≤ deadline) then system
  else
    ⟨{ system.cluster with time := deadline }, { system.simulator with time := deadline }⟩

end Deployment

/-! ## Calls -/

/-- The call runs the simulator, or makes a new cluster. -/
def Event.simulates : Event ν → Bool
  | .deliver _ | .wait _ | .replicate _ _ _ _ | .recoverPeer _ _ _ _ => true
  | .replicateAndActivate _ _ _ | .replicateAndFinalize _ _ _ | .recreate => true
  | _ => false

/-- The cluster is a `ReconfigurableRaftCluster`. -/
def Config.reconfigures {ν : Type} (C : Config ν) : Bool :=
  match C.kind with
  | .fixed => false
  | .reconfigurable _ => true

/-- The call needs a membership transition. -/
def Event.needsTransition : Event ν → Bool
  | .proposeJoint _ _ | .proposeFinalize _ => true
  | .activateIfCommitted _ _ | .finalizeIfCommitted _ _ => true
  | _ => false

/-- What a driver can call. An operation that runs the simulator inside is the
calls that it makes: its sends, the deliveries, what its replicator learns. -/
inductive Call (ν : Type) where
  | operation (event : Event ν)
  | beginJointConsensus (leader : ν) (newVoters : Finset ν)
  | finalizeMembership (leader : ν)
  | advancePeer (i : ℕ) (peer : ν) (matchIndex : ℕ)
  | backtrackPeer (i : ℕ) (peer : ν)
  /-- `Simulator.run` with `max_events`. -/
  | run (maxEvents : ℕ)
  | reachTime (deadline : ℕ)
  | blockLink (src dst : ν)
  | healLink (src dst : ν)
  | partition (left right : Finset ν)
  | healPartition (left right : Finset ν)
  | setLinkDelay (src dst : ν) (extraDelay : ℕ)
  | clearLinkDelay (src dst : ν)

namespace Deployment

variable (C : Config ν)

/-- A call that concerns the simulator alone. -/
def configure (system : Deployment ν)
    (change : Simulator ν (Payload ν) → Simulator ν (Payload ν)) :
    Outcome (Error ν) (Deployment ν) Unit :=
  .returns () { system with simulator := change system.simulator }

/-- One call. -/
def call (event : Call ν) (system : Deployment ν) : Outcome (Error ν) (Deployment ν) Unit :=
  match event with
  | .operation event =>
      -- A cluster of fixed membership has no transitions.
      if event.simulates ∨ event.needsTransition ∧ ¬ C.reconfigures then .returns () system
      else system.perform (step C event)
  | .beginJointConsensus leader newVoters =>
      if C.reconfigures then system.perform (beginJointConsensus C leader newVoters)
      else .returns () system
  | .finalizeMembership leader =>
      if C.reconfigures then system.perform (finalizeMembership C leader)
      else .returns () system
  | .advancePeer i peer matchIndex =>
      system.perform fun s => .returns () (advancePeer i peer matchIndex s)
  | .backtrackPeer i peer => system.perform fun s => .returns () (backtrackPeer i peer s)
  | .run maxEvents =>
      match drain (deliverNext C) (some maxEvents) (maxEvents + 1) 0 system with
      | none => .returns () system
      | some (.returns _ system) => .returns () system
      | some (.raises error system) => .raises error system
  | .reachTime deadline => .returns () (system.reachTime deadline)
  | .blockLink src dst => system.configure (·.blockLink src dst)
  | .healLink src dst => system.configure (·.healLink src dst)
  | .partition left right => system.configure (·.partition left right)
  | .healPartition left right => system.configure (·.healPartition left right)
  | .setLinkDelay src dst extraDelay => system.configure (·.setLinkDelay src dst extraDelay)
  | .clearLinkDelay src dst => system.configure (·.clearLinkDelay src dst)

/-- A new cluster on a new simulator, over durable state that was loaded from
`persistent`. -/
def start (faultPlan : FaultPlan ν) (persistent : ν → Persistent ν)
    (configuration : VotingConfiguration ν) (applier : StateMachineApplier ν)
    (images : ν → KVImage) : Deployment ν :=
  let cluster := Config.over persistent configuration applier images
  follow ⟨cluster, { faultPlan := faultPlan }⟩ (startTimers C cluster)

/-- A deployment after a list of calls, errors included. -/
def after (calls : List (Call ν)) (system : Deployment ν) : Deployment ν :=
  runEvents (call C) calls system

end Deployment

end Distlab.Raft
