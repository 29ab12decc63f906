import Distlab.Raft.Snapshot

/-!
# Delivery of messages

`handle_message` of the nodes and of the snapshot transport, and the simulator's
delivery of one message. `Simulator.run` delivers messages in the order that its
queue and the fault plan decide; here a run is any list of deliveries.
-/

set_option autoImplicit false

namespace Distlab.Raft

open Foundations

variable {ν : Type} [LinearOrder ν] (C : Config ν)

/-- `_reject_invalid_envelope` of the receiver of the message. -/
def validEnvelope (message : Message ν) : Bool :=
  match message.payload with
  | .installSnapshotRequest request =>
      request.leaderId ∈ C.nodeIds ∧ request.followerId ∈ C.nodeIds ∧
        message.src = request.leaderId ∧ message.dst = request.followerId
  | .installSnapshotResponse response =>
      response.followerId ∈ C.nodeIds ∧ response.leaderId ∈ C.nodeIds ∧
        message.src = response.followerId ∧ message.dst = response.leaderId
  | payload =>
      claimedSource message.dst payload ∈ C.nodeIds ∧ message.dst ∈ C.nodeIds ∧
        message.src = claimedSource message.dst payload

/-- `handle_message` of the receiver, after the envelope was checked. -/
def handleMessage (message : Message ν) (s : Cluster ν) : Op ν Unit :=
  let n := message.dst
  match message.payload with
  | .electionTimeout generation deadline => handleElectionTimeout C n generation deadline s
  | .preVote request => .returns () (handlePreVote C n message.src request s)
  | .preVoteResponse response => handlePreVoteResponse C n response s
  | .requestVote request => .returns () (handleRequestVote C n message.src request s)
  | .requestVoteResponse response => handleRequestVoteResponse C n response s
  | .appendEntries request => handleAppendEntries C n message.src request s
  | .appendEntriesResponse response => .returns () (handleAppendEntriesResponse C n response s)
  | .installSnapshotRequest request => handleInstallSnapshotRequest C request s
  | .installSnapshotResponse response => .returns () (handleInstallSnapshotResponse C response s)

/-- A delivery: the position of its message in the network, and the logical time
that passes before it. -/
structure Delivery where
  position : ℕ
  elapsed : ℕ := 0
  deriving DecidableEq

/-- The simulator delivers a message. -/
def deliver (delivery : Delivery) (s : Cluster ν) : Op ν Unit :=
  let s := s.elapse delivery.elapsed
  match s.network[delivery.position]? with
  | none => .returns () s
  | some message =>
      -- A crashed destination discards the message (`discard-crashed`).
      if ¬ s.alive message.dst then .returns () s
      else
        let s := s.record (.deliver message)
        if validEnvelope C message then handleMessage C message s else .returns () s

/-- `Simulator.run`, with the deliveries it makes. -/
def simulate (deliveries : List Delivery) (s : Cluster ν) : Op ν Unit :=
  Outcome.forEach deliveries (deliver C) s

end Distlab.Raft
