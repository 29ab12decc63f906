import Distlab.Raft.Recovery

/-!
# Runs of a Raft cluster

What a driver can do with a cluster, one event at a time. A run is a list of
events; an event that raises leaves the state in which it was raised, and the
run goes on.
-/

set_option autoImplicit false

namespace Distlab.Raft

open Foundations

variable {ν : Type} [LinearOrder ν] (C : Config ν)

/-- The calls that a driver makes. -/
inductive Event (ν : Type) where
  | startElection (n : ν)
  | startPreVote (n : ν)
  | stepDown (n : ν)
  | deliver (delivery : Delivery)
  | wait (elapsed : ℕ)
  | crash (n : ν)
  | restart (n : ν)
  | sendAppendEntries (n peer : ν) (prevLogIndex : ℕ) (entries : List (LogEntry (Command ν)))
      (leaderCommit : ℕ)
  | sendInstallSnapshot (leader follower : ν) (term : ℕ) (snapshot : KVSnapshot ν) (requestId : ℕ)
  | appendCurrentTerm (n : ν) (command : Command ν)
  | newReplicator (leader : ν) (snapshotTransport membershipAware : Bool)
  | beginActivityProbe (i : ℕ) (peer : ν)
  | replicate (i : ℕ) (peer : ν) (maxAttempts : Option ℕ) (schedules : List (List Delivery))
  | recoverPeer (i : ℕ) (peer : ν) (maxAttempts : Option ℕ) (schedules : List (List Delivery))
  | advanceCommitIndex (i : ℕ)
  | applyCommitted (n : ν)
  | kvApplyCommitted (n : ν)
  | createSnapshot (n : ν)
  | compactSnapshot (n : ν)
  | installSnapshot (n : ν) (snapshot : KVSnapshot ν) (preserveMatchingSuffix : Bool)
  | newTransition (leader : ν)
  | proposeJoint (i : ℕ) (newVoters : Finset ν)
  | proposeFinalize (i : ℕ)
  | activateIfCommitted (i position : ℕ)
  | finalizeIfCommitted (i position : ℕ)
  | replicateAndActivate (i maxAttempts : ℕ) (schedules : ν → List (List Delivery))
  | replicateAndFinalize (i maxAttempts : ℕ) (schedules : ν → List (List Delivery))
  | recreate
  | checkpoint

/-- An operation whose value the run does not use. -/
def dropValue {β : Type} (outcome : Op ν β) : Op ν Unit :=
  outcome.bind fun _ s => .returns () s

/-- An operation with the replicator at a position, if there is one. -/
def withReplicator {β : Type} (i : ℕ) (operation : LeaderReplicator ν → Cluster ν → Op ν β)
    (s : Cluster ν) : Op ν Unit :=
  match s.replicators[i]? with
  | none => .returns () s
  | some r => dropValue (operation r s)

/-- The node whose operation the driver calls by its name. -/
def Event.node : Event ν → Option ν
  | .startElection n | .startPreVote n | .stepDown n | .crash n | .restart n => some n
  | .sendAppendEntries n _ _ _ _ | .appendCurrentTerm n _ => some n
  | .applyCommitted n | .kvApplyCommitted n => some n
  | .createSnapshot n | .compactSnapshot n | .installSnapshot n _ _ => some n
  | _ => none

/-- What an event does. -/
def perform (event : Event ν) (s : Cluster ν) : Op ν Unit :=
  match event with
  | .startElection n => startElection C n s
  | .startPreVote n => startPreVote C n s
  | .stepDown n => dropValue (stepDown C n s)
  | .deliver delivery => deliver C delivery s
  | .wait elapsed => .returns () (s.elapse elapsed)
  | .crash n => .returns () (crash n s)
  | .restart n => .returns () (restart C n s)
  | .sendAppendEntries n peer prevLogIndex entries leaderCommit =>
      sendAppendEntries C n peer prevLogIndex entries leaderCommit s
  | .sendInstallSnapshot leader follower term snapshot requestId =>
      sendInstallSnapshot C leader follower term snapshot requestId s
  | .appendCurrentTerm n command => dropValue (appendCurrentTerm n command s)
  | .newReplicator leader snapshotTransport membershipAware =>
      newReplicator C leader snapshotTransport membershipAware s
  | .beginActivityProbe i peer => withReplicator i (fun r => beginActivityProbe C r peer) s
  | .replicate i peer maxAttempts schedules =>
      dropValue (replicate C i peer maxAttempts schedules s)
  | .recoverPeer i peer maxAttempts schedules =>
      dropValue (recoverPeer C i peer maxAttempts schedules s)
  | .advanceCommitIndex i => dropValue (advanceCommitIndex C i s)
  | .applyCommitted n => dropValue (applierApplyCommitted n s)
  | .kvApplyCommitted n => dropValue (kvApplyCommitted n s)
  | .createSnapshot n => dropValue (createSnapshot C n s)
  | .compactSnapshot n => dropValue (compactSnapshot C n s)
  | .installSnapshot n snapshot preserveMatchingSuffix =>
      installSnapshot C n snapshot preserveMatchingSuffix s
  | .newTransition leader => newTransition C leader s
  | .proposeJoint i newVoters => dropValue (proposeJoint C i newVoters s)
  | .proposeFinalize i => dropValue (proposeFinalize i s)
  | .activateIfCommitted i position => withReplicator position (activateIfCommitted C i) s
  | .finalizeIfCommitted i position => withReplicator position (finalizeIfCommitted C i) s
  | .replicateAndActivate i maxAttempts schedules =>
      dropValue (replicateAndActivate C i maxAttempts schedules s)
  | .replicateAndFinalize i maxAttempts schedules =>
      dropValue (replicateAndFinalize C i maxAttempts schedules s)
  | .recreate => recreate C s
  | .checkpoint => checkpoint C s

/-- One event; a node that is not of the cluster is a `KeyError`. -/
def step (event : Event ν) (s : Cluster ν) : Op ν Unit :=
  match event.node.filter (· ∉ C.nodeIds) with
  | some unknown => .raises (.unknownNode unknown) s
  | none => perform C event s

/-- The state after a run. -/
def run (events : List (Event ν)) : Cluster ν := runEvents (step C) events C.fresh

end Distlab.Raft
