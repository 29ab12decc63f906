import Distlab.Raft.Harness

/-!
# Recovery from durable state

The constructors of `StateMachineApplier`, `ReplicatedKV` and the cluster, over
the durable state that an earlier cluster left.
-/

set_option autoImplicit false

namespace Distlab.Raft

open Foundations

variable {ν : Type} [LinearOrder ν] (C : Config ν)

/-! ## The state machine -/

/-- The records of applied entries, from an index on. -/
def appliedRecords (n : ν) : ℕ → List (LogEntry (Command ν)) → List (AppliedEntry ν)
  | _, [] => []
  | index, entry :: rest => ⟨n, index, entry⟩ :: appliedRecords n (index + 1) rest

omit [LinearOrder ν] in
theorem appliedRecords_entries {n : ν} (index : ℕ) (entries : List (LogEntry (Command ν))) :
    (appliedRecords n index entries).map (·.entry) = entries := by
  induction entries generalizing index with
  | nil => rfl
  | cons entry rest ih =>
      unfold appliedRecords
      rw [List.map_cons, ih]

/-- The constructor of an applier, for one node. -/
def loadApplied (s : Cluster ν) (applier : StateMachineApplier ν) (n : ν) :
    Except (Error ν) (StateMachineApplier ν) :=
  if ¬ durableStateLoads n s then .error (.stateMachineSafety n)
  else
    let p := s.persistent n
    let base := p.stateMachineBaseIndex
    let records := appliedRecords n (base + 1) p.stateMachineApplied
    records.foldlM (fun applier r => recordCanonical r applier)
      { applier with
        baseIndex := Function.update applier.baseIndex n base
        baseTerm := Function.update applier.baseTerm n p.stateMachineBaseTerm
        lastApplied := Function.update applier.lastApplied n (base + records.length)
        applied := Function.update applier.applied n records }

/-- The constructor of `StateMachineApplier`. -/
def loadApplier (s : Cluster ν) : Except (Error ν) (StateMachineApplier ν) :=
  C.nodeIds.foldlM (loadApplied s) {}

/-! ## The KV store -/

/-- The requests of a snapshot, in `_restore_snapshot_boundary`. -/
def restoreRequests (n : ν) (items : List SnapshotClientRequest) :
    Except (Error ν) (Dict (String × ℕ) KVOperation) :=
  items.foldlM (fun requests item =>
    if (requests.lookup (item.clientId, item.requestId)).any (· ≠ item.operation) then
      .error (.clientRequestConflict n)
    else .ok (requests.insert (item.clientId, item.requestId) item.operation)) ∅

/-- `_restore_snapshot_boundary`. -/
def restoreSnapshotBoundary (n : ν) (applier : StateMachineApplier ν) (s : Cluster ν) :
    Except (Error ν) KVImage :=
  if applier.baseIndex n = 0 then .ok {}
  else
    match (s.persistent n).kvSnapshot with
    | none => .error (.snapshotBoundary n)
    | some snapshot =>
        if snapshot.lastIncludedIndex ≠ applier.baseIndex n ∨
            snapshot.lastIncludedTerm ≠ applier.baseTerm n then
          .error (.snapshotBoundary n)
        else do
          let requests ← restoreRequests n snapshot.clientRequests
          .ok ⟨Dict.ofItems snapshot.state, requests⟩

/-- The constructor of `ReplicatedKV`, for one node. -/
def restoreImage (n : ν) (applier : StateMachineApplier ν) (s : Cluster ν) :
    Except (Error ν) KVImage := do
  let image ← restoreSnapshotBoundary n applier s
  let history := (applier.applied n).map (·.entry)
  if ¬ validEntries history then .error (.invalidKVCommand n)
  else if ¬ requestsAgree history image.requests then .error (.clientRequestConflict n)
  else history.foldlM (fun image entry => applyCommand n entry.command image) image

/-- The constructor of `ReplicatedKV`: the images of the nodes. -/
def restoreImages (applier : StateMachineApplier ν) (s : Cluster ν) :
    Except (Error ν) (ν → KVImage) :=
  C.nodeIds.foldlM (fun images n => do
    let image ← restoreImage n applier s
    .ok (Function.update images n image)) fun _ => {}

/-! ## The cluster -/

/-- A cluster over durable state, before its election timers start. -/
def Config.over (persistent : ν → Persistent ν) (configuration : VotingConfiguration ν)
    (applier : StateMachineApplier ν) (images : ν → KVImage) : Cluster ν :=
  { persistent := persistent
    volatile := fun _ => {}
    timer := fun _ => {}
    alive := fun _ => true
    time := 0
    network := []
    ordinals := fun _ _ => 0
    trace := []
    leadersByTerm := ∅
    leadershipGeneration := 0
    activeLeaderGenerations := ∅
    votingConfiguration := configuration
    applier := applier
    kv := images
    replicators := []
    transitions := []
    harness := {} }

/-- The initial `reset_election_timeout` of the nodes. -/
def startTimers (s : Cluster ν) : Cluster ν :=
  C.nodeIds.foldl (fun s n => resetElectionTimeout C n s) s

/-- A new cluster. -/
def Config.fresh : Cluster ν :=
  startTimers C (Config.over (fun _ => {}) C.initialConfiguration {} fun _ => {})

/-- The voting configuration of a cluster over durable state. -/
def recoveredConfiguration (s : Cluster ν) : Except (Error ν) (VotingConfiguration ν) :=
  match C.kind with
  | .fixed => .ok C.initialConfiguration
  | .reconfigurable _ => recoverVotingConfiguration C C.initialConfiguration s

/-- A new cluster, with its applier and its KV store, over the durable state. -/
def recreate (s : Cluster ν) : Op ν Unit :=
  match recoveredConfiguration C s with
  | .error violation => .raises violation s
  | .ok configuration =>
      match loadApplier C s with
      | .error violation => .raises violation s
      | .ok applier =>
          match restoreImages C applier s with
          | .error violation => .raises violation s
          | .ok images =>
              .returns () (startTimers C (Config.over s.persistent configuration applier images))

end Distlab.Raft
