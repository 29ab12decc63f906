import Distlab.Foundations.Deduplication
import Distlab.Raft.Events

/-!
# Replicas of a committed log

Between the calls of the state machine the protocol may change a cluster in any
way that leaves the applied entries, the images and the snapshots alone. When a
node applies what it has committed, these are entries of the committed log. The
calls are the program's: `ReplicatedKV.apply_committed`, the snapshot store's
`create`, `compact` and `install`, and the constructors over durable state, which
run after a crash or a restart.
-/

set_option autoImplicit false

namespace Distlab.Raft

open Foundations Deduplication

variable {ν : Type} [LinearOrder ν]

/-! ## Images -/

/-- The KV map of an image and its client requests, without their order. -/
abbrev ImageView := Image String ℕ KVOperation (String → Option String)

/-- What the KV map and the request table of an image hold. -/
def KVImage.view (image : KVImage) : ImageView :=
  ⟨fun key => image.state.lookup key, fun client id => image.requests.lookup (client, id)⟩

/-- `_execute_operation` on the KV map. -/
def KVOperation.execute (operation : KVOperation) (state : String → Option String) :
    String → Option String :=
  match operation with
  | .put key value => Function.update state key (some value)
  | .delete key => Function.update state key none

/-- What a command asks of the KV store. -/
def Command.request : Command ν → Request String ℕ KVOperation
  | .operation op => .plain op
  | .clientRequest clientId requestId op => .identified clientId requestId op
  | _ => .nothing

/-- The image of a log. -/
noncomputable def imageOf (log : List (LogEntry (Command ν))) : ImageView :=
  replay KVOperation.execute (log.map (·.command.request)) (.initial fun _ => none)

/-- The client requests that a log executes, in order. -/
noncomputable def executedRequests (log : List (LogEntry (Command ν))) : List (String × ℕ) :=
  identities (executions KVOperation.execute (log.map (·.command.request))
    (.initial fun _ => none))

/-- The image that a snapshot restores. -/
def KVSnapshot.image {ν : Type} (snapshot : KVSnapshot ν) : KVImage where
  state := Dict.ofItems snapshot.state
  requests := Dict.ofItems
    (snapshot.clientRequests.map fun item => ((item.clientId, item.requestId), item.operation))

/-- The request whose `kv-apply` record says neither `duplicate` nor `stale`. -/
def freshRequest (command : Command ν) (image : KVImage) : Option (String × ℕ) :=
  match command with
  | .clientRequest clientId requestId _ =>
      if image.requests.lookup (clientId, requestId) = none ∧
        ¬ isStale image clientId requestId then
        some (clientId, requestId)
      else none
  | _ => none

/-- The requests that take effect while a node applies entries. -/
def takeEffect (n : ν) : List (LogEntry (Command ν)) → KVImage → List (String × ℕ)
  | [], _ => []
  | entry :: rest, image =>
      match applyCommand n entry.command image with
      | .error _ => []
      | .ok next => (freshRequest entry.command image).toList ++ takeEffect n rest next

/-! ## Runs -/

/-- The cluster, the snapshots that its nodes have persisted, and the requests that
took effect on each node. -/
structure Replicas (ν : Type) where
  cluster : Cluster ν
  issued : List (KVSnapshot ν) := []
  effects : ν → List (String × ℕ) := fun _ => []

/-- The step leaves a node's applied entries, its image and its snapshot alone. -/
structure Keeps (n : ν) (s t : Cluster ν) : Prop where
  lastApplied : t.applier.lastApplied n = s.applier.lastApplied n
  baseIndex : t.applier.baseIndex n = s.applier.baseIndex n
  applied : t.applier.applied n = s.applier.applied n
  durableApplied :
    (t.persistent n).stateMachineApplied = (s.persistent n).stateMachineApplied
  durableBase :
    (t.persistent n).stateMachineBaseIndex = (s.persistent n).stateMachineBaseIndex
  kvSnapshot : (t.persistent n).kvSnapshot = (s.persistent n).kvSnapshot
  kv : t.kv n = s.kv n

/-- What a node has committed agrees with the committed log. -/
def CommitsTo (log : List (LogEntry (Command ν))) (n : ν) (s : Cluster ν) : Prop :=
  ∀ index entry, index ≤ s.commitIndex n → (s.logView n).entryAt index = some entry →
    log[index - 1]? = some entry

/-- One step. A call is a step if it returns. -/
inductive ReplicaStep (C : Config ν) (log : List (LogEntry (Command ν))) :
    Replicas ν → Replicas ν → Prop
  | protocol {r : Replicas ν} (t : Cluster ν) (keeps : ∀ n, Keeps n r.cluster t) :
      ReplicaStep C log r { r with cluster := t }
  | crash {r : Replicas ν} (n : ν) :
      ReplicaStep C log r { r with cluster := crash n r.cluster }
  | restart {r : Replicas ν} (n : ν) :
      ReplicaStep C log r { r with cluster := restart C n r.cluster }
  | apply {r : Replicas ν} (n : ν) (records : List (AppliedEntry ν)) (t : Cluster ν)
      (member : n ∈ C.nodeIds) (commits : CommitsTo log n r.cluster)
      (returned : kvApplyCommitted n r.cluster = .returns records t) :
      ReplicaStep C log r { r with
        cluster := t
        effects := Function.update r.effects n
          (r.effects n ++ takeEffect n (records.map (·.entry)) (r.cluster.kv n)) }
  | create {r : Replicas ν} (n : ν) (snapshot : KVSnapshot ν) (t : Cluster ν)
      (member : n ∈ C.nodeIds) (returned : createSnapshot C n r.cluster = .returns snapshot t) :
      ReplicaStep C log r { r with cluster := t, issued := r.issued ++ [snapshot] }
  | compact {r : Replicas ν} (n : ν) (snapshot : KVSnapshot ν) (t : Cluster ν)
      (member : n ∈ C.nodeIds) (returned : compactSnapshot C n r.cluster = .returns snapshot t) :
      ReplicaStep C log r { r with cluster := t, issued := r.issued ++ [snapshot] }
  | install {r : Replicas ν} (n : ν) (snapshot : KVSnapshot ν) (preserveMatchingSuffix : Bool)
      (t : Cluster ν) (member : n ∈ C.nodeIds) (issued : snapshot ∈ r.issued)
      (returned : installSnapshot C n snapshot preserveMatchingSuffix r.cluster =
        .returns () t) :
      ReplicaStep C log r { r with cluster := t }
  /-- A new `ReplicatedKV` with the applier of the old one. -/
  | rebuild {r : Replicas ν} (images : ν → KVImage)
      (restored : restoreImages C r.cluster.applier r.cluster = .ok images) :
      ReplicaStep C log r { r with cluster := { r.cluster with kv := images } }
  /-- A new `ReplicatedKV` with a new applier. -/
  | reload {r : Replicas ν} (applier : StateMachineApplier ν) (images : ν → KVImage)
      (loaded : loadApplier C r.cluster = .ok applier)
      (restored : restoreImages C applier r.cluster = .ok images) :
      ReplicaStep C log r { r with cluster := { r.cluster with applier := applier, kv := images } }
  /-- A new cluster, with both. -/
  | recreate {r : Replicas ν} (t : Cluster ν) (returned : recreate C r.cluster = .returns () t) :
      ReplicaStep C log r { r with cluster := t }

/-- What a new cluster reaches. -/
inductive Reached (C : Config ν) (log : List (LogEntry (Command ν))) : Replicas ν → Prop
  | fresh : Reached C log ⟨C.fresh, [], fun _ => []⟩
  | step {r r' : Replicas ν} (before : Reached C log r) (step : ReplicaStep C log r r') :
      Reached C log r'

end Distlab.Raft
