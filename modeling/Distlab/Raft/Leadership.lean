import Distlab.Raft.Cluster

/-!
# Leadership observers

A cluster keeps the generation of each active leader and calls its observers
when a node acquires or loses the leadership. `LeaderRuntimeSupervisor` is such an
observer: it owns one runtime for each active generation.
-/

set_option autoImplicit false

namespace Distlab.Raft

open Foundations

variable {ν : Type} [LinearOrder ν]

/-! ## Supervisors -/

/-- The constructor of `LeaderReplicator` for a leader runtime, before its check. -/
def runtimeReplicator (n : ν) (membershipAware : Bool) (s : Cluster ν) : LeaderReplicator ν where
  leader := n
  term := s.currentTerm n
  commitIndex := s.commitIndex n
  snapshotRequestId := 0
  progress := fun _ => ⟨(s.logView n).lastIndex + 1, 0⟩
  snapshotTransport := false
  membershipAware := membershipAware

namespace LeaderRuntimeSupervisor

/-- `_start_runtime`. -/
def startRuntime (s : Cluster ν) (event : LeadershipLifecycleEvent ν)
    (v : LeaderRuntimeSupervisor ν) : Except (Error ν) (LeaderRuntimeSupervisor ν) :=
  let n := event.nodeId
  if s.role n ≠ .leader ∨ s.currentTerm n ≠ event.term then .error (.leaderRuntime n)
  else
    match v.runtimes.lookup n with
    | some existing =>
        if existing.identity.generation = event.generation then .ok v
        else .error (.leaderRuntime n)
    | none =>
        -- The constructor of the replicator requires a live leader.
        if ¬ s.alive n then .error (.replicationNotCurrent n)
        else
          let runtime : LeaderRuntime ν :=
            { identity := ⟨n, event.term, event.generation⟩
              replicator := runtimeReplicator n v.membershipAware s
              nextHeartbeatTime := s.time + v.heartbeatInterval }
          .ok { v with runtimes := v.runtimes.insert n runtime }

/-- `_retire_runtime`. -/
def retireRuntime (event : LeadershipLifecycleEvent ν) (v : LeaderRuntimeSupervisor ν) :
    LeaderRuntimeSupervisor ν :=
  match v.runtimes.lookup event.nodeId with
  | none => v
  | some runtime =>
      if runtime.identity.generation ≠ event.generation then v
      else { v with runtimes := v.runtimes.erase event.nodeId }

/-- `_handle_lifecycle_event`. -/
def handleLifecycleEvent (s : Cluster ν) (event : LeadershipLifecycleEvent ν)
    (v : LeaderRuntimeSupervisor ν) : Except (Error ν) (LeaderRuntimeSupervisor ν) :=
  match event.kind with
  | .acquired => v.startRuntime s event
  | .retired => .ok (v.retireRuntime event)

/-- `active_runtimes`, as the runtime of each node. -/
def activeRuntime (v : LeaderRuntimeSupervisor ν) (n : ν) : Option (LeaderRuntimeIdentity ν) :=
  (v.runtimes.lookup n).map (·.identity)

end LeaderRuntimeSupervisor

/-! ## Observers -/

/-- The cluster calls an observer. -/
def LeadershipObserver.notify (s : Cluster ν) (event : LeadershipLifecycleEvent ν)
    (o : LeadershipObserver ν) : LeadershipObserver ν :=
  let o := { o with events := o.events ++ [event] }
  match o.supervisor with
  | none => o
  | some v =>
      match v.handleLifecycleEvent s event with
      | .ok v => { o with supervisor := some v }
      | .error violation => { o with raised := some violation }

/-- The cluster calls its observers. -/
def notifyObservers (event : LeadershipLifecycleEvent ν) (s : Cluster ν) : Cluster ν :=
  { s with leadershipObservers := s.leadershipObservers.map (·.notify s event) }

/-- The events that a new observer is called with, by generation. -/
def replayedEvents (s : Cluster ν) : List (LeadershipLifecycleEvent ν) :=
  (s.activeLeaderGenerations.entries.map fun item =>
    (⟨.acquired, item.2.2, item.1, item.2.1⟩ : LeadershipLifecycleEvent ν)).insertionSort
      fun a b => a.generation ≤ b.generation

/-- The replay for a new observer, which an error ends. -/
def replayActive (s : Cluster ν) :
    List (LeadershipLifecycleEvent ν) → LeadershipObserver ν → LeadershipObserver ν
  | [], o => o
  | event :: events, o =>
      let o := o.notify s event
      if o.raised.isSome then o else replayActive s events o

/-- `register_leadership_observer` of an observer that is not registered yet. -/
def registerLeadershipObserver (observer : LeadershipObserver ν) (replay : Bool)
    (s : Cluster ν) : Op ν Unit :=
  let observer := if replay then replayActive s (replayedEvents s) observer else observer
  let s := { s with leadershipObservers := s.leadershipObservers ++ [observer] }
  match observer.raised with
  | none => .returns () s
  | some violation => .raises violation s

/-- The constructor of `LeaderRuntimeSupervisor`. -/
def newSupervisor (C : Config ν) (heartbeatInterval responseTimeout : ℕ) (s : Cluster ν) :
    Op ν Unit :=
  if heartbeatInterval = 0 ∨ responseTimeout = 0 ∨ heartbeatInterval < responseTimeout then
    .raises .leaderRuntimeParameters s
  else
    let membershipAware := match C.kind with
      | .fixed => false
      | .reconfigurable _ => true
    registerLeadershipObserver
      { supervisor := some { heartbeatInterval, responseTimeout, membershipAware } } true s

end Distlab.Raft
