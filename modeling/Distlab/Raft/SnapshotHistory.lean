import Distlab.Raft.Recovery
import Distlab.Raft.Snapshot

/-!
# The validator of snapshots

The constructor of `KVSnapshotStore` checks each durable snapshot against the applied
history. `_validate_against_applied_history` interprets the history on its own: it
keeps a request unless the request's identity was used before.
-/

set_option autoImplicit false

namespace Distlab.Raft

open Foundations

variable {ν : Type} [LinearOrder ν] (C : Config ν)

/-- What `_validate_against_applied_history` raises. -/
inductive SnapshotHistoryError where
  /-- What `_validate_snapshot_membership` raises. -/
  | membership
  /-- "snapshot index diverges from compacted applied boundary" -/
  | boundaryIndex
  /-- "snapshot term diverges from compacted applied boundary" -/
  | boundaryTerm
  /-- "snapshot exceeds durable applied history" -/
  | exceedsHistory
  /-- "snapshot term diverges from durable applied history" -/
  | historyTerm
  /-- "snapshot prefix contains conflicting client request" -/
  | conflictingRequest
  /-- `TypeError`: "unsupported snapshot command ...". -/
  | unsupportedCommand
  /-- "snapshot KV state diverges from durable applied history" -/
  | stateDiverges
  /-- "snapshot dedup state diverges from durable applied history" -/
  | requestsDiverge
  deriving DecidableEq

/-- The state and the requests that the validator derives from a history. -/
structure HistoryImage where
  state : Dict String String := ∅
  requests : Dict (String × ℕ) SnapshotClientRequest := ∅

/-- The body of the validator's loop. -/
def interpret (command : Command ν) (image : HistoryImage) :
    Except SnapshotHistoryError HistoryImage :=
  match command with
  | .jointConsensus _ | .stableConsensus _ | .commitRecoveryBarrier => .ok image
  | .operation operation => .ok { image with state := executeOperation operation image.state }
  | .other _ => .error .unsupportedCommand
  | .clientRequest clientId requestId operation =>
      let item : SnapshotClientRequest := ⟨clientId, requestId, operation⟩
      match image.requests.lookup (clientId, requestId) with
      | some previous => if previous ≠ item then .error .conflictingRequest else .ok image
      | none =>
          .ok
            { state := executeOperation operation image.state
              requests := image.requests.insert (clientId, requestId) item }

/-- What the validator derives from a history. -/
def interpretHistory (history : List (LogEntry (Command ν))) :
    Except SnapshotHistoryError HistoryImage :=
  history.foldlM (fun image entry => interpret entry.command image) {}

/-- `_validate_against_applied_history`. -/
def validateAgainstAppliedHistory (n : ν) (snapshot : KVSnapshot ν) (s : Cluster ν) :
    Except SnapshotHistoryError Unit :=
  if ¬ validSnapshotMembership C snapshot then .error .membership
  else if 0 < s.applier.baseIndex n then
    if snapshot.lastIncludedIndex ≠ s.applier.baseIndex n then .error .boundaryIndex
    else if snapshot.lastIncludedTerm ≠ s.applier.baseTerm n then .error .boundaryTerm
    else .ok ()
  else
    let history := (s.applier.applied n).map (·.entry)
    let included := history.take snapshot.lastIncludedIndex
    if history.length < snapshot.lastIncludedIndex then .error .exceedsHistory
    else if included.getLast?.map (·.term) ≠ some snapshot.lastIncludedTerm then
      .error .historyTerm
    else
      match interpretHistory included with
      | .error violation => .error violation
      | .ok image =>
          if image.state.sortedItems (· ≤ ·) ≠ snapshot.state then .error .stateDiverges
          else if (image.requests.sortedItems fun a b => toLex a ≤ toLex b).map Prod.snd ≠
              snapshot.clientRequests then .error .requestsDiverge
          else .ok ()

/-- The check of one node in the constructor of `KVSnapshotStore`. -/
def checkSnapshot (s : Cluster ν) (n : ν) : Except SnapshotHistoryError Unit :=
  match (s.persistent n).kvSnapshot with
  | none => .ok ()
  | some snapshot => validateAgainstAppliedHistory C n snapshot s

/-- The constructor of `KVSnapshotStore`. -/
def newSnapshotStore (s : Cluster ν) : Except SnapshotHistoryError Unit :=
  C.nodeIds.forM (checkSnapshot C s)

end Distlab.Raft
