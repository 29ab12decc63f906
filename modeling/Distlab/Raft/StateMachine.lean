import Distlab.Raft.Node

/-!
# The state machine applier and the replicated KV store

`StateMachineApplier` applies committed entries in index order and keeps the
applied suffix durable. `ReplicatedKV` is the KV image that follows from it.
-/

set_option autoImplicit false

namespace Distlab.Raft

open Foundations

variable {ν : Type} [LinearOrder ν] (C : Config ν)

/-! ## The applier -/

/-- `_record_canonical`. -/
def recordCanonical (r : AppliedEntry ν) (applier : StateMachineApplier ν) :
    Except (Error ν) (StateMachineApplier ν) :=
  match applier.canonicalByIndex.lookup r.index with
  | some canonical =>
      if canonical.entry ≠ r.entry then
        .error (.canonicalConflict r.index canonical.nodeId r.nodeId)
      else .ok applier
  | none =>
      .ok { applier with canonicalByIndex := applier.canonicalByIndex.insert r.index r }

/-- Only the canonical entries change. -/
theorem recordCanonical_ok {record : AppliedEntry ν} {applier next : StateMachineApplier ν}
    (recorded : recordCanonical record applier = .ok next) :
    ∃ canonical, next = { applier with canonicalByIndex := canonical } := by
  unfold recordCanonical at recorded
  split at recorded
  · split at recorded
    · cases recorded
    · cases recorded
      exact ⟨_, rfl⟩
  · cases recorded
    exact ⟨_, rfl⟩

/-- The durable and volatile writes of one applied entry. -/
def writeApplied (n : ν) (index : ℕ) (entry : LogEntry (Command ν)) (s : Cluster ν) : Cluster ν :=
  let s := s.updatePersistent n fun p =>
    { p with stateMachineApplied := p.stateMachineApplied ++ [entry] }
  { s with applier := { s.applier with
    applied := Function.update s.applier.applied n (s.applier.applied n ++ [⟨n, index, entry⟩])
    lastApplied := Function.update s.applier.lastApplied n index } }

/-- The loop of `apply_committed` over the indexes to apply. -/
def applyEach (n : ν) : List ℕ → Cluster ν → Op ν (List (AppliedEntry ν))
  | [], s => .returns [] s
  | index :: rest, s =>
      match (s.logView n).entryAt index with
      | none => .raises (.indexError n index) s
      | some entry =>
          match recordCanonical ⟨n, index, entry⟩ s.applier with
          | .error violation => .raises violation s
          | .ok applier =>
              (applyEach n rest (writeApplied n index entry { s with applier := applier })).bind
                fun records s => .returns (⟨n, index, entry⟩ :: records) s

/-- `StateMachineApplier.apply_committed`. -/
def applierApplyCommitted (n : ν) (s : Cluster ν) : Op ν (List (AppliedEntry ν)) :=
  let previous := s.applier.lastApplied n
  let commitIndex := s.commitIndex n
  if commitIndex ≤ previous then .returns [] s
  else if (s.logView n).lastIndex < commitIndex then .raises (.indexBeyondLog n commitIndex) s
  else if previous < (s.logView n).baseIndex then .raises (.appliedBehindBoundary n) s
  else applyEach n (List.range' (previous + 1) (commitIndex - previous)) s

/-- The durable and volatile writes of `compact_through`. -/
def writeCompacted (n : ν) (index term : ℕ) (s : Cluster ν) : Cluster ν :=
  let retained := (s.applier.applied n).drop (index - s.applier.baseIndex n)
  let s := s.updatePersistent n fun p =>
    { p with
      stateMachineApplied := retained.map (·.entry)
      stateMachineBaseIndex := index
      stateMachineBaseTerm := term }
  { s with applier := { s.applier with
    baseIndex := Function.update s.applier.baseIndex n index
    baseTerm := Function.update s.applier.baseTerm n term
    applied := Function.update s.applier.applied n retained } }

/-- `StateMachineApplier.compact_through`. -/
def applierCompactThrough (n : ν) (index term : ℕ) (s : Cluster ν) : Op ν Unit :=
  let base := s.applier.baseIndex n
  if index < base ∨ s.applier.lastApplied n < index then .raises (.compactionBoundary n) s
  else if index = base then
    if term ≠ s.applier.baseTerm n then .raises (.compactionBoundary n) s else .returns () s
  else if ((s.applier.applied n)[index - base - 1]?).any (·.entry.term ≠ term) then
    .raises (.compactionBoundary n) s
  else .returns () (writeCompacted n index term s)

/-- `_load_durable_state` raises nothing. -/
def durableStateLoads (n : ν) (s : Cluster ν) : Bool :=
  let p := s.persistent n
  let log := p.log
  let base := p.stateMachineBaseIndex
  let applied := p.stateMachineApplied
  let last := base + applied.length
  let overlapStart := max (base + 1) log.firstRetainedIndex
  decide (¬ (base = 0 ∧ p.stateMachineBaseTerm ≠ 0)) &&
  decide (base ≤ log.baseIndex) &&
  decide (last ≤ log.lastIndex) &&
  decide (¬ (base = log.baseIndex ∧ 0 < base ∧ p.stateMachineBaseTerm ≠ log.baseTerm)) &&
  (decide (¬ (base < log.baseIndex ∧ log.baseIndex ≤ last)) ||
    (applied[log.baseIndex - base - 1]?).any (·.term = log.baseTerm)) &&
  (List.range' overlapStart (last + 1 - overlapStart)).all fun index =>
    decide (log.entryAt index = applied[index - base - 1]?)

/-- The applied entries and the boundaries that `assert_state_machine_safety`
has seen. -/
structure Seen (ν : Type) where
  entries : Dict ℕ (AppliedEntry ν) := ∅
  boundaries : Dict ℕ (ν × ℕ) := ∅

/-- The checks of one applied record. -/
def checkRecord (n : ν) (seen : Seen ν) (expected : ℕ) (r : AppliedEntry ν) :
    Except (Error ν) (Seen ν) :=
  if r.index ≠ expected then .error (.stateMachineSafety n)
  else if (seen.entries.lookup r.index).any (·.entry ≠ r.entry) then .error (.stateMachineSafety n)
  else if (seen.boundaries.lookup r.index).any (·.2 ≠ r.entry.term) then
    .error (.stateMachineSafety n)
  else .ok { seen with entries := seen.entries.setDefault r.index r }

/-- The checks of a node's applied records, from an index on. -/
def checkRecords (n : ν) : ℕ → List (AppliedEntry ν) → Seen ν → Except (Error ν) (Seen ν)
  | _, [], seen => .ok seen
  | expected, r :: rest, seen => do
      let seen ← checkRecord n seen expected r
      checkRecords n (expected + 1) rest seen

/-- The checks of a node's boundary. -/
def checkBoundary (n : ν) (baseIndex baseTerm : ℕ) (seen : Seen ν) : Except (Error ν) (Seen ν) :=
  if baseIndex = 0 then .ok seen
  else if (seen.boundaries.lookup baseIndex).any (·.2 ≠ baseTerm) then
    .error (.stateMachineSafety n)
  else if (seen.entries.lookup baseIndex).any (·.entry.term ≠ baseTerm) then
    .error (.stateMachineSafety n)
  else .ok { seen with boundaries := seen.boundaries.setDefault baseIndex (n, baseTerm) }

/-- The checks of one node. -/
def checkApplied (s : Cluster ν) (seen : Seen ν) (n : ν) : Except (Error ν) (Seen ν) := do
  let seen ← checkBoundary n (s.applier.baseIndex n) (s.applier.baseTerm n) seen
  let seen ← checkRecords n (s.applier.baseIndex n + 1) (s.applier.applied n) seen
  let p := s.persistent n
  if durableStateLoads n s ∧ p.stateMachineBaseIndex = s.applier.baseIndex n ∧
      p.stateMachineBaseTerm = s.applier.baseTerm n ∧
      p.stateMachineApplied = (s.applier.applied n).map (·.entry) then
    .ok seen
  else .error (.stateMachineSafety n)

/-- `assert_state_machine_safety`. -/
def assertStateMachineSafety (s : Cluster ν) : Op ν Unit :=
  match C.nodeIds.foldlM (checkApplied s) {} with
  | .ok _ => .returns () s
  | .error violation => .raises violation s

/-! ## The replicated KV store -/

/-- `_execute_operation`. -/
def executeOperation (operation : KVOperation) (state : Dict String String) : Dict String String :=
  match operation with
  | .put key value => state.insert key value
  | .delete key => state.erase key

/-- A request is older than one of its client that the image has. -/
def isStale (image : KVImage) (clientId : String) (requestId : ℕ) : Bool :=
  image.requests.keys.any fun key => key.1 = clientId ∧ requestId < key.2

/-- `_apply_command`, on the image of one node. -/
def applyCommand (n : ν) (command : Command ν) (image : KVImage) : Except (Error ν) KVImage :=
  match command with
  | .jointConsensus _ | .stableConsensus _ | .commitRecoveryBarrier => .ok image
  | .operation operation => .ok { image with state := executeOperation operation image.state }
  | .other _ => .error (.invalidKVCommand n)
  | .clientRequest clientId requestId operation =>
      match image.requests.lookup (clientId, requestId) with
      | some previous =>
          if previous ≠ operation then .error (.clientRequestConflict n) else .ok image
      | none =>
          if isStale image clientId requestId then .ok image
          else
            .ok
              { state := executeOperation operation image.state
                requests := image.requests.insert (clientId, requestId) operation }

/-- `_validate_entries`. -/
def validEntries (entries : List (LogEntry (Command ν))) : Bool :=
  entries.all fun entry => match entry.command with
    | .other _ => false
    | _ => true

/-- `_validate_request_conflicts`, from the requests seen so far. -/
def requestsAgree : List (LogEntry (Command ν)) → Dict (String × ℕ) KVOperation → Bool
  | [], _ => true
  | entry :: rest, seen =>
      match entry.command with
      | .clientRequest clientId requestId operation =>
          decide (¬ (seen.lookup (clientId, requestId)).any (· ≠ operation)) &&
            requestsAgree rest (seen.setDefault (clientId, requestId) operation)
      | _ => requestsAgree rest seen

/-- The commands of applied entries, one after the other, on the image of a node. -/
def applyCommands (n : ν) : List (LogEntry (Command ν)) → Cluster ν → Op ν Unit
  | [], s => .returns () s
  | entry :: rest, s =>
      match applyCommand n entry.command (s.kv n) with
      | .error violation => .raises violation s
      | .ok image => applyCommands n rest { s with kv := Function.update s.kv n image }

/-- The entries that `ReplicatedKV.apply_committed` validates. -/
def pendingEntries (n : ν) (s : Cluster ν) : List (LogEntry (Command ν)) :=
  let start := s.applier.lastApplied n + 1
  if start ≤ s.commitIndex n then
    ((s.logView n).suffixFrom start).take (s.commitIndex n + 1 - start)
  else []

/-- `ReplicatedKV.apply_committed`. -/
def kvApplyCommitted (n : ν) (s : Cluster ν) : Op ν (List (AppliedEntry ν)) :=
  let start := s.applier.lastApplied n + 1
  let view := s.logView n
  if start ≤ s.commitIndex n ∧ (start < view.firstRetainedIndex ∨ view.lastIndex + 1 < start) then
    .raises (.indexError n start) s
  else
    if ¬ validEntries (pendingEntries n s) then .raises (.invalidKVCommand n) s
    else if ¬ requestsAgree (pendingEntries n s) (s.kv n).requests then
      .raises (.clientRequestConflict n) s
    else
      (applierApplyCommitted n s).bind fun applied s =>
        (applyCommands n (applied.map (·.entry)) s).bind fun _ s => .returns applied s

end Distlab.Raft
