import Distlab.Raft.Transition

/-!
# The safety harness

The checkers of `RaftSafetyHarness` and its checkpoint. The harness's applier is
the cluster's.
-/

set_option autoImplicit false

namespace Distlab.Raft

open Foundations

variable {ν : Type} [LinearOrder ν] (C : Config ν)

/-- A check that reads and writes the observations of the harness. -/
abbrev Check (ν : Type) := RaftSafetyHarness ν → Outcome (Error ν) (RaftSafetyHarness ν) Unit

/-- A check of the cluster's harness. -/
def observe (check : Check ν) (s : Cluster ν) : Op ν Unit :=
  match check s.harness with
  | .raises violation harness => .raises violation { s with harness := harness }
  | .returns _ harness => .returns () { s with harness := harness }

/-! ## Election safety -/

/-- `ElectionSafetyChecker.observe_leader`. -/
def observeElection (term : ℕ) (n : ν) : Check ν := fun harness =>
  match harness.leadersByTerm.lookup term with
  | some existing =>
      if existing ≠ n then .raises (.observedElectionSafety term existing n) harness
      else .returns () harness
  | none => .returns () { harness with leadersByTerm := harness.leadersByTerm.insert term n }

/-- The recorded leaders of the cluster, in the order of their terms. -/
def recordedLeaders (s : Cluster ν) : List (ℕ × ν) := s.leadersByTerm.sortedItems (· ≤ ·)

/-- The live leader roles of the cluster. -/
def leaderRoles (s : Cluster ν) : List ν := C.nodeIds.filter (s.role · = .leader)

/-- `ElectionSafetyChecker.assert_cluster`. -/
def assertElectionSafety (s : Cluster ν) : Op ν Unit :=
  Outcome.forEach (recordedLeaders s ++ (leaderRoles C s).map fun n => (s.currentTerm n, n))
    (fun item => observe (observeElection item.1 item.2)) s

/-! ## Leader append-only -/

/-- The current log of a leadership keeps the log observed before. -/
def keepsObservedLog (previous current : RaftLogView (Command ν)) : Bool :=
  let start := max previous.firstRetainedIndex current.firstRetainedIndex
  decide (previous.baseIndex ≤ current.baseIndex) &&
  decide (previous.lastIndex ≤ current.lastIndex) &&
  decide (previous.baseIndex < current.baseIndex ∧ current.baseIndex ≤ previous.lastIndex →
    previous.termAt current.baseIndex = some current.baseTerm) &&
  (List.range' start (previous.lastIndex + 1 - start)).all fun index =>
    decide (current.entryAt index = previous.entryAt index)

/-- `LeaderAppendOnlyChecker.observe_leader`. -/
def observeLog (term : ℕ) (n : ν) (current : RaftLogView (Command ν)) : Check ν :=
  fun harness =>
    if (harness.logsByLeadership.lookup (term, n)).any fun previous =>
        ¬ keepsObservedLog previous current then
      .raises (.leaderAppendOnly term n) harness
    else
      .returns () { harness with
        logsByLeadership := harness.logsByLeadership.insert (term, n) current }

/-- `LeaderAppendOnlyChecker.assert_cluster`. -/
def assertLeaderAppendOnly (s : Cluster ν) : Op ν Unit :=
  Outcome.forEach (leaderRoles C s)
    (fun n s => observe (observeLog (s.currentTerm n) n (s.logView n)) s) s

/-! ## Leader completeness -/

/-- `observe_commit` of the entry at one index. -/
def observeEntry (n : ν) (term : ℕ) (log : RaftLogView (Command ν)) (index : ℕ) : Check ν :=
  fun harness =>
    match log.entryAt index with
    | none => .raises (.indexError n index) harness
    | some entry =>
        match harness.committed.lookup index with
        | some existing =>
            if existing.entry ≠ entry then .raises (.leaderCompleteness index n) harness
            else .returns () harness
        | none =>
            .returns () { harness with
              committed := harness.committed.insert index ⟨index, entry, term, n⟩ }

/-- A leader's log keeps one observed entry. -/
def keepsCommitted (term : ℕ) (log : RaftLogView (Command ν))
    (observation : CommittedEntryObservation ν) : Bool :=
  decide (term ≤ observation.committedInTerm) ||
  decide (observation.index < log.baseIndex) ||
  if observation.index = log.baseIndex then decide (log.baseTerm = observation.entry.term)
  else decide (log.entryAt observation.index = some observation.entry)

/-- `assert_leader_view`. -/
def assertLeaderView (term : ℕ) (n : ν) (log : RaftLogView (Command ν)) : Check ν :=
  fun harness =>
    match harness.committed.sortedValues.find? fun o => ¬ keepsCommitted term log o with
    | some violated => .raises (.leaderCompleteness violated.index n) harness
    | none => .returns () harness

/-- The first index that a checkpoint observes of a leader. -/
def firstObserved (n : ν) (s : Cluster ν) (harness : RaftSafetyHarness ν) : ℕ :=
  let observed := harness.observedCommitIndex n
  let previous := if s.commitIndex n < observed then 0 else observed
  max (previous + 1) (s.logView n).firstRetainedIndex

/-- `LeaderCompletenessChecker.observe_commit` of one leader of a checkpoint. -/
def observeCommit (n : ν) (s : Cluster ν) : Check ν := fun harness =>
  let first := firstObserved n s harness
  (Outcome.forEach (List.range' first (s.commitIndex n + 1 - first))
    (observeEntry n (s.currentTerm n) (s.logView n)) harness).bind fun _ harness =>
      (assertLeaderView (s.currentTerm n) n (s.logView n) harness).bind fun _ harness =>
        .returns () { harness with
          observedCommitIndex := Function.update harness.observedCommitIndex n (s.commitIndex n) }

/-- The part of a checkpoint that observes the commit indexes of the leaders. -/
def observeCommits (s : Cluster ν) : Op ν Unit :=
  Outcome.forEach (leaderRoles C s) (fun n s => observe (observeCommit n s) s) s

/-- `assert_recorded_leaders`. -/
def assertRecordedLeaders (s : Cluster ν) : Op ν Unit :=
  Outcome.forEach (recordedLeaders s)
    (fun item s => observe (assertLeaderView item.1 item.2 (s.logView item.2)) s) s

/-! ## Checkpoints -/

/-- `RaftSafetyHarness.checkpoint`. -/
def checkpoint (s : Cluster ν) : Op ν Unit :=
  (assertElectionSafety C s).bind fun _ s =>
    (assertLeaderAppendOnly C s).bind fun _ s =>
      (observeCommits C s).bind fun _ s =>
        (assertRecordedLeaders s).bind fun _ s =>
          (assertLogMatching C s).bind fun _ s => assertStateMachineSafety C s

end Distlab.Raft
