import Distlab.Raft.Replication

/-!
# Membership transitions

`ReplicatedMembershipTransition` appends the joint and the stable configuration
as log entries and activates them once they are committed. A transition is named
by its position in the cluster's list.
-/

set_option autoImplicit false

namespace Distlab.Raft

open Foundations

variable {ν : Type} [LinearOrder ν] (C : Config ν)

namespace Cluster

omit [LinearOrder ν] in
def updateTransition (s : Cluster ν) (i : ℕ)
    (f : MembershipTransition ν → MembershipTransition ν) : Cluster ν :=
  { s with transitions := s.transitions.modify i f }

end Cluster

/-- `_require_current_leader`. -/
def requireTransitionLeader (t : MembershipTransition ν) (s : Cluster ν) : Op ν Unit :=
  if ¬ s.alive t.leader ∨ s.role t.leader ≠ .leader ∨ s.currentTerm t.leader ≠ t.term ∨
      s.activeLeaderGenerations.lookup t.leader ≠ some (t.term, t.generation) then
    .raises (.membershipChange t.leader) s
  else .returns () s

/-- The membership commands of a leader's log above the durable watermark. -/
def uncommittedMembership (leader : ν) (s : Cluster ν) : List (ℕ × Command ν) :=
  let log := s.logView leader
  let start := max (durableMembershipCommitIndex C s + 1) log.firstRetainedIndex
  (List.range' start (log.lastIndex + 1 - start)).filterMap fun index =>
    (log.entryAt index).bind fun entry =>
      if entry.command.isMembership then some (index, entry.command) else none

/-- `_recover_pending_command`. -/
def recoverPendingCommand (leader : ν) (s : Cluster ν) :
    Except (Error ν) (Option (ℕ × Command ν)) :=
  match uncommittedMembership C leader s with
  | [] => .ok none
  | [(index, .jointConsensus newVoters)] =>
      if s.votingConfiguration.isJoint ∨ ¬ newVoters ⊆ C.nodeIds.toFinset then
        .error (.membershipChange leader)
      else .ok (some (index, .jointConsensus newVoters))
  | [(index, .stableConsensus voters)] =>
      if s.votingConfiguration.newVoters ≠ some voters then .error (.membershipChange leader)
      else .ok (some (index, .stableConsensus voters))
  | _ => .error (.membershipChange leader)

/-- The constructor of a transition. -/
def newTransition (leader : ν) (s : Cluster ν) : Op ν Unit :=
  match C.kind, s.activeLeaderGenerations.lookup leader with
  | .fixed, _ => .raises (.membershipChange leader) s
  | .reconfigurable _, none => .raises (.membershipChange leader) s
  | .reconfigurable _, some (term, generation) =>
      if leader ∉ C.nodeIds then .raises (.unknownNode leader) s
      else if term ≠ s.currentTerm leader then .raises (.membershipChange leader) s
      else
        (requireTransitionLeader ⟨leader, term, generation, none⟩ s).bind fun _ s =>
          match recoverPendingCommand C leader s with
          | .error violation => .raises violation s
          | .ok pending =>
              .returns () { s with
                transitions := s.transitions ++ [⟨leader, term, generation, pending⟩] }

/-- `_append_pending`. -/
def appendPending (i : ℕ) (t : MembershipTransition ν) (command : Command ν) (s : Cluster ν) :
    Op ν ℕ :=
  let entry : LogEntry (Command ν) := ⟨t.term, command⟩
  let s := s.updatePersistent t.leader fun p =>
    { p with log := { p.log with entries := p.log.entries ++ [entry] } }
  let index := (s.logView t.leader).lastIndex
  .returns index (s.updateTransition i fun t => { t with pending := some (index, command) })

/-- `propose_joint`. -/
def proposeJoint (i : ℕ) (newVoters : Finset ν) (s : Cluster ν) : Op ν ℕ :=
  match s.transitions[i]? with
  | none => .returns 0 s
  | some t =>
      (requireTransitionLeader t s).bind fun _ s =>
        if t.pending.isSome ∨ s.votingConfiguration.isJoint then
          .raises (.membershipChange t.leader) s
        else if newVoters = ∅ ∨ ¬ newVoters ⊆ C.nodeIds.toFinset then
          .raises (.membershipProposal t.leader) s
        else appendPending i t (.jointConsensus newVoters) s

/-- `propose_finalize`. -/
def proposeFinalize (i : ℕ) (s : Cluster ν) : Op ν ℕ :=
  match s.transitions[i]? with
  | none => .returns 0 s
  | some t =>
      (requireTransitionLeader t s).bind fun _ s =>
        match s.votingConfiguration.newVoters with
        | none => .raises (.membershipChange t.leader) s
        | some new =>
            if t.pending.isSome ∨ t.leader ∉ new then .raises (.membershipChange t.leader) s
            else appendPending i t (.stableConsensus new) s

/-- `_committed_pending`. -/
def committedPending (t : MembershipTransition ν) (r : LeaderReplicator ν) (s : Cluster ν) :
    Op ν (Option (ℕ × Command ν)) :=
  (requireTransitionLeader t s).bind fun _ s =>
    if r.leader ≠ t.leader then .raises (.membershipChange t.leader) s
    else
      match t.pending with
      | none => .raises (.membershipChange t.leader) s
      | some (index, command) =>
          if r.commitIndex < index then .returns none s
          else
            match (s.logView t.leader).entryAt index with
            | none => .raises (.indexError t.leader index) s
            | some entry =>
                if entry.command ≠ command then .raises (.membershipChange t.leader) s
                else .returns (some (index, command)) s

/-- A committed pending command becomes durable and active. -/
def applyPending (i : ℕ) (leader : ν) (index : ℕ) (command : Command ν) (s : Cluster ν) :
    Op ν Bool :=
  (installCommittedMembership C leader command
    (persistMembershipCommitWatermark C index command s)).bind fun _ s =>
    .returns true (s.updateTransition i fun t => { t with pending := none })

/-- `activate_if_committed`, with a replicator. -/
def activateIfCommitted (i : ℕ) (r : LeaderReplicator ν) (s : Cluster ν) : Op ν Bool :=
  match s.transitions[i]? with
  | none => .returns false s
  | some t =>
      (committedPending t r s).bind fun pending s =>
        match pending with
        | none => .returns false s
        | some (index, .jointConsensus newVoters) =>
            applyPending C i t.leader index (.jointConsensus newVoters) s
        | some _ => .raises (.membershipChange t.leader) s

/-- `finalize_if_committed`, with a replicator. -/
def finalizeIfCommitted (i : ℕ) (r : LeaderReplicator ν) (s : Cluster ν) : Op ν Bool :=
  match s.transitions[i]? with
  | none => .returns false s
  | some t =>
      (committedPending t r s).bind fun pending s =>
        match pending with
        | none => .returns false s
        | some (index, .stableConsensus voters) =>
            if s.votingConfiguration.newVoters.getD s.votingConfiguration.oldVoters ≠ voters then
              .raises (.membershipChange t.leader) s
            else applyPending C i t.leader index (.stableConsensus voters) s
        | some _ => .raises (.membershipChange t.leader) s

/-- `_ensure_current_term_commit_target`. -/
def ensureCurrentTermCommitTarget (t : MembershipTransition ν) (s : Cluster ν) : Op ν Unit :=
  match t.pending with
  | none => .returns () s
  | some (index, _) =>
      let log := s.logView t.leader
      match log.termAt index with
      | none => .raises (.indexError t.leader index) s
      | some term =>
          if term = t.term ∨ (List.range' (index + 1) (log.lastIndex - index)).any
              (fun candidate => log.termAt candidate = some t.term) then
            .returns () s
          else
            (appendCurrentTerm t.leader .commitRecoveryBarrier s).bind fun _ s => .returns () s

/-- The peers of `_replicate_until_applied`, each with the deliveries of its attempts. -/
def replicateUntilApplied (i position : ℕ)
    (applyCommitted : ℕ → LeaderReplicator ν → Cluster ν → Op ν Bool) (maxAttempts : ℕ) :
    List (ν × List (List Delivery)) → Cluster ν → Op ν Bool
  | [], s => .returns false s
  | (peer, schedules) :: rest, s =>
      if ¬ s.alive peer then replicateUntilApplied i position applyCommitted maxAttempts rest s
      else
        (replicate C position peer (some maxAttempts) schedules s).bind fun _ s =>
          match s.replicators[position]? with
          | none => .returns false s
          | some r =>
              (applyCommitted i r s).bind fun done s =>
                if done then .returns true s
                else replicateUntilApplied i position applyCommitted maxAttempts rest s

/-- The voters that a pending command adds to the peers of a transition. -/
def Command.proposedVoters : Command ν → Finset ν
  | .jointConsensus newVoters => newVoters
  | _ => ∅

/-- `_replicate_until_applied`, with the deliveries of each attempt to each peer. -/
def driveTransition (i : ℕ) (t : MembershipTransition ν) (command : Command ν)
    (applyCommitted : ℕ → LeaderReplicator ν → Cluster ν → Op ν Bool) (maxAttempts : ℕ)
    (schedules : ν → List (List Delivery)) (s : Cluster ν) : Op ν Bool :=
  if maxAttempts = 0 then .raises .maxAttemptsNotPositive s
  else
    (requireTransitionLeader t s).bind fun _ s =>
      (ensureCurrentTermCommitTarget t s).bind fun _ s =>
        let position := s.replicators.length
        (newReplicator C t.leader false true s).bind fun _ s =>
          (advanceCommitIndex C position s).bind fun _ s =>
            match s.replicators[position]? with
            | none => .returns false s
            | some r =>
                (applyCommitted i r s).bind fun done s =>
                  if done then .returns true s
                  else
                    let voters := s.votingConfiguration.voters ∪ command.proposedVoters
                    let peers := (ascending C voters).filter (· ≠ t.leader)
                    replicateUntilApplied C i position applyCommitted maxAttempts
                      (peers.map fun peer => (peer, schedules peer)) s

/-- `replicate_and_activate`. -/
def replicateAndActivate (i maxAttempts : ℕ) (schedules : ν → List (List Delivery))
    (s : Cluster ν) : Op ν Bool :=
  match s.transitions[i]? with
  | none => .returns false s
  | some t =>
      (requireTransitionLeader t s).bind fun _ s =>
        match t.pending with
        | some (_, .jointConsensus newVoters) =>
            driveTransition C i t (.jointConsensus newVoters) (activateIfCommitted C) maxAttempts
              schedules s
        | _ => .raises (.membershipChange t.leader) s

/-- `replicate_and_finalize`. -/
def replicateAndFinalize (i maxAttempts : ℕ) (schedules : ν → List (List Delivery))
    (s : Cluster ν) : Op ν Bool :=
  match s.transitions[i]? with
  | none => .returns false s
  | some t =>
      (requireTransitionLeader t s).bind fun _ s =>
        match t.pending with
        | some (_, .stableConsensus voters) =>
            if t.leader ∉ voters then .raises (.membershipChange t.leader) s
            else
              driveTransition C i t (.stableConsensus voters) (finalizeIfCommitted C) maxAttempts
                schedules s
        | _ => .raises (.membershipChange t.leader) s

end Distlab.Raft
