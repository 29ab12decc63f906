import Distlab.Raft.Delivery

/-!
# Voting configurations

The live configuration of a `ReconfigurableRaftCluster` and its two transitions,
the durable watermark of committed membership, and the recovery of the
configuration from durable state.
-/

set_option autoImplicit false

namespace Distlab.Raft

open Foundations

variable {ν : Type} [LinearOrder ν] (C : Config ν)

/-- The elements of a set in increasing order. -/
def ascending (voters : Finset ν) : List ν :=
  (C.nodeIds.filter (· ∈ voters)).insertionSort (· ≤ ·)

/-- `_install_voting_configuration`. -/
def installVotingConfiguration (configuration : VotingConfiguration ν) (s : Cluster ν) :
    Cluster ν :=
  let previousVoters := s.votingConfiguration.voters
  let s := { s with votingConfiguration := configuration }
  let s := (ascending C (previousVoters \ configuration.voters)).foldl
    (fun s n => disableElectionTimeout n s) s
  (ascending C (configuration.voters \ previousVoters)).foldl
    (fun s n => resetElectionTimeout C n s) s

/-- `begin_joint_consensus`. -/
def beginJointConsensus (leader : ν) (newVoters : Finset ν) (s : Cluster ν) : Op ν Unit :=
  if leader ∉ C.nodeIds ∨ ¬ s.alive leader ∨ s.role leader ≠ .leader then
    .raises (.membershipChange leader) s
  else if s.votingConfiguration.isJoint then .raises (.membershipChange leader) s
  else if newVoters = ∅ ∨ ¬ newVoters ⊆ C.nodeIds.toFinset then
    .raises (.membershipProposal leader) s
  else
    let old := s.votingConfiguration.oldVoters
    let s := installVotingConfiguration C ⟨old, some newVoters⟩ s
    .returns () (s.record (.membershipJoint leader (s.currentTerm leader) old newVoters))

/-- `finalize_membership`. -/
def finalizeMembership (leader : ν) (s : Cluster ν) : Op ν Unit :=
  if leader ∉ C.nodeIds ∨ ¬ s.alive leader ∨ s.role leader ≠ .leader then
    .raises (.membershipChange leader) s
  else
    match s.votingConfiguration.newVoters with
    | none => .raises (.membershipChange leader) s
    | some new =>
        if leader ∉ new then .raises (.membershipChange leader) s
        else
          let old := s.votingConfiguration.oldVoters
          let s := installVotingConfiguration C ⟨new, none⟩ s
          .returns () (s.record (.membershipStable leader (s.currentTerm leader) old new))

/-- `_persist_membership_commit_watermark`. -/
def persistMembershipCommitWatermark (index : ℕ) (command : Command ν) (s : Cluster ν) :
    Cluster ν :=
  C.nodeIds.foldl (fun s n =>
    if ((s.logView n).entryAt index).map (·.command) = some command then
      s.updatePersistent n fun p =>
        { p with membershipCommitIndex := max p.membershipCommitIndex index }
    else s) s

/-- `_install_committed_membership`. -/
def installCommittedMembership (leader : ν) (command : Command ν) (s : Cluster ν) : Op ν Unit :=
  match command, s.votingConfiguration.newVoters with
  | .jointConsensus proposed, some new =>
      if new ≠ proposed then .raises (.membershipChange leader) s else .returns () s
  | .jointConsensus proposed, none => beginJointConsensus C leader proposed s
  | .stableConsensus voters, none =>
      if s.votingConfiguration.oldVoters ≠ voters then .raises (.membershipChange leader) s
      else .returns () s
  | .stableConsensus voters, some new =>
      if new ≠ voters ∨ leader ∉ voters then .raises (.membershipChange leader) s
      else finalizeMembership C leader s
  | _, _ => .returns () s

/-! ## Recovery -/

/-- `_configuration_from_snapshot`. -/
def configurationFromSnapshot (n : ν) (s : Cluster ν) :
    Except (Error ν) (VotingConfiguration ν) :=
  match (s.persistent n).kvSnapshot with
  | none => .error (.membershipChange n)
  | some snapshot =>
      if snapshot.lastIncludedIndex ≠ (s.logView n).baseIndex ∨
          snapshot.lastIncludedTerm ≠ (s.logView n).baseTerm then
        .error (.membershipChange n)
      else
        match snapshot.votingConfiguration with
        | none => .error (.membershipChange n)
        | some membership =>
            if (s.logView n).baseIndex < membership.committedIndex ∨
                (s.persistent n).membershipCommitIndex < membership.committedIndex ∨
                ¬ membership.oldVoters ∪ membership.newVoters.getD ∅ ⊆ C.nodeIds.toFinset then
              .error (.membershipChange n)
            else .ok ⟨membership.oldVoters, membership.newVoters⟩

/-- One step of `_replay_membership_prefix`. -/
def replayMembership (n : ν) (configuration : VotingConfiguration ν)
    (entry : LogEntry (Command ν)) : Except (Error ν) (VotingConfiguration ν) :=
  match entry.command, configuration.newVoters with
  | .jointConsensus newVoters, none =>
      if newVoters ⊆ C.nodeIds.toFinset then .ok ⟨configuration.oldVoters, some newVoters⟩
      else .error (.membershipChange n)
  | .jointConsensus _, some _ => .error (.membershipChange n)
  | .stableConsensus _, none => .error (.membershipChange n)
  | .stableConsensus voters, some new =>
      if voters = new then .ok ⟨voters, none⟩ else .error (.membershipChange n)
  | _, _ => .ok configuration

/-- The configuration that one replica's durable state supports. -/
def candidateConfiguration (initial : VotingConfiguration ν) (committedIndex : ℕ) (n : ν)
    (s : Cluster ν) : Except (Error ν) (VotingConfiguration ν) := do
  let view := s.logView n
  let base ← if 0 < view.baseIndex then configurationFromSnapshot C n s else .ok initial
  if view.lastIndex < committedIndex then .error (.membershipChange n)
  else
    ((List.range' (view.baseIndex + 1) (committedIndex - view.baseIndex)).filterMap
      view.entryAt).foldlM (replayMembership C n) base

/-- `recover_voting_configuration`. -/
def recoverVotingConfiguration (initial : VotingConfiguration ν) (s : Cluster ν) :
    Except (Error ν) (VotingConfiguration ν) := do
  let committedIndex := durableMembershipCommitIndex C s
  if committedIndex = 0 then .ok initial
  else
    let sources := (C.nodeIds.insertionSort (· ≤ ·)).filter fun n =>
      (s.persistent n).membershipCommitIndex = committedIndex
    let recovered ← sources.foldlM (fun recovered n => do
      let candidate ← candidateConfiguration C initial committedIndex n s
      match recovered with
      | none => pure (some candidate)
      | some known =>
          if candidate ≠ known then .error (.membershipChange n) else pure (some known)) none
    match recovered with
    | none => .error (.membershipChange (C.nodeIds.head C.nonempty))
    | some configuration => .ok configuration

end Distlab.Raft
