import Distlab.Raft.TimerHandlers

/-!
# Election timers

In every run of a cluster with election timeouts, each live voter that does not
lead has one timeout in the queue that its timer accepts, and no other queued
timeout is accepted when it is delivered.
-/

set_option autoImplicit false

namespace Distlab.Raft

open Foundations Simulation

variable {ν : Type} [LinearOrder ν] {C : Config ν} {n : ν} {s t : Cluster ν}

/-! ## Operations -/

/-- Every outcome of the operation keeps the node's timer or arms it anew. -/
abbrev Settles {β : Type} (C : Config ν) (n : ν) (s : Cluster ν) (op : Op ν β) : Prop :=
  op.Ensures (Settled C n s) fun _ _ => True

section Rules

variable {β γ : Type}

theorem Settles.bind {op : Op ν β} {next : β → Cluster ν → Op ν γ} (first : Settles C n s op)
    (rest : ∀ b t, Settles C n t (next b t)) : Settles C n s (op.bind next) :=
  Outcome.Ensures.bind first
    (fun b t _ settled => (rest b t).mono (fun _ after => settled.trans after) fun _ _ => id)
    fun _ => id

theorem Settles.after {op : Op ν β} (first : Settled C n s t) (rest : Settles C n t op) :
    Settles C n s op := rest.mono (fun _ after => first.trans after) fun _ _ => id

theorem Quietly.settles {op : Op ν β} (quiet : Quietly s op) : Settles C n s op :=
  quiet.mono (fun _ step => .inl step.kept) fun _ _ => id

theorem Settles.of_acts {m : ν} {op : Op ν β} (acts : op.Ensures (Acts C n m s) fun _ _ => True) :
    Settles C n s op := acts.mono (fun _ step => step.settled) fun _ _ => id

theorem settles_dropValue {op : Op ν β} (first : Settles C n s op) :
    Settles C n s (dropValue op) := first.bind fun _ t => Settled.refl t

theorem settles_withReplicator {i : ℕ} {operation : LeaderReplicator ν → Cluster ν → Op ν β}
    (each : ∀ r, Settles C n s (operation r s)) :
    Settles C n s (withReplicator i operation s) := by
  unfold withReplicator
  split
  · exact Settled.refl s
  · exact settles_dropValue (each _)

end Rules

section Membership

variable (timed : Timed C) (member : n ∈ C.nodeIds) (reconfigures : C.reconfigures = true)

include timed member reconfigures

theorem settled_activate (configuration : VotingConfiguration ν) :
    Settled C n s (installVotingConfiguration C configuration s) := by
  unfold Config.reconfigures at reconfigures
  split at reconfigures
  next => cases reconfigures
  next bootstrap kind => exact settled_installVotingConfiguration timed kind member configuration

theorem settles_beginJointConsensus (leader : ν) (newVoters : Finset ν) :
    Settles C n s (beginJointConsensus C leader newVoters s) := by
  unfold beginJointConsensus
  split
  · exact ⟨.refl s, trivial⟩
  split
  · exact ⟨.refl s, trivial⟩
  split
  · exact ⟨.refl s, trivial⟩
  · exact (settled_activate timed member reconfigures _).trans (.inl (quiet_record _).kept)

theorem settles_finalizeMembership (leader : ν) :
    Settles C n s (finalizeMembership C leader s) := by
  unfold finalizeMembership
  split
  · exact ⟨.refl s, trivial⟩
  split
  · exact ⟨.refl s, trivial⟩
  split
  · exact ⟨.refl s, trivial⟩
  · exact (settled_activate timed member reconfigures _).trans (.inl (quiet_record _).kept)

theorem settles_installCommittedMembership (leader : ν) (command : Command ν) :
    Settles C n s (installCommittedMembership C leader command s) := by
  unfold installCommittedMembership
  split
  · split
    · exact ⟨.refl s, trivial⟩
    · exact Settled.refl s
  · exact settles_beginJointConsensus timed member reconfigures leader _
  · split
    · exact ⟨.refl s, trivial⟩
    · exact Settled.refl s
  · split
    · exact ⟨.refl s, trivial⟩
    · exact settles_finalizeMembership timed member reconfigures leader
  · exact Settled.refl s

theorem settles_applyPending (i : ℕ) (leader : ν) (index : ℕ) (command : Command ν) :
    Settles C n s (applyPending C i leader index command s) := by
  have watermark : Settled C n s (persistMembershipCommitWatermark C index command s) :=
    .inl (quiet_persistMembershipCommitWatermark index command).kept
  refine .after watermark ?_
  refine Settles.bind ?_ fun _ t => .inl (quiet_updateTransition i _).kept
  exact settles_installCommittedMembership timed member reconfigures leader command

theorem settles_activateIfCommitted (i : ℕ) (r : LeaderReplicator ν) :
    Settles C n s (activateIfCommitted C i r s) := by
  unfold activateIfCommitted
  split
  · exact Settled.refl s
  · refine (quietly_committedPending _ r).settles.bind fun pending t => ?_
    split
    · exact Settled.refl t
    · exact settles_applyPending timed member reconfigures i _ _ _
    · exact ⟨.refl t, trivial⟩

theorem settles_finalizeIfCommitted (i : ℕ) (r : LeaderReplicator ν) :
    Settles C n s (finalizeIfCommitted C i r s) := by
  unfold finalizeIfCommitted
  split
  · exact Settled.refl s
  · refine (quietly_committedPending _ r).settles.bind fun pending t => ?_
    split
    · exact Settled.refl t
    · split
      · exact ⟨.refl t, trivial⟩
      · exact settles_applyPending timed member reconfigures i _ _ _
    · exact ⟨.refl t, trivial⟩

theorem settles_persistCommittedMembership (leader : ν) (commitIndex : ℕ) :
    Settles C n s (persistCommittedMembership C leader commitIndex s) := by
  unfold persistCommittedMembership
  refine Outcome.ensures_forEach (fun index _ t settled => ?_) s (Settled.refl s)
  refine Settles.after settled ?_
  split
  · exact ⟨.refl t, trivial⟩
  next entry found =>
    split
    · have watermark : Settled C n t (persistMembershipCommitWatermark C index entry.command t) :=
        .inl (quiet_persistMembershipCommitWatermark index entry.command).kept
      exact .after watermark
        (settles_installCommittedMembership timed member reconfigures leader entry.command)
    · exact Settled.refl t

end Membership

variable (timed : Timed C) (member : n ∈ C.nodeIds)

include timed member

theorem settles_advanceCommitIndex (i : ℕ) : Settles C n s (advanceCommitIndex C i s) := by
  unfold advanceCommitIndex
  split
  · exact Settled.refl s
  next r found =>
    refine (quietly_requireCurrentLeader r).settles.bind fun _ t => ?_
    split
    · exact ⟨.refl t, trivial⟩
    · exact Settled.refl t
    · next index scanned =>
      have advanced : Settled C n t
          (t.updateReplicator i fun r => { r with commitIndex := index }) :=
        .inl (quiet_updateReplicator i _).kept
      refine .after advanced ((quietly_advanceNodeCommit index).settles.bind fun _ u => ?_)
      refine Settles.bind ?_ fun _ v => .inl (quiet_record _).kept
      split
      next uses =>
        refine settles_persistCommittedMembership timed member ?_ _ _
        unfold Config.reconfigures
        cases kind : C.kind with
        | fixed =>
            unfold usesConfiguration at uses
            rw [kind] at uses
            cases uses
        | reconfigurable bootstrap => rfl
      next => exact Settled.refl u

/-- Every event that a driver calls on the cluster, except a crash, settles the
timer of every node. -/
theorem settles_perform {event : Event ν} (called : event.node.all (· ∈ C.nodeIds) = true)
    (still : event.simulates = false)
    (offered : event.needsTransition = true → C.reconfigures = true)
    (alive : ∀ m, event ≠ .crash m) : Settles C n s (perform C event s) := by
  have timer : ∀ m, event.node = some m → ∃ timeout, C.electionTimeout m = some timeout := by
    intro m at_
    rw [at_] at called
    exact timed m (by simpa using called)
  cases event <;> simp only [Event.simulates, Bool.true_eq_false] at still
  case startElection m =>
    obtain ⟨timeout, timer⟩ := timer m rfl
    exact .of_acts (acts_startElection timer)
  case startPreVote m =>
    obtain ⟨timeout, timer⟩ := timer m rfl
    exact .of_acts (acts_startPreVote timer)
  case stepDown m =>
    obtain ⟨timeout, timer⟩ := timer m rfl
    exact settles_dropValue (.of_acts (acts_stepDown timer))
  case crash m => exact absurd rfl (alive m)
  case restart m =>
    obtain ⟨timeout, timer⟩ := timer m rfl
    exact (resets_restart timer).settled
  case sendAppendEntries => exact (quietly_sendAppendEntries _ _ _ _).settles
  case sendInstallSnapshot => exact (quietly_sendInstallSnapshot _ _ _ _).settles
  case appendCurrentTerm => exact settles_dropValue (quietly_appendCurrentTerm _).settles
  case newReplicator => exact (quietly_newReplicator _ _).settles
  case beginActivityProbe =>
    exact settles_withReplicator fun r => (quietly_beginActivityProbe r _).settles
  case advanceCommitIndex i => exact settles_dropValue (settles_advanceCommitIndex timed member i)
  case applyCommitted => exact settles_dropValue quietly_applierApplyCommitted.settles
  case kvApplyCommitted => exact settles_dropValue quietly_kvApplyCommitted.settles
  case createSnapshot => exact settles_dropValue quietly_createSnapshot.settles
  case compactSnapshot => exact settles_dropValue quietly_compactSnapshot.settles
  case installSnapshot => exact (quietly_installSnapshot _ _).settles
  case newTransition => exact quietly_newTransition.settles
  case proposeJoint => exact settles_dropValue (quietly_proposeJoint _ _).settles
  case proposeFinalize => exact settles_dropValue (quietly_proposeFinalize _).settles
  case activateIfCommitted i position =>
    exact settles_withReplicator fun r =>
      settles_activateIfCommitted timed member (offered rfl) i r
  case finalizeIfCommitted i position =>
    exact settles_withReplicator fun r =>
      settles_finalizeIfCommitted timed member (offered rfl) i r
  case checkpoint => exact quietly_checkpoint.settles

end Distlab.Raft
