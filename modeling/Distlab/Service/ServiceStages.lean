import Distlab.Raft.CommitFrontier
import Distlab.Raft.CommitRecovery
import Distlab.Service.LeaderService

/-!
# What the service does to the cluster

Every outcome of a part of a service call is reached in stages: the calls of the state
machine, what the protocol does, and the entries that the service appends to the leader's
log. The replicator of the call keeps its place meanwhile.
-/

set_option autoImplicit false

namespace Distlab.Service

open Foundations Raft Clients

variable {ν : Type} [LinearOrder ν] {C : Config ν} {P : Permit ν} {s t : Cluster ν}
  {leader : ν} {T i : ℕ}

/-! ## Operations in stages -/

/-- Every outcome is reached in stages. -/
abbrev Reaching {ε β : Type} (C : Config ν) (P : Permit ν) (s : Cluster ν)
    (op : Outcome ε (Cluster ν) β) : Prop :=
  op.Ensures (Stages C P s) fun _ _ => True

/-- Every outcome is reached in stages, and a replicator without snapshot transport keeps its
place. -/
abbrev Driving {ε β : Type} (C : Config ν) (P : Permit ν) (leader : ν) (T i : ℕ) (s : Cluster ν)
    (op : Outcome ε (Cluster ν) β) : Prop :=
  op.Ensures (fun t => Stages C P s t ∧ (Probing leader T i s → Probing leader T i t))
    fun _ _ => True

section Rules

variable {ε β γ : Type} {op : Outcome ε (Cluster ν) β}
  {next : β → Cluster ν → Outcome ε (Cluster ν) γ}

theorem Reaching.bind (first : Reaching C P s op)
    (rest : ∀ b t, op = .returns b t → Stages C P s t → Reaching C P t (next b t)) :
    Reaching C P s (op.bind next) :=
  Outcome.Ensures.bind first (fun b t returned stages =>
    (rest b t returned stages).mono (fun _ after => stages.trans after) fun _ _ => id) fun _ => id

theorem Reaching.raised (error : ε) (s : Cluster ν) :
    Reaching C P s (.raises error s : Outcome ε (Cluster ν) β) := ⟨.refl s, trivial⟩

theorem Driving.bind (first : Driving C P leader T i s op)
    (rest : ∀ b t, op = .returns b t → Stages C P s t → Driving C P leader T i t (next b t)) :
    Driving C P leader T i s (op.bind next) :=
  Outcome.Ensures.bind first (fun b t returned kept =>
    (rest b t returned kept.1).mono (fun _ after => ⟨kept.1.trans after.1, after.2 ∘ kept.2⟩)
      fun _ _ => id) fun _ => id

theorem Driving.refl (s : Cluster ν) :
    Stages C P s s ∧ (Probing leader T i s → Probing leader T i s) :=
  ⟨.refl s, id⟩

theorem Driving.raised (error : ε) (s : Cluster ν) :
    Driving C P leader T i s (.raises error s : Outcome ε (Cluster ν) β) :=
  ⟨Driving.refl s, trivial⟩

theorem Driving.after (first : Stages C P s t) (kept : Probing leader T i s → Probing leader T i t)
    (rest : Driving C P leader T i t op) : Driving C P leader T i s op :=
  rest.mono (fun _ after => ⟨first.trans after.1, after.2 ∘ kept⟩) fun _ _ => id

theorem Driving.reaching (driving : Driving C P leader T i s op) : Reaching C P s op :=
  driving.mono (fun _ kept => kept.1) fun _ _ => id

end Rules

section Wrapped

variable {β : Type}

theorem reaching_uncaught {op : Op ν β} (staged : Staged C P s op) :
    Reaching C P s (uncaught op) := by
  cases op with
  | returns b t => exact staged
  | raises error t => exact staged

theorem reaching_readUncaught {op : Op ν β} (staged : Staged C P s op) :
    Reaching C P s (ReadOp.uncaught op) := by
  cases op with
  | returns b t => exact staged
  | raises error t => exact staged

theorem reaching_fromReader {op : ReadOp ν β} (reaching : Reaching C P s op) :
    Reaching C P s (fromReader op) := by
  cases op with
  | returns b t => exact reaching
  | raises error t => exact reaching

theorem driving_uncaught {op : Op ν β} (staged : Staged C P s op)
    (keeps : Probing leader T i s → op.Ensures (Probing leader T i) fun _ _ => True) :
    Driving C P leader T i s (uncaught op) := by
  cases op with
  | returns b t => exact ⟨staged, keeps⟩
  | raises error t => exact ⟨⟨staged.1, fun probing => (keeps probing).1⟩, trivial⟩

omit [LinearOrder ν] in
theorem uncaught_eq_returns {op : Op ν β} {b : β} :
    uncaught op = .returns b t ↔ op = .returns b t := by
  cases op <;> simp [uncaught]

omit [LinearOrder ν] in
theorem fromReader_eq_returns {op : ReadOp ν β} {b : β} :
    fromReader op = .returns b t ↔ op = .returns b t := by
  cases op <;> simp [fromReader]

theorem driving_require (checked : Except (ServiceError ν) β) :
    Driving C P leader T i s (require checked s) := by
  cases checked with
  | ok b => exact Driving.refl s
  | error error => exact .raised error s

omit [LinearOrder ν] in
theorem require_eq_returns {σ : Type} {checked : Except (ServiceError ν) β} {a a' : σ} {b : β} :
    require checked a = .returns b a' ↔ checked = .ok b ∧ a = a' := by
  cases checked <;> simp [require]

end Wrapped

/-! ## The leader -/

/-- The generation guard passes for a live leader of the generation's term. -/
theorem requireGeneration_ok {generation : ℕ} {identity : LeaderRuntimeIdentity ν}
    (required : requireGeneration leader generation s = .ok identity) :
    identity.leaderId = leader ∧ identity.generation = generation ∧ s.alive leader = true ∧
      s.role leader = .leader ∧ s.currentTerm leader = identity.term := by
  unfold requireGeneration at required
  split at required
  · cases required
  next current found =>
  split at required
  · cases required
  next same =>
  cases required
  rw [not_not] at same
  unfold currentIdentity at found
  split at found
  · cases found
  next term active =>
  split at found
  · cases found
  next holds =>
    cases found
    rw [not_or, not_or, not_not, not_not, not_not] at holds
    exact ⟨rfl, same, holds⟩

/-- `_append_command` on a live leader: it never violates Leader Append-Only. -/
theorem appendCommand_eq (command : Command ν) :
    appendCommand leader command s =
      .returns ((s.logView leader).lastIndex + 1) (barrierAppended leader command s) := by
  have view : (barrierAppended leader command s).logView leader =
      (s.logView leader).append ⟨s.currentTerm leader, command⟩ := logView_barrierAppended
  have written : (s.updatePersistent leader fun p =>
      { p with log := { p.log with entries := p.log.entries ++ [⟨p.currentTerm, command⟩] } }) =
        barrierAppended leader command s := rfl
  unfold appendCommand
  dsimp only
  rw [written, view, RaftLogView.lastIndex_append]
  exact if_neg (not_not.mpr (List.take_left ..))

theorem stages_appended (alive : s.alive leader = true) (leads : s.role leader = .leader)
    {command : Command ν} (allowed : P.appends command) :
    Stages C P s (barrierAppended leader command s) := by
  have stage : Stage C P s (appendCurrentTerm leader command s).state :=
    .append leader command allowed
  rw [appendCurrentTerm_eq alive leads] at stage
  exact .one stage

theorem driving_appendCommand (alive : s.alive leader = true) (leads : s.role leader = .leader)
    {command : Command ν} (allowed : P.appends command) :
    Driving C P leader T i s (appendCommand leader command s) := by
  rw [appendCommand_eq]
  exact ⟨stages_appended alive leads allowed, id⟩

theorem driving_kvApplyCommitted (member : leader ∈ C.nodeIds) :
    Driving C P leader T i s (uncaught (kvApplyCommitted leader s)) := by
  refine driving_uncaught (Stage.staged (.apply leader member)) fun probing => ?_
  exact Outcome.Ensures.mono silences_kvApplyCommitted
    (fun _ silent => probing.of_same silent.replicators) fun _ _ => id

/-! ## Replicators -/

section Replicators

variable (tends : P.tends)
include tends

theorem reaching_newServiceReplicator :
    Reaching C P s (newServiceReplicator C leader s) := by
  unfold newServiceReplicator
  refine Reaching.bind (reaching_uncaught ?_) fun _ t _ _ => Stages.refl t
  exact Sparing.tended (sparing_newReplicator tends _ _) runs_newReplicator fun tracked =>
    tracked.newReplicator _ _

omit tends [LinearOrder ν] in
theorem alive_of_requireCurrentLeader {r : LeaderReplicator ν}
    (returned : requireCurrentLeader r s = .returns () t) : s.alive r.leader = true := by
  unfold requireCurrentLeader at returned
  split at returned
  · cases returned
  next current =>
    rw [not_or, not_not] at current
    exact current.1

omit tends in
/-- The new replicator is the last one of the cluster. -/
theorem newServiceReplicator_returns {made : ℕ × LeaderReplicator ν}
    (returned : newServiceReplicator C leader s = .returns made t) :
    leader ∈ C.nodeIds ∧ t.alive leader = true ∧ t.role leader = .leader ∧
      made.2.leader = leader ∧ t.replicators[made.1]? = some made.2 ∧
      made.2.snapshotTransport = false := by
  obtain ⟨membershipAware, same⟩ : ∃ membershipAware, newServiceReplicator C leader s =
      (uncaught (newReplicator C leader false membershipAware s)).bind fun _ s' =>
        .returns (s.replicators.length, runtimeReplicator leader membershipAware s) s' := ⟨_, rfl⟩
  rw [same] at returned
  obtain ⟨_, u, created, last⟩ := Outcome.bind_eq_returns.mp returned
  cases last
  have made' := uncaught_eq_returns.mp created
  unfold newReplicator at made'
  split at made'
  · cases made'
  next member =>
  obtain ⟨_, v, required, last⟩ := Outcome.bind_eq_returns.mp made'
  have alive := alive_of_requireCurrentLeader required
  obtain ⟨same, leads, -⟩ := requireCurrentLeader_returns required
  cases last
  cases same
  exact ⟨not_not.mp member, alive, leads, rfl, List.getElem?_concat_length, rfl⟩

variable (fixed : C.kind = .fixed)
include fixed

theorem driving_replicate {peer : ν} {maxAttempts : Option ℕ} {schedules : List (List Delivery)} :
    Driving C P leader T i s (replicate C i peer maxAttempts schedules s) := by
  have staged : Staged C P s (replicate C i peer maxAttempts schedules s) :=
    staged_replicate tends fixed
  have keeps : Probing leader T i s →
      (replicate C i peer maxAttempts schedules s).Ensures (Probing leader T i) fun _ _ => True :=
    probing_replicate fixed
  cases outcome : replicate C i peer maxAttempts schedules s with
  | returns b t =>
      rw [outcome] at staged keeps
      exact ⟨staged, keeps⟩
  | raises error t =>
      rw [outcome] at staged keeps
      exact ⟨⟨staged.1, fun probing => (keeps probing).1⟩, trivial⟩

variable {identity : LeaderRuntimeIdentity ν} {targetIndex attempts : ℕ}
  {schedules : ν → List (List Delivery)} {failure : ServiceError ν}

/-- **The loop over the peers.** -/
theorem driving_drivePeers (peers : List ν) :
    Driving C P leader T i s
      (drivePeers C identity i targetIndex attempts schedules failure peers s) := by
  induction peers generalizing s with
  | nil => exact .raised failure s
  | cons peer rest ih =>
      unfold drivePeers
      refine (driving_require _).bind fun _ u _ _ => ?_
      have replicated : Driving C P leader T i u
          (replicate C i peer (some attempts) (schedules peer) u) := driving_replicate tends fixed
      split
      · next missing v outcome =>
        rw [outcome] at replicated
        exact .after replicated.1.1 replicated.1.2 ih
      · next error v _ outcome =>
        rw [outcome] at replicated
        refine .after replicated.1.1 replicated.1.2 ?_
        split
        · exact (driving_require _).bind fun _ w _ _ => .raised _ w
        · exact .raised _ v
      · next acknowledged v outcome =>
        rw [outcome] at replicated
        refine .after replicated.1 replicated.2 ?_
        refine (driving_require _).bind fun _ w _ _ => ?_
        split
        · exact Driving.refl w
        · exact ih

theorem driving_driveCommit :
    Driving C P leader T i s
      (driveCommit C identity i targetIndex attempts schedules failure s) := by
  unfold driveCommit
  split
  · exact Driving.refl s
  · exact driving_drivePeers tends fixed _

/-- **The barrier before a read.** -/
theorem driving_ensureCurrentTermCommit (same : identity.leaderId = leader)
    (barrier : P.appends .commitRecoveryBarrier) (member : leader ∈ C.nodeIds)
    (alive : s.alive leader = true) (leads : s.role leader = .leader) :
    Driving C P leader T i s (ensureCurrentTermCommit C identity i attempts schedules s) := by
  subst same
  have appends : Driving C P identity.leaderId T i s
      ((appendCommand identity.leaderId .commitRecoveryBarrier s).bind fun target s =>
        (driveCommit C identity i target attempts schedules
          (.readBarrierUnavailable identity.leaderId target) s).bind fun _ s =>
            (uncaught (kvApplyCommitted identity.leaderId s)).bind fun _ s => .returns () s) := by
    refine (driving_appendCommand alive leads barrier).bind fun target u _ _ => ?_
    refine (driving_driveCommit tends fixed).bind fun _ v _ _ => ?_
    exact (driving_kvApplyCommitted member).bind fun _ w _ _ => Driving.refl w
  unfold ensureCurrentTermCommit
  dsimp only
  split
  · exact appends
  split
  · exact .raised _ s
  split
  · exact Driving.refl s
  · exact appends

/-! ## Writes -/

/-- **What the service does for a request** that the leader has not applied. -/
theorem reaching_commitRequest {request : ClientRequest}
    (barrier : P.appends .commitRecoveryBarrier)
    (allowed : P.appends
      (.clientRequest request.clientId request.requestId request.operation)) :
    Reaching C P s (commitRequest C identity request attempts schedules s) := by
  unfold commitRequest
  dsimp only
  refine (reaching_newServiceReplicator tends).bind fun made u created _ => ?_
  obtain ⟨member, alive, leads, -⟩ := newServiceReplicator_returns created
  suffices rest : Driving C P identity.leaderId 0 made.1 u _ from rest.reaching
  refine (driving_require _).bind fun found v required _ => ?_
  obtain ⟨-, rfl⟩ := require_eq_returns.mp required
  refine Driving.bind (?_ : Driving C P identity.leaderId 0 made.1 u _)
    fun requestIndex w returned _ => ?_
  · cases found with
    | some index => exact Driving.refl u
    | none => exact driving_appendCommand alive leads allowed
  -- The leader goes on leading while the service appends.
  have leading : w.alive identity.leaderId = true ∧ w.role identity.leaderId = .leader := by
    cases found with
    | some index =>
        cases returned
        exact ⟨alive, leads⟩
    | none =>
        dsimp only at returned
        rw [appendCommand_eq] at returned
        cases returned
        exact ⟨alive, leads⟩
  obtain ⟨alive', leads'⟩ := leading
  split
  · exact .raised _ w
  next term _ =>
  refine Driving.bind (?_ : Driving C P identity.leaderId 0 made.1 w _) fun target x _ _ => ?_
  · split
    · exact Driving.refl w
    split
    · exact Driving.refl w
    · exact driving_appendCommand alive' leads' barrier
  refine (driving_driveCommit tends fixed).bind fun _ y _ _ => ?_
  exact (driving_kvApplyCommitted member).bind fun _ z _ _ => Driving.refl z

/-! ## Reads -/

theorem reaching_requireReadLeader {r : LeaderReplicator ν} :
    Reaching C P s (requireReadLeader C i r s) := by
  unfold requireReadLeader
  split
  · exact .raised _ s
  split
  · exact .raised _ s
  split
  · exact .raised _ s
  have staged : Staged C P s (advanceCommitIndex C i s) := staged_advanceCommitIndex tends fixed i
  split
  · next outcome =>
    rw [outcome] at staged
    exact staged
  · next outcome =>
    rw [outcome] at staged
    split
    · exact ⟨staged.1, trivial⟩
    · exact ⟨staged.1, trivial⟩

omit tends fixed in
theorem reaching_requireReadConfiguration {began : RoundConfiguration ν} :
    Reaching C P s (requireReadConfiguration C began s) := by
  unfold requireReadConfiguration
  split
  · exact Stages.refl s
  · exact .raised _ s

theorem reaching_confirmPeers {began : RoundConfiguration ν} {r : LeaderReplicator ν}
    (peers known : List ν) :
    Reaching C P s (confirmPeers C began i r attempts schedules peers known s) := by
  induction peers generalizing known s with
  | nil => exact Stages.refl s
  | cons peer rest ih =>
      unfold confirmPeers
      refine Reaching.bind reaching_requireReadConfiguration fun _ u _ _ => ?_
      split
      · exact Stages.refl u
      have staged : Staged C P u (replicate C i peer (some attempts) (schedules peer) u) :=
        staged_replicate tends fixed
      split
      · next outcome =>
        rw [outcome] at staged
        refine Outcome.Ensures.mono (Reaching.bind reaching_requireReadConfiguration
          fun _ w _ _ => ih _) (fun _ after => Stages.trans staged after) fun _ _ => id
      · next outcome =>
        rw [outcome] at staged
        exact (ih _).mono (fun _ after => Stages.trans staged after) fun _ _ => id
      · next outcome =>
        rw [outcome] at staged
        exact (ih _).mono (fun _ after => staged.1.trans after) fun _ _ => id
      · next outcome =>
        rw [outcome] at staged
        exact ⟨staged.1, trivial⟩

theorem reaching_confirmAuthority {r : LeaderReplicator ν} :
    Reaching C P s (confirmAuthority C i r attempts schedules s) := by
  unfold confirmAuthority
  split
  · exact .raised _ s
  refine (reaching_requireReadLeader tends fixed).bind fun _ u _ _ => ?_
  refine Reaching.bind ?_ fun _ v _ _ => ?_
  · unfold requireCurrentTermCommit
    dsimp only
    split
    · exact .raised _ u
    split
    · exact .raised _ u
    split
    · exact .raised _ u
    · exact Stages.refl u
  refine (reaching_confirmPeers tends fixed _ _).bind fun peers w _ _ => ?_
  refine (reaching_requireReadLeader tends fixed).bind fun _ x _ _ => ?_
  refine Reaching.bind reaching_requireReadConfiguration fun _ y _ _ => ?_
  split
  · exact .raised _ y
  · exact Stages.refl y

variable {r : LeaderReplicator ν} (member : r.leader ∈ C.nodeIds)
include member

theorem reaching_linearizableGet {key : String} :
    Reaching C P s (linearizableGet C i r key attempts schedules s) := by
  unfold linearizableGet
  split
  · exact .raised _ s
  refine (reaching_confirmAuthority tends fixed).bind fun _ u _ _ => ?_
  refine (reaching_readUncaught (Stage.staged (.apply r.leader member))).bind fun _ v _ _ => ?_
  exact Stages.refl v

theorem reaching_readBarrier : Reaching C P s (readBarrier C i r attempts schedules s) := by
  unfold readBarrier
  refine (reaching_confirmAuthority tends fixed).bind fun _ u _ _ => ?_
  refine (reaching_readUncaught (Stage.staged (.apply r.leader member))).bind fun _ v _ _ => ?_
  exact Stages.refl v

end Replicators

section ServiceReads

variable (tends : P.tends) (fixed : C.kind = .fixed) {identity : LeaderRuntimeIdentity ν}
  {attempts : ℕ} {barrierSchedules schedules : ν → List (List Delivery)} {key : String}
include tends fixed

/-- **What the service does for a read.** -/
theorem reaching_serviceRead (barrier : P.appends .commitRecoveryBarrier) :
    Reaching C P s (serviceRead C identity key attempts barrierSchedules schedules s) := by
  unfold serviceRead
  refine (reaching_newServiceReplicator tends).bind fun made u created _ => ?_
  obtain ⟨member, alive, leads, own, -⟩ := newServiceReplicator_returns created
  refine Reaching.bind ?_ fun _ v _ _ => ?_
  · exact (driving_ensureCurrentTermCommit (T := 0) tends fixed rfl barrier member alive
      leads).reaching
  · exact reaching_fromReader (reaching_linearizableGet tends fixed (own ▸ member))

/-- A read that returns went through the linearizable reader with a replicator of its own. -/
theorem serviceRead_returns {value : Option String} (barrier : P.appends .commitRecoveryBarrier)
    (returned : serviceRead C identity key attempts barrierSchedules schedules s =
      .returns value t) :
    ∃ i r u, Stages C P s u ∧ Probing r.leader r.term i u ∧ r.leader = identity.leaderId ∧
      linearizableGet C i r key attempts schedules u = .returns value t := by
  unfold serviceRead at returned
  obtain ⟨made, u, created, rest⟩ := Outcome.bind_eq_returns.mp returned
  obtain ⟨_, v, ensured, read⟩ := Outcome.bind_eq_returns.mp rest
  obtain ⟨member, alive, leads, own, found, plain⟩ := newServiceReplicator_returns created
  have first : Reaching C P s (newServiceReplicator C identity.leaderId s) :=
    reaching_newServiceReplicator tends
  have second : Driving C P identity.leaderId made.2.term made.1 u
      (ensureCurrentTermCommit C identity made.1 attempts barrierSchedules u) :=
    driving_ensureCurrentTermCommit tends fixed rfl barrier member alive leads
  rw [created] at first
  rw [ensured] at second
  refine ⟨made.1, made.2, v, Stages.trans first second.1, ?_, own, fromReader_eq_returns.mp read⟩
  rw [own]
  exact second.2 ⟨made.2, found, own, rfl, plain⟩

theorem reaching_linearizableBarrier {generation : ℕ} (barrier : P.appends .commitRecoveryBarrier) :
    Reaching C P s
      (linearizableBarrier C leader generation attempts barrierSchedules schedules s) := by
  have checks : ∀ {u : Cluster ν}, Reaching C P u
      (require (requireGeneration leader generation u) u) := by
    intro u
    have drives : Driving C P leader 0 0 u (require (requireGeneration leader generation u) u) :=
      driving_require _
    exact drives.reaching
  unfold linearizableBarrier
  split
  · exact .raised _ s
  refine checks.bind fun identity u required _ => ?_
  obtain ⟨guarded, rfl⟩ := require_eq_returns.mp required
  obtain ⟨same, -⟩ := requireGeneration_ok guarded
  refine (reaching_newServiceReplicator tends).bind fun made v created _ => ?_
  obtain ⟨member, alive, leads, own, -⟩ := newServiceReplicator_returns created
  refine Reaching.bind ?_ fun _ w _ _ => ?_
  · exact (driving_ensureCurrentTermCommit (T := 0) tends fixed same barrier member alive
      leads).reaching
  refine (reaching_fromReader (reaching_readBarrier tends fixed (own ▸ member))).bind
    fun evidence x _ _ => ?_
  exact checks.bind fun _ y _ _ => Stages.refl y

end ServiceReads

end Distlab.Service
