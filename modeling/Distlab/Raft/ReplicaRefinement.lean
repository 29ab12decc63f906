import Distlab.Raft.CommittedLog
import Distlab.Raft.Stages

/-!
# The cluster refines the replicas of one log

In a run of fixed membership a call of the KV store or of its snapshots returns, or it leaves
the replicas as they were. What the nodes apply is of the committed log, and the snapshots
that leaders send are those that nodes persisted. So each stage of the run is a sequence of
steps of the replicas.
-/

set_option autoImplicit false

namespace Distlab.Raft

open Foundations LeaderLogs Deduplication

variable {ν : Type} [LinearOrder ν] {C : Config ν} {P : Permit ν} {s t u : Cluster ν}
  {A A' : Logs ν} {log : List (LogEntry (Command ν))} {n : ν}

/-! ## Calls that return or change nothing -/

namespace Archived

theorem assertLogMatching_eq (archived : Archived C s A) :
    assertLogMatching C s = .returns () s := by
  have checks : Checks C .protocol s (assertLogMatching C s) := checks_assertLogMatching s
  unfold assertLogMatching at checks ⊢
  split at checks
  next => rfl
  next violation failed => exact absurd checks.2 (archived.not_observed violation)

theorem assertStateMachineSafety_eq (archived : Archived C s A) :
    assertStateMachineSafety C s = .returns () s := by
  have checks : Checks C .protocol s (assertStateMachineSafety C s) :=
    checks_assertStateMachineSafety s
  unfold assertStateMachineSafety at checks ⊢
  split at checks
  next => rfl
  next violation failed => exact absurd checks.2 (archived.not_observed violation)

/-- **A follower installs the snapshot of a request or changes nothing.** -/
theorem installSnapshot_cases (archived : Archived C s A) (fixed : C.kind = .fixed)
    {message : Message ν} {request : InstallSnapshotRequest ν} (arrived : Arrived C s message)
    (payload : message.payload = .installSnapshotRequest request)
    (dst : message.dst = request.followerId)
    (term : request.term = s.currentTerm request.followerId)
    (follows : s.role request.followerId = .follower) :
    (∃ t, installSnapshot C request.followerId request.snapshot true s = .returns () t) ∨
      ∃ violation,
        installSnapshot C request.followerId request.snapshot true s = .raises violation s := by
  rw [← dst] at term follows ⊢
  unfold installSnapshot
  dsimp only
  split
  · exact .inr ⟨_, rfl⟩
  next older =>
  split
  · split
    · exact .inr ⟨_, rfl⟩
    · exact .inl ⟨_, rfl⟩
  next other =>
  split
  · exact .inr ⟨_, rfl⟩
  next beyond =>
  split
  · exact .inr ⟨_, rfl⟩
  next suffix retained =>
  split
  · exact .inr ⟨_, rfl⟩
  next applied =>
  split
  · exact .inr ⟨_, rfl⟩
  next valid =>
  rw [not_or, not_not, not_not] at valid
  have newer : ∀ latest, (s.persistent message.dst).kvSnapshot = some latest →
      latest.lastIncludedIndex < request.snapshot.lastIncludedIndex := by
    intro latest stored
    simp only [stored, Option.any_some, decide_eq_true_eq] at older other
    omega
  have move : Move C .protocol s (writeSnapshot message.dst request.snapshot suffix s) :=
    .install message request suffix arrived payload term follows newer (not_lt.mp beyond)
      retained (not_lt.mp applied) valid.1 valid.2
  obtain ⟨B, -, written⟩ := archived.move fixed id move
  have latest : ((writeSnapshot message.dst request.snapshot suffix s).persistent
      message.dst).kvSnapshot = some request.snapshot := by
    simp [writeSnapshot, Cluster.updatePersistent]
  have boundary : request.snapshot.lastIncludedIndex ≤
      ((writeSnapshot message.dst request.snapshot suffix s).logView message.dst).lastIndex := by
    simp [writeSnapshot, Cluster.logView, Cluster.updatePersistent, RaftLogView.lastIndex]
  generalize writeSnapshot message.dst request.snapshot suffix s = v at written latest boundary ⊢
  have commits : ∃ w B', Archived C w B' ∧
      (if v.commitIndex message.dst < request.snapshot.lastIncludedIndex then
        advanceNodeCommit message.dst request.snapshot.lastIncludedIndex v
      else .returns () v) = .returns () w := by
    split
    · next behind =>
      have advance : Move C .protocol v (v.updateVolatile message.dst fun w =>
          { w with commitIndex := request.snapshot.lastIncludedIndex }) :=
        .commit message.dst _ behind boundary (.snapshot request.snapshot latest le_rfl)
      obtain ⟨B', -, advanced⟩ := written.move fixed id advance
      refine ⟨_, B', advanced, ?_⟩
      unfold advanceNodeCommit
      rw [if_neg (not_lt.mpr boundary), if_neg (not_le.mpr behind)]
    · exact ⟨v, B, written, rfl⟩
  obtain ⟨w, B', advanced, returned⟩ := commits
  rw [returned, Outcome.bind_returns, advanced.assertLogMatching_eq, Outcome.bind_returns,
    advanced.assertStateMachineSafety_eq]
  exact .inl ⟨w, rfl⟩

end Archived

/-- A call that creates a snapshot returns or changes nothing. -/
theorem createSnapshot_cases (n : ν) (s : Cluster ν) :
    (∃ snapshot t, createSnapshot C n s = .returns snapshot t) ∨
      ∃ violation, createSnapshot C n s = .raises violation s := by
  cases outcome : createSnapshot C n s with
  | returns snapshot t => exact .inl ⟨snapshot, t, rfl⟩
  | raises violation t =>
      obtain ⟨rfl, -⟩ := createSnapshot_raises outcome
      exact .inr ⟨violation, rfl⟩

/-! ## Stored snapshots -/

/-- A write of the log leaves the state machine alone. -/
theorem keeps_writeLog (m n : ν) (f : Persistent ν → RaftLogView (Command ν)) :
    Keeps m s (s.updatePersistent n fun p => { p with log := f p }) := by
  by_cases same : m = n
  · subst same
    refine ⟨rfl, rfl, rfl, ?_, ?_, ?_, rfl⟩ <;> simp [Cluster.updatePersistent]
  · exact keeps_updatePersistent_of_ne same _

omit [LinearOrder ν] in
/-- A node stores what it stored, or a snapshot that the call issued. -/
def Issues (issued : List (KVSnapshot ν)) (s t : Cluster ν) : Prop :=
  ∀ m snapshot, (t.persistent m).kvSnapshot = some snapshot →
    (s.persistent m).kvSnapshot = some snapshot ∨ snapshot ∈ issued

omit [LinearOrder ν] in
theorem Issues.refl (issued : List (KVSnapshot ν)) (s : Cluster ν) : Issues issued s s :=
  fun _ _ => .inl

omit [LinearOrder ν] in
theorem Issues.trans {issued : List (KVSnapshot ν)} (first : Issues issued s t)
    (second : Issues issued t u) : Issues issued s u :=
  fun m snapshot stored => (second m snapshot stored).elim (first m snapshot) .inr

omit [LinearOrder ν] in
theorem Issues.of_latest {issued : List (KVSnapshot ν)}
    (latest : ∀ m, (t.persistent m).kvSnapshot = (s.persistent m).kvSnapshot) :
    Issues issued s t :=
  fun m _ stored => .inl ((latest m).symm.trans stored)

omit [LinearOrder ν] in
theorem issues_of_keeps {issued : List (KVSnapshot ν)} (keeps : ∀ m, Keeps m s t) :
    Issues issued s t := .of_latest fun m => (keeps m).kvSnapshot

theorem issues_updatePersistent {issued : List (KVSnapshot ν)} {f : Persistent ν → Persistent ν}
    (latest : ∀ snapshot, (f (s.persistent n)).kvSnapshot = some snapshot →
      (s.persistent n).kvSnapshot = some snapshot ∨ snapshot ∈ issued) :
    Issues issued s (s.updatePersistent n f) := by
  intro m snapshot stored
  by_cases same : m = n
  · subst same
    exact latest snapshot (by simpa [Cluster.updatePersistent] using stored)
  · exact .inl (by simpa [Cluster.updatePersistent, same] using stored)

theorem issues_applyEach (indexes : List ℕ) :
    (applyEach n indexes s).Ensures (Issues [] s) fun _ _ => True := by
  induction indexes generalizing s with
  | nil => exact .refl [] s
  | cons index rest ih =>
      unfold applyEach
      split
      · exact ⟨.refl [] s, trivial⟩
      split
      · exact ⟨.refl [] s, trivial⟩
      next entry _ _ applier _ =>
        have written : Issues [] s (writeApplied n index entry { s with applier := applier }) := by
          refine .of_latest fun m => ?_
          by_cases same : m = n
          · subst same
            simp [writeApplied, Cluster.updatePersistent]
          · simp [writeApplied, Cluster.updatePersistent, same]
        refine (Outcome.Ensures.bind ih ?_ fun _ => id).mono
          (fun _ after => written.trans after) fun _ _ => id
        exact fun _ _ _ stores => stores

theorem issues_applyCommands (entries : List (LogEntry (Command ν))) :
    (applyCommands n entries s).Ensures (Issues [] s) fun _ _ => True := by
  induction entries generalizing s with
  | nil => exact .refl [] s
  | cons entry rest ih =>
      unfold applyCommands
      split
      · exact ⟨.refl [] s, trivial⟩
      · exact ih

/-- What a node applies leaves the snapshots alone. -/
theorem issues_kvApplyCommitted : Issues [] s (kvApplyCommitted n s).state := by
  have applies : (applierApplyCommitted n s).Ensures (Issues [] s) fun _ _ => True := by
    unfold applierApplyCommitted
    dsimp only
    split
    · exact .refl [] s
    split
    · exact ⟨.refl [] s, trivial⟩
    split
    · exact ⟨.refl [] s, trivial⟩
    · exact issues_applyEach _
  refine Outcome.Ensures.state (E := fun _ _ => True) ?_
  unfold kvApplyCommitted
  dsimp only
  split
  · exact ⟨.refl [] s, trivial⟩
  split
  · exact ⟨.refl [] s, trivial⟩
  split
  · exact ⟨.refl [] s, trivial⟩
  refine Outcome.Ensures.bind applies (fun records t _ stores => ?_) fun _ => id
  refine Outcome.Ensures.bind (issues_applyCommands _) (fun _ u _ same => ?_)
    fun _ => stores.trans
  exact stores.trans same

theorem issues_createSnapshot {snapshot : KVSnapshot ν}
    (returned : createSnapshot C n s = .returns snapshot t) : Issues [snapshot] s t := by
  obtain ⟨rfl, -⟩ := createSnapshot_returns returned
  refine issues_updatePersistent fun latest stored => .inr ?_
  rw [← Option.some.inj stored]
  exact List.mem_cons_self

/-- **A call that compacts** a node's log creates its snapshot, and then leaves the snapshots
alone. It raises before the snapshot is stored, or once the node's records are compacted. -/
theorem compactSnapshot_cases (n : ν) (s : Cluster ν) :
    (∃ snapshot t, compactSnapshot C n s = .returns snapshot t ∧ Issues [snapshot] s t) ∨
      (∃ violation, compactSnapshot C n s = .raises violation s) ∨
      ∃ snapshot t violation u, createSnapshot C n s = .returns snapshot t ∧
        compactSnapshot C n s = .raises violation u ∧ ∀ m, Keeps m t u := by
  unfold compactSnapshot
  obtain ⟨snapshot, t, created⟩ | ⟨violation, raised⟩ := createSnapshot_cases (C := C) n s
  · have stores := issues_createSnapshot created
    rw [created, Outcome.bind_returns]
    dsimp only
    split
    · exact .inr (.inr ⟨snapshot, t, _, t, rfl, rfl, fun m => .refl m t⟩)
    have keeps : ∀ m, Keeps m t (t.updatePersistent n fun p =>
        { p with log := (t.logView n).compactThrough snapshot.lastIncludedIndex }) :=
      fun m => keeps_writeLog m n _
    generalize (t.updatePersistent n fun p =>
      { p with log := (t.logView n).compactThrough snapshot.lastIncludedIndex }) = v at keeps ⊢
    unfold applierCompactThrough
    dsimp only
    split
    · exact .inr (.inr ⟨snapshot, t, _, v, rfl, rfl, keeps⟩)
    split
    · split
      · exact .inr (.inr ⟨snapshot, t, _, v, rfl, rfl, keeps⟩)
      · exact .inl ⟨snapshot, v, rfl, stores.trans (issues_of_keeps keeps)⟩
    split
    · exact .inr (.inr ⟨snapshot, t, _, v, rfl, rfl, keeps⟩)
    · have compacted : Issues [snapshot] v
          (writeCompacted n snapshot.lastIncludedIndex snapshot.lastIncludedTerm v) := by
        refine .of_latest fun m => ?_
        by_cases same : m = n
        · subst same
          simp [writeCompacted, Cluster.updatePersistent]
        · simp [writeCompacted, Cluster.updatePersistent, same]
      exact .inl ⟨snapshot, _, rfl, (stores.trans (issues_of_keeps keeps)).trans compacted⟩
  · rw [raised]
    exact .inr (.inl ⟨violation, rfl⟩)

/-! ## Stages are steps of the replicas -/

/-- The replicas reach the cluster, and the snapshots that its nodes store and its leaders
send are among those that nodes persisted. -/
structure Refined (C : Config ν) (log : List (LogEntry (Command ν))) (s : Cluster ν)
    (issued : List (KVSnapshot ν)) (effects : ν → List (String × ℕ)) : Prop where
  reached : Reached C log ⟨s, issued, effects⟩
  stored : ∀ n snapshot, (s.persistent n).kvSnapshot = some snapshot → snapshot ∈ issued
  sent : ∀ message ∈ s.network, ∀ request, message.payload = .installSnapshotRequest request →
    request.snapshot ∈ issued

/-- The replicas of the log reach the cluster. -/
def Refines (C : Config ν) (log : List (LogEntry (Command ν))) (s : Cluster ν) : Prop :=
  ∃ issued effects, Refined C log s issued effects

section Steps

variable {issued : List (KVSnapshot ν)} {effects : ν → List (String × ℕ)}

theorem Refined.spare (refined : Refined C log s issued effects) (spares : Spares P.tends s t) :
    Refined C log t issued effects where
  reached := refined.reached.step (.protocol t spares.keeps)
  stored n snapshot stored :=
    refined.stored n snapshot ((spares.keeps n).kvSnapshot.symm.trans stored)
  sent message member request payload := by
    obtain ⟨sent, network, honest⟩ := spares.sent
    rw [network] at member
    obtain old | new := List.mem_append.mp member
    · exact refined.sent message old request payload
    · have own := honest message new
      unfold Honest at own
      rw [payload] at own
      exact refined.stored message.src request.snapshot own

/-- A step that sends nothing, and the snapshots that it issues. -/
theorem Refined.step (refined : Refined C log s issued effects) {more : List (KVSnapshot ν)}
    {effects' : ν → List (String × ℕ)}
    (step : ReplicaStep C log ⟨s, issued, effects⟩ ⟨t, issued ++ more, effects'⟩)
    (stores : Issues more s t) (network : t.network = s.network) :
    Refined C log t (issued ++ more) effects' where
  reached := refined.reached.step step
  stored n snapshot stored := List.mem_append.mpr
    ((stores n snapshot stored).imp (refined.stored n snapshot) id)
  sent message member request payload := List.mem_append_left _
    (refined.sent message (network ▸ member) request payload)

theorem Refined.keeps (refined : Refined C log s issued effects) (keeps : ∀ n, Keeps n s t)
    (network : t.network = s.network) : Refined C log t issued effects := by
  have step : ReplicaStep C log ⟨s, issued, effects⟩ ⟨t, issued ++ [], effects⟩ := by
    rw [List.append_nil]
    exact .protocol t keeps
  have refined' := refined.step step (issues_of_keeps keeps) network
  rwa [List.append_nil] at refined'

/-- **One stage.** What it does to the replicas of a log that has all that was decided. -/
theorem Refines.stage (refines : Refines C log s) (archived : Archived C s A)
    (fixed : C.kind = .fixed) (decides : Decides C A log) (stage : Stage C P s t) :
    Refines C log t := by
  obtain ⟨issued, effects, refined⟩ := refines
  cases stage with
  | spare moves spares => exact ⟨issued, effects, refined.spare spares⟩
  | append n command allowed =>
      refine ⟨issued, effects, ?_⟩
      unfold appendCurrentTerm
      split
      · exact refined
      split
      · exact refined
      · exact refined.keeps (fun m => keeps_writeLog m n fun p =>
          { p.log with entries := p.log.entries ++ [⟨p.currentTerm, command⟩] }) rfl
  | apply n member =>
      have silent := (Outcome.Ensures.state (silences_kvApplyCommitted (n := n) (s := s))).network
      have stores := issues_kvApplyCommitted (n := n) (s := s)
      obtain ⟨records, t, returned⟩ | ⟨violation, raised⟩ :=
        archived.kvApplyCommitted_cases fixed member
      · rw [returned] at silent stores ⊢
        have applies := ReplicaStep.apply (r := ⟨s, issued, effects⟩) n records t member
          (archived.commitsTo decides n) returned
        exact ⟨issued ++ [], _, refined.step (by rw [List.append_nil]; exact applies) stores silent⟩
      · rw [raised]
        exact ⟨issued, effects, refined⟩
  | create n member =>
      have silent := (Outcome.Ensures.state
        (silences_createSnapshot (C := C) (n := n) (s := s))).network
      obtain ⟨snapshot, t, returned⟩ | ⟨violation, raised⟩ := createSnapshot_cases (C := C) n s
      · rw [returned] at silent ⊢
        exact ⟨_, effects, refined.step (.create n snapshot t member returned)
          (issues_createSnapshot returned) silent⟩
      · rw [raised]
        exact ⟨issued, effects, refined⟩
  | compact n member =>
      have silent := (Outcome.Ensures.state
        (silences_compactSnapshot (C := C) (n := n) (s := s))).network
      obtain ⟨snapshot, t, returned, stores⟩ | ⟨violation, raised⟩ |
        ⟨snapshot, t, violation, u, created, raised, keeps⟩ := compactSnapshot_cases (C := C) n s
      · rw [returned] at silent ⊢
        exact ⟨_, effects, refined.step (.compact n snapshot t member returned) stores silent⟩
      · rw [raised]
        exact ⟨issued, effects, refined⟩
      · have network : t.network = s.network := by
          obtain ⟨rfl, -⟩ := createSnapshot_returns created
          rfl
        rw [raised] at silent ⊢
        have persisted := refined.step (.create n snapshot t member created)
          (issues_createSnapshot created) network
        exact ⟨_, effects, persisted.keeps keeps (silent.trans network.symm)⟩
  | install message request arrived payload dst term follows =>
      have silent := (Outcome.Ensures.state (silences_installSnapshot (C := C)
        (n := request.followerId) (s := s) request.snapshot true)).network
      obtain ⟨t, returned⟩ | ⟨violation, raised⟩ :=
        archived.installSnapshot_cases fixed arrived payload dst term follows
      · rw [returned] at silent ⊢
        have member : request.followerId ∈ C.nodeIds := by
          have valid := arrived.2
          unfold validEnvelope at valid
          simp only [payload, decide_eq_true_eq] at valid
          exact dst ▸ valid.2.1
        have issues : request.snapshot ∈ issued :=
          refined.sent message arrived.1 request payload
        have converging := refined.reached.converging
        have converged := converging.nodes request.followerId member
        have maintains := installSnapshot_maintains converged.replica converged.upToDate
          (converging.issued request.snapshot issues) returned
        have stores : Issues issued s t := by
          intro m snapshot stored
          by_cases same : m = request.followerId
          · subst same
            rw [(installSnapshot_returns returned).1] at stored
            exact .inr (Option.some.inj stored ▸ issues)
          · exact .inl ((maintains.others m same).kvSnapshot.symm.trans stored)
        have install : ReplicaStep C log ⟨s, issued, effects⟩ ⟨t, issued, effects⟩ :=
          .install request.followerId request.snapshot true t member issues returned
        exact ⟨issued, effects, refined.reached.step install, fun n snapshot stored =>
          (stores n snapshot stored).elim (refined.stored n snapshot) id, silent ▸ refined.sent⟩
      · rw [raised]
        exact ⟨issued, effects, refined⟩

end Steps

/-! ## Runs -/

theorem spares_startTimers (s : Cluster ν) : Spares False s (startTimers C s) := by
  unfold startTimers
  generalize C.nodeIds = nodes
  induction nodes generalizing s with
  | nil => exact .refl s
  | cons n rest ih => exact spares_resetElectionTimeout.trans (ih _)

theorem refines_fresh : Refines C log C.fresh := by
  have spares : Spares False (Config.over (fun _ => {}) C.initialConfiguration {} fun _ => {})
      C.fresh :=
    spares_startTimers _
  have stored : ∀ n, (C.fresh.persistent n).kvSnapshot = none := fun n =>
    (spares.keeps n).kvSnapshot
  refine ⟨[], fun _ => [], .fresh, fun n snapshot some => ?_,
    fun message member request payload => ?_⟩
  · rw [stored n] at some
    cases some
  · obtain ⟨sent, network, honest⟩ := spares.sent
    have new : message ∈ sent := by
      rw [network] at member
      exact (List.mem_append.mp member).resolve_left List.not_mem_nil
    have own := honest message new
    unfold Honest at own
    rw [payload] at own
    cases own

/-- Any number of stages, with the archive of the last state. -/
theorem Stages.refines (stages : Stages C P s t) (archived : Archived C s A)
    (fixed : C.kind = .fixed) :
    ∃ A', A.Extends A' ∧ Archived C t A' ∧
      ∀ log, Decides C A' log → Refines C log s → Refines C log t := by
  induction stages with
  | refl => exact ⟨A, .refl A, archived, fun _ _ => id⟩
  | tail _ stage ih =>
      obtain ⟨B, grows, between, before⟩ := ih
      obtain ⟨A', grows', after⟩ := between.moves fixed id (stage.moves fixed)
      refine ⟨A', grows.trans grows', after, fun log decides refines => ?_⟩
      have decided := decides.earlier grows' between.logs.sound
      exact (before log decided refines).stage between fixed decided stage

/-- The states of a run, and the log of all that was decided when it ended. -/
theorem exists_refinement (tends : P.tends) (fixed : C.kind = .fixed) {events : List (Event ν)}
    (continues : ∀ event ∈ events, event.Continues)
    (protocol : ∀ event ∈ events, event.Protocol (C := C))
    (served : ∀ event ∈ events, event.Served P.appends) :
    ∃ A, Archived C (run C events) A ∧ ∀ log, Decides C A log →
      ∀ first, first <+: events → (∀ n, CommitsTo log n (run C first)) ∧
        Refines C log (run C first) := by
  induction events using List.reverseRecOn with
  | nil =>
      have fresh : Moves C .protocol
          (Config.over (fun _ => {}) C.initialConfiguration {} fun _ => {}) (run C []) :=
        moves_startTimers _
      obtain ⟨A, -, archived⟩ := archived_over.moves fixed id fresh
      refine ⟨A, archived, fun log decides first part => ?_⟩
      rw [List.prefix_nil.mp part]
      exact ⟨archived.commitsTo decides, refines_fresh⟩
  | append_singleton events event ih =>
      obtain ⟨A, archived, earlier⟩ :=
        ih (fun e member => continues e (List.mem_append_left _ member))
          (fun e member => protocol e (List.mem_append_left _ member))
          fun e member => served e (List.mem_append_left _ member)
      have stages : Stages C P (run C events) (run C (events ++ [event])) :=
        stages_run tends fixed continues protocol served
      obtain ⟨A', grows, archived', step⟩ := stages.refines archived fixed
      refine ⟨A', archived', fun log decides first part => ?_⟩
      have before := earlier log (decides.earlier grows archived.logs.sound)
      obtain rfl | part := List.prefix_concat_iff.mp part
      · exact ⟨archived'.commitsTo decides, step log decides (before events List.prefix_rfl).2⟩
      · exact before first part

/-- **A run refines the replicas of one log.** In every run of a cluster of fixed membership
whose drivers do what the protocol asks for and apply entries through the KV store, there is
one log of which the nodes commit entries in every state, and every state is one that the
replicas of this log reach: by applying it, and by snapshots that nodes persisted. -/
theorem run_refines_replicas (fixed : C.kind = .fixed) (events : List (Event ν))
    (continues : ∀ event ∈ events, event.Continues)
    (protocol : ∀ event ∈ events, event.Protocol (C := C))
    (served : ∀ event ∈ events, event.Served fun _ => True) :
    ∃ log, ∀ first, first <+: events → (∀ n, CommitsTo log n (run C first)) ∧
      ∃ issued effects, Reached C log ⟨run C first, issued, effects⟩ := by
  obtain ⟨A, archived, states⟩ :=
    exists_refinement (P := ⟨fun _ => True, True⟩) trivial fixed continues
    protocol served
  obtain ⟨log, decides⟩ := archived.logs.exists_decides
  refine ⟨log, fun first part => ?_⟩
  obtain ⟨commits, issued, effects, refined⟩ := states log decides first part
  exact ⟨commits, issued, effects, refined.reached⟩

/-- The first node of three applies a request that the second one acknowledged, compacts its
log and sends its snapshot to the third one. -/
def laggard : List (Event ℕ) :=
  [.startElection 0, .deliver ⟨0, 0⟩, .deliver ⟨2, 0⟩, .newReplicator 0 true false,
    .appendCurrentTerm 0 (.clientRequest "client" 1 (.put "key" "new")),
    .replicate 0 1 none [[⟨3, 0⟩, ⟨4, 0⟩]], .advanceCommitIndex 0, .kvApplyCommitted 0,
    .compactSnapshot 0, .replicate 0 2 none [[⟨5, 0⟩, ⟨6, 0⟩]]]

theorem laggard_continues : ∀ event ∈ laggard, event.Continues := by
  intro event member
  simp only [laggard, List.mem_cons, List.not_mem_nil, or_false] at member
  obtain rfl | rfl | rfl | rfl | rfl | rfl | rfl | rfl | rfl | rfl := member <;> trivial

theorem laggard_protocol : ∀ event ∈ laggard, event.Protocol (C := threeNodes) := by
  intro event member
  simp only [laggard, List.mem_cons, List.not_mem_nil, or_false] at member
  obtain rfl | rfl | rfl | rfl | rfl | rfl | rfl | rfl | rfl | rfl := member <;>
    first | trivial | exact .inl rfl

theorem laggard_served : ∀ event ∈ laggard, event.Served fun _ => True := by
  intro event member
  simp only [laggard, List.mem_cons, List.not_mem_nil, or_false] at member
  obtain rfl | rfl | rfl | rfl | rfl | rfl | rfl | rfl | rfl | rfl := member <;> trivial

theorem laggard_refines :
    ∃ log, (∀ n, CommitsTo log n (run threeNodes laggard)) ∧
      ∃ issued effects, Reached threeNodes log ⟨run threeNodes laggard, issued, effects⟩ := by
  obtain ⟨log, states⟩ := run_refines_replicas rfl laggard laggard_continues laggard_protocol
    laggard_served
  exact ⟨log, states laggard List.prefix_rfl⟩

/-- **The replicas of a run converge.** Two nodes that have applied the same number of
entries, in any two states of the run, have the same KV map and the same client requests:
those of one log that their commit indexes are in, executed up to there. -/
theorem replicas_of_run_converge (fixed : C.kind = .fixed) (events : List (Event ν))
    (continues : ∀ event ∈ events, event.Continues)
    (protocol : ∀ event ∈ events, event.Protocol (C := C))
    (served : ∀ event ∈ events, event.Served fun _ => True) :
    (∃ log, ∀ first, first <+: events → ∀ n ∈ C.nodeIds,
      ((run C first).kv n).view = imageOf (log.take ((run C first).applier.lastApplied n)) ∧
      (run C first).applier.lastApplied n ≤ log.length ∧ CommitsTo log n (run C first)) ∧
    ∀ first second, first <+: events → second <+: events → ∀ n ∈ C.nodeIds, ∀ m ∈ C.nodeIds,
      (run C first).applier.lastApplied n = (run C second).applier.lastApplied m →
        (∀ key, ((run C first).kv n).state.lookup key = ((run C second).kv m).state.lookup key) ∧
        ∀ identity, ((run C first).kv n).requests.lookup identity =
          ((run C second).kv m).requests.lookup identity := by
  obtain ⟨A, archived, states⟩ :=
    exists_refinement (P := ⟨fun _ => True, True⟩) trivial fixed continues
    protocol served
  obtain ⟨log, decides⟩ := archived.logs.exists_decides
  have converged : ∀ first, first <+: events → ∀ n ∈ C.nodeIds,
      Replica log n (run C first) ∧ UpToDate log n (run C first) := by
    intro first part n member
    obtain ⟨-, issued, effects, refined⟩ := states log decides first part
    have converged := refined.reached.converging.nodes n member
    exact ⟨converged.replica, converged.upToDate⟩
  refine ⟨⟨log, fun first part n member => ?_⟩, ?_⟩
  · obtain ⟨replica, upToDate⟩ := converged first part n member
    exact ⟨upToDate, replica.within, (states log decides first part).1 n⟩
  · intro first second part part' n member m member' same
    have view : ((run C first).kv n).view = ((run C second).kv m).view := by
      rw [(converged first part n member).2, same, (converged second part' m member').2]
    refine ⟨fun key => congrFun (congrArg Image.state view) key, fun identity => ?_⟩
    exact congrFun (congrFun (congrArg Image.seen view) identity.1) identity.2

/-- The third node has the KV map of the first one. -/
theorem laggard_converges : (run threeNodes laggard).applier.lastApplied 2 = 1 ∧
    ∀ key, ((run threeNodes laggard).kv 0).state.lookup key =
      ((run threeNodes laggard).kv 2).state.lookup key := by
  have first : (run threeNodes laggard).applier.lastApplied 0 = 1 := by decide +kernel
  have third : (run threeNodes laggard).applier.lastApplied 2 = 1 := by decide +kernel
  have converge := (replicas_of_run_converge rfl laggard laggard_continues laggard_protocol
    laggard_served).2 laggard laggard List.prefix_rfl List.prefix_rfl 0 (by decide) 2 (by decide)
    (first.trans third.symm)
  exact ⟨third, converge.1⟩

end Distlab.Raft
