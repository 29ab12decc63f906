import Distlab.Raft.SnapshotBoundaries

/-!
# Recovery from snapshots

A new `ReplicatedKV` over the durable state insists that the snapshot of a compacted node
stands at its boundary, and validates the entries applied since the boundary as one batch.
So recovery gives back the live images as long as `create` does not move the snapshot beyond
a boundary, and no identity of the entries since the boundary is applied with another
operation; the first call that does so breaks recovery.
-/

set_option autoImplicit false

namespace Distlab.Raft

open Foundations Deduplication

variable {ν : Type} [LinearOrder ν] {C : Config ν} {log : List (LogEntry (Command ν))}
  {n m : ν} {s t : Cluster ν}

/-! ## Reconstruction -/

omit [LinearOrder ν] in
/-- The entries of a replica since its boundary. -/
theorem Replica.stored (replica : Replica log n s) :
    (s.persistent n).stateMachineApplied =
      (log.take (s.applier.lastApplied n)).drop (s.persistent n).stateMachineBaseIndex := by
  rw [replica.durableApplied, replica.applied, replica.durableBase]

theorem durableStateLoads_of_anchored (anchored : Anchored log n s) (replica : Replica log n s) :
    durableStateLoads n s = true := by
  have base : (s.persistent n).stateMachineBaseIndex = (s.persistent n).log.baseIndex :=
    replica.durableBase.trans anchored.baseIndex.symm
  have term : (s.persistent n).stateMachineBaseTerm = (s.persistent n).log.baseTerm :=
    anchored.baseTerm
  have zero : (s.persistent n).log.baseIndex = 0 → (s.persistent n).log.baseTerm = 0 :=
    anchored.zero
  have last : (s.persistent n).stateMachineBaseIndex +
      (s.persistent n).stateMachineApplied.length = s.applier.lastApplied n :=
    replica.loaded.last.symm
  have reach : s.applier.lastApplied n ≤ (s.persistent n).log.lastIndex :=
    (le_max_right _ _).trans anchored.stores.reach
  unfold durableStateLoads
  simp only [Bool.and_eq_true, Bool.or_eq_true, decide_eq_true_eq, List.all_eq_true,
    List.mem_range'_1]
  refine ⟨⟨⟨⟨⟨?_, ?_⟩, ?_⟩, ?_⟩, ?_⟩, ?_⟩
  · rintro ⟨none, some⟩
    exact some (term.trans (zero (base.symm.trans none)))
  · exact base.le
  · exact last.trans_le reach
  · rintro ⟨-, -, differs⟩
    exact differs term
  · exact .inl fun below => absurd base below.1.ne
  · intro index range
    unfold RaftLogView.firstRetainedIndex at range
    have stored := replica.stored
    have entry : (s.persistent n).log.entryAt index = log[index - 1]? := by
      refine anchored.stores.entries index ?_ ?_
      · show (s.persistent n).log.baseIndex < index
        omega
      · exact (show index ≤ s.applier.lastApplied n by omega).trans (le_max_right _ _)
    rw [entry, stored, List.getElem?_drop, List.getElem?_take_of_lt (by omega)]
    congr 1
    omega

/-- A new applier has the boundary terms of every node. -/
theorem loadApplier_baseTerm {applier : StateMachineApplier ν}
    (loads : loadApplier C s = .ok applier)
    (member : n ∈ C.nodeIds) :
    applier.baseTerm n = (s.persistent n).stateMachineBaseTerm := by
  have every : ∀ (nodes : List ν) (first : StateMachineApplier ν),
      nodes.foldlM (loadApplied s) first = .ok applier →
      (n ∈ nodes ∨ first.baseTerm n = (s.persistent n).stateMachineBaseTerm) →
        applier.baseTerm n = (s.persistent n).stateMachineBaseTerm := by
    intro nodes
    induction nodes with
    | nil =>
        intro first loads start
        cases loads
        exact start.resolve_left List.not_mem_nil
    | cons m rest ih =>
        intro first loads start
        rw [List.foldlM_cons] at loads
        obtain ⟨next, here, loads⟩ := bind_eq_ok.mp loads
        refine ih next loads ?_
        unfold loadApplied at here
        split at here
        · cases here
        obtain ⟨canonical, rfl⟩ := foldlM_recordCanonical here
        by_cases same : n = m
        · subst same
          exact .inr (Function.update_self ..)
        · refine start.imp (fun listed => (List.mem_cons.mp listed).resolve_left same)
            fun known => ?_
          exact (Function.update_of_ne same _ _).trans known
  exact every C.nodeIds {} loads (.inl member)

/-- The durable state of anchored replicas loads. -/
theorem exists_loadApplier (anchored : ∀ n ∈ C.nodeIds, Anchored log n s)
    (replicas : ∀ n ∈ C.nodeIds, Replica log n s) : ∃ applier, loadApplier C s = .ok applier := by
  have empty : Canonical log ({} : StateMachineApplier ν) := fun _ _ found => by cases found
  have step : ∀ applier, ∀ m ∈ C.nodeIds, Canonical log applier →
      ∃ next, loadApplied s applier m = .ok next ∧ Canonical log next := by
    intro applier m member canonical
    have replica := replicas m member
    unfold loadApplied
    rw [if_neg (not_not.mpr (durableStateLoads_of_anchored (anchored m member) replica))]
    dsimp only
    refine exists_foldlM_recordCanonical _ canonical ?_
    rw [replica.stored, List.drop_take]
    exact List.take_prefix _ _
  obtain ⟨applier, loads, -⟩ := exists_foldlM_eq_ok step {} empty
  exact ⟨applier, loads⟩

omit [LinearOrder ν] in
/-- The requests that a constructor restores from the snapshot. -/
theorem restoreSnapshotBoundary_requests {applier : StateMachineApplier ν} {start : KVImage}
    (loaded : Loaded s n applier) (restored : restoreSnapshotBoundary n applier s = .ok start) :
    start.requests = boundaryRequests n s := by
  unfold restoreSnapshotBoundary at restored
  unfold boundaryRequests
  rw [loaded.base] at restored
  split at restored
  next zero =>
    cases restored
    rw [if_pos zero]
  next positive =>
    rw [if_neg positive]
    split at restored
    · cases restored
    next snapshot latest =>
      split at restored
      · cases restored
      · obtain ⟨requests, known, built⟩ := bind_eq_ok.mp restored
        cases built
        rw [latest]
        exact restoreRequests_ofItems known

omit [LinearOrder ν] in
/-- A constructor validates the entries since the boundary as one batch. -/
theorem agrees_of_restoreImage {applier : StateMachineApplier ν} {image : KVImage}
    (loaded : Loaded s n applier) (restored : restoreImage n applier s = .ok image) :
    requestsAgree (s.persistent n).stateMachineApplied (boundaryRequests n s) = true := by
  obtain ⟨start, boundary, rest⟩ := bind_eq_ok.mp restored
  dsimp only at rest
  split at rest
  · cases rest
  split at rest
  · cases rest
  next agrees =>
    rw [← restoreSnapshotBoundary_requests loaded boundary, ← loaded.applied]
    exact not_not.mp agrees

omit [LinearOrder ν] in
/-- Requests with distinct identities are restored. -/
theorem exists_restoreRequests {items : List SnapshotClientRequest}
    {first : Dict (String × ℕ) KVOperation}
    (distinct : (items.map fun item => (item.clientId, item.requestId)).Nodup)
    (unknown : ∀ item ∈ items, first.lookup (item.clientId, item.requestId) = none) :
    ∃ requests, items.foldlM (fun requests item =>
      if (requests.lookup (item.clientId, item.requestId)).any (· ≠ item.operation) then
        (.error (.clientRequestConflict n) : Except (Error ν) _)
      else .ok (requests.insert (item.clientId, item.requestId) item.operation)) first =
        .ok requests := by
  induction items generalizing first with
  | nil => exact ⟨first, rfl⟩
  | cons item rest ih =>
      rw [List.map_cons, List.nodup_cons] at distinct
      have here := unknown item List.mem_cons_self
      rw [List.foldlM_cons, here]
      refine ih distinct.2 fun other member => ?_
      rw [Dict.lookup_insert, if_neg]
      · exact unknown other (List.mem_cons_of_mem _ member)
      · intro same
        refine distinct.1 (List.mem_map.mpr ⟨other, member, same⟩)

/-- **A recoverable node** is restored. -/
theorem exists_restoreImage {applier : StateMachineApplier ν} (anchored : Anchored log n s)
    (recoverable : Recoverable n s) (replica : Replica log n s)
    (valid : validEntries log = true) (loads : loadApplier C s = .ok applier)
    (member : n ∈ C.nodeIds) : ∃ image, restoreImage n applier s = .ok image := by
  have loaded := loadApplier_loaded loads member
  have baseTerm := loadApplier_baseTerm loads member
  have boundary : ∃ start, restoreSnapshotBoundary n applier s = .ok start := by
    unfold restoreSnapshotBoundary
    rw [loaded.base, baseTerm]
    split
    next => exact ⟨{}, rfl⟩
    next positive =>
      obtain ⟨snapshot, latest, -, -, index, term⟩ :=
        recoverable.boundary (.inr (Nat.pos_of_ne_zero positive))
      have wellFormed := anchored.wellFormed snapshot latest
      have unknown : ∀ item ∈ snapshot.clientRequests,
          (∅ : Dict (String × ℕ) KVOperation).lookup (item.clientId, item.requestId) = none :=
        fun _ _ => rfl
      obtain ⟨requests, restored⟩ := exists_restoreRequests (n := n) wellFormed.requests unknown
      rw [latest]
      dsimp only
      rw [if_neg (by rw [index, term]; simp)]
      exact ⟨_, bind_eq_ok.mpr ⟨requests, restored, rfl⟩⟩
  obtain ⟨start, begun⟩ := boundary
  have requests := restoreSnapshotBoundary_requests loaded begun
  have validated : validEntries (s.persistent n).stateMachineApplied = true := by
    rw [validEntries_iff] at valid ⊢
    intro entry listed
    rw [replica.stored] at listed
    exact valid entry (List.mem_of_mem_take (List.mem_of_mem_drop listed))
  have agrees : requestsAgree (s.persistent n).stateMachineApplied start.requests = true := by
    rw [requests]
    exact recoverable.agrees
  have known : ∀ key operation, start.requests.lookup key = some operation →
      start.requests.lookup key = some operation := fun _ _ => id
  obtain ⟨final, executed⟩ := exists_foldlM_applyCommand (n := n) validated
    (requestsAgree_iff.mp agrees) known
  refine ⟨final, bind_eq_ok.mpr ⟨start, begun, ?_⟩⟩
  dsimp only
  rw [loaded.applied, if_neg (not_not.mpr validated), if_neg (not_not.mpr agrees)]
  exact executed

/-- **A cluster of recoverable nodes recovers.** -/
theorem recovers_of_recoverable (anchored : ∀ n ∈ C.nodeIds, Anchored log n s)
    (recoverable : ∀ n ∈ C.nodeIds, Recoverable n s) (replicas : ∀ n ∈ C.nodeIds, Replica log n s)
    (upToDate : ∀ n ∈ C.nodeIds, UpToDate log n s) (valid : validEntries log = true) :
    Recovers C s := by
  obtain ⟨applier, loads⟩ := exists_loadApplier anchored replicas
  have step : ∀ images : ν → KVImage, ∀ m ∈ C.nodeIds, True →
      ∃ next, (do
        let image ← restoreImage m applier s
        .ok (Function.update images m image)) = .ok next ∧ True := by
    intro images m member _
    obtain ⟨image, restored⟩ := exists_restoreImage (anchored m member) (recoverable m member)
      (replicas m member) valid loads member
    exact ⟨_, bind_eq_ok.mpr ⟨image, restored, rfl⟩, trivial⟩
  obtain ⟨images, restored, -⟩ := exists_foldlM_eq_ok step (fun _ => {}) trivial
  refine ⟨⟨applier, images, loads, restored, fun n member => ?_⟩,
    fun n member => (recoverable n member).boundary⟩
  have view : (images n).view = (s.kv n).view :=
    (restoreImage_view (replicas n member) (loadApplier_loaded loads member)
      (restoreImages_restores restored member)).trans (upToDate n member).symm
  exact ⟨fun key => congrFun (congrArg Image.state view) key, fun identity =>
    congrFun (congrFun (congrArg Image.seen view) identity.1) identity.2⟩

/-! ## Steps -/

/-- What holds in every run: the replicas converge, their boundaries are the same, and the
snapshots are well-formed. -/
structure Storing (C : Config ν) (log : List (LogEntry (Command ν))) (r : Replicas ν) : Prop where
  converging : Converging C log r
  anchored : ∀ n ∈ C.nodeIds, Anchored log n r.cluster
  issued : ∀ snapshot ∈ r.issued, snapshot.WellFormed

omit [LinearOrder ν] in
theorem Storing.replica {r : Replicas ν} (storing : Storing C log r) (member : n ∈ C.nodeIds) :
    Replica log n r.cluster := (storing.converging.nodes n member).replica

omit [LinearOrder ν] in
theorem LogsMove.anchored (moves : LogsMove C log s t) (member : n ∈ C.nodeIds)
    (anchored : Anchored log n s) : Anchored log n t where
  stores := moves.stores n member
  baseIndex := by
    rw [moves.baseIndex, (moves.keeps n).baseIndex]
    exact anchored.baseIndex
  baseTerm := by
    rw [moves.baseTerm, moves.stateBaseTerm]
    exact anchored.baseTerm
  zero := by
    rw [moves.baseIndex, moves.baseTerm]
    exact anchored.zero
  wellFormed := by
    rw [(moves.keeps n).kvSnapshot]
    exact anchored.wellFormed

omit [LinearOrder ν] in
theorem LogsMove.recoverable (moves : LogsMove C log s t) (recoverable : Recoverable n s) :
    Recoverable n t where
  boundary := by
    have keeps := moves.keeps n
    unfold AtBoundary
    rw [moves.baseIndex, moves.baseTerm, moves.stateBaseTerm, keeps.durableBase, keeps.kvSnapshot]
    exact recoverable.boundary
  agrees := by
    have keeps := moves.keeps n
    unfold boundaryRequests
    rw [keeps.durableApplied, keeps.durableBase, keeps.kvSnapshot]
    exact recoverable.agrees

/-- The steps are steps of replicas of the committed log. -/
theorem StoreStep.replicaStep {call : StoreCall ν} {r r' : Replicas ν}
    (storing : Storing C log r) (step : StoreStep C log call r r') : ReplicaStep C log r r' := by
  cases step with
  | protocol t moves => exact .protocol t moves.keeps
  | apply n records t member returned =>
      exact .apply n records t member (storing.anchored n member).stores.commitsTo returned
  | create n snapshot t member returned => exact .create n snapshot t member returned
  | compact n snapshot t member returned => exact .compact n snapshot t member returned
  | install n snapshot preserve t member issued returned =>
      exact .install n snapshot preserve t member issued returned

/-- What a step on one node does for every node. -/
theorem anchored_of_others {r : Replicas ν} {actor : ν} (storing : Storing C log r)
    (here : Anchored log actor t) (others : ∀ m ≠ actor, Untouched m r.cluster t) :
    ∀ m ∈ C.nodeIds, Anchored log m t := by
  intro m member
  by_cases same : m = actor
  · rw [same]
    exact here
  · exact (storing.anchored m member).untouched (others m same)

theorem recoverable_of_others {actor : ν} (recoverable : ∀ n ∈ C.nodeIds, Recoverable n s)
    (here : Recoverable actor t) (others : ∀ m ≠ actor, Untouched m s t) :
    ∀ m ∈ C.nodeIds, Recoverable m t := by
  intro m member
  by_cases same : m = actor
  · rw [same]
    exact here
  · exact (recoverable m member).untouched (others m same)

/-- **One step.** -/
theorem Storing.step {call : StoreCall ν} {r r' : Replicas ν} (storing : Storing C log r)
    (step : StoreStep C log call r r') : Storing C log r' := by
  have converging := storing.converging.step (step.replicaStep storing)
  cases step with
  | protocol t moves =>
      exact ⟨converging, fun n member => moves.anchored member (storing.anchored n member),
        storing.issued⟩
  | apply n records t member returned =>
      have anchored := storing.anchored n member
      have appends := (kvApplyCommitted_appends returned).2
      exact ⟨converging, anchored_of_others storing
        (anchored.apply (storing.replica member) returned) fun m => appends.untouched,
        storing.issued⟩
  | create n snapshot t member returned =>
      refine ⟨converging, anchored_of_others storing
        ((storing.anchored n member).create returned) fun m =>
          createSnapshot_untouched returned, fun issued listed => ?_⟩
      rcases List.mem_append.mp listed with old | new
      · exact storing.issued issued old
      · rw [List.mem_singleton.mp new]
        exact wellFormed_of_createSnapshot returned
  | compact n snapshot t member returned =>
      obtain ⟨rebases, wellFormed⟩ := compactSnapshot_rebases (storing.anchored n member)
        (storing.replica member) returned
      refine ⟨converging, anchored_of_others storing (rebases.anchored wellFormed) rebases.others,
        fun issued listed => ?_⟩
      rcases List.mem_append.mp listed with old | new
      · exact storing.issued issued old
      · rw [List.mem_singleton.mp new]
        exact wellFormed
  | install n snapshot preserve t member issued returned =>
      refine ⟨converging, ?_, storing.issued⟩
      rcases installSnapshot_rebases (storing.anchored n member) returned with rfl | rebases
      · exact storing.anchored
      · exact anchored_of_others storing (rebases.anchored (storing.issued snapshot issued))
          rebases.others

/-- **One step that recovery stands.** -/
theorem recoverable_step {call : StoreCall ν} {r r' : Replicas ν} (storing : Storing C log r)
    (recoverable : ∀ n ∈ C.nodeIds, Recoverable n r.cluster) (step : StoreStep C log call r r')
    (meets : call.Meets r.cluster) : ∀ n ∈ C.nodeIds, Recoverable n r'.cluster := by
  have converging := storing.converging.step (step.replicaStep storing)
  cases step with
  | protocol t moves => exact fun n member => moves.recoverable (recoverable n member)
  | apply n records t member returned =>
      have appends := (kvApplyCommitted_appends returned).2
      exact recoverable_of_others recoverable ((recoverable n member).apply
        (storing.anchored n member) (storing.replica member) returned meets)
          fun m => appends.untouched
  | create n snapshot t member returned =>
      exact recoverable_of_others recoverable ((recoverable n member).create
        (storing.anchored n member) (storing.replica member) returned meets)
          fun m => createSnapshot_untouched returned
  | compact n snapshot t member returned =>
      obtain ⟨rebases, -⟩ := compactSnapshot_rebases (storing.anchored n member)
        (storing.replica member) returned
      exact recoverable_of_others recoverable
        (rebases.recoverable (converging.nodes n member).replica) rebases.others
  | install n snapshot preserve t member issued returned =>
      rcases installSnapshot_rebases (storing.anchored n member) returned with rfl | rebases
      · exact recoverable
      · exact recoverable_of_others recoverable
          (rebases.recoverable (converging.nodes n member).replica) rebases.others

/-- **Recovery stands only such steps.** -/
theorem meets_of_recovers {call : StoreCall ν} {r r' : Replicas ν} (storing : Storing C log r)
    (step : StoreStep C log call r r') (recovers : Recovers C r'.cluster) :
    call.Meets r.cluster := by
  cases step with
  | protocol t moves => trivial
  | apply n records t member returned =>
      obtain ⟨applier, images, loads, restored, -⟩ := recovers.images
      refine (agrees_apply_iff (storing.anchored n member) (storing.replica member) returned).mp ?_
      exact agrees_of_restoreImage (loadApplier_loaded loads member)
        (restoreImages_restores restored member)
  | create n snapshot t member returned =>
      exact meets_create_of_boundary (storing.anchored n member) returned
        (recovers.boundary n member)
  | compact n snapshot t member returned => trivial
  | install n snapshot preserve t member issued returned => trivial

/-! ## Runs -/

theorem commitIndex_updateVolatile {f : Volatile ν → Volatile ν}
    (keeps : ∀ w, (f w).commitIndex = w.commitIndex) (m n : ν) (s : Cluster ν) :
    (s.updateVolatile n f).commitIndex m = s.commitIndex m := by
  unfold Cluster.commitIndex Cluster.updateVolatile
  dsimp only
  by_cases same : m = n
  · rw [same, Function.update_self, keeps]
  · rw [Function.update_of_ne same]

theorem commitIndex_resetElectionTimeout (m n : ν) (s : Cluster ν) :
    (resetElectionTimeout C n s).commitIndex m = s.commitIndex m := by
  have cleared : ∀ u : Cluster ν, (clearPreVote n u).commitIndex m = u.commitIndex m := by
    intro u
    refine commitIndex_updateVolatile ?_ m n u
    exact fun _ => rfl
  have retired : ∀ u : Cluster ν, (retire n u).commitIndex m = u.commitIndex m := by
    intro u
    refine commitIndex_updateVolatile ?_ m n u
    exact fun _ => rfl
  unfold resetElectionTimeout
  split
  · unfold disableElectionTimeout
    dsimp only
    split <;> split
    · exact (retired _).trans (cleared _)
    · exact cleared _
    · exact retired _
    · rfl
  split
  · rfl
  split <;> rfl

theorem untouched_startTimers (m : ν) (s : Cluster ν) : Untouched m s (startTimers C s) := by
  have keeps := keeps_startTimers (C := C) m s
  have same : (startTimers C s).persistent = s.persistent ∧
      (startTimers C s).commitIndex m = s.commitIndex m := by
    unfold startTimers
    generalize C.nodeIds = nodes
    induction nodes generalizing s with
    | nil => exact ⟨rfl, rfl⟩
    | cons n rest ih =>
        obtain ⟨persistent, commitIndex⟩ := ih (resetElectionTimeout C n s) (keeps_startTimers m _)
        exact ⟨persistent.trans (persistent_resetElectionTimeout n s),
          commitIndex.trans (commitIndex_resetElectionTimeout m n s)⟩
  exact ⟨congrFun same.1 m, same.2, keeps.lastApplied, keeps.baseIndex⟩

theorem storing_fresh : Storing C log ⟨C.fresh, [], fun _ => []⟩ where
  converging := converging_fresh
  anchored n _ := by
    have start : Anchored log n
        (Config.over (fun _ => {}) C.initialConfiguration {} fun _ => {}) := by
      refine ⟨⟨le_rfl, fun index after within => ?_⟩, rfl, rfl, fun _ => rfl, fun _ found => ?_⟩
      · exact absurd (after.trans_le within) (lt_irrefl _)
      · cases found
    exact start.untouched (untouched_startTimers n _)
  issued _ member := absurd member List.not_mem_nil

theorem recoverable_fresh (n : ν) : Recoverable n C.fresh := by
  have start : Recoverable n (Config.over (fun _ => {}) C.initialConfiguration {} fun _ => {}) := by
    refine ⟨fun positive => ?_, rfl⟩
    rcases positive with positive | positive <;> exact absurd positive (lt_irrefl 0)
  exact start.untouched (untouched_startTimers n _)

theorem StoredWell.stored {r : Replicas ν} (stored : StoredWell C log r) : Stored C log r := by
  induction stored with
  | fresh => exact .fresh
  | step _ step _ ih => exact .step ih step

theorem StoredWell.storing {r : Replicas ν} (stored : StoredWell C log r) :
    Storing C log r ∧ ∀ n ∈ C.nodeIds, Recoverable n r.cluster := by
  induction stored with
  | fresh => exact ⟨storing_fresh, fun n _ => recoverable_fresh n⟩
  | step _ step meets ih => exact ⟨ih.1.step step, recoverable_step ih.1 ih.2 step meets⟩

/-- **Recovery is faithful in every run whose calls it stands, and only there.** A new
`ReplicatedKV` over what such a run has stored raises nothing and has the live images, and
every snapshot stands at its boundary; the first call of another kind breaks this. -/
theorem snapshot_recovery_exact {r : Replicas ν} (stored : StoredWell C log r)
    (valid : validEntries log = true) :
    Recovers C r.cluster ∧ ∀ call r', StoreStep C log call r r' →
      (Recovers C r'.cluster ↔ call.Meets r.cluster) := by
  have recovers : ∀ {r : Replicas ν}, StoredWell C log r → Recovers C r.cluster := by
    intro r stored
    obtain ⟨storing, recoverable⟩ := stored.storing
    exact recovers_of_recoverable storing.anchored recoverable (fun n => storing.replica)
      (fun n member => (storing.converging.nodes n member).upToDate) valid
  refine ⟨recovers stored, fun call r' step => ⟨?_, fun meets => ?_⟩⟩
  · exact meets_of_recovers stored.storing.1 step
  · exact recovers (stored.step step meets)

/-! ## A snapshot beyond its boundary -/

/-- The protocol writes a node's log and moves its commit index. -/
def logThrough (n : ν) (view : RaftLogView (Command ν)) (index : ℕ) (s : Cluster ν) : Cluster ν :=
  commitThrough n index (s.updatePersistent n fun p => { p with log := view })

theorem logsMove_logThrough {view : RaftLogView (Command ν)} {index : ℕ}
    (baseIndex : view.baseIndex = (s.logView n).baseIndex)
    (baseTerm : view.baseTerm = (s.logView n).baseTerm)
    (stores : ∀ m ∈ C.nodeIds, Stores log m (logThrough n view index s)) :
    LogsMove C log s (logThrough n view index s) := by
  have here : (logThrough n view index s).persistent n = { s.persistent n with log := view } :=
    Function.update_self ..
  have there : ∀ m ≠ n, (logThrough n view index s).persistent m = s.persistent m :=
    fun m other => Function.update_of_ne other _ _
  refine ⟨fun m => ?_, fun m => ?_, fun m => ?_, fun m => ?_, stores⟩
  · by_cases same : m = n
    · subst same
      exact ⟨rfl, rfl, rfl, by rw [here], by rw [here], by rw [here], rfl⟩
    · have kept := there m same
      exact ⟨rfl, rfl, rfl, by rw [kept], by rw [kept], by rw [kept], rfl⟩
  · by_cases same : m = n
    · rw [same, logView_of here, baseIndex]
    · rw [logView_of (there m same)]
      rfl
  · by_cases same : m = n
    · rw [same, logView_of here, baseTerm]
    · rw [logView_of (there m same)]
      rfl
  · by_cases same : m = n
    · rw [same, here]
    · rw [there m same]

/-- Two writes. -/
def ledger : List (LogEntry (Command ℕ)) :=
  [⟨1, .operation (.put "first" "1")⟩, ⟨1, .operation (.put "second" "2")⟩]

/-- The node holds both and has committed the first. -/
def ledgerStart : Cluster ℕ := logThrough 10 ⟨0, 0, ledger⟩ 1 solo.fresh

def ledgerApplied : Cluster ℕ := (kvApplyCommitted 10 ledgerStart).state

def ledgerCompacted : Cluster ℕ := (compactSnapshot solo 10 ledgerApplied).state

/-- Then the node has committed the second. -/
def ledgerCommitted : Cluster ℕ := logThrough 10 ⟨1, 1, ledger.drop 1⟩ 2 ledgerCompacted

def ledgerFollowed : Cluster ℕ := (kvApplyCommitted 10 ledgerCommitted).state

def ledgerSnapshot (index : ℕ) (state : List (String × String)) : KVSnapshot ℕ :=
  ⟨index, 1, state, [], none⟩

def ledgerCreated : Cluster ℕ := (createSnapshot solo 10 ledgerFollowed).state

theorem ledger_stores {s : Cluster ℕ} (commit last base : ℕ) (commits : s.commitIndex 10 = commit)
    (applied : s.applier.lastApplied 10 = last)
    (view : s.logView 10 = ⟨base, base, ledger.drop base⟩) (within : max commit last ≤ 2)
    (boundary : base ≤ 2) : ∀ m ∈ solo.nodeIds, Stores ledger m s := by
  intro m member
  obtain rfl : m = 10 := List.mem_singleton.mp member
  have length : ledger.length = 2 := rfl
  refine ⟨?_, fun index after before => ?_⟩
  · rw [commits, applied, view, RaftLogView.lastIndex, List.length_drop, length]
    dsimp only
    omega
  · rw [view] at after ⊢
    rw [RaftLogView.entryAt_eq_getElem after, List.getElem?_drop]
    congr 1
    dsimp only at after ⊢
    omega

/-- The steps up to the second application. -/
theorem ledger_stored : ∃ effects : ℕ → List (String × ℕ), StoredWell solo ledger
    ⟨ledgerFollowed, [ledgerSnapshot 1 [("first", "1")]], effects⟩ := by
  have applied : kvApplyCommitted 10 ledgerStart = .returns [⟨10, 1, ledger[0]⟩] ledgerApplied :=
    Outcome.eq_returns_of_value? (by decide +kernel)
  have compacted : compactSnapshot solo 10 ledgerApplied =
      .returns (ledgerSnapshot 1 [("first", "1")]) ledgerCompacted :=
    Outcome.eq_returns_of_value? (by decide +kernel)
  have followed : kvApplyCommitted 10 ledgerCommitted =
      .returns [⟨10, 2, ledger[1]⟩] ledgerFollowed :=
        Outcome.eq_returns_of_value? (by decide +kernel)
  have starts : LogsMove solo ledger solo.fresh ledgerStart :=
    logsMove_logThrough (by decide +kernel) (by decide +kernel)
      (ledger_stores 1 0 0 (by decide +kernel) (by decide +kernel) (by decide +kernel)
        (by decide) (by decide))
  have commits : LogsMove solo ledger ledgerCompacted ledgerCommitted :=
    logsMove_logThrough (by decide +kernel) (by decide +kernel)
      (ledger_stores 2 1 1 (by decide +kernel) (by decide +kernel) (by decide +kernel)
        (by decide) (by decide))
  have agrees : requestsAgree ((ledgerStart.persistent 10).stateMachineApplied ++
      pendingEntries 10 ledgerStart) (boundaryRequests 10 ledgerStart) = true := by decide +kernel
  have agrees' : requestsAgree ((ledgerCommitted.persistent 10).stateMachineApplied ++
      pendingEntries 10 ledgerCommitted) (boundaryRequests 10 ledgerCommitted) = true := by
    decide +kernel
  have first : StoredWell solo ledger _ := .step .fresh (.protocol ledgerStart starts) trivial
  have second : StoredWell solo ledger _ :=
    .step first (.apply 10 _ _ (by decide) applied) agrees
  have third : StoredWell solo ledger _ :=
    .step second (.compact 10 _ _ (by decide) compacted) trivial
  have fourth : StoredWell solo ledger _ := .step third (.protocol ledgerCommitted commits) trivial
  exact ⟨_, .step fourth (.apply 10 _ _ (by decide) followed) agrees'⟩

/-- **A snapshot that `create` moves beyond the boundary cannot be recovered from.** -/
theorem ledger_created_not_recovered :
    ¬ ∀ r : Replicas ℕ, Stored solo ledger r → Recovers solo r.cluster := by
  intro always
  obtain ⟨effects, stored⟩ := ledger_stored
  have created : createSnapshot solo 10 ledgerFollowed =
      .returns (ledgerSnapshot 2 [("first", "1"), ("second", "2")]) ledgerCreated :=
    Outcome.eq_returns_of_value? (by decide +kernel)
  have reached : Stored solo ledger _ := .step stored.stored (.create 10 _ _ (by decide) created)
  obtain ⟨applier, images, loads, restored, -⟩ := (always _ reached).images
  have raised : (loadApplier solo ledgerCreated >>= fun applier =>
      (restoreImages solo applier ledgerCreated).map fun _ => ()) =
        .error (.snapshotBoundary 10) := by decide +kernel
  rw [loads] at raised
  dsimp only [bind, Except.bind] at raised
  rw [restored] at raised
  cases raised

theorem snapshot_recovery_exact_ledger : ∃ r : Replicas ℕ, r.cluster = ledgerFollowed ∧
    Recovers solo r.cluster ∧ ∀ call r', StoreStep solo ledger call r r' →
      (Recovers solo r'.cluster ↔ call.Meets r.cluster) := by
  obtain ⟨effects, stored⟩ := ledger_stored
  exact ⟨_, rfl, snapshot_recovery_exact stored (by decide)⟩

end Distlab.Raft
