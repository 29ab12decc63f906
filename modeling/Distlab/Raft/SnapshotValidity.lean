import Distlab.Foundations.RequestOrder
import Distlab.Raft.Convergence
import Distlab.Raft.SnapshotHistory

/-!
# Where the validator of snapshots agrees with the state machine

The state machine drops a request whose id is below one of its client that it has
executed; the validator keeps it. The two agree exactly on the histories in order, in
which no first use of an identity is below an earlier id of its client.
-/

set_option autoImplicit false

namespace Distlab.Raft

open Foundations Deduplication

variable {ν : Type} [LinearOrder ν] {C : Config ν} {log : List (LogEntry (Command ν))}
  {n m : ν} {s t : Cluster ν}

/-! ## Two interpretations of a history -/

/-- The validator has the state and the requests of an image. -/
structure HistoryImage.Agrees (derived : HistoryImage) (image : KVImage) : Prop where
  state : derived.state = image.state
  requests : ∀ key, derived.requests.lookup key =
    (image.requests.lookup key).map fun operation => ⟨key.1, key.2, operation⟩

omit [LinearOrder ν] in
theorem interpretHistory_concat {history : List (LogEntry (Command ν))}
    {entry : LogEntry (Command ν)} {derived : HistoryImage} :
    interpretHistory (history ++ [entry]) = .ok derived ↔
      ∃ before, interpretHistory history = .ok before ∧
        interpret entry.command before = .ok derived := by
  rw [interpretHistory, List.foldlM_append, bind_eq_ok]
  refine exists_congr fun before => and_congr_right fun _ => ?_
  rw [List.foldlM_cons, bind_eq_ok]
  simp [pure, Except.pure]

omit [LinearOrder ν] in
/-- **On a history in order** the validator derives what the state machine executed. -/
theorem interpretHistory_agrees {history : List (LogEntry (Command ν))} {image : KVImage}
    (executed : executeHistory n history = .ok image) (inOrder : InOrder (requestsOf history)) :
    ∃ derived, interpretHistory history = .ok derived ∧ derived.Agrees image := by
  induction history using List.reverseRecOn generalizing image with
  | nil =>
      cases executed
      exact ⟨{}, rfl, rfl, fun _ => rfl⟩
  | append_singleton history entry ih =>
      obtain ⟨before, executed', applied⟩ := executeHistory_concat.mp executed
      rw [requestsOf, List.map_append, List.map_singleton, inOrder_concat] at inOrder
      obtain ⟨derived, interpreted, state, requests⟩ := ih executed' inOrder.1
      have kept : (∃ next, interpret entry.command derived = .ok next ∧ next.Agrees image) →
          ∃ next, interpretHistory (history ++ [entry]) = .ok next ∧ next.Agrees image :=
        fun ⟨next, last, agrees⟩ =>
          ⟨next, interpretHistory_concat.mpr ⟨derived, interpreted, last⟩, agrees⟩
      refine kept ?_
      cases command : entry.command with
      | jointConsensus newVoters =>
          rw [command] at applied
          cases applied
          exact ⟨derived, rfl, state, requests⟩
      | stableConsensus voters =>
          rw [command] at applied
          cases applied
          exact ⟨derived, rfl, state, requests⟩
      | commitRecoveryBarrier =>
          rw [command] at applied
          cases applied
          exact ⟨derived, rfl, state, requests⟩
      | other payload =>
          rw [command] at applied
          cases applied
      | operation operation =>
          rw [command] at applied
          cases applied
          exact ⟨_, rfl, by rw [state], requests⟩
      | clientRequest clientId requestId operation =>
          rw [command] at applied
          unfold applyCommand at applied
          unfold interpret
          dsimp only at applied ⊢
          rw [requests]
          cases found : before.requests.lookup (clientId, requestId) with
          | some previous =>
              rw [found] at applied
              dsimp only at applied
              split at applied
              · cases applied
              next same =>
                cases applied
                rw [not_not.mp same]
                exact ⟨derived, if_neg (not_not.mpr rfl), state, requests⟩
          | none =>
              rw [found] at applied
              -- an unseen request of a history in order is above every earlier one
              have above : Above (requested (requestsOf history)) clientId requestId := by
                have unseen : (replay KVOperation.execute (requestsOf history)
                    (.initial fun _ => none)).seen clientId requestId = none := by
                  rw [← view_executeHistory executed']
                  exact found
                refine (inOrder.2 clientId requestId operation
                  (by rw [command]; rfl)).resolve_left fun earlier => ?_
                exact (inOrder_iff _ _).mp inOrder.1 clientId requestId earlier unseen
              have current : ¬ isStale before clientId requestId = true := by
                have fresh : before.view.Fresh clientId requestId := by
                  rw [view_executeHistory executed']
                  exact fresh_replay_iff.mpr above
                exact (fresh_view.mp fresh).2
              dsimp only at applied
              rw [if_neg current] at applied
              cases applied
              refine ⟨_, rfl, by rw [state], fun key => ?_⟩
              dsimp only
              rw [Dict.lookup_insert, Dict.lookup_insert]
              by_cases same : key = (clientId, requestId)
              · rw [if_pos same, if_pos same, same]
                rfl
              · rw [if_neg same, if_neg same]
                exact requests key

omit [LinearOrder ν] in
/-- One command: the validator keeps its requests and the requested identity. -/
theorem interpret_requested {command : Command ν} {before derived : HistoryImage}
    (interpreted : interpret command before = .ok derived) :
    (∀ key ∈ before.requests, key ∈ derived.requests) ∧
      ∀ key, command.request.identity = some key → key ∈ derived.requests := by
  cases command with
  | clientRequest clientId requestId operation =>
      unfold interpret at interpreted
      dsimp only at interpreted
      split at interpreted
      next previous found =>
        split at interpreted
        · cases interpreted
        · cases interpreted
          refine ⟨fun _ => id, fun key same => ?_⟩
          cases same
          exact AList.lookup_isSome.mp (Option.isSome_of_mem found)
      next =>
        cases interpreted
        refine ⟨fun key known => (AList.mem_insert _).mpr (.inr known), fun key same => ?_⟩
        cases same
        exact (AList.mem_insert _).mpr (.inl rfl)
  | other payload => cases interpreted
  | operation operation =>
      cases interpreted
      exact ⟨fun _ => id, by rintro _ ⟨⟩⟩
  | jointConsensus newVoters =>
      cases interpreted
      exact ⟨fun _ => id, by rintro _ ⟨⟩⟩
  | stableConsensus voters =>
      cases interpreted
      exact ⟨fun _ => id, by rintro _ ⟨⟩⟩
  | commitRecoveryBarrier =>
      cases interpreted
      exact ⟨fun _ => id, by rintro _ ⟨⟩⟩

/-- Every request stands at its identity. -/
def HistoryImage.Keyed (derived : HistoryImage) : Prop :=
  ∀ key item, derived.requests.lookup key = some item → (item.clientId, item.requestId) = key

omit [LinearOrder ν] in
theorem interpretHistory_keyed {history : List (LogEntry (Command ν))} {derived : HistoryImage}
    (interpreted : interpretHistory history = .ok derived) : derived.Keyed := by
  induction history using List.reverseRecOn generalizing derived with
  | nil =>
      cases interpreted
      intro _ _ found
      cases found
  | append_singleton history entry ih =>
      obtain ⟨before, interpreted', last⟩ := interpretHistory_concat.mp interpreted
      have keyed := ih interpreted'
      cases command : entry.command with
      | clientRequest clientId requestId operation =>
          rw [command] at last
          unfold interpret at last
          dsimp only at last
          split at last
          · split at last
            · cases last
            · cases last
              exact keyed
          · cases last
            intro key item found
            rcases Dict.of_lookup_insert found with ⟨rfl, rfl⟩ | ⟨_, old⟩
            · rfl
            · exact keyed key item old
      | other payload =>
          rw [command] at last
          cases last
      | _ =>
          rw [command] at last
          cases last
          exact keyed

omit [LinearOrder ν] in
/-- The validator keeps every requested identity. -/
theorem interpretHistory_requested {history : List (LogEntry (Command ν))}
    {derived : HistoryImage} (interpreted : interpretHistory history = .ok derived) :
    ∀ key ∈ requested (requestsOf history), key ∈ derived.requests := by
  induction history using List.reverseRecOn generalizing derived with
  | nil => exact fun _ member => absurd member List.not_mem_nil
  | append_singleton history entry ih =>
      obtain ⟨before, interpreted', last⟩ := interpretHistory_concat.mp interpreted
      obtain ⟨keeps, adds⟩ := interpret_requested last
      intro key member
      rw [requestsOf, List.map_append, requested_append, List.mem_append] at member
      rcases member with earlier | here
      · exact keeps key (ih interpreted' key earlier)
      · obtain ⟨request, listed, identity⟩ := List.mem_filterMap.mp here
        rw [List.map_singleton, List.mem_singleton] at listed
        exact adds key (by rw [← listed, identity])

/-! ## The comparison with a snapshot -/

/-- The requests that the validator expects in a snapshot. -/
abbrev HistoryImage.expected (derived : HistoryImage) : List SnapshotClientRequest :=
  (derived.requests.sortedItems fun a b => toLex a ≤ toLex b).map Prod.snd

/-- The order of request identities. -/
theorem lex_total : Std.Total fun a b : String × ℕ => toLex a ≤ toLex b :=
  ⟨fun a b => le_total (toLex a) (toLex b)⟩

theorem HistoryImage.Agrees.expected {derived : HistoryImage} {image : KVImage}
    (agrees : derived.Agrees image) : derived.expected = snapshotRequests image := by
  have total := lex_total
  have trans : IsTrans (String × ℕ) fun a b => toLex a ≤ toLex b := ⟨fun _ _ _ => le_trans⟩
  have antisymm : Std.Antisymm fun a b : String × ℕ => toLex a ≤ toLex b :=
    ⟨fun a b first second => toLex.injective (le_antisymm first second)⟩
  rw [HistoryImage.expected, Dict.sortedItems_map _ agrees.requests, snapshotRequests, List.map_map]
  rfl

omit [LinearOrder ν] in
/-- **The validator's comparison succeeds exactly on histories in order.** -/
theorem interpretHistory_matches_iff {history : List (LogEntry (Command ν))} {image : KVImage}
    (executed : executeHistory n history = .ok image) :
    (∃ derived, interpretHistory history = .ok derived ∧
      derived.state.sortedItems (· ≤ ·) = snapshotState image ∧
      derived.expected = snapshotRequests image) ↔ InOrder (requestsOf history) := by
  constructor
  · rintro ⟨derived, interpreted, _, requests⟩
    refine (inOrder_iff KVOperation.execute fun _ => none).mpr fun clientId requestId member => ?_
    rw [← view_executeHistory executed]
    have kept := interpretHistory_requested interpreted _ member
    obtain ⟨item, found⟩ := Option.isSome_iff_exists.mp (AList.lookup_isSome.mpr kept)
    have listed : item ∈ snapshotRequests image := by
      rw [← requests]
      exact List.mem_map.mpr ⟨_, Dict.mem_sortedItems.mpr found, rfl⟩
    obtain ⟨⟨key, operation⟩, stored, rfl⟩ := List.mem_map.mp listed
    have same : key = (clientId, requestId) := interpretHistory_keyed interpreted _ _ found
    have seen := Dict.mem_sortedItems.mp stored
    rw [same] at seen
    exact fun absent => Option.some_ne_none operation (seen.symm.trans absent)
  · intro inOrder
    obtain ⟨derived, interpreted, agrees⟩ := interpretHistory_agrees executed inOrder
    exact ⟨derived, interpreted, by rw [agrees.state]; rfl, agrees.expected⟩

/-! ## What a node has executed -/

/-- A node without a boundary has executed what it has applied. -/
def Executed (log : List (LogEntry (Command ν))) (n : ν) (s : Cluster ν) : Prop :=
  s.applier.baseIndex n = 0 →
    executeHistory n (log.take (s.applier.lastApplied n)) = .ok (s.kv n)

omit [LinearOrder ν] in
theorem Executed.keeps (executed : Executed log n s) (keeps : Keeps n s t) : Executed log n t := by
  unfold Executed
  rw [keeps.baseIndex, keeps.lastApplied, keeps.kv]
  exact executed

/-- What holds in a run: every node has executed its history, and the snapshots stand
at positive indexes. -/
structure Executing (C : Config ν) (log : List (LogEntry (Command ν))) (r : Replicas ν) :
    Prop where
  nodes : ∀ n ∈ C.nodeIds, Executed log n r.cluster
  issued : ∀ snapshot ∈ r.issued, 0 < snapshot.lastIncludedIndex

omit [LinearOrder ν] in
theorem Executing.keeps {r : Replicas ν} (executing : Executing C log r)
    (keeps : ∀ n, Keeps n r.cluster t) : Executing C log { r with cluster := t } where
  nodes n member := (executing.nodes n member).keeps (keeps n)
  issued := executing.issued

theorem executing_fresh : Executing C log ⟨C.fresh, [], fun _ => []⟩ where
  nodes n _ := by
    have start : Executed log n
        (Config.over (fun _ => {}) C.initialConfiguration {} fun _ => {}) := fun _ => rfl
    exact start.keeps (keeps_startTimers (C := C) n _)
  issued _ member := absurd member List.not_mem_nil

/-- Applying entries leaves the boundary alone. -/
theorem applyEach_base {indexes : List ℕ} {records : List (AppliedEntry ν)}
    (returned : applyEach n indexes s = .returns records t) :
    t.applier.baseIndex = s.applier.baseIndex := by
  induction indexes generalizing s records with
  | nil =>
      cases returned
      rfl
  | cons index rest ih =>
      unfold applyEach at returned
      split at returned
      next => cases returned
      next entry _ =>
        split at returned
        next => cases returned
        next applier recorded =>
          obtain ⟨canonical, rfl⟩ := recordCanonical_ok recorded
          obtain ⟨_, u, looped, last⟩ := Outcome.bind_eq_returns.mp returned
          cases last
          have later := ih looped
          exact later

theorem kvApplyCommitted_base {records : List (AppliedEntry ν)}
    (returned : kvApplyCommitted n s = .returns records t) :
    t.applier.baseIndex = s.applier.baseIndex := by
  unfold kvApplyCommitted at returned
  dsimp only at returned
  split at returned
  · cases returned
  split at returned
  · cases returned
  split at returned
  · cases returned
  obtain ⟨applied, u, appliedAll, rest⟩ := Outcome.bind_eq_returns.mp returned
  obtain ⟨_, v, executed, last⟩ := Outcome.bind_eq_returns.mp rest
  cases last
  obtain ⟨image, rfl, _⟩ := applyCommands_returns executed
  unfold applierApplyCommitted at appliedAll
  dsimp only at appliedAll
  split at appliedAll
  · cases appliedAll
    rfl
  split at appliedAll
  · cases appliedAll
  split at appliedAll
  · cases appliedAll
  exact applyEach_base (t := u) appliedAll

theorem createSnapshot_contents {snapshot : KVSnapshot ν}
    (returned : createSnapshot C n s = .returns snapshot t) :
    snapshot.state = snapshotState (s.kv n) ∧
      snapshot.clientRequests = snapshotRequests (s.kv n) := by
  unfold createSnapshot at returned
  dsimp only at returned
  split at returned
  · cases returned
  split at returned
  · cases returned
  split at returned
  · cases returned
  split at returned
  · cases returned
  split at returned
  · cases returned
  · cases returned
    exact ⟨rfl, rfl⟩

theorem baseIndex_writeCompacted (n : ν) (index term : ℕ) (s : Cluster ν) :
    (writeCompacted n index term s).applier.baseIndex n = index := Function.update_self ..

/-- Compaction leaves the image alone, and moves the boundary forward. -/
theorem compactSnapshot_base {snapshot : KVSnapshot ν}
    (returned : compactSnapshot C n s = .returns snapshot t) :
    t.kv = s.kv ∧ t.applier.lastApplied = s.applier.lastApplied ∧
      (t.applier.baseIndex n = 0 → s.applier.baseIndex n = 0) ∧
      0 < snapshot.lastIncludedIndex := by
  unfold compactSnapshot at returned
  obtain ⟨created, u, creates, rest⟩ := Outcome.bind_eq_returns.mp returned
  obtain ⟨rfl, _, positive, _⟩ := createSnapshot_returns creates
  dsimp only at rest
  split at rest
  · cases rest
  obtain ⟨_, v, compacts, last⟩ := Outcome.bind_eq_returns.mp rest
  cases last
  unfold applierCompactThrough at compacts
  dsimp only at compacts
  split at compacts
  · cases compacts
  split at compacts
  · split at compacts
    · cases compacts
    · cases compacts
      exact ⟨rfl, rfl, id, positive⟩
  · split at compacts
    · cases compacts
    · cases compacts
      refine ⟨rfl, rfl, fun zero => ?_, positive⟩
      rw [baseIndex_writeCompacted] at zero
      omega

/-- An installation sets the boundary, unless the node has the snapshot. -/
theorem installSnapshot_base {snapshot : KVSnapshot ν} {preserve : Bool}
    (returned : installSnapshot C n snapshot preserve s = .returns () t) :
    t = s ∨ t.applier.baseIndex n = snapshot.lastIncludedIndex := by
  unfold installSnapshot at returned
  dsimp only at returned
  split at returned
  · cases returned
  split at returned
  · split at returned
    · cases returned
    · cases returned
      exact .inl rfl
  split at returned
  · cases returned
  split at returned
  · cases returned
  next suffix _ =>
    split at returned
    · cases returned
    split at returned
    · cases returned
    · refine .inr ?_
      have written : (writeSnapshot n snapshot suffix s).applier.baseIndex n =
          snapshot.lastIncludedIndex := Function.update_self ..
      obtain ⟨_, u, advanced, rest⟩ := Outcome.bind_eq_returns.mp returned
      obtain ⟨_, v, matched, checked⟩ := Outcome.bind_eq_returns.mp rest
      obtain rfl := assertLogMatching_returns matched
      obtain rfl := assertStateMachineSafety_returns checked
      split at advanced
      · unfold advanceNodeCommit at advanced
        split at advanced
        · cases advanced
        split at advanced
        · cases advanced
          exact written
        · cases advanced
          exact written
      · cases advanced
        exact written

/-- A reconstructed node has executed what it had applied. -/
theorem executed_restored {applier : StateMachineApplier ν} {images : ν → KVImage}
    (replica : Replica log n s) (loaded : Loaded s n applier)
    (restored : restoreImages C applier s = .ok images) (member : n ∈ C.nodeIds)
    (records : t.applier = applier) (kv : t.kv = images) : Executed log n t := by
  intro zero
  rw [records] at zero
  have image := restoreImages_restores restored member
  have base : applier.baseIndex n = s.applier.baseIndex n :=
    loaded.base.trans replica.durableBase
  have history : (applier.applied n).map (·.entry) = log.take (s.applier.lastApplied n) := by
    rw [loaded.applied, replica.durableApplied, replica.applied, ← base, zero, List.drop_zero]
  have same : applier.lastApplied n = s.applier.lastApplied n :=
    loaded.last.trans replica.loaded.last.symm
  unfold restoreImage restoreSnapshotBoundary at image
  rw [if_pos zero, history] at image
  rw [records, kv, same]
  obtain ⟨start, begun, rest⟩ := bind_eq_ok.mp image
  cases begun
  dsimp only at rest
  split at rest
  · cases rest
  split at rest
  · cases rest
  · exact rest

/-- **One step.** -/
theorem Executing.step {r r' : Replicas ν} (executing : Executing C log r)
    (converging : Converging C log r) (step : ReplicaStep C log r r') : Executing C log r' := by
  -- a call on one node leaves the histories of the others alone
  have others : ∀ {n : ν} {u : Cluster ν} {issued : List (KVSnapshot ν)}
      {effects : ν → List (String × ℕ)}, (∀ m ≠ n, Keeps m r.cluster u) →
      Executed log n u → (∀ snapshot ∈ issued, 0 < snapshot.lastIncludedIndex) →
        Executing C log ⟨u, issued, effects⟩ := by
    intro n u issued effects others own positive
    refine ⟨fun m listed => ?_, positive⟩
    by_cases same : m = n
    · exact same ▸ own
    · exact (executing.nodes m listed).keeps (others m same)
  cases step with
  | protocol t keeps => exact executing.keeps keeps
  | crash n => exact executing.keeps fun m => keeps_crash m n
  | restart n => exact executing.keeps fun m => keeps_restart m n
  | apply n records t member commits returned =>
      obtain ⟨u, image, applies, rfl, _, _, folded⟩ :=
        kvApplyCommitted_applies (converging.nodes n member).replica commits returned
      refine others (n := n) (fun m other => (applies.others m other).trans
        ⟨rfl, rfl, rfl, rfl, rfl, rfl, Function.update_of_ne other _ _⟩) (fun zero => ?_)
          executing.issued
      rw [kvApplyCommitted_base returned] at zero
      show executeHistory n (log.take (u.applier.lastApplied n)) =
        .ok (Function.update u.kv n image n)
      rw [applies.entries, executeHistory, List.foldlM_append, Function.update_self]
      exact bind_eq_ok.mpr ⟨_, executing.nodes n member zero, folded⟩
  | create n snapshot t member returned =>
      obtain ⟨rfl, _, positive, _⟩ := createSnapshot_returns returned
      refine others (n := n) (fun m other => keeps_updatePersistent_of_ne other _)
        (executing.nodes n member) fun issued listed => ?_
      rcases List.mem_append.mp listed with old | new
      · exact executing.issued issued old
      · exact List.mem_singleton.mp new ▸ positive
  | compact n snapshot t member returned =>
      obtain ⟨kv, last, base, positive⟩ := compactSnapshot_base returned
      obtain ⟨replica, upToDate, _⟩ := converging.nodes n member
      obtain ⟨maintains, _⟩ := compactSnapshot_maintains replica upToDate returned
      refine others maintains.others (fun zero => ?_) fun issued listed => ?_
      · rw [kv, last]
        exact executing.nodes n member (base zero)
      · rcases List.mem_append.mp listed with old | new
        · exact executing.issued issued old
        · exact List.mem_singleton.mp new ▸ positive
  | install n snapshot preserve t member issued returned =>
      obtain ⟨replica, upToDate, _⟩ := converging.nodes n member
      have maintains := installSnapshot_maintains replica upToDate
        (converging.issued snapshot issued) returned
      refine others maintains.others ?_ executing.issued
      rcases installSnapshot_base returned with rfl | moved
      · exact executing.nodes n member
      · intro zero
        have := executing.issued snapshot issued
        omega
  | rebuild images images_eq =>
      refine ⟨fun n member => ?_, executing.issued⟩
      exact executed_restored (converging.nodes n member).replica
        (converging.nodes n member).replica.loaded images_eq member rfl rfl
  | reload applier images loads images_eq =>
      refine ⟨fun n member => ?_, executing.issued⟩
      exact executed_restored (converging.nodes n member).replica
        (loadApplier_loaded loads member) images_eq member rfl rfl
  | recreate t returned =>
      unfold Raft.recreate at returned
      split at returned
      · cases returned
      next configuration _ =>
        split at returned
        · cases returned
        next applier loads =>
          split at returned
          · cases returned
          next images images_eq =>
            cases returned
            refine ⟨fun n member => ?_, executing.issued⟩
            have built : Executed log n
                (Config.over r.cluster.persistent configuration applier images) :=
              executed_restored (converging.nodes n member).replica
                (loadApplier_loaded loads member) images_eq member rfl rfl
            exact built.keeps (keeps_startTimers n _)

theorem Reached.executing {r : Replicas ν} (reached : Reached C log r) : Executing C log r := by
  induction reached with
  | fresh => exact executing_fresh
  | step before step ih => exact ih.step before.converging step

/-! ## The verdict of the validator -/

/-- The created snapshot is at the boundary, or the history without one is in order. -/
def Validatable (n : ν) (s : Cluster ν) : Prop :=
  if s.applier.baseIndex n = 0 then
    InOrder (requestsOf ((s.applier.applied n).map (·.entry)))
  else s.applier.lastApplied n = s.applier.baseIndex n

/-- What `assert_state_machine_safety` has checked of a node. -/
theorem checked_of_safe (safe : assertStateMachineSafety C s = .returns () s)
    (member : n ∈ C.nodeIds) :
    durableStateLoads n s = true ∧
      (s.persistent n).stateMachineBaseTerm = s.applier.baseTerm n := by
  unfold assertStateMachineSafety at safe
  split at safe
  next seen passed =>
    obtain ⟨before, after, checked⟩ := exists_of_foldlM_eq_ok passed n member
    unfold checkApplied at checked
    obtain ⟨_, _, checked⟩ := bind_eq_ok.mp checked
    obtain ⟨_, _, checked⟩ := bind_eq_ok.mp checked
    dsimp only at checked
    split at checked
    next holds => exact ⟨holds.1, holds.2.2.1⟩
    next => cases checked
  next => cases safe

/-- The last applied entry and the durable boundary have the terms of the log. -/
theorem term_of_loads {term : ℕ} (replica : Replica log n s)
    (loads : durableStateLoads n s = true)
    (found : (s.logView n).termAt (s.applier.lastApplied n) = some term)
    (positive : 0 < s.applier.lastApplied n) :
    (s.applier.baseIndex n < s.applier.lastApplied n →
      ((s.applier.applied n).map (·.entry)).getLast?.map (·.term) = some term) ∧
    (s.applier.lastApplied n = s.applier.baseIndex n →
      term = (s.persistent n).stateMachineBaseTerm) := by
  have length : ((s.applier.applied n).map (·.entry)).length =
      s.applier.lastApplied n - s.applier.baseIndex n := by
    rw [replica.applied, List.length_drop, List.length_take, Nat.min_eq_left replica.within]
  have base := replica.base
  unfold durableStateLoads at loads
  simp only [Bool.and_eq_true, Bool.or_eq_true, decide_eq_true_eq, List.all_eq_true,
    replica.durableBase, replica.durableApplied, length] at loads
  obtain ⟨⟨⟨⟨⟨_, below⟩, _⟩, boundary⟩, middle⟩, overlap⟩ := loads
  have reach : s.applier.baseIndex n + (s.applier.lastApplied n - s.applier.baseIndex n) =
      s.applier.lastApplied n := by omega
  rw [reach] at middle overlap
  change RaftLogView.termAt (s.persistent n).log _ = _ at found
  unfold RaftLogView.termAt at found
  constructor
  · intro beyond
    rw [List.getLast?_eq_getElem?, length]
    split at found
    next same =>
      cases found
      have covered := middle.resolve_left (by omega)
      rw [← same] at covered
      obtain ⟨entry, here, equal⟩ := (Option.any_eq_true ..).mp covered
      rw [here]
      exact congrArg some (of_decide_eq_true equal)
    next other =>
      have retained : max (s.applier.baseIndex n + 1) (s.persistent n).log.firstRetainedIndex ≤
          s.applier.lastApplied n := by
        refine max_le beyond ?_
        by_contra short
        have covered : s.applier.lastApplied n ≤ (s.persistent n).log.baseIndex := by
          unfold RaftLogView.firstRetainedIndex at short
          omega
        rw [RaftLogView.entryAt, if_pos covered] at found
        cases found
      have agrees := overlap (s.applier.lastApplied n) (by
        rw [List.mem_range'_1]
        omega)
      rw [← agrees]
      exact found
  · intro same
    split at found
    next here =>
      cases found
      by_contra differs
      exact boundary ⟨same ▸ here, by omega, Ne.symm differs⟩
    next other =>
      rw [RaftLogView.entryAt, if_pos (same ▸ below)] at found
      cases found

/-- The membership of a created snapshot has known voters. -/
theorem validSnapshotMembership_of_create {snapshot : KVSnapshot ν}
    (known : s.votingConfiguration.voters ⊆ C.nodeIds.toFinset)
    (taken : snapshotVotingConfiguration C n snapshot.lastIncludedIndex s =
      .ok snapshot.votingConfiguration) : validSnapshotMembership C snapshot = true := by
  unfold snapshotVotingConfiguration at taken
  unfold validSnapshotMembership
  cases kind : C.kind with
  | fixed =>
      rw [kind] at taken
      rw [← Except.ok.inj taken]
  | reconfigurable voters =>
      rw [kind] at taken
      dsimp only at taken
      split at taken
      · cases taken
      · rw [← Except.ok.inj taken]
        exact decide_eq_true known

/-- **The created snapshot of a node passes exactly when it is validatable.** -/
theorem validateAgainstAppliedHistory_iff {r : Replicas ν} {snapshot : KVSnapshot ν}
    (reached : Reached C log r) (member : n ∈ C.nodeIds)
    (safe : assertStateMachineSafety C r.cluster = .returns () r.cluster)
    (known : r.cluster.votingConfiguration.voters ⊆ C.nodeIds.toFinset)
    (returned : createSnapshot C n r.cluster = .returns snapshot t) :
    validateAgainstAppliedHistory C n snapshot t = .ok () ↔ Validatable n r.cluster := by
  obtain ⟨written, index, positive, term, _, taken⟩ := createSnapshot_returns returned
  obtain ⟨state, requests⟩ := createSnapshot_contents returned
  have replica := (reached.converging.nodes n member).replica
  obtain ⟨loads, baseTerm⟩ := checked_of_safe safe member
  have applier : t.applier = r.cluster.applier := by
    rw [written]
    rfl
  rw [index] at term positive
  obtain ⟨lastTerm, boundaryTerm⟩ := term_of_loads replica loads term positive
  have membership := validSnapshotMembership_of_create known taken
  unfold validateAgainstAppliedHistory Validatable
  rw [if_neg (not_not.mpr membership), applier]
  by_cases zero : r.cluster.applier.baseIndex n = 0
  · rw [if_neg (by omega), if_pos zero]
    dsimp only
    have executed := reached.executing.nodes n member zero
    have history : (r.cluster.applier.applied n).map (·.entry) =
        log.take (r.cluster.applier.lastApplied n) := by
      rw [replica.applied, zero, List.drop_zero]
    have length : (log.take (r.cluster.applier.lastApplied n)).length =
        r.cluster.applier.lastApplied n := List.length_take_of_le replica.within
    have last := lastTerm (by omega)
    rw [history] at last
    rw [history, index, List.take_of_length_le length.le, if_neg (by omega),
      if_neg (not_not.mpr last), state, requests, ← interpretHistory_matches_iff executed]
    constructor
    · intro passed
      split at passed
      · cases passed
      next derived interpreted =>
        split at passed
        · cases passed
        split at passed
        · cases passed
        next states same => exact ⟨derived, interpreted, not_not.mp states, not_not.mp same⟩
    · rintro ⟨derived, interpreted, states, same⟩
      rw [interpreted]
      dsimp only
      rw [if_neg (not_not.mpr states), if_neg (not_not.mpr same)]
  · rw [if_pos (Nat.pos_of_ne_zero zero), if_neg zero, index, ← baseTerm]
    constructor
    · intro passed
      split at passed
      · cases passed
      next same => exact not_not.mp same
    · intro same
      rw [if_neg (not_not.mpr same), if_neg (not_not.mpr (boundaryTerm same))]

/-- **The constructor after `create`**: it raises nothing exactly when the snapshot is
validatable, if it raises nothing for the other nodes. -/
theorem created_snapshot_validates_iff {r : Replicas ν} {snapshot : KVSnapshot ν}
    (reached : Reached C log r) (member : n ∈ C.nodeIds)
    (safe : assertStateMachineSafety C r.cluster = .returns () r.cluster)
    (known : r.cluster.votingConfiguration.voters ⊆ C.nodeIds.toFinset)
    (returned : createSnapshot C n r.cluster = .returns snapshot t) :
    (validateAgainstAppliedHistory C n snapshot t = .ok () ↔ Validatable n r.cluster) ∧
      ((∀ m ∈ C.nodeIds, m ≠ n → checkSnapshot C t m = .ok ()) →
        (newSnapshotStore C t = .ok () ↔ Validatable n r.cluster)) := by
  have verdict := validateAgainstAppliedHistory_iff reached member safe known returned
  refine ⟨verdict, fun others => ?_⟩
  have own : checkSnapshot C t n = validateAgainstAppliedHistory C n snapshot t := by
    obtain ⟨rfl, _⟩ := createSnapshot_returns returned
    have stored : ((r.cluster.updatePersistent n fun p => { p with kvSnapshot := some snapshot
        }).persistent n).kvSnapshot = some snapshot := by
      unfold Cluster.updatePersistent
      dsimp only
      rw [Function.update_self]
    unfold checkSnapshot
    rw [stored]
  rw [newSnapshotStore, forM_eq_ok_iff, ← verdict, ← own]
  constructor
  · intro passed
    exact passed n member
  · intro passed m listed
    by_cases same : m = n
    · exact same ▸ passed
    · exact others m listed same

/-- The node that applied an older request after a newer one takes a snapshot that the
constructor refuses. -/
theorem older_request_fails_validation : ∃ effects : ℕ → List (String × ℕ),
    Reached mirror mirrorLog ⟨mirrorApplied, [], effects⟩ ∧
      createSnapshot mirror 6 mirrorApplied = .returns mirrorSnapshot mirrorPersisted ∧
        validateAgainstAppliedHistory mirror 6 mirrorSnapshot mirrorPersisted =
          .error .stateDiverges ∧
            newSnapshotStore mirror mirrorPersisted = .error .stateDiverges := by
  obtain ⟨effects, reached⟩ := mirror_applies
  exact ⟨effects, reached, Outcome.eq_returns_of_value? (by decide +kernel), by decide +kernel,
    by decide +kernel⟩

/-- Its history is not in order. -/
theorem older_request_not_validatable : ¬ Validatable 6 mirrorApplied := by
  obtain ⟨effects, reached⟩ := mirror_applies
  have refused : validateAgainstAppliedHistory mirror 6 mirrorSnapshot mirrorPersisted ≠ .ok () :=
    by decide +kernel
  have checked : assertStateMachineSafety mirror mirrorApplied = .returns ()
      (assertStateMachineSafety mirror mirrorApplied).state :=
    Outcome.eq_returns_of_value? (by decide +kernel)
  have safe : assertStateMachineSafety mirror mirrorApplied = .returns () mirrorApplied := by
    rw [assertStateMachineSafety_returns checked] at checked
    exact checked
  have known : mirrorApplied.votingConfiguration.voters ⊆ mirror.nodeIds.toFinset := by decide
  have created : createSnapshot mirror 6 mirrorApplied = .returns mirrorSnapshot mirrorPersisted :=
    Outcome.eq_returns_of_value? (by decide +kernel)
  have verdict := created_snapshot_validates_iff reached (by decide) safe known created
  exact fun validatable => refused (verdict.1.mpr validatable)

end Distlab.Raft
