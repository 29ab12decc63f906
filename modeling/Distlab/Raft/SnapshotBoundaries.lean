import Distlab.Raft.Batching
import Distlab.Raft.Convergence

/-!
# Snapshots and boundaries

Snapshots are created, logs are compacted and snapshots are installed while nodes apply a
committed log. On every node the boundary of the log and that of the state machine stay the
same; `compact` and `install` move them to a snapshot that they persist, while `create`
persists a snapshot and leaves the boundaries where they are.
-/

set_option autoImplicit false

namespace Distlab.Raft

open Foundations Deduplication

variable {ν : Type} [LinearOrder ν]

/-! ## What recovery gives back -/

/-- A new `ReplicatedKV` over the durable state raises nothing and has the live images. -/
def RecoversImages (C : Config ν) (s : Cluster ν) : Prop :=
  ∃ applier images, loadApplier C s = .ok applier ∧ restoreImages C applier s = .ok images ∧
    ∀ n ∈ C.nodeIds,
      (∀ key, (images n).state.lookup key = (s.kv n).state.lookup key) ∧
        ∀ identity, (images n).requests.lookup identity = (s.kv n).requests.lookup identity

/-- The snapshot of a node stands at the boundaries of its log and its state machine, if one
of these is positive. -/
def AtBoundary (n : ν) (s : Cluster ν) : Prop :=
  0 < (s.logView n).baseIndex ∨ 0 < (s.persistent n).stateMachineBaseIndex →
    ∃ snapshot, (s.persistent n).kvSnapshot = some snapshot ∧
      snapshot.lastIncludedIndex = (s.logView n).baseIndex ∧
      snapshot.lastIncludedTerm = (s.logView n).baseTerm ∧
      snapshot.lastIncludedIndex = (s.persistent n).stateMachineBaseIndex ∧
      snapshot.lastIncludedTerm = (s.persistent n).stateMachineBaseTerm

/-- Recovery is faithful, and every snapshot stands at its boundary. -/
structure Recovers (C : Config ν) (s : Cluster ν) : Prop where
  images : RecoversImages C s
  boundary : ∀ n ∈ C.nodeIds, AtBoundary n s

/-! ## Runs -/

/-- A node's log holds the committed log as far as the node has committed or applied it. -/
structure Stores (log : List (LogEntry (Command ν))) (n : ν) (s : Cluster ν) : Prop where
  reach : max (s.commitIndex n) (s.applier.lastApplied n) ≤ (s.logView n).lastIndex
  entries : ∀ index, (s.logView n).baseIndex < index →
    index ≤ max (s.commitIndex n) (s.applier.lastApplied n) →
      (s.logView n).entryAt index = log[index - 1]?

/-- Between the calls the logs and the commit indexes change as the protocol has it: the
boundaries stay, and the logs go on holding what is committed and applied. -/
structure LogsMove (C : Config ν) (log : List (LogEntry (Command ν))) (s t : Cluster ν) :
    Prop where
  keeps : ∀ n, Keeps n s t
  baseIndex : ∀ n, (t.logView n).baseIndex = (s.logView n).baseIndex
  baseTerm : ∀ n, (t.logView n).baseTerm = (s.logView n).baseTerm
  stateBaseTerm : ∀ n, (t.persistent n).stateMachineBaseTerm =
    (s.persistent n).stateMachineBaseTerm
  stores : ∀ n ∈ C.nodeIds, Stores log n t

/-- A call on the state machine or the snapshot store, or what happens in between. -/
inductive StoreCall (ν : Type) where
  | protocol
  | apply (n : ν)
  | create (n : ν)
  | compact (n : ν)
  | install (n : ν) (snapshot : KVSnapshot ν) (preserveMatchingSuffix : Bool)

/-- One step. A call is a step if it returns. -/
inductive StoreStep (C : Config ν) (log : List (LogEntry (Command ν))) :
    StoreCall ν → Replicas ν → Replicas ν → Prop
  | protocol {r : Replicas ν} (t : Cluster ν) (moves : LogsMove C log r.cluster t) :
      StoreStep C log .protocol r { r with cluster := t }
  | apply {r : Replicas ν} (n : ν) (records : List (AppliedEntry ν)) (t : Cluster ν)
      (member : n ∈ C.nodeIds) (returned : kvApplyCommitted n r.cluster = .returns records t) :
      StoreStep C log (.apply n) r { r with
        cluster := t
        effects := Function.update r.effects n
          (r.effects n ++ takeEffect n (records.map (·.entry)) (r.cluster.kv n)) }
  | create {r : Replicas ν} (n : ν) (snapshot : KVSnapshot ν) (t : Cluster ν)
      (member : n ∈ C.nodeIds) (returned : createSnapshot C n r.cluster = .returns snapshot t) :
      StoreStep C log (.create n) r { r with cluster := t, issued := r.issued ++ [snapshot] }
  | compact {r : Replicas ν} (n : ν) (snapshot : KVSnapshot ν) (t : Cluster ν)
      (member : n ∈ C.nodeIds) (returned : compactSnapshot C n r.cluster = .returns snapshot t) :
      StoreStep C log (.compact n) r { r with cluster := t, issued := r.issued ++ [snapshot] }
  | install {r : Replicas ν} (n : ν) (snapshot : KVSnapshot ν) (preserveMatchingSuffix : Bool)
      (t : Cluster ν) (member : n ∈ C.nodeIds) (issued : snapshot ∈ r.issued)
      (returned : installSnapshot C n snapshot preserveMatchingSuffix r.cluster =
        .returns () t) :
      StoreStep C log (.install n snapshot preserveMatchingSuffix) r { r with cluster := t }

/-- What a new cluster reaches by such steps. -/
inductive Stored (C : Config ν) (log : List (LogEntry (Command ν))) : Replicas ν → Prop
  | fresh : Stored C log ⟨C.fresh, [], fun _ => []⟩
  | step {call : StoreCall ν} {r r' : Replicas ν} (before : Stored C log r)
      (step : StoreStep C log call r r') : Stored C log r'

/-- The requests of a node's snapshot, if the node is compacted. -/
def boundaryRequests (n : ν) (s : Cluster ν) : Dict (String × ℕ) KVOperation :=
  if (s.persistent n).stateMachineBaseIndex = 0 then ∅
  else ((s.persistent n).kvSnapshot.map (·.image.requests)).getD ∅

/-- The calls that recovery stands: `create` on a compacted node only if the node has applied
nothing since the boundary, and `apply_committed` only of requests that do not conflict with
the entries applied since the boundary. -/
def StoreCall.Meets (s : Cluster ν) : StoreCall ν → Prop
  | .create n => s.applier.baseIndex n = 0 ∨ s.applier.lastApplied n = s.applier.baseIndex n
  | .apply n =>
      requestsAgree ((s.persistent n).stateMachineApplied ++ pendingEntries n s)
        (boundaryRequests n s) = true
  | _ => True

/-- What a new cluster reaches by steps that recovery stands. -/
inductive StoredWell (C : Config ν) (log : List (LogEntry (Command ν))) : Replicas ν → Prop
  | fresh : StoredWell C log ⟨C.fresh, [], fun _ => []⟩
  | step {call : StoreCall ν} {r r' : Replicas ν} (before : StoredWell C log r)
      (step : StoreStep C log call r r') (meets : call.Meets r.cluster) : StoredWell C log r'

variable {C : Config ν} {log : List (LogEntry (Command ν))} {n m : ν} {s t : Cluster ν}

/-! ## A node with its boundary -/

/-- What the constructor of `KVSnapshot` demands of the index and of the requests. -/
structure KVSnapshot.WellFormed (snapshot : KVSnapshot ν) : Prop where
  positive : 0 < snapshot.lastIncludedIndex
  requests : (snapshot.clientRequests.map fun item => (item.clientId, item.requestId)).Nodup

/-- The boundaries of a node's log and of its state machine are the same. -/
structure Anchored (log : List (LogEntry (Command ν))) (n : ν) (s : Cluster ν) : Prop where
  stores : Stores log n s
  baseIndex : (s.logView n).baseIndex = s.applier.baseIndex n
  baseTerm : (s.persistent n).stateMachineBaseTerm = (s.logView n).baseTerm
  zero : (s.logView n).baseIndex = 0 → (s.logView n).baseTerm = 0
  wellFormed : ∀ snapshot, (s.persistent n).kvSnapshot = some snapshot → snapshot.WellFormed

/-- What recovery needs of a node. -/
structure Recoverable (n : ν) (s : Cluster ν) : Prop where
  boundary : AtBoundary n s
  agrees : requestsAgree (s.persistent n).stateMachineApplied (boundaryRequests n s) = true

/-- The step leaves the durable state of a node, its commit index and its applied index. -/
structure Untouched (n : ν) (s t : Cluster ν) : Prop where
  persistent : t.persistent n = s.persistent n
  commitIndex : t.commitIndex n = s.commitIndex n
  lastApplied : t.applier.lastApplied n = s.applier.lastApplied n
  baseIndex : t.applier.baseIndex n = s.applier.baseIndex n

omit [LinearOrder ν] in
theorem logView_of {durable : Persistent ν} (same : s.persistent n = durable) :
    s.logView n = durable.log := congrArg Persistent.log same

omit [LinearOrder ν] in
theorem Untouched.logView (untouched : Untouched n s t) : t.logView n = s.logView n :=
  congrArg Persistent.log untouched.persistent

omit [LinearOrder ν] in
theorem Stores.untouched (stores : Stores log n s) (untouched : Untouched n s t) :
    Stores log n t where
  reach := by
    rw [untouched.commitIndex, untouched.lastApplied, untouched.logView]
    exact stores.reach
  entries := by
    rw [untouched.commitIndex, untouched.lastApplied, untouched.logView]
    exact stores.entries

omit [LinearOrder ν] in
theorem Anchored.untouched (anchored : Anchored log n s) (untouched : Untouched n s t) :
    Anchored log n t where
  stores := anchored.stores.untouched untouched
  baseIndex := by
    rw [untouched.logView, untouched.baseIndex]
    exact anchored.baseIndex
  baseTerm := by
    rw [untouched.logView, untouched.persistent]
    exact anchored.baseTerm
  zero := by
    rw [untouched.logView]
    exact anchored.zero
  wellFormed := by
    rw [untouched.persistent]
    exact anchored.wellFormed

omit [LinearOrder ν] in
theorem Recoverable.untouched (recoverable : Recoverable n s) (untouched : Untouched n s t) :
    Recoverable n t where
  boundary := by
    unfold AtBoundary
    rw [untouched.logView, untouched.persistent]
    exact recoverable.boundary
  agrees := by
    unfold boundaryRequests
    rw [untouched.persistent]
    exact recoverable.agrees

omit [LinearOrder ν] in
/-- What a node has committed and holds is of the committed log. -/
theorem Stores.commitsTo (stores : Stores log n s) : CommitsTo log n s := by
  intro index entry within found
  have retained : (s.logView n).baseIndex < index := by
    by_contra below
    rw [RaftLogView.entryAt, if_pos (not_lt.mp below)] at found
    cases found
  rw [← stores.entries index retained (within.trans (le_max_left _ _))]
  exact found

omit [LinearOrder ν] in
/-- What a call of `apply_committed` validates is the committed log from the applied index to
the commit index. -/
theorem Anchored.pendingEntries_eq (anchored : Anchored log n s) (replica : Replica log n s) :
    pendingEntries n s = (log.take (s.commitIndex n)).drop (s.applier.lastApplied n) := by
  unfold pendingEntries
  dsimp only
  split
  next beyond =>
    have base : (s.logView n).baseIndex ≤ s.applier.lastApplied n :=
      anchored.baseIndex.trans_le replica.base
    apply List.ext_getElem?
    intro offset
    rw [RaftLogView.suffixFrom, RaftLogView.firstRetainedIndex, List.getElem?_take,
      List.getElem?_drop, List.getElem?_drop, List.getElem?_take]
    by_cases inside : s.applier.lastApplied n + offset < s.commitIndex n
    · rw [if_pos (by omega), if_pos inside]
      have entry := anchored.stores.entries (s.applier.lastApplied n + offset + 1) (by omega)
        ((Nat.succ_le_of_lt inside).trans (le_max_left _ _))
      rw [RaftLogView.entryAt_eq_getElem (by omega), Nat.add_sub_cancel] at entry
      rw [← entry]
      congr 1
      omega
    · rw [if_neg (by omega), if_neg inside]
  next none =>
    rw [List.drop_of_length_le]
    rw [List.length_take]
    omega

/-! ## Calls of `apply_committed` -/

/-- The step adds entries to what a node has applied, and changes nothing else durable. -/
structure Appends (n : ν) (entries : List (LogEntry (Command ν))) (s t : Cluster ν) : Prop where
  volatile : t.volatile = s.volatile
  persistent : t.persistent = Function.update s.persistent n
    { s.persistent n with
      stateMachineApplied := (s.persistent n).stateMachineApplied ++ entries }
  baseIndex : t.applier.baseIndex = s.applier.baseIndex
  lastApplied : ∀ m ≠ n, t.applier.lastApplied m = s.applier.lastApplied m

theorem appends_nil (n : ν) (s : Cluster ν) : Appends n [] s s := by
  refine ⟨rfl, ?_, rfl, fun _ _ => rfl⟩
  rw [List.append_nil]
  exact (Function.update_eq_self n s.persistent).symm

theorem Appends.trans {u : Cluster ν} {first second : List (LogEntry (Command ν))}
    (early : Appends n first s t) (late : Appends n second t u) :
    Appends n (first ++ second) s u where
  volatile := late.volatile.trans early.volatile
  persistent := by
    rw [late.persistent, early.persistent, Function.update_self, Function.update_idem,
      List.append_assoc]
  baseIndex := late.baseIndex.trans early.baseIndex
  lastApplied m other := (late.lastApplied m other).trans (early.lastApplied m other)

theorem applyEach_appends {first count : ℕ} {records : List (AppliedEntry ν)}
    (returned : applyEach n (List.range' first count) s = .returns records t) :
    records.length = count ∧ Appends n (records.map (·.entry)) s t := by
  induction count generalizing first s records with
  | zero =>
      cases returned
      exact ⟨rfl, appends_nil n _⟩
  | succ count ih =>
      rw [List.range'_succ] at returned
      unfold applyEach at returned
      split at returned
      next => cases returned
      next entry found =>
        split at returned
        next => cases returned
        next applier recorded =>
          obtain ⟨rest, u, looped, last⟩ := Outcome.bind_eq_returns.mp returned
          cases last
          obtain ⟨canonical, rfl⟩ := recordCanonical_ok recorded
          obtain ⟨length, appends⟩ := ih looped
          have here : Appends n [entry] s (writeApplied n first entry
              { s with applier := { s.applier with canonicalByIndex := canonical } }) :=
            ⟨rfl, rfl, rfl, fun m other => Function.update_of_ne other _ _⟩
          exact ⟨congrArg (· + 1) length, here.trans appends⟩

theorem kvApplyCommitted_appends {records : List (AppliedEntry ν)}
    (returned : kvApplyCommitted n s = .returns records t) :
    records.length = s.commitIndex n - s.applier.lastApplied n ∧
      Appends n (records.map (·.entry)) s t := by
  unfold kvApplyCommitted at returned
  dsimp only at returned
  split at returned
  · cases returned
  split at returned
  · cases returned
  split at returned
  · cases returned
  obtain ⟨applied, u, appliedAll, rest⟩ := Outcome.bind_eq_returns.mp returned
  obtain ⟨_, v, executed, last⟩ := Outcome.bind_eq_returns.mp rest
  cases last
  obtain ⟨image, rfl, -⟩ := applyCommands_returns executed
  suffices appends : records.length = s.commitIndex n - s.applier.lastApplied n ∧
      Appends n (records.map (·.entry)) s u from
    ⟨appends.1, appends.2.volatile, appends.2.persistent, appends.2.baseIndex,
      appends.2.lastApplied⟩
  unfold applierApplyCommitted at appliedAll
  dsimp only at appliedAll
  split at appliedAll
  next caught =>
    cases appliedAll
    exact ⟨(Nat.sub_eq_zero_of_le caught).symm, appends_nil n _⟩
  split at appliedAll
  · cases appliedAll
  split at appliedAll
  · cases appliedAll
  exact applyEach_appends appliedAll

theorem Appends.untouched {entries : List (LogEntry (Command ν))}
    (appends : Appends n entries s t) (other : m ≠ n) : Untouched m s t where
  persistent := by
    rw [appends.persistent]
    exact Function.update_of_ne other _ _
  commitIndex := congrArg (fun volatile => (volatile m).commitIndex) appends.volatile
  lastApplied := appends.lastApplied m other
  baseIndex := congrFun appends.baseIndex m

/-- The entries that a call applies are those that it validates. -/
theorem applied_eq_pending {records : List (AppliedEntry ν)} (anchored : Anchored log n s)
    (replica : Replica log n s) (returned : kvApplyCommitted n s = .returns records t) :
    records.map (·.entry) = pendingEntries n s ∧
      t.applier.lastApplied n = max (s.commitIndex n) (s.applier.lastApplied n) := by
  obtain ⟨u, image, applies, rfl, -⟩ :=
    kvApplyCommitted_applies replica anchored.stores.commitsTo returned
  have length := (kvApplyCommitted_appends returned).1
  have reached : u.applier.lastApplied n =
      max (s.commitIndex n) (s.applier.lastApplied n) := by
    rw [applies.reached, List.length_map, length]
    omega
  refine ⟨?_, reached⟩
  have grown := congrArg (List.drop (s.applier.lastApplied n)) applies.entries
  have whole : (log.take (s.applier.lastApplied n)).length = s.applier.lastApplied n :=
    List.length_take_of_le replica.within
  rw [List.drop_append_of_le_length whole.ge, List.drop_of_length_le whole.le, List.nil_append]
    at grown
  rw [anchored.pendingEntries_eq replica, ← grown, reached]
  rcases le_total (s.commitIndex n) (s.applier.lastApplied n) with caught | behind
  · rw [max_eq_right caught, List.drop_of_length_le whole.le, List.drop_of_length_le]
    rw [List.length_take]
    omega
  · rw [max_eq_left behind]

theorem Appends.logView {entries : List (LogEntry (Command ν))} (appends : Appends n entries s t) :
    t.logView n = s.logView n := by
  unfold Cluster.logView
  rw [appends.persistent, Function.update_self]

theorem Appends.durable {entries : List (LogEntry (Command ν))} (appends : Appends n entries s t) :
    t.persistent n = { s.persistent n with
      stateMachineApplied := (s.persistent n).stateMachineApplied ++ entries } := by
  rw [appends.persistent, Function.update_self]

/-- A node stays anchored when it applies entries. -/
theorem Anchored.apply {records : List (AppliedEntry ν)} (anchored : Anchored log n s)
    (replica : Replica log n s) (returned : kvApplyCommitted n s = .returns records t) :
    Anchored log n t := by
  obtain ⟨-, last⟩ := applied_eq_pending anchored replica returned
  obtain ⟨-, appends⟩ := kvApplyCommitted_appends returned
  have view := appends.logView
  have commit : t.commitIndex n = s.commitIndex n :=
    congrArg (fun volatile => (volatile n).commitIndex) appends.volatile
  have same : max (t.commitIndex n) (t.applier.lastApplied n) =
      max (s.commitIndex n) (s.applier.lastApplied n) := by
    rw [commit, last]
    omega
  refine ⟨⟨?_, ?_⟩, ?_, ?_, ?_, ?_⟩
  · rw [same, view]
    exact anchored.stores.reach
  · rw [same, view]
    exact anchored.stores.entries
  · rw [view, appends.baseIndex]
    exact anchored.baseIndex
  · rw [view, appends.durable]
    exact anchored.baseTerm
  · rw [view]
    exact anchored.zero
  · rw [appends.durable]
    exact anchored.wellFormed

/-- After a call, the entries since the boundary agree exactly if the call was one that
recovery stands. -/
theorem agrees_apply_iff {records : List (AppliedEntry ν)} (anchored : Anchored log n s)
    (replica : Replica log n s) (returned : kvApplyCommitted n s = .returns records t) :
    requestsAgree (t.persistent n).stateMachineApplied (boundaryRequests n t) = true ↔
      (StoreCall.apply n).Meets s := by
  obtain ⟨pending, -⟩ := applied_eq_pending anchored replica returned
  obtain ⟨-, appends⟩ := kvApplyCommitted_appends returned
  have boundary : boundaryRequests n t = boundaryRequests n s := by
    unfold boundaryRequests
    rw [appends.durable]
  rw [boundary, appends.durable, pending]
  exact Iff.rfl

theorem Recoverable.apply {records : List (AppliedEntry ν)} (recoverable : Recoverable n s)
    (anchored : Anchored log n s) (replica : Replica log n s)
    (returned : kvApplyCommitted n s = .returns records t)
    (meets : (StoreCall.apply n).Meets s) : Recoverable n t where
  boundary := by
    obtain ⟨-, appends⟩ := kvApplyCommitted_appends returned
    have view := appends.logView
    unfold AtBoundary
    rw [view, appends.durable]
    exact recoverable.boundary
  agrees := (agrees_apply_iff anchored replica returned).mpr meets

/-! ## Calls of `create` and `compact` -/

theorem wellFormed_of_createSnapshot {snapshot : KVSnapshot ν}
    (returned : createSnapshot C n s = .returns snapshot t) : snapshot.WellFormed := by
  have positive := (createSnapshot_returns returned).2.2.1
  refine ⟨positive, ?_⟩
  unfold createSnapshot at returned
  dsimp only at returned
  split at returned
  · cases returned
  split at returned
  · cases returned
  split at returned
  · cases returned
  split at returned
  · cases returned
  split at returned
  · cases returned
  cases returned
  have identities : (snapshotRequests (s.kv n)).map (fun item => (item.clientId, item.requestId)) =
      ((s.kv n).requests.sortedItems fun a b => toLex a ≤ toLex b).map Prod.fst := by
    unfold snapshotRequests
    rw [List.map_map]
    rfl
  rw [identities]
  exact Dict.nodup_keys_sortedItems _ _

theorem createSnapshot_untouched {snapshot : KVSnapshot ν}
    (returned : createSnapshot C n s = .returns snapshot t) (other : m ≠ n) : Untouched m s t := by
  obtain ⟨rfl, -⟩ := createSnapshot_returns returned
  exact ⟨Function.update_of_ne other _ _, rfl, rfl, rfl⟩

/-- A node stays anchored when a snapshot of it is persisted. -/
theorem Anchored.create {snapshot : KVSnapshot ν} (anchored : Anchored log n s)
    (returned : createSnapshot C n s = .returns snapshot t) : Anchored log n t := by
  have wellFormed := wellFormed_of_createSnapshot returned
  obtain ⟨rfl, -⟩ := createSnapshot_returns returned
  have durable : (s.updatePersistent n fun p => { p with kvSnapshot := some snapshot }).persistent n
      = { s.persistent n with kvSnapshot := some snapshot } := Function.update_self ..
  have view : (s.updatePersistent n fun p => { p with kvSnapshot := some snapshot }).logView n
      = s.logView n := by
    unfold Cluster.logView
    rw [durable]
  refine ⟨⟨?_, ?_⟩, ?_, ?_, ?_, ?_⟩
  · rw [view]
    exact anchored.stores.reach
  · rw [view]
    exact anchored.stores.entries
  · rw [view]
    exact anchored.baseIndex
  · rw [view, durable]
    exact anchored.baseTerm
  · rw [view]
    exact anchored.zero
  · rw [durable]
    rintro _ ⟨⟩
    exact wellFormed

omit [LinearOrder ν] in
/-- A node without entries since its boundary has nothing to validate. -/
theorem agrees_of_last (replica : Replica log n s)
    (last : s.applier.lastApplied n ≤ s.applier.baseIndex n) :
    requestsAgree (s.persistent n).stateMachineApplied (boundaryRequests n s) = true := by
  have none : (s.persistent n).stateMachineApplied = [] := by
    rw [replica.durableApplied, replica.applied, List.drop_of_length_le]
    exact (List.length_take_le _ _).trans last
  rw [none]
  rfl

theorem Recoverable.create {snapshot : KVSnapshot ν} (recoverable : Recoverable n s)
    (anchored : Anchored log n s) (replica : Replica log n s)
    (returned : createSnapshot C n s = .returns snapshot t)
    (meets : (StoreCall.create n).Meets s) : Recoverable n t := by
  obtain ⟨rfl, index, -, term, -⟩ := createSnapshot_returns returned
  set u := s.updatePersistent n fun p => { p with kvSnapshot := some snapshot }
  have durable : u.persistent n = { s.persistent n with kvSnapshot := some snapshot } :=
    Function.update_self ..
  have view : u.logView n = s.logView n := by
    unfold Cluster.logView
    rw [durable]
  have stateBase : (u.persistent n).stateMachineBaseIndex = s.applier.baseIndex n := by
    rw [durable]
    exact replica.durableBase
  by_cases zero : s.applier.baseIndex n = 0
  · constructor
    · intro positive
      rw [stateBase, view, anchored.baseIndex] at positive
      omega
    · have agrees := recoverable.agrees
      unfold boundaryRequests at agrees ⊢
      rw [if_pos (replica.durableBase.trans zero)] at agrees
      rw [if_pos (stateBase.trans zero), durable]
      exact agrees
  · have last : s.applier.lastApplied n = s.applier.baseIndex n := meets.resolve_left zero
    have boundary : snapshot.lastIncludedIndex = (s.logView n).baseIndex := by
      rw [index, last, anchored.baseIndex]
    have sameTerm : snapshot.lastIncludedTerm = (s.logView n).baseTerm := by
      rw [boundary, RaftLogView.termAt, if_pos rfl] at term
      exact (Option.some.inj term).symm
    constructor
    · intro _
      refine ⟨snapshot, by rw [durable], ?_, ?_, ?_, ?_⟩
      · rw [view, boundary]
      · rw [view, sameTerm]
      · rw [stateBase, index, last]
      · rw [durable, sameTerm]
        exact anchored.baseTerm.symm
    · have none : (s.persistent n).stateMachineApplied = [] := by
        rw [replica.durableApplied, replica.applied, List.drop_of_length_le]
        exact (List.length_take_le _ _).trans last.le
      rw [durable]
      dsimp only
      rw [none]
      rfl

/-- A call of `create` that recovery does not stand moves the snapshot off its boundary. -/
theorem meets_create_of_boundary {snapshot : KVSnapshot ν} (anchored : Anchored log n s)
    (returned : createSnapshot C n s = .returns snapshot t) (boundary : AtBoundary n t) :
    (StoreCall.create n).Meets s := by
  obtain ⟨rfl, index, -⟩ := createSnapshot_returns returned
  by_cases zero : s.applier.baseIndex n = 0
  · exact .inl zero
  · refine .inr ?_
    set u := s.updatePersistent n fun p => { p with kvSnapshot := some snapshot }
    have durable : u.persistent n = { s.persistent n with kvSnapshot := some snapshot } :=
      Function.update_self ..
    have view : u.logView n = s.logView n := by
      unfold Cluster.logView
      rw [durable]
    have positive : 0 < (u.logView n).baseIndex := by
      rw [view, anchored.baseIndex]
      exact Nat.pos_of_ne_zero zero
    obtain ⟨stored, latest, same, -⟩ := boundary (.inl positive)
    rw [durable] at latest
    cases latest
    rw [← index, same, view, anchored.baseIndex]

/-! ## A new boundary -/

/-- The call moved the boundaries of a node to a snapshot, which it persisted. -/
structure Rebases (log : List (LogEntry (Command ν))) (snapshot : KVSnapshot ν) (n : ν)
    (s t : Cluster ν) : Prop where
  baseIndex : (t.logView n).baseIndex = snapshot.lastIncludedIndex
  baseTerm : (t.logView n).baseTerm = snapshot.lastIncludedTerm
  stateBaseIndex : (t.persistent n).stateMachineBaseIndex = snapshot.lastIncludedIndex
  stateBaseTerm : (t.persistent n).stateMachineBaseTerm = snapshot.lastIncludedTerm
  latest : (t.persistent n).kvSnapshot = some snapshot
  base : t.applier.baseIndex n = snapshot.lastIncludedIndex
  last : t.applier.lastApplied n = snapshot.lastIncludedIndex
  stores : Stores log n t
  others : ∀ m ≠ n, Untouched m s t

omit [LinearOrder ν] in
theorem Rebases.anchored {snapshot : KVSnapshot ν} (rebases : Rebases log snapshot n s t)
    (wellFormed : snapshot.WellFormed) : Anchored log n t where
  stores := rebases.stores
  baseIndex := rebases.baseIndex.trans rebases.base.symm
  baseTerm := rebases.stateBaseTerm.trans rebases.baseTerm.symm
  zero none := by
    have positive := wellFormed.positive
    rw [rebases.baseIndex] at none
    omega
  wellFormed := by
    rw [rebases.latest]
    rintro _ ⟨⟩
    exact wellFormed

omit [LinearOrder ν] in
theorem Rebases.recoverable {snapshot : KVSnapshot ν} (rebases : Rebases log snapshot n s t)
    (replica : Replica log n t) : Recoverable n t where
  boundary _ := ⟨snapshot, rebases.latest, rebases.baseIndex.symm, rebases.baseTerm.symm,
    rebases.stateBaseIndex.symm, rebases.stateBaseTerm.symm⟩
  agrees := agrees_of_last replica (rebases.last.trans_le rebases.base.ge)

omit [LinearOrder ν] in
/-- A view that is compacted through an index that it has. -/
theorem compactThrough_spec {view : RaftLogView (Command ν)} {index term : ℕ}
    (known : view.termAt index = some term) (within : index ≤ view.lastIndex) :
    (view.compactThrough index).baseIndex = index ∧
      (view.compactThrough index).baseTerm = term ∧
        (view.compactThrough index).lastIndex = view.lastIndex ∧
          ∀ later, index < later →
            (view.compactThrough index).entryAt later = view.entryAt later := by
  unfold RaftLogView.compactThrough
  split
  next same =>
    rw [same, RaftLogView.termAt, if_pos rfl] at known
    exact ⟨same.symm, Option.some.inj known, rfl, fun _ _ => rfl⟩
  next beyond =>
    have above : view.baseIndex < index := by
      by_contra below
      rw [RaftLogView.termAt, if_neg beyond, RaftLogView.entryAt, if_pos (not_lt.mp below)] at known
      cases known
    refine ⟨rfl, by rw [known, Option.getD_some], ?_, fun later after => ?_⟩
    · unfold RaftLogView.lastIndex at within ⊢
      rw [List.length_drop]
      dsimp only
      omega
    · rw [RaftLogView.entryAt_eq_getElem after,
        RaftLogView.entryAt_eq_getElem (above.trans after), List.getElem?_drop]
      congr 1
      dsimp only
      omega

/-- **A compacted node** stands at its boundary. -/
theorem compactSnapshot_rebases {snapshot : KVSnapshot ν} (anchored : Anchored log n s)
    (replica : Replica log n s) (returned : compactSnapshot C n s = .returns snapshot t) :
    Rebases log snapshot n s t ∧ snapshot.WellFormed := by
  unfold compactSnapshot at returned
  obtain ⟨created, u, creates, rest⟩ := Outcome.bind_eq_returns.mp returned
  have wellFormed := wellFormed_of_createSnapshot creates
  obtain ⟨rfl, index, -, term, -⟩ := createSnapshot_returns creates
  set u := s.updatePersistent n fun p => { p with kvSnapshot := some created }
  have view : u.logView n = s.logView n := by
    simp [u, Cluster.logView, Cluster.updatePersistent]
  dsimp only at rest
  rw [view] at rest
  have within : created.lastIncludedIndex ≤ (s.logView n).lastIndex := by
    rw [index]
    exact (le_max_right _ _).trans anchored.stores.reach
  obtain ⟨baseIndex, baseTerm, lastIndex, later⟩ := compactThrough_spec term within
  split at rest
  · cases rest
  obtain ⟨_, v, compacts, last⟩ := Outcome.bind_eq_returns.mp rest
  cases last
  refine ⟨?_, wellFormed⟩
  set w := u.updatePersistent n fun p =>
    { p with log := (s.logView n).compactThrough snapshot.lastIncludedIndex }
  have durable : w.persistent n = { s.persistent n with
      kvSnapshot := some snapshot
      log := (s.logView n).compactThrough snapshot.lastIncludedIndex } := by
    simp [w, u, Cluster.updatePersistent]
  have others : ∀ m ≠ n, Untouched m s w := by
    intro m other
    refine ⟨?_, rfl, rfl, rfl⟩
    simp [w, u, Cluster.updatePersistent, Function.update_of_ne other]
  have stores : ∀ t : Cluster ν, t.logView n = (s.logView n).compactThrough
      snapshot.lastIncludedIndex → t.commitIndex n = s.commitIndex n →
        t.applier.lastApplied n = s.applier.lastApplied n → Stores log n t := by
    intro t compacted commit applied
    refine ⟨?_, fun position after within => ?_⟩
    · rw [commit, applied, compacted, lastIndex]
      exact anchored.stores.reach
    · rw [compacted, baseIndex] at after
      rw [commit, applied] at within
      rw [compacted, later position after]
      refine anchored.stores.entries position ?_ within
      have base := replica.base
      rw [← anchored.baseIndex] at base
      omega
  unfold applierCompactThrough at compacts
  dsimp only at compacts
  split at compacts
  · cases compacts
  split at compacts
  next same =>
    split at compacts
    · cases compacts
    · rw [← (Outcome.returns.inj compacts).2]
      have boundary : snapshot.lastIncludedIndex = s.applier.baseIndex n := same
      have compacted : w.logView n =
          (s.logView n).compactThrough snapshot.lastIncludedIndex := by
        rw [logView_of durable]
      have kept : (s.logView n).compactThrough snapshot.lastIncludedIndex = s.logView n := by
        rw [RaftLogView.compactThrough, if_pos (boundary.trans anchored.baseIndex.symm)]
      refine ⟨?_, ?_, ?_, ?_, ?_, boundary.symm, index.symm, stores w compacted rfl rfl, others⟩
      · rw [compacted, baseIndex]
      · rw [compacted, baseTerm]
      · rw [durable, boundary]
        exact replica.durableBase
      · rw [durable, ← baseTerm, kept]
        exact anchored.baseTerm
      · rw [durable]
  next =>
    split at compacts
    · cases compacts
    · rw [← (Outcome.returns.inj compacts).2]
      set x := writeCompacted n snapshot.lastIncludedIndex snapshot.lastIncludedTerm w
      have durable' : x.persistent n = { w.persistent n with
          stateMachineApplied := ((w.applier.applied n).drop
            (snapshot.lastIncludedIndex - w.applier.baseIndex n)).map (·.entry)
          stateMachineBaseIndex := snapshot.lastIncludedIndex
          stateMachineBaseTerm := snapshot.lastIncludedTerm } := Function.update_self ..
      have compacted : x.logView n =
          (s.logView n).compactThrough snapshot.lastIncludedIndex := by
        rw [logView_of durable', durable]
      refine ⟨?_, ?_, ?_, ?_, ?_, Function.update_self .., index.symm,
        stores x compacted rfl rfl, fun m other => ?_⟩
      · rw [compacted, baseIndex]
      · rw [compacted, baseTerm]
      · rw [durable']
      · rw [durable']
      · rw [durable', durable]
      · have before := others m other
        refine ⟨?_, before.commitIndex, before.lastApplied, ?_⟩
        · exact (Function.update_of_ne other _ _).trans before.persistent
        · exact (Function.update_of_ne other _ _).trans before.baseIndex

omit [LinearOrder ν] in
/-- The log that `install` leaves: the entries beyond the snapshot, if it keeps them. -/
theorem retainedSuffix_spec {snapshot : KVSnapshot ν} {preserve : Bool}
    {suffix : List (LogEntry (Command ν))}
    (above : (s.logView n).baseIndex ≤ snapshot.lastIncludedIndex)
    (retained : retainedSuffix n snapshot preserve s = .ok suffix) {view : RaftLogView (Command ν)}
    (shape : view = ⟨snapshot.lastIncludedIndex, snapshot.lastIncludedTerm, suffix⟩) :
    view.lastIndex = max (s.logView n).lastIndex snapshot.lastIncludedIndex ∧
      ∀ later, snapshot.lastIncludedIndex < later → later ≤ (s.logView n).lastIndex →
        view.entryAt later = (s.logView n).entryAt later := by
  unfold retainedSuffix at retained
  dsimp only at retained
  split at retained
  next short =>
    cases retained
    subst shape
    refine ⟨(max_eq_right short).symm, fun later after within => ?_⟩
    omega
  next long =>
    split at retained
    next =>
      cases retained
      subst shape
      constructor
      · unfold RaftLogView.lastIndex at long ⊢
        rw [RaftLogView.suffixFrom, List.length_drop, RaftLogView.firstRetainedIndex]
        dsimp only
        omega
      · intro later after within
        rw [RaftLogView.entryAt_eq_getElem after,
          RaftLogView.entryAt_eq_getElem (above.trans_lt after), RaftLogView.suffixFrom,
          List.getElem?_drop, RaftLogView.firstRetainedIndex]
        congr 1
        dsimp only
        omega
    next => cases retained

/-- **A node on which a snapshot is installed** stands at its boundary, unless it had this
snapshot. -/
theorem installSnapshot_rebases {snapshot : KVSnapshot ν} {preserve : Bool}
    (anchored : Anchored log n s)
    (returned : installSnapshot C n snapshot preserve s = .returns () t) :
    t = s ∨ Rebases log snapshot n s t := by
  unfold installSnapshot at returned
  dsimp only at returned
  split at returned
  · cases returned
  split at returned
  · split at returned
    · cases returned
    · cases returned
      exact .inl rfl
  split at returned
  · cases returned
  next above =>
  split at returned
  · cases returned
  next suffix retained =>
  split at returned
  · cases returned
  split at returned
  · cases returned
  refine .inr ?_
  obtain ⟨_, u, advanced, rest⟩ := Outcome.bind_eq_returns.mp returned
  obtain ⟨_, v, matched, checked⟩ := Outcome.bind_eq_returns.mp rest
  obtain rfl := assertLogMatching_returns matched
  obtain rfl := assertStateMachineSafety_returns checked
  set w := writeSnapshot n snapshot suffix s
  have durable : w.persistent n = { s.persistent n with
      kvSnapshot := some snapshot
      log := ⟨snapshot.lastIncludedIndex, snapshot.lastIncludedTerm, suffix⟩
      stateMachineApplied := []
      stateMachineBaseIndex := snapshot.lastIncludedIndex
      stateMachineBaseTerm := snapshot.lastIncludedTerm
      membershipCommitIndex := snapshot.votingConfiguration.elim
        (s.persistent n).membershipCommitIndex (·.committedIndex) } := Function.update_self ..
  obtain ⟨lastIndex, later⟩ := retainedSuffix_spec (not_lt.mp above) retained (logView_of durable)
  -- only the commit index of the node moves after the writes, up to the snapshot
  have moved : t.persistent = w.persistent ∧ t.applier = w.applier ∧
      (∀ m ≠ n, t.commitIndex m = s.commitIndex m) ∧
        t.commitIndex n ≤ max (s.commitIndex n) snapshot.lastIncludedIndex := by
    split at advanced
    · rcases advanceNodeCommit_returns advanced with rfl | rfl
      · exact ⟨rfl, rfl, fun _ _ => rfl, le_max_left _ _⟩
      · refine ⟨rfl, rfl, fun m other => ?_, ?_⟩
        · simp [Cluster.commitIndex, Cluster.updateVolatile, Function.update_of_ne other, w,
            writeSnapshot, Cluster.updatePersistent]
        · simp [Cluster.commitIndex, Cluster.updateVolatile]
    · rw [← (Outcome.returns.inj advanced).2]
      exact ⟨rfl, rfl, fun _ _ => rfl, le_max_left _ _⟩
  obtain ⟨persistent, applier, others, commit⟩ := moved
  have view : t.logView n = w.logView n := by rw [Cluster.logView, persistent]; rfl
  have last : t.applier.lastApplied n = snapshot.lastIncludedIndex := by
    rw [applier]
    exact Function.update_self ..
  have reach := anchored.stores.reach
  refine ⟨?_, ?_, ?_, ?_, ?_, ?_, last, ⟨?_, ?_⟩, fun m other => ⟨?_, others m other, ?_, ?_⟩⟩
  · rw [view, logView_of durable]
  · rw [view, logView_of durable]
  · rw [persistent, durable]
  · rw [persistent, durable]
  · rw [persistent, durable]
  · rw [applier]
    exact Function.update_self ..
  · rw [view, lastIndex, last]
    omega
  · intro position after within
    rw [view, logView_of durable] at after
    rw [last] at within
    dsimp only at after
    rw [view, later position after (by omega)]
    exact anchored.stores.entries position (by omega) (by omega)
  · rw [persistent]
    exact Function.update_of_ne other _ _
  · rw [applier]
    exact Function.update_of_ne other _ _
  · rw [applier]
    exact Function.update_of_ne other _ _

end Distlab.Raft
