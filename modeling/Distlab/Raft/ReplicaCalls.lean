import Distlab.Raft.Images
import Distlab.Raft.LogOperations

/-!
# The calls of the state machine on a replica

A node is a replica of the committed log if what it has applied, stored and
persisted as a snapshot is of this log. Each call of the state machine keeps the
node a replica with its image up to date, and leaves the other nodes alone.
-/

set_option autoImplicit false

namespace Distlab.Raft

open Foundations Deduplication

variable {ν : Type} [LinearOrder ν] {C : Config ν} {log : List (LogEntry (Command ν))}
  {n m : ν} {s t : Cluster ν}

/-! ## Replicas -/

/-- What a node has applied, restored and persisted is of the committed log. -/
structure Replica (log : List (LogEntry (Command ν))) (n : ν) (s : Cluster ν) : Prop where
  within : s.applier.lastApplied n ≤ log.length
  base : s.applier.baseIndex n ≤ s.applier.lastApplied n
  applied : (s.applier.applied n).map (·.entry) =
    (log.take (s.applier.lastApplied n)).drop (s.applier.baseIndex n)
  durableApplied : (s.persistent n).stateMachineApplied = (s.applier.applied n).map (·.entry)
  durableBase : (s.persistent n).stateMachineBaseIndex = s.applier.baseIndex n
  snapshot : ∀ snapshot, (s.persistent n).kvSnapshot = some snapshot → snapshot.Sound log

/-- The node's image is the image of what it has applied. -/
def UpToDate (log : List (LogEntry (Command ν))) (n : ν) (s : Cluster ν) : Prop :=
  (s.kv n).view = imageOf (log.take (s.applier.lastApplied n))

omit [LinearOrder ν] in
theorem Replica.keeps (replica : Replica log n s) (keeps : Keeps n s t) : Replica log n t where
  within := by
    rw [keeps.lastApplied]
    exact replica.within
  base := by
    rw [keeps.lastApplied, keeps.baseIndex]
    exact replica.base
  applied := by
    rw [keeps.lastApplied, keeps.baseIndex, keeps.applied]
    exact replica.applied
  durableApplied := by
    rw [keeps.durableApplied, keeps.applied]
    exact replica.durableApplied
  durableBase := by
    rw [keeps.durableBase, keeps.baseIndex]
    exact replica.durableBase
  snapshot := by
    rw [keeps.kvSnapshot]
    exact replica.snapshot

omit [LinearOrder ν] in
theorem UpToDate.keeps (upToDate : UpToDate log n s) (keeps : Keeps n s t) : UpToDate log n t := by
  unfold UpToDate
  rw [keeps.kv, keeps.lastApplied]
  exact upToDate

/-! ## Applying entries -/

/-- Entries that a node applied: the state machine's records of it grew by them, and
nothing else changed. -/
structure Applies (log : List (LogEntry (Command ν))) (n : ν)
    (entries : List (LogEntry (Command ν)))
    (s t : Cluster ν) : Prop where
  replica : Replica log n t
  reached : t.applier.lastApplied n = s.applier.lastApplied n + entries.length
  entries : log.take (t.applier.lastApplied n) =
    log.take (s.applier.lastApplied n) ++ entries
  kv : t.kv = s.kv
  others : ∀ m, m ≠ n → Keeps m s t

/-- A node applies the next entry of the committed log. -/
theorem applies_writeApplied (replica : Replica log n s) {applier : StateMachineApplier ν}
    {record : AppliedEntry ν} {entry : LogEntry (Command ν)}
    (recorded : recordCanonical record s.applier = .ok applier)
    (next : log[s.applier.lastApplied n]? = some entry) :
    Applies log n [entry] s (writeApplied n (s.applier.lastApplied n + 1) entry
      { s with applier := applier }) := by
  obtain ⟨canonical, rfl⟩ := recordCanonical_ok recorded
  have inside : s.applier.lastApplied n < log.length := (List.getElem?_eq_some_iff.mp next).1
  have grown : log.take (s.applier.lastApplied n + 1) =
      log.take (s.applier.lastApplied n) ++ [entry] := by
    rw [List.take_add_one, next]
    rfl
  set u := writeApplied n (s.applier.lastApplied n + 1) entry
    { s with applier := { s.applier with canonicalByIndex := canonical } }
  have last : u.applier.lastApplied n = s.applier.lastApplied n + 1 := Function.update_self ..
  have base : u.applier.baseIndex n = s.applier.baseIndex n := rfl
  have applied : u.applier.applied n =
      s.applier.applied n ++ [⟨n, s.applier.lastApplied n + 1, entry⟩] := Function.update_self ..
  have durable : u.persistent n = { s.persistent n with
      stateMachineApplied := (s.persistent n).stateMachineApplied ++ [entry] } :=
    Function.update_self ..
  refine ⟨⟨?_, ?_, ?_, ?_, ?_, ?_⟩, last, ?_, rfl, fun m other => ?_⟩
  · rw [last]
    exact inside
  · rw [last, base]
    exact replica.base.trans (Nat.le_succ _)
  · rw [applied, last, base, List.map_append, replica.applied, grown, List.drop_append_of_le_length]
    · rfl
    · rw [List.length_take, Nat.min_eq_left replica.within]
      exact replica.base
  · rw [durable, applied, List.map_append, ← replica.durableApplied]
    rfl
  · rw [durable, base]
    exact replica.durableBase
  · rw [durable]
    exact replica.snapshot
  · rw [last]
    exact grown
  · have untouched : u.persistent m = s.persistent m := Function.update_of_ne other _ _
    exact ⟨Function.update_of_ne other _ _, rfl, Function.update_of_ne other _ _,
      by rw [untouched], by rw [untouched], by rw [untouched], rfl⟩

omit [LinearOrder ν] in
theorem Applies.trans {u : Cluster ν} {first second : List (LogEntry (Command ν))}
    (early : Applies log n first s t) (late : Applies log n second t u) :
    Applies log n (first ++ second) s u where
  replica := late.replica
  reached := by
    rw [late.reached, early.reached, List.length_append, Nat.add_assoc]
  entries := by
    rw [late.entries, early.entries, List.append_assoc]
  kv := late.kv.trans early.kv
  others m other := by
    have before := early.others m other
    have after := late.others m other
    exact ⟨after.lastApplied.trans before.lastApplied, after.baseIndex.trans before.baseIndex,
      after.applied.trans before.applied, after.durableApplied.trans before.durableApplied,
      after.durableBase.trans before.durableBase, after.kvSnapshot.trans before.kvSnapshot,
      after.kv.trans before.kv⟩

omit [LinearOrder ν] in
theorem applies_nil (replica : Replica log n s) : Applies log n [] s s where
  replica := replica
  reached := rfl
  entries := (List.append_nil _).symm
  kv := rfl
  others _ _ := ⟨rfl, rfl, rfl, rfl, rfl, rfl, rfl⟩

/-- **The apply loop** applies the next entries of the committed log. -/
theorem applyEach_applies {count : ℕ} {records : List (AppliedEntry ν)}
    (replica : Replica log n s)
    (commits : ∀ index entry, index ≤ s.applier.lastApplied n + count →
      (s.logView n).entryAt index = some entry → log[index - 1]? = some entry)
    (returned : applyEach n (List.range' (s.applier.lastApplied n + 1) count) s =
      .returns records t) : Applies log n (records.map (·.entry)) s t := by
  induction count generalizing s records with
  | zero =>
      cases returned
      exact applies_nil replica
  | succ count ih =>
      rw [List.range'_succ] at returned
      unfold applyEach at returned
      split at returned
      next => cases returned
      next entry found =>
        split at returned
        next => cases returned
        next applier recorded =>
          obtain ⟨rest, u, looped, last⟩ := Outcome.bind_eq_returns.mp returned
          cases last
          have next : log[s.applier.lastApplied n]? = some entry := commits _ entry (by omega) found
          have first := applies_writeApplied replica recorded next
          have same : (writeApplied n (s.applier.lastApplied n + 1) entry
              { s with applier := applier }).logView n = s.logView n := by
            simp [writeApplied, Cluster.logView, Cluster.updatePersistent]
          have reached := first.reached
          generalize writeApplied n (s.applier.lastApplied n + 1) entry
            { s with applier := applier } = v at first same reached looped
          rw [List.length_singleton] at reached
          rw [← reached] at looped
          refine first.trans (ih first.replica (fun index entry within found => ?_) looped)
          rw [same] at found
          exact commits index entry (by omega) found

/-- **One call of `apply_committed`** applies committed entries and executes them on
the image. -/
theorem kvApplyCommitted_applies {records : List (AppliedEntry ν)} (replica : Replica log n s)
    (commits : CommitsTo log n s) (returned : kvApplyCommitted n s = .returns records t) :
    ∃ u image, Applies log n (records.map (·.entry)) s u ∧
      t = { u with kv := Function.update u.kv n image } ∧
      image.view = replay KVOperation.execute (records.map (·.entry.command.request))
        (s.kv n).view ∧
      takeEffect n (records.map (·.entry)) (s.kv n) = identities (executions KVOperation.execute
        (records.map (·.entry.command.request)) (s.kv n).view) ∧
      (records.map (·.entry)).foldlM (fun image entry => applyCommand n entry.command image)
        (s.kv n) = .ok image := by
  unfold kvApplyCommitted at returned
  dsimp only at returned
  split at returned
  · cases returned
  split at returned
  · cases returned
  split at returned
  · cases returned
  obtain ⟨applied, u, appliedAll, rest⟩ := Outcome.bind_eq_returns.mp returned
  obtain ⟨_, v, executed, last⟩ := Outcome.bind_eq_returns.mp rest
  cases last
  have applies : Applies log n (records.map (·.entry)) s u := by
    unfold applierApplyCommitted at appliedAll
    dsimp only at appliedAll
    split at appliedAll
    · cases appliedAll
      exact applies_nil replica
    split at appliedAll
    · cases appliedAll
    split at appliedAll
    · cases appliedAll
    refine applyEach_applies replica (fun index entry within found => ?_) appliedAll
    exact commits index entry (by omega) found
  obtain ⟨image, rfl, view, effects, folded⟩ := applyCommands_returns executed
  rw [applies.kv, List.map_map] at view effects
  rw [applies.kv] at folded
  exact ⟨u, image, applies, rfl, view, effects, folded⟩

/-! ## Snapshots of a node -/

/-- A call on a node that keeps the node a replica with an image up to date, and
leaves the other nodes alone. -/
structure Maintains (log : List (LogEntry (Command ν))) (n : ν) (s t : Cluster ν) : Prop where
  replica : Replica log n t
  upToDate : UpToDate log n t
  grows : s.applier.lastApplied n ≤ t.applier.lastApplied n
  others : ∀ m, m ≠ n → Keeps m s t

omit [LinearOrder ν] in
theorem Keeps.refl (n : ν) (s : Cluster ν) : Keeps n s s := ⟨rfl, rfl, rfl, rfl, rfl, rfl, rfl⟩

theorem keeps_updatePersistent_of_ne (other : m ≠ n) (f : Persistent ν → Persistent ν) :
    Keeps m s (s.updatePersistent n f) := by
  have untouched : (s.updatePersistent n f).persistent m = s.persistent m :=
    Function.update_of_ne other _ _
  exact ⟨rfl, rfl, rfl, by rw [untouched], by rw [untouched], by rw [untouched], rfl⟩

/-- A durable write that keeps the applied entries and leaves a sound snapshot. -/
theorem maintains_updatePersistent {f : Persistent ν → Persistent ν} (replica : Replica log n s)
    (upToDate : UpToDate log n s)
    (applied : (f (s.persistent n)).stateMachineApplied = (s.persistent n).stateMachineApplied)
    (base : (f (s.persistent n)).stateMachineBaseIndex = (s.persistent n).stateMachineBaseIndex)
    (snapshot : ∀ snapshot, (f (s.persistent n)).kvSnapshot = some snapshot → snapshot.Sound log) :
    Maintains log n s (s.updatePersistent n f) := by
  have written : (s.updatePersistent n f).persistent n = f (s.persistent n) :=
    Function.update_self ..
  refine ⟨⟨replica.within, replica.base, replica.applied, ?_, ?_, ?_⟩, upToDate, le_rfl,
    fun m other => keeps_updatePersistent_of_ne other f⟩
  · rw [written, applied]
    exact replica.durableApplied
  · rw [written, base]
    exact replica.durableBase
  · rw [written]
    exact snapshot

omit [LinearOrder ν] in
theorem Keeps.trans {u : Cluster ν} (first : Keeps n s t) (second : Keeps n t u) :
    Keeps n s u where
  lastApplied := second.lastApplied.trans first.lastApplied
  baseIndex := second.baseIndex.trans first.baseIndex
  applied := second.applied.trans first.applied
  durableApplied := second.durableApplied.trans first.durableApplied
  durableBase := second.durableBase.trans first.durableBase
  kvSnapshot := second.kvSnapshot.trans first.kvSnapshot
  kv := second.kv.trans first.kv

omit [LinearOrder ν] in
theorem Maintains.trans {u : Cluster ν} (first : Maintains log n s t)
    (second : Maintains log n t u) :
    Maintains log n s u where
  replica := second.replica
  upToDate := second.upToDate
  grows := first.grows.trans second.grows
  others m other := (first.others m other).trans (second.others m other)

/-- **A created snapshot is sound.** -/
theorem createSnapshot_maintains {snapshot : KVSnapshot ν} (replica : Replica log n s)
    (upToDate : UpToDate log n s) (returned : createSnapshot C n s = .returns snapshot t) :
    Maintains log n s t ∧ snapshot.Sound log ∧
      snapshot.lastIncludedIndex = t.applier.lastApplied n := by
  unfold createSnapshot at returned
  dsimp only at returned
  split at returned
  · cases returned
  split at returned
  · cases returned
  split at returned
  · cases returned
  split at returned
  · cases returned
  split at returned
  · cases returned
  next configuration _ _ =>
    cases returned
    have sound : ∀ term, KVSnapshot.Sound log (⟨s.applier.lastApplied n, term,
        snapshotState (s.kv n), snapshotRequests (s.kv n), configuration⟩ : KVSnapshot ν) :=
      fun _ => ⟨replica.within, (view_image_of_snapshot rfl rfl).trans upToDate⟩
    refine ⟨maintains_updatePersistent replica upToDate rfl rfl fun snapshot found => ?_,
      sound _, rfl⟩
    cases found
    exact sound _

/-- The applied entries below a boundary are dropped. -/
theorem writeCompacted_maintains {index : ℕ} (term : ℕ) (replica : Replica log n s)
    (upToDate : UpToDate log n s) (base : s.applier.baseIndex n ≤ index)
    (within : index ≤ s.applier.lastApplied n) :
    Maintains log n s (writeCompacted n index term s) := by
  set retained := (s.applier.applied n).drop (index - s.applier.baseIndex n)
  set u := writeCompacted n index term s
  have boundary : u.applier.baseIndex n = index := Function.update_self ..
  have applied : u.applier.applied n = retained := Function.update_self ..
  have durable : u.persistent n = { s.persistent n with
      stateMachineApplied := retained.map (·.entry)
      stateMachineBaseIndex := index
      stateMachineBaseTerm := term } := Function.update_self ..
  refine ⟨⟨replica.within, ?_, ?_, ?_, ?_, ?_⟩, upToDate, le_rfl, fun m other => ?_⟩
  · rw [boundary]
    exact within
  · rw [applied, boundary, List.map_drop, replica.applied, List.drop_drop]
    congr 1
    omega
  · rw [durable, applied]
  · rw [durable, boundary]
  · rw [durable]
    exact replica.snapshot
  · have untouched : u.persistent m = s.persistent m := Function.update_of_ne other _ _
    exact ⟨rfl, Function.update_of_ne other _ _, Function.update_of_ne other _ _,
      by rw [untouched], by rw [untouched], by rw [untouched], rfl⟩

theorem compactSnapshot_maintains {snapshot : KVSnapshot ν} (replica : Replica log n s)
    (upToDate : UpToDate log n s) (returned : compactSnapshot C n s = .returns snapshot t) :
    Maintains log n s t ∧ snapshot.Sound log := by
  unfold compactSnapshot at returned
  obtain ⟨created, u, creates, rest⟩ := Outcome.bind_eq_returns.mp returned
  obtain ⟨maintains, sound, index⟩ := createSnapshot_maintains replica upToDate creates
  dsimp only at rest
  split at rest
  · cases rest
  obtain ⟨_, v, compacts, last⟩ := Outcome.bind_eq_returns.mp rest
  cases last
  refine ⟨maintains.trans ?_, sound⟩
  have logged := maintains_updatePersistent (f := fun p =>
    { p with log := (u.logView n).compactThrough snapshot.lastIncludedIndex })
    maintains.replica maintains.upToDate rfl rfl maintains.replica.snapshot
  refine logged.trans ?_
  unfold applierCompactThrough at compacts
  dsimp only at compacts
  split at compacts
  · cases compacts
  next inside =>
    obtain ⟨base, within⟩ := not_or.mp inside
    split at compacts
    · split at compacts
      · cases compacts
      · cases compacts
        exact ⟨logged.replica, logged.upToDate, le_rfl, fun m _ => .refl m _⟩
    · split at compacts
      · cases compacts
      · cases compacts
        exact writeCompacted_maintains _ logged.replica logged.upToDate (not_lt.mp base)
          (not_lt.mp within)

theorem keeps_updateVolatile (m n : ν) (f : Volatile ν → Volatile ν) :
    Keeps m s (s.updateVolatile n f) := ⟨rfl, rfl, rfl, rfl, rfl, rfl, rfl⟩

omit [LinearOrder ν] in
theorem Maintains.refl (replica : Replica log n s) (upToDate : UpToDate log n s) :
    Maintains log n s s := ⟨replica, upToDate, le_rfl, fun m _ => .refl m s⟩

omit [LinearOrder ν] in
theorem Maintains.keeps {u : Cluster ν} (maintains : Maintains log n s t)
    (keeps : ∀ m, Keeps m t u) : Maintains log n s u where
  replica := maintains.replica.keeps (keeps n)
  upToDate := maintains.upToDate.keeps (keeps n)
  grows := by
    rw [(keeps n).lastApplied]
    exact maintains.grows
  others m other := (maintains.others m other).trans (keeps m)

/-- A sound snapshot that a node writes is what the node has applied. -/
theorem writeSnapshot_maintains {snapshot : KVSnapshot ν} (sound : snapshot.Sound log)
    (suffix : List (LogEntry (Command ν)))
    (forward : s.applier.lastApplied n ≤ snapshot.lastIncludedIndex) :
    Maintains log n s (writeSnapshot n snapshot suffix s) := by
  set u := writeSnapshot n snapshot suffix s
  have last : u.applier.lastApplied n = snapshot.lastIncludedIndex := Function.update_self ..
  have base : u.applier.baseIndex n = snapshot.lastIncludedIndex := Function.update_self ..
  have applied : u.applier.applied n = [] := Function.update_self ..
  have image : u.kv n = snapshot.image := Function.update_self ..
  have durable : u.persistent n = { s.persistent n with
      kvSnapshot := some snapshot
      log := ⟨snapshot.lastIncludedIndex, snapshot.lastIncludedTerm, suffix⟩
      stateMachineApplied := []
      stateMachineBaseIndex := snapshot.lastIncludedIndex
      stateMachineBaseTerm := snapshot.lastIncludedTerm
      membershipCommitIndex := snapshot.votingConfiguration.elim
        (s.persistent n).membershipCommitIndex (·.committedIndex) } := Function.update_self ..
  refine ⟨⟨?_, ?_, ?_, ?_, ?_, ?_⟩, ?_, ?_, fun m other => ?_⟩
  · rw [last]
    exact sound.within
  · rw [last, base]
  · rw [applied, last, base, List.drop_of_length_le (List.length_take_le _ _)]
    rfl
  · rw [durable, applied]
    rfl
  · rw [durable, base]
  · rw [durable]
    rintro _ ⟨⟩
    exact sound
  · unfold UpToDate
    rw [image, last]
    exact sound.view
  · rw [last]
    exact forward
  · have untouched : u.persistent m = s.persistent m := Function.update_of_ne other _ _
    exact ⟨Function.update_of_ne other _ _, Function.update_of_ne other _ _,
      Function.update_of_ne other _ _, by rw [untouched], by rw [untouched], by rw [untouched],
      Function.update_of_ne other _ _⟩

/-- **A sound snapshot that is installed** is the node's image. -/
theorem installSnapshot_maintains {snapshot : KVSnapshot ν} {preserveMatchingSuffix : Bool}
    (replica : Replica log n s) (upToDate : UpToDate log n s) (sound : snapshot.Sound log)
    (returned : installSnapshot C n snapshot preserveMatchingSuffix s = .returns () t) :
    Maintains log n s t := by
  unfold installSnapshot at returned
  dsimp only at returned
  split at returned
  · cases returned
  split at returned
  · split at returned
    · cases returned
    · cases returned
      exact .refl replica upToDate
  split at returned
  · cases returned
  split at returned
  · cases returned
  next suffix _ =>
    split at returned
    · cases returned
    next forward =>
      split at returned
      · cases returned
      · have written := writeSnapshot_maintains sound suffix (not_lt.mp forward)
        obtain ⟨_, u, advanced, rest⟩ := Outcome.bind_eq_returns.mp returned
        obtain ⟨_, v, matched, checked⟩ := Outcome.bind_eq_returns.mp rest
        obtain rfl := assertLogMatching_returns matched
        obtain rfl := assertStateMachineSafety_returns checked
        refine written.keeps fun m => ?_
        split at advanced
        · unfold advanceNodeCommit at advanced
          split at advanced
          · cases advanced
          split at advanced
          · cases advanced
            exact .refl m _
          · cases advanced
            exact keeps_updateVolatile m n _
        · cases advanced
          exact .refl m _

/-! ## Reconstruction -/

/-- What a node's records say after a constructor read them. -/
structure Restored (log : List (LogEntry (Command ν))) (n : ν) (s t : Cluster ν) : Prop where
  replica : Replica log n t
  upToDate : UpToDate log n t
  same : t.applier.lastApplied n = s.applier.lastApplied n

theorem foldlM_recordCanonical {records : List (AppliedEntry ν)}
    {applier next : StateMachineApplier ν}
    (recorded : records.foldlM (fun applier r => recordCanonical r applier) applier =
      .ok next) : ∃ canonical, next = { applier with canonicalByIndex := canonical } := by
  induction records generalizing applier with
  | nil =>
      cases recorded
      exact ⟨_, rfl⟩
  | cons record rest ih =>
      rw [List.foldlM_cons] at recorded
      cases first : recordCanonical record applier with
      | error violation =>
          rw [first] at recorded
          cases recorded
      | ok middle =>
          rw [first] at recorded
          obtain ⟨_, rfl⟩ := recordCanonical_ok first
          obtain ⟨canonical, rfl⟩ := ih recorded
          exact ⟨canonical, rfl⟩

/-- The records that a new applier holds of a node. -/
structure Loaded (s : Cluster ν) (n : ν) (applier : StateMachineApplier ν) : Prop where
  base : applier.baseIndex n = (s.persistent n).stateMachineBaseIndex
  applied : (applier.applied n).map (·.entry) = (s.persistent n).stateMachineApplied
  last : applier.lastApplied n =
    (s.persistent n).stateMachineBaseIndex + (s.persistent n).stateMachineApplied.length

theorem loadApplied_loaded {applier next : StateMachineApplier ν}
    (loads : loadApplied s applier m = .ok next) :
    Loaded s m next ∧ (n ≠ m → Loaded s n applier → Loaded s n next) := by
  unfold loadApplied at loads
  split at loads
  · cases loads
  obtain ⟨canonical, rfl⟩ := foldlM_recordCanonical loads
  have entries := appliedRecords_entries (n := m) ((s.persistent m).stateMachineBaseIndex + 1)
    (s.persistent m).stateMachineApplied
  refine ⟨⟨Function.update_self .., ?_, ?_⟩, fun other loaded => ⟨?_, ?_, ?_⟩⟩
  · simp only [Function.update_self]
    exact entries
  · simp only [Function.update_self]
    rw [← List.length_map (f := fun r : AppliedEntry ν => r.entry), entries]
  · simpa [other] using loaded.base
  · simpa [other] using loaded.applied
  · simpa [other] using loaded.last

/-- A new applier holds the durable records of every node. -/
theorem loadApplier_loaded {applier : StateMachineApplier ν} (loads : loadApplier C s = .ok applier)
    (member : n ∈ C.nodeIds) : Loaded s n applier := by
  have every : ∀ (nodes : List ν) (first : StateMachineApplier ν),
      nodes.foldlM (loadApplied s) first = .ok applier →
      (n ∈ nodes ∨ Loaded s n first) → Loaded s n applier := by
    intro nodes
    induction nodes with
    | nil =>
        intro first loads start
        cases loads
        exact start.resolve_left List.not_mem_nil
    | cons m rest ih =>
        intro first loads start
        rw [List.foldlM_cons] at loads
        cases here : loadApplied s first m with
        | error violation =>
            rw [here] at loads
            cases loads
        | ok next =>
            rw [here] at loads
            obtain ⟨loaded, kept⟩ := loadApplied_loaded (n := n) here
            refine ih next loads ?_
            by_cases same : n = m
            · subst same
              exact .inr loaded
            · exact start.imp (fun listed => (List.mem_cons.mp listed).resolve_left same)
                (kept same)
  exact every C.nodeIds {} loads (.inl member)

omit [LinearOrder ν] in
theorem restoreRequests_ofItems {items : List SnapshotClientRequest}
    {requests first : Dict (String × ℕ) KVOperation}
    (restored : items.foldlM (fun requests item =>
      if (requests.lookup (item.clientId, item.requestId)).any (· ≠ item.operation) then
        (.error (.clientRequestConflict n) : Except (Error ν) _)
      else .ok (requests.insert (item.clientId, item.requestId) item.operation)) first =
        .ok requests) :
    requests = (items.map fun item => ((item.clientId, item.requestId), item.operation)).foldl
      (fun d item => d.insert item.1 item.2) first := by
  induction items generalizing first with
  | nil =>
      cases restored
      rfl
  | cons item rest ih =>
      rw [List.foldlM_cons] at restored
      by_cases conflict : (first.lookup (item.clientId, item.requestId)).any (· ≠ item.operation)
      · rw [if_pos conflict] at restored
        cases restored
      · rw [if_neg conflict] at restored
        exact ih restored

omit [LinearOrder ν] in
/-- The image that a constructor restores is the image of what the node has applied. -/
theorem restoreImage_view {applier : StateMachineApplier ν} {image : KVImage}
    (replica : Replica log n s) (loaded : Loaded s n applier)
    (restored : restoreImage n applier s = .ok image) :
    image.view = imageOf (log.take (s.applier.lastApplied n)) := by
  unfold restoreImage at restored
  cases boundary : restoreSnapshotBoundary n applier s with
  | error violation =>
      rw [boundary] at restored
      cases restored
  | ok start =>
      rw [boundary] at restored
      have base : applier.baseIndex n = s.applier.baseIndex n :=
        loaded.base.trans replica.durableBase
      have below : start.view = imageOf (log.take (s.applier.baseIndex n)) := by
        unfold restoreSnapshotBoundary at boundary
        rw [base] at boundary
        split at boundary
        next zero =>
          cases boundary
          rw [zero]
          rfl
        next =>
          split at boundary
          · cases boundary
          next snapshot latest =>
            split at boundary
            · cases boundary
            next agrees =>
              have sound := replica.snapshot snapshot latest
              cases requests : restoreRequests n snapshot.clientRequests with
              | error violation =>
                  rw [requests] at boundary
                  cases boundary
              | ok table =>
                  rw [requests] at boundary
                  cases boundary
                  rw [← not_not.mp (not_or.mp agrees).1, ← sound.view,
                    restoreRequests_ofItems requests]
                  rfl
      have history : (applier.applied n).map (·.entry) =
          (log.take (s.applier.lastApplied n)).drop (s.applier.baseIndex n) :=
        loaded.applied.trans (replica.durableApplied.trans replica.applied)
      have whole : log.take (s.applier.lastApplied n) = log.take (s.applier.baseIndex n) ++
          (log.take (s.applier.lastApplied n)).drop (s.applier.baseIndex n) := by
        have shorter : log.take (s.applier.baseIndex n) =
            (log.take (s.applier.lastApplied n)).take (s.applier.baseIndex n) := by
          rw [List.take_take, Nat.min_eq_left replica.base]
        rw [shorter, List.take_append_drop]
      change (if ¬ validEntries ((applier.applied n).map (·.entry)) then _ else _) = _ at restored
      split at restored
      · cases restored
      split at restored
      · cases restored
      rw [foldlM_applyCommand restored, history, below, whole, imageOf_append, ← whole]

/-- The images that a new `ReplicatedKV` restores. -/
theorem restoreImages_restores {applier : StateMachineApplier ν} {images : ν → KVImage}
    (restored : restoreImages C applier s = .ok images) (member : n ∈ C.nodeIds) :
    restoreImage n applier s = .ok (images n) := by
  have every : ∀ (nodes : List ν) (first : ν → KVImage),
      nodes.foldlM (fun images n => do
        let image ← restoreImage n applier s
        .ok (Function.update images n image)) first = .ok images →
      (n ∈ nodes ∨ restoreImage n applier s = .ok (first n)) →
        restoreImage n applier s = .ok (images n) := by
    intro nodes
    induction nodes with
    | nil =>
        intro first restored start
        cases restored
        exact start.resolve_left List.not_mem_nil
    | cons m rest ih =>
        intro first restored start
        rw [List.foldlM_cons] at restored
        cases here : restoreImage m applier s with
        | error violation =>
            rw [here] at restored
            cases restored
        | ok image =>
            rw [here] at restored
            refine ih _ restored ?_
            by_cases same : n = m
            · subst same
              rw [Function.update_self]
              exact .inr here
            · rw [Function.update_of_ne same]
              exact start.imp (fun listed => (List.mem_cons.mp listed).resolve_left same) id
  exact every C.nodeIds _ restored (.inl member)

omit [LinearOrder ν] in
/-- The applier of a replica holds its durable records. -/
theorem Replica.loaded (replica : Replica log n s) : Loaded s n s.applier where
  base := replica.durableBase.symm
  applied := replica.durableApplied.symm
  last := by
    have within := replica.within
    have base := replica.base
    rw [replica.durableApplied, replica.applied, replica.durableBase, List.length_drop,
      List.length_take, Nat.min_eq_left within]
    omega

/-- **A reconstructed node** is the replica that it was, with the image of what it had
applied. -/
theorem restored {applier : StateMachineApplier ν} {images : ν → KVImage}
    (replica : Replica log n s) (loaded : Loaded s n applier)
    (images_eq : restoreImages C applier s = .ok images) (member : n ∈ C.nodeIds)
    (records : t.applier = applier) (kv : t.kv = images)
    (persistent : t.persistent = s.persistent) : Restored log n s t := by
  have same : applier.lastApplied n = s.applier.lastApplied n :=
    loaded.last.trans replica.loaded.last.symm
  have base : applier.baseIndex n = s.applier.baseIndex n :=
    loaded.base.trans replica.durableBase
  refine ⟨⟨?_, ?_, ?_, ?_, ?_, ?_⟩, ?_, ?_⟩
  · rw [records, same]
    exact replica.within
  · rw [records, same, base]
    exact replica.base
  · rw [records, same, base, loaded.applied, replica.durableApplied]
    exact replica.applied
  · rw [records, persistent]
    exact loaded.applied.symm
  · rw [records, persistent]
    exact loaded.base.symm
  · rw [persistent]
    exact replica.snapshot
  · unfold UpToDate
    rw [records, kv, same]
    exact restoreImage_view replica loaded (restoreImages_restores images_eq member)
  · rw [records]
    exact same

end Distlab.Raft
