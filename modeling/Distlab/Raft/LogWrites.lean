import Distlab.Raft.LogElections

/-!
# Writes keep the logs

The moves that write logs, snapshots and commit indexes. A leader that appends makes the
log of its term longer. A follower that merges a slice of its leader, or installs a
snapshot, has those entries already or takes over the first entries of its leader's log.
-/

set_option autoImplicit false

namespace Distlab.Raft

open Foundations LeaderLogs

variable {ν : Type} [LinearOrder ν] {C : Config ν} {s s' : Cluster ν} {A A' : Logs ν}

/-- A state that differs from another one in what one node stores. -/
structure WritesAt (s s' : Cluster ν) (n : ν) : Prop where
  persistent : ∀ m, m ≠ n → s'.persistent m = s.persistent m
  applied : ∀ m, m ≠ n → s'.applier.lastApplied m = s.applier.lastApplied m
  volatile : ∀ m, m ≠ n → s'.volatile m = s.volatile m
  role : s'.role n = s.role n
  term : s'.currentTerm n = s.currentTerm n
  network : s'.network = s.network
  trace : s'.trace = s.trace
  leaders : s'.leadersByTerm = s.leadersByTerm
  replicators : s'.replicators = s.replicators

theorem WritesAt.updatePersistent (s : Cluster ν) (n : ν) {f : Persistent ν → Persistent ν}
    (term : ∀ p, (f p).currentTerm = p.currentTerm) :
    WritesAt s (s.updatePersistent n f) n where
  persistent m other := Function.update_of_ne other ..
  applied _ _ := rfl
  volatile _ _ := rfl
  role := rfl
  term := by simp [Cluster.currentTerm, Cluster.updatePersistent, term]
  network := rfl
  trace := rfl
  leaders := rfl
  replicators := rfl

/-- A later archive in which only one node has a new log. -/
structure NewLog (A A' : Logs ν) (n : ν) : Prop where
  terms : A'.currentTerm = A.currentTerm
  logs : ∀ m, m ≠ n → A'.log m = A.log m
  votes : A'.voted = A.voted
  elected : A'.elected = A.elected

omit [LinearOrder ν] in
theorem NewLog.refl (A : Logs ν) (n : ν) : NewLog A A n := ⟨rfl, fun _ _ => rfl, rfl, rfl⟩

namespace LogInv

variable (inv : LogInv C s A)
include inv

/-- One node writes. -/
theorem write {n : ν} (extends' : A.Extends A') (sound' : A'.Sound (rules C))
    (writes : WritesAt s s' n) (logs : NewLog A A' n)
    (leads : ∀ m, m ≠ n → s.role m = .leader →
      A'.leaderLog (s.currentTerm m) = A.leaderLog (s.currentTerm m))
    (node : NodeLogs C A' n (s'.persistent n) (s'.volatile n) (s'.applier.lastApplied n)) :
    LogInv C s' A' := by
  refine inv.later extends' sound' (fun m => ?_) (fun _ sent => .inl (writes.network ▸ sent))
    (fun _ recorded => .inl (writes.trace ▸ recorded))
    (fun _ member => .inl (writes.replicators ▸ member)) (fun T => ?_) fun T m recorded => ?_
  · by_cases same : m = n
    · subst same
      exact node
    · rw [writes.persistent m same, writes.volatile m same, writes.applied m same]
      exact (inv.nodes m).later inv.sound extends' (congrFun logs.terms m) (logs.logs m same)
        (congrFun logs.votes m) (leads m same)
  · rw [logs.elected, writes.leaders]
    exact inv.elected T
  · rw [writes.leaders] at recorded
    obtain ⟨entered, starts, matched⟩ := inv.started T m recorded
    have term : s'.currentTerm m = s.currentTerm m := by
      by_cases same : m = n
      · exact same ▸ writes.term
      · rw [Cluster.currentTerm, writes.persistent m same, Cluster.currentTerm]
    have role : s'.role m = s.role m := by
      by_cases same : m = n
      · exact same ▸ writes.role
      · rw [Cluster.role, writes.volatile m same, Cluster.role]
    refine ⟨term ▸ entered, fun here => role ▸ starts (term ▸ here), fun start led => ?_⟩
    rw [logs.elected] at led
    exact (matched start led).trans (extends'.matched m T)

/-- One node writes what the archive says already. -/
theorem store {n : ν} (writes : WritesAt s s' n)
    (node : NodeLogs C A n (s'.persistent n) (s'.volatile n) (s'.applier.lastApplied n)) :
    LogInv C s' A :=
  inv.write (.refl A) inv.sound writes (.refl A n) (fun _ _ _ => rfl) node

/-- A node that has the first entries of the log of its term states so. -/
theorem acknowledge {n : ν} {index : ℕ} (within : index ≤ (A.leaderLog (s.currentTerm n)).length)
    (has : (A.leaderLog (s.currentTerm n)).take index <+: A.log n) :
    LogInv C s (A.acknowledge n index) := by
  have current : A.currentTerm n = s.currentTerm n := (inv.nodes n).term
  rw [← current] at within has
  have extends' := A.extends_acknowledge n index
  have sound' := inv.sound.acknowledge within has
  refine inv.later extends' sound' (fun m => ?_) (fun _ => .inl) (fun _ => .inl) (fun _ => .inl)
    inv.elected fun T m recorded => ?_
  · exact (inv.nodes m).later inv.sound extends' rfl rfl rfl fun _ => rfl
  · obtain ⟨entered, starts, matched⟩ := inv.started T m recorded
    exact ⟨entered, starts, fun start led => (matched start led).trans (extends'.matched m T)⟩

/-! ## Logs -/

omit inv in
/-- Logs with one term at an index agree up to it. -/
theorem take_eq {log log' : List (LogEntry (Command ν))} {index : ℕ}
    (rooted : A.Rooted (rules C) log) (rooted' : A.Rooted (rules C) log')
    (within : index ≤ log.length) (within' : index ≤ log'.length)
    (term : logTerm (log.take index) = logTerm (log'.take index)) :
    log.take index = log'.take index := by
  have length := List.length_take_of_le within
  have length' := List.length_take_of_le within'
  have part := (rooted.of_part (List.take_prefix index log)).prefix_of_lastTerm
    (rooted'.of_part (List.take_prefix index log')) term (by omega)
  exact part.eq_of_length (by omega)

omit [LinearOrder ν] inv in
theorem take_append_eq {log entries : List (LogEntry (Command ν))} {index : ℕ}
    (within : index ≤ log.length) (part : log.take index ++ entries <+: log) :
    log.take index ++ entries = log.take (index + entries.length) := by
  have length : (log.take index ++ entries).length = index + entries.length := by
    rw [List.length_append, List.length_take_of_le within]
  rw [List.prefix_iff_eq_take.mp part, length]

/-- A leader appends to its log. -/
theorem append (votes : VoteInv C s) {n : ν} {command : Command ν} (leads : s.role n = .leader) :
    Continues C A (s.updatePersistent n fun p =>
      { p with log := { p.log with entries := p.log.entries ++ [⟨p.currentTerm, command⟩] } }) := by
  have node := inv.nodes n
  have current : A.currentTerm n = s.currentTerm n := node.term
  obtain ⟨leading, leaderLog, -⟩ := node.leader leads
  generalize entry_eq : (⟨s.currentTerm n, command⟩ : LogEntry (Command ν)) = entry
  have led : (A.elected (A.currentTerm n)).isSome := current ▸ leading
  have own : A.leaderLog (A.currentTerm n) = A.log n := current ▸ leaderLog
  have term : (rules C).term entry = A.currentTerm n := by
    rw [current, ← entry_eq]
    rfl
  have sound' := inv.sound.extend led own term
  have extends' := A.extends_extend n entry
  have log : (A.extend n entry).log n = A.log n ++ [entry] := Archive.log_extend_self own
  have part : ∀ index, (A.log n).take index <+: (A.extend n entry).log n := fun index => by
    rw [log]
    exact (List.take_prefix index _).trans (List.prefix_append _ _)
  refine ⟨_, extends', inv.write extends' sound' (.updatePersistent s n fun _ => rfl)
    ⟨rfl, fun m other => A.log_extend_of_ne entry other, rfl, rfl⟩ (fun m other leader => ?_) ?_⟩
  · refine A.leaderLog_extend_of_ne n entry fun same => other ?_
    -- A term has one leader.
    have recorded := votes.recorded m _ (votes.leads m leader).2
    rw [same, current, votes.recorded n _ (votes.leads n leads).2] at recorded
    exact (Option.some.inj recorded).symm
  · simp only [Cluster.updatePersistent, Function.update_self]
    change NodeLogs C _ n { s.persistent n with log := { (s.persistent n).log with
      entries := (s.persistent n).log.entries ++ [⟨s.currentTerm n, command⟩] } } _ _
    rw [entry_eq]
    exact
      { term := current
        view := by
          rw [log]
          exact node.view.append entry
        unvoted := node.unvoted
        candidate := fun stands => by
          rw [show (s.volatile n).role = .leader from leads] at stands
          cases stands
        leader := fun _ => by
          change _ ∧ (A.extend n entry).leaderLog (s.currentTerm n) = _ ∧
            _ ≤ (A.extend n entry).matched n (s.currentTerm n)
          rw [← current, A.leaderLog_extend_self, own, log, List.length_append]
          exact ⟨extends'.isSome_elected leading, rfl, A.length_le_matched_extend n entry⟩
        committed := (node.committed.later inv.sound extends').of_part (part _)
        applied := (node.applied.later inv.sound extends').of_part (part _)
        snapshot := fun snapshot stored => by
          obtain ⟨decided, term⟩ := node.snapshot snapshot stored
          refine ⟨(decided.later inv.sound extends').of_part (part _), ?_⟩
          rw [log, List.take_append_of_le_length decided.within]
          exact term }

/-- A follower takes over the first entries of its leader's log, unless it has them. -/
theorem adopt {n : ν} {index : ℕ} (follows : s.role n = .follower)
    (led : (A.elected (s.currentTerm n)).isSome) (writes : WritesAt s s' n)
    (vote : s'.votedFor n = s.votedFor n) (committed : s'.commitIndex n = s.commitIndex n)
    (view : (s'.logView n).Ends ((A.adopt n index).log n))
    (applied : s'.applier.lastApplied n = s.applier.lastApplied n ∨
      Decided C (A.adopt n index) (s.currentTerm n) ((A.adopt n index).log n)
        (s'.applier.lastApplied n))
    (snapshot : ∀ snapshot, (s'.persistent n).kvSnapshot = some snapshot →
      (s.persistent n).kvSnapshot = some snapshot ∨
        Stands C (A.adopt n index) (s.currentTerm n) ((A.adopt n index).log n) snapshot) :
    LogInv C s' (A.adopt n index) := by
  have node := inv.nodes n
  have current : A.currentTerm n = s.currentTerm n := node.term
  have extends' := A.extends_adopt n index
  have sound' : (A.adopt n index).Sound (rules C) := inv.sound.adopt (by rwa [current])
  have same : NewLog A (A.adopt n index) n ∧ (A.adopt n index).leaderLog = A.leaderLog := by
    refine ⟨⟨?_, fun m other => A.log_adopt_of_ne index other, ?_, ?_⟩, ?_⟩ <;>
      unfold Archive.adopt <;> split <;> rfl
  -- What is decided of its log is in its leader's, so it keeps it.
  have keeps : ∀ {index'}, Decided C A (s.currentTerm n) (A.log n) index' →
      (A.log n).take index' <+: (A.adopt n index).log n ∧
        Decided C (A.adopt n index) (s.currentTerm n) ((A.adopt n index).log n) index' := by
    intro index' decided
    have shared := decided.prefix_leaderLog inv.sound led
    rw [← current] at shared
    have kept : (A.log n).take index' <+: (A.adopt n index).log n :=
      Archive.prefix_log_adopt_of_shared (List.take_prefix index' _) shared
    exact ⟨kept, (decided.later inv.sound extends').of_part kept⟩
  have term : (s'.persistent n).currentTerm = s.currentTerm n := writes.term
  have role : (s'.volatile n).role = .follower := writes.role.trans follows
  refine inv.write extends' sound' writes same.1 (fun _ _ _ => congrFun same.2 _) ?_
  exact
    { term := by rw [same.1.terms, current, term]
      view := view
      unvoted := fun none => by
        rw [term, same.1.votes]
        exact node.unvoted (vote.symm.trans none)
      candidate := fun stands => by
        rw [role] at stands
        cases stands
      leader := fun leads => by
        rw [role] at leads
        cases leads
      committed := by
        rw [term, show (s'.volatile n).commitIndex = s.commitIndex n from committed]
        exact (keeps node.committed).2
      applied := by
        rw [term]
        obtain old | new := applied
        · rw [old]
          exact (keeps node.applied).2
        · exact new
      snapshot := fun snapshot' stored => by
        rw [term]
        obtain old | new := snapshot snapshot' stored
        · obtain ⟨decided, lastTerm⟩ := node.snapshot snapshot' old
          obtain ⟨kept, decided'⟩ := keeps decided
          refine ⟨decided', ?_⟩
          have length := List.length_take_of_le decided.within
          rw [← lastTerm, List.prefix_iff_eq_take.mp kept, length]
        · exact new }

/-- A follower merges the slice of an `AppendEntries`. -/
theorem merge {message : Message ν} {a : AppendEntries ν} {merged : List (LogEntry (Command ν))}
    (arrived : Arrived C s message) (payload : message.payload = .appendEntries a)
    (term : a.term = s.currentTerm message.dst) (follows : s.role message.dst = .follower)
    (matched : (s.logView message.dst).prefixMatches a.prevLogIndex a.prevLogTerm = true)
    (merges : (s.logView message.dst).mergeAfter a.prevLogIndex a.entries = some merged) :
    Continues C A (s.updatePersistent message.dst fun p =>
      { p with log := { p.log with entries := merged } }) := by
  generalize message.dst = n at *
  have node := inv.nodes n
  have current : A.currentTerm n = s.currentTerm n := node.term
  have sent := inv.network message arrived.1
  rw [payload] at sent
  obtain ⟨led, known, part, prevTerm, -⟩ := sent
  obtain ⟨above, within, prevTerm'⟩ := node.view.prefixMatches_eq_true.mp matched
  rw [term] at led known part prevTerm
  have before : (A.log n).take a.prevLogIndex =
      (A.leaderLog (s.currentTerm n)).take a.prevLogIndex :=
    take_eq (inv.sound.rooted n) (inv.sound.rooted_leaderLog led) within known
      (prevTerm'.trans prevTerm.symm)
  have slice : (A.log n).take a.prevLogIndex ++ a.entries =
      (A.leaderLog (A.currentTerm n)).take a.reach := by
    rw [before, take_append_eq known part, current]
    rfl
  refine ⟨A.adopt n a.reach, A.extends_adopt n a.reach, inv.adopt follows led
    (.updatePersistent s n fun _ => rfl) ?_ rfl ?_ (.inl rfl) fun snapshot stored => .inl ?_⟩
  · simp [Cluster.votedFor, Cluster.updatePersistent]
  · have view : ((s.updatePersistent n fun p =>
        { p with log := { p.log with entries := merged } }).logView n) =
        { s.logView n with entries := merged } := by
      simp [Cluster.logView, Cluster.updatePersistent]
    rw [view]
    obtain ⟨has, ends⟩ | ⟨missing, ends⟩ := node.view.merge above within merges
    · rw [slice] at has
      rwa [Archive.adopt_of_part has]
    · rw [slice] at missing ends
      rwa [Archive.adopt_of_missing missing, Archive.log_accept_self]
  · simpa [Cluster.updatePersistent] using stored

/-- The full log of a view that has an `AppendEntries`. -/
theorem of_agrees {n : ν} {a : AppendEntries ν} (agrees : a.Agrees (s.logView n)) :
    a.prevLogIndex ≤ (A.log n).length ∧
      logTerm ((A.log n).take a.prevLogIndex) = a.prevLogTerm ∧
      (A.log n).take a.prevLogIndex ++ a.entries <+: A.log n := by
  have view := (inv.nodes n).view
  obtain ⟨above, within, prevTerm⟩ := view.prefixMatches_eq_true.mp agrees.1
  have entries : a.entries <+: (A.log n).drop a.prevLogIndex := by
    rw [List.prefix_iff_getElem?]
    intro k inside
    have found := agrees.2 k _ (List.getElem?_eq_getElem inside)
    have place : a.prevLogIndex + 1 + k - 1 = a.prevLogIndex + k := by omega
    rw [show (s.logView n).entryAt (a.prevLogIndex + 1 + k) = _ from
      view.entryAt_eq (above.trans_lt (by omega)), place] at found
    rwa [List.getElem?_drop]
  obtain ⟨rest, entries⟩ := entries
  refine ⟨within, prevTerm, rest, ?_⟩
  rw [List.append_assoc, entries, List.take_append_drop]

/-- A node that accepted an `AppendEntries` has the log of its term up to its end. -/
theorem prefix_of_holdsAppend {n : ν} {a : AppendEntries ν} (holds : HoldsAppend C s n a) :
    Decided C A (s.currentTerm n) (A.leaderLog (s.currentTerm n)) a.leaderCommit ∧
      a.reach ≤ (A.leaderLog (s.currentTerm n)).length ∧
      (A.leaderLog (s.currentTerm n)).take a.reach <+: A.log n := by
  obtain ⟨message, arrived, -, payload, term, agrees⟩ := holds
  obtain ⟨within, prevTerm, has⟩ := inv.of_agrees agrees
  have sent := inv.network message arrived.1
  rw [payload] at sent
  obtain ⟨led, known, part, prevTerm', decided⟩ := sent
  rw [term] at led known part prevTerm' decided
  have before := take_eq (inv.sound.rooted n) (inv.sound.rooted_leaderLog led) within known
    (prevTerm.trans prevTerm'.symm)
  have length := part.length_le
  rw [List.length_append, List.length_take_of_le known] at length
  refine ⟨decided, length, ?_⟩
  change (A.leaderLog _).take (a.prevLogIndex + a.entries.length) <+: _
  rwa [← take_append_eq known part, ← before]

/-! ## Commits -/

/-- What a node may commit is decided. -/
theorem decided_of_reason {n : ν} {index : ℕ} (reason : CommitReason C s n index) :
    Decided C A (s.currentTerm n) (A.log n) index := by
  have node := inv.nodes n
  cases reason with
  | replicator r member leader current within =>
      obtain ⟨-, -, decided⟩ := inv.replicators r member
      obtain ⟨leads, term⟩ := current
      rw [leader] at leads term
      obtain ⟨-, own, -⟩ := node.leader leads
      rw [← term, show A.leaderLog (s.currentTerm n) = A.log n from own] at decided
      exact decided.of_le within
  | append a holds within reached =>
      obtain ⟨decided, reach, has⟩ := inv.prefix_of_holdsAppend holds
      exact (decided.of_le within).of_part ((List.take_prefix_take_left reached).trans has)
  | snapshot snapshot latest within => exact (node.snapshot snapshot latest).1.of_le within

/-- A node commits. -/
theorem commit {n : ν} {index : ℕ} (reason : CommitReason C s n index) :
    LogInv C (s.updateVolatile n fun w => { w with commitIndex := index }) A := by
  have node := inv.nodes n
  refine inv.store (n := n) ⟨fun _ _ => rfl, fun _ _ => rfl,
    fun m other => Function.update_of_ne other .., ?_, rfl, rfl, rfl, rfl, rfl⟩ ?_
  · simp [Cluster.role, Cluster.updateVolatile]
  · simp only [Cluster.updateVolatile, Function.update_self]
    exact
      { term := node.term
        view := node.view
        unvoted := node.unvoted
        candidate := node.candidate
        leader := node.leader
        committed := inv.decided_of_reason reason
        applied := node.applied
        snapshot := node.snapshot }

/-! ## The state machine and its snapshots -/

/-- A node applies the next committed entry. -/
theorem apply {n : ν} {entry : LogEntry (Command ν)} {applier : StateMachineApplier ν}
    (committed : s.applier.lastApplied n + 1 ≤ s.commitIndex n)
    (canonical : recordCanonical ⟨n, s.applier.lastApplied n + 1, entry⟩ s.applier =
      .ok applier) :
    LogInv C (writeApplied n (s.applier.lastApplied n + 1) entry { s with applier := applier })
      A := by
  have node := inv.nodes n
  have applied : applier.lastApplied = s.applier.lastApplied := by
    obtain ⟨recorded, rfl⟩ := recordCanonical_ok canonical
    rfl
  refine inv.store (n := n) ⟨fun m other => Function.update_of_ne other .., fun m other => ?_,
    fun _ _ => rfl, rfl, ?_, rfl, rfl, rfl, rfl⟩ ?_
  · change Function.update applier.lastApplied n _ m = _
    rw [Function.update_of_ne other, applied]
  · simp [writeApplied, Cluster.currentTerm, Cluster.updatePersistent]
  · simp only [writeApplied, Cluster.updatePersistent, Function.update_self]
    exact
      { term := node.term
        view := node.view
        unvoted := node.unvoted
        candidate := node.candidate
        leader := node.leader
        committed := node.committed
        applied := node.committed.of_le committed
        snapshot := node.snapshot }

/-- A node snapshots what it has applied. -/
theorem createSnapshot {n : ν} {snapshot : KVSnapshot ν}
    (boundary : snapshot.lastIncludedIndex = s.applier.lastApplied n)
    (term : (s.logView n).termAt snapshot.lastIncludedIndex = some snapshot.lastIncludedTerm) :
    LogInv C (s.updatePersistent n fun p => { p with kvSnapshot := some snapshot }) A := by
  have node := inv.nodes n
  refine inv.store (.updatePersistent s n fun _ => rfl) ?_
  simp only [Cluster.updatePersistent, Function.update_self]
  exact
    { term := node.term
      view := node.view
      unvoted := node.unvoted
      candidate := node.candidate
      leader := node.leader
      committed := node.committed
      applied := node.applied
      snapshot := fun snapshot' stored => by
        cases stored
        refine ⟨?_, (node.view.termAt_eq_some.mp term).2.2⟩
        rw [boundary]
        exact node.applied }

/-- A node compacts its log. -/
theorem compactLog {n : ν} {index term : ℕ} (known : (s.logView n).termAt index = some term) :
    LogInv C (s.updatePersistent n fun p => { p with log := p.log.compactThrough index }) A := by
  have node := inv.nodes n
  obtain ⟨above, below, -⟩ := node.view.termAt_eq_some.mp known
  refine inv.store (.updatePersistent s n fun _ => rfl) ?_
  simp only [Cluster.updatePersistent, Function.update_self]
  exact
    { term := node.term
      view := node.view.compactThrough above below
      unvoted := node.unvoted
      candidate := node.candidate
      leader := node.leader
      committed := node.committed
      applied := node.applied
      snapshot := node.snapshot }

/-- A follower installs the snapshot of its leader. -/
theorem install {message : Message ν} {request : InstallSnapshotRequest ν}
    {suffix : List (LogEntry (Command ν))} (arrived : Arrived C s message)
    (payload : message.payload = .installSnapshotRequest request)
    (term : request.term = s.currentTerm message.dst)
    (follows : s.role message.dst = .follower)
    (retained : retainedSuffix message.dst request.snapshot true s = .ok suffix) :
    Continues C A (writeSnapshot message.dst request.snapshot suffix s) := by
  generalize message.dst = n at *
  have node := inv.nodes n
  have current : A.currentTerm n = s.currentTerm n := node.term
  have sent := inv.network message arrived.1
  rw [payload] at sent
  obtain ⟨led, decided, lastTerm⟩ := sent
  rw [term] at led decided lastTerm
  generalize request.snapshot = snapshot at *
  have reach := List.length_take_of_le decided.within
  have part := A.prefix_log_adopt n snapshot.lastIncludedIndex
  rw [current] at part
  have decided' := (decided.later inv.sound (A.extends_adopt n snapshot.lastIncludedIndex)).of_part
    part
  have boundary : ((A.adopt n snapshot.lastIncludedIndex).log n).take snapshot.lastIncludedIndex =
      (A.leaderLog (s.currentTerm n)).take snapshot.lastIncludedIndex := by
    rw [List.prefix_iff_eq_take.mp part, reach]
  have writes : WritesAt s (writeSnapshot n snapshot suffix s) n :=
    ⟨fun m other => Function.update_of_ne other .., fun m other => Function.update_of_ne other ..,
      fun _ _ => rfl, rfl, by
        simp [writeSnapshot, Cluster.currentTerm, Cluster.updatePersistent], rfl, rfl, rfl, rfl⟩
  have view : (writeSnapshot n snapshot suffix s).logView n =
      ⟨snapshot.lastIncludedIndex, snapshot.lastIncludedTerm, suffix⟩ := by
    simp [writeSnapshot, Cluster.logView, Cluster.updatePersistent]
  have retains : suffix =
      ((A.adopt n snapshot.lastIncludedIndex).log n).drop snapshot.lastIncludedIndex := by
    unfold retainedSuffix at retained
    dsimp only at retained
    rw [show (s.logView n).lastIndex = (A.log n).length from node.view.lastIndex_eq] at retained
    by_cases has : (A.leaderLog (A.currentTerm n)).take snapshot.lastIncludedIndex <+: A.log n
    · rw [Archive.adopt_of_part has]
      split at retained
      next short =>
        cases retained
        exact (List.drop_of_length_le short).symm
      next long =>
        split at retained
        next matched =>
          have above := (node.view.prefixMatches_eq_true.mp matched.2).1
          cases retained
          exact node.view.suffixFrom_eq (Nat.lt_succ_of_le above)
        next => cases retained
    · rw [Archive.adopt_of_missing has, Archive.log_accept_self, current]
      split at retained
      next short =>
        cases retained
        exact (List.drop_of_length_le reach.le).symm
      next long =>
        split at retained
        next matched =>
          -- The log matches the snapshot's term, so it has the snapshot's entries.
          obtain ⟨-, within, same⟩ := node.view.prefixMatches_eq_true.mp matched.2
          have shared := take_eq (inv.sound.rooted n) (inv.sound.rooted_leaderLog led) within
            decided.within (same.trans lastTerm.symm)
          rw [current, ← shared] at has
          exact absurd (List.take_prefix _ _) has
        next => cases retained
  refine ⟨_, A.extends_adopt n snapshot.lastIncludedIndex, inv.adopt follows led writes ?_ rfl ?_
    (.inr ?_) fun snapshot' stored => .inr ?_⟩
  · simp [writeSnapshot, Cluster.votedFor, Cluster.updatePersistent]
  · rw [view]
    exact ⟨decided'.within, by rw [boundary, lastTerm], retains⟩
  · have applied : (writeSnapshot n snapshot suffix s).applier.lastApplied n =
        snapshot.lastIncludedIndex := Function.update_self ..
    rwa [applied]
  · have latest : snapshot' = snapshot := by
      simpa [writeSnapshot, Cluster.updatePersistent, eq_comm] using stored
    rw [latest]
    exact ⟨decided', by rw [boundary, lastTerm]⟩

end LogInv

end Distlab.Raft
