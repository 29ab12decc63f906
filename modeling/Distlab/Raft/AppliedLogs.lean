import Distlab.Raft.LogPreservation
import Distlab.Raft.Recovery

/-!
# What nodes apply

The applied entries of a node are those of its full log between the compacted boundary and
the last applied index, and all of it is decided. What the state machine applier and the
safety harness remember of an index is final: an entry that was decided there.
-/

set_option autoImplicit false

namespace Distlab.Raft

open Foundations LeaderLogs

variable {ν : Type} [LinearOrder ν] {C : Config ν} {U : Licence ν} {s s' : Cluster ν}
  {A A' : Logs ν}

/-! ## Final entries -/

/-- The entry was decided at the index, in a term up to `T`. -/
def Final (C : Config ν) (A : Logs ν) (T index : ℕ) (entry : LogEntry (Command ν)) : Prop :=
  ∃ log, Decided C A T log index ∧ 0 < index ∧ log[index - 1]? = some entry

theorem Decided.final {T index : ℕ} {log : List (LogEntry (Command ν))}
    {entry : LogEntry (Command ν)} (decided : Decided C A T log index) (positive : 0 < index)
    (found : log[index - 1]? = some entry) : Final C A T index entry :=
  ⟨log, decided, positive, found⟩

theorem Final.later {T index : ℕ} {entry : LogEntry (Command ν)}
    (final : Final C A T index entry) (sound : A.Sound (rules C)) (extends' : A.Extends A') :
    Final C A' T index entry := by
  obtain ⟨log, decided, positive, found⟩ := final
  exact ⟨log, decided.later sound extends', positive, found⟩

/-- What is decided of a log has the final entries. -/
theorem Final.getElem? {T T' index : ℕ} {entry : LogEntry (Command ν)}
    {log : List (LogEntry (Command ν))} (final : Final C A T index entry)
    (decided : Decided C A T' log index) (sound : A.Sound (rules C)) :
    log[index - 1]? = some entry := by
  obtain ⟨log', decided', positive, found⟩ := final
  have same := decided.agree decided' sound
  have inside : index - 1 < index := by omega
  rw [← List.getElem?_take_of_lt inside, same, List.getElem?_take_of_lt inside]
  exact found

/-- **An index has one final entry.** -/
theorem Final.unique {T T' index : ℕ} {entry entry' : LogEntry (Command ν)}
    (final : Final C A T index entry) (final' : Final C A T' index entry')
    (sound : A.Sound (rules C)) : entry = entry' := by
  obtain ⟨log, decided, -, found⟩ := final
  exact Option.some.inj (found.symm.trans (final'.getElem? decided sound))

/-! ## Applied entries -/

/-- What a node has applied. -/
structure AppliedNode (A : Logs ν) (n : ν) (p : Persistent ν) (baseIndex baseTerm lastApplied : ℕ)
    (applied : List (AppliedEntry ν)) : Prop where
  base : baseIndex ≤ p.log.baseIndex
  behind : p.log.baseIndex ≤ lastApplied
  boundary : baseTerm = logTerm ((A.log n).take baseIndex)
  records : applied = appliedRecords n (baseIndex + 1)
    (((A.log n).take lastApplied).drop baseIndex)
  durableBase : p.stateMachineBaseIndex = baseIndex
  durableTerm : p.stateMachineBaseTerm = baseTerm
  durable : p.stateMachineApplied = applied.map (·.entry)

/-- What the nodes have applied, and what the applier and the harness remember. -/
structure AppliedInv (C : Config ν) (s : Cluster ν) (A : Logs ν) : Prop where
  nodes : ∀ n, AppliedNode A n (s.persistent n) (s.applier.baseIndex n) (s.applier.baseTerm n)
    (s.applier.lastApplied n) (s.applier.applied n)
  canonical : ∀ index r, s.applier.canonicalByIndex.lookup index = some r →
    ∃ T, Final C A T index r.entry
  observed : ∀ index o, s.harness.committed.lookup index = some o →
    o.index = index ∧ Final C A o.committedInTerm index o.entry
  leaders : ∀ T n, s.harness.leadersByTerm.lookup T = some n →
    s.leadersByTerm.lookup T = some n
  logs : ∀ T n view, s.harness.logsByLeadership.lookup (T, n) = some view →
    view.baseIndex ≤ (s.logView n).baseIndex ∧ ∃ log, log <+: A.leaderLog T ∧ view.Ends log

omit [LinearOrder ν] in
theorem appliedRecords_append_singleton (n : ν) (first : ℕ)
    (entries : List (LogEntry (Command ν))) (entry : LogEntry (Command ν)) :
    appliedRecords n first (entries ++ [entry]) =
      appliedRecords n first entries ++ [⟨n, first + entries.length, entry⟩] := by
  induction entries generalizing first with
  | nil => rfl
  | cons head rest ih =>
      have place : first + 1 + rest.length = first + (rest.length + 1) := by omega
      simp [appliedRecords, ih, place]

omit [LinearOrder ν] in
theorem drop_appliedRecords (n : ν) (first count : ℕ) (entries : List (LogEntry (Command ν))) :
    (appliedRecords n first entries).drop count =
      appliedRecords n (first + count) (entries.drop count) := by
  induction entries generalizing first count with
  | nil => simp [appliedRecords]
  | cons entry rest ih =>
      cases count with
      | zero => rfl
      | succ count =>
          have place : first + 1 + count = first + (count + 1) := by omega
          rw [appliedRecords, List.drop_succ_cons, List.drop_succ_cons, ih, place]

omit [LinearOrder ν] in
theorem mem_appliedRecords {n : ν} {first : ℕ} {entries : List (LogEntry (Command ν))}
    {r : AppliedEntry ν} (member : r ∈ appliedRecords n first entries) :
    ∃ k, entries[k]? = some r.entry ∧ r.index = first + k := by
  induction entries generalizing first with
  | nil => cases member
  | cons entry rest ih =>
      obtain rfl | later := List.mem_cons.mp member
      · exact ⟨0, rfl, rfl⟩
      · obtain ⟨k, found, index⟩ := ih later
        exact ⟨k + 1, found, by omega⟩

omit [LinearOrder ν] in
/-- A node whose applied entries stay, while its log may change beyond them. -/
theorem AppliedNode.later {n : ν} {p p' : Persistent ν} {baseIndex baseTerm lastApplied : ℕ}
    {applied : List (AppliedEntry ν)}
    (node : AppliedNode A n p baseIndex baseTerm lastApplied applied)
    (keeps : (A'.log n).take lastApplied = (A.log n).take lastApplied)
    (base : p.log.baseIndex ≤ p'.log.baseIndex) (behind : p'.log.baseIndex ≤ lastApplied)
    (durableBase : p'.stateMachineBaseIndex = p.stateMachineBaseIndex)
    (durableTerm : p'.stateMachineBaseTerm = p.stateMachineBaseTerm)
    (durable : p'.stateMachineApplied = p.stateMachineApplied) :
    AppliedNode A' n p' baseIndex baseTerm lastApplied applied where
  base := node.base.trans base
  behind := behind
  boundary := by
    have inside : min baseIndex lastApplied = baseIndex :=
      min_eq_left (node.base.trans node.behind)
    rw [node.boundary, ← inside, ← List.take_take, ← List.take_take, keeps]
  records := by
    rw [keeps]
    exact node.records
  durableBase := durableBase.trans node.durableBase
  durableTerm := durableTerm.trans node.durableTerm
  durable := durable.trans node.durable

/-- The next state of the logs: two invariants and the archives between them. -/
structure NextLogs (C : Config ν) (s s' : Cluster ν) (A A' : Logs ν) : Prop where
  before : LogInv C s A
  after : LogInv C s' A'
  grows : A.Extends A'

/-- What a node has applied stays at its place in its log. -/
theorem NextLogs.take_applied (next : NextLogs C s s' A A') {n : ν}
    (mono : s.applier.lastApplied n ≤ s'.applier.lastApplied n) :
    (A'.log n).take (s.applier.lastApplied n) = (A.log n).take (s.applier.lastApplied n) := by
  have old := (next.before.nodes n).applied.later next.before.sound next.grows
  have new := (next.after.nodes n).applied.of_le mono
  exact new.agree old next.after.sound

/-- The durable state of a node that its applier does not see. -/
structure SameApplied (p p' : Persistent ν) : Prop where
  base : p'.log.baseIndex = p.log.baseIndex
  durableBase : p'.stateMachineBaseIndex = p.stateMachineBaseIndex
  durableTerm : p'.stateMachineBaseTerm = p.stateMachineBaseTerm
  durable : p'.stateMachineApplied = p.stateMachineApplied

omit [LinearOrder ν] in
theorem SameApplied.refl (p : Persistent ν) : SameApplied p p := ⟨rfl, rfl, rfl, rfl⟩

namespace AppliedInv

variable (applied : AppliedInv C s A)
include applied

/-- What is remembered stays. -/
theorem remember (next : NextLogs C s s' A A')
    (nodes : ∀ n, AppliedNode A' n (s'.persistent n) (s'.applier.baseIndex n)
      (s'.applier.baseTerm n) (s'.applier.lastApplied n) (s'.applier.applied n))
    (canonical : ∀ index r, s'.applier.canonicalByIndex.lookup index = some r →
      s.applier.canonicalByIndex.lookup index = some r ∨ ∃ T, Final C A' T index r.entry)
    (observed : ∀ index o, s'.harness.committed.lookup index = some o →
      s.harness.committed.lookup index = some o ∨
        o.index = index ∧ Final C A' o.committedInTerm index o.entry)
    (leaders : ∀ T n, s'.harness.leadersByTerm.lookup T = some n →
      s'.leadersByTerm.lookup T = some n)
    (bases : ∀ n, (s.logView n).baseIndex ≤ (s'.logView n).baseIndex)
    (logs : ∀ T n view, s'.harness.logsByLeadership.lookup (T, n) = some view →
      s.harness.logsByLeadership.lookup (T, n) = some view ∨
        view.baseIndex ≤ (s'.logView n).baseIndex ∧
          ∃ log, log <+: A'.leaderLog T ∧ view.Ends log) :
    AppliedInv C s' A' where
  nodes := nodes
  canonical index r found := by
    obtain old | new := canonical index r found
    · obtain ⟨T, final⟩ := applied.canonical index r old
      exact ⟨T, final.later next.before.sound next.grows⟩
    · exact new
  observed index o found := by
    obtain old | new := observed index o found
    · exact (applied.observed index o old).imp id fun final =>
        final.later next.before.sound next.grows
    · exact new
  leaders := leaders
  logs T n view found := by
    obtain old | new := logs T n view found
    · obtain ⟨base, log, part, ends⟩ := applied.logs T n view old
      exact ⟨base.trans (bases n), log, part.trans (next.grows.leaderLog T), ends⟩
    · exact new

/-- **The frame of what nodes apply.** -/
theorem frame (next : NextLogs C s s' A A') (applier : s'.applier = s.applier)
    (nodes : ∀ n, SameApplied (s.persistent n) (s'.persistent n))
    (harness : s'.harness = s.harness)
    (leaders : ∀ T n, s.leadersByTerm.lookup T = some n → s'.leadersByTerm.lookup T = some n) :
    AppliedInv C s' A' := by
  refine applied.remember next (fun n => ?_) (fun index r found => .inl (applier ▸ found))
    (fun index o found => .inl (harness ▸ found)) (fun T n found => leaders T n ?_)
    (fun n => (nodes n).base.ge) fun T n view found => .inl (harness ▸ found)
  · have node := applied.nodes n
    have keeps := next.take_applied (n := n) (by rw [applier])
    rw [applier]
    exact node.later keeps (nodes n).base.ge ((nodes n).base ▸ node.behind) (nodes n).durableBase
      (nodes n).durableTerm (nodes n).durable
  · rw [harness] at found
    exact applied.leaders T n found

/-- One node applies, compacts or installs. -/
theorem write {n : ν} (next : NextLogs C s s' A A')
    (others : ∀ m, m ≠ n → s'.persistent m = s.persistent m ∧
      s'.applier.baseIndex m = s.applier.baseIndex m ∧
      s'.applier.baseTerm m = s.applier.baseTerm m ∧
      s'.applier.lastApplied m = s.applier.lastApplied m ∧
      s'.applier.applied m = s.applier.applied m)
    (own : AppliedNode A' n (s'.persistent n) (s'.applier.baseIndex n) (s'.applier.baseTerm n)
      (s'.applier.lastApplied n) (s'.applier.applied n))
    (base : (s.logView n).baseIndex ≤ (s'.logView n).baseIndex)
    (canonical : ∀ index r, s'.applier.canonicalByIndex.lookup index = some r →
      s.applier.canonicalByIndex.lookup index = some r ∨ ∃ T, Final C A' T index r.entry)
    (harness : s'.harness = s.harness) (leaders : s'.leadersByTerm = s.leadersByTerm) :
    AppliedInv C s' A' := by
  refine applied.remember next (fun m => ?_) canonical (fun index o found => .inl (harness ▸ found))
    (fun T m found => ?_) (fun m => ?_) fun T m view found => .inl (harness ▸ found)
  · by_cases same : m = n
    · exact same ▸ own
    · obtain ⟨persistent, baseIndex, baseTerm, lastApplied, records⟩ := others m same
      have node := applied.nodes m
      rw [persistent, baseIndex, baseTerm, lastApplied, records]
      exact node.later (next.take_applied lastApplied.ge) le_rfl node.behind rfl rfl rfl
  · rw [leaders]
    rw [harness] at found
    exact applied.leaders T m found
  · by_cases same : m = n
    · exact same ▸ base
    · rw [Cluster.logView, Cluster.logView, (others m same).1]

/-- A node compacts its log up to what it has applied. -/
theorem compactLog {n : ν} {index term : ℕ} (boundary : index = s.applier.lastApplied n)
    (known : (s.logView n).termAt index = some term)
    (next : NextLogs C s (s.updatePersistent n fun p =>
      { p with log := p.log.compactThrough index }) A A') :
    AppliedInv C
      (s.updatePersistent n fun p => { p with log := p.log.compactThrough index }) A' := by
  have node := applied.nodes n
  have above := ((next.before.nodes n).view.termAt_eq_some.mp known).1
  have keeps := next.take_applied (n := n) le_rfl
  refine applied.write next (n := n) (fun m other => ⟨Function.update_of_ne other .., rfl, rfl, rfl,
    rfl⟩) ?_ ?_ (fun _ _ => .inl) rfl rfl
  · simp only [Cluster.updatePersistent, Function.update_self]
    refine node.later keeps ?_ ?_ rfl rfl rfl
    · simpa using above
    · simpa using boundary.le
  · simpa [Cluster.logView, Cluster.updatePersistent] using above

/-- A node forgets the applied entries behind its compacted boundary. -/
theorem compactApplied {n : ν} {index term : ℕ} (boundary : index = s.applier.lastApplied n)
    (known : (s.logView n).termAt index = some term) (beyond : s.applier.baseIndex n < index)
    (compacted : (s.logView n).baseIndex = index)
    (next : NextLogs C s (writeCompacted n index term s) A A') :
    AppliedInv C (writeCompacted n index term s) A' := by
  have node := applied.nodes n
  have keeps := next.take_applied (n := n) le_rfl
  obtain ⟨-, within, lastTerm⟩ := (next.before.nodes n).view.termAt_eq_some.mp known
  have records : (s.applier.applied n).drop (index - s.applier.baseIndex n) =
      appliedRecords n (index + 1) (((A'.log n).take (s.applier.lastApplied n)).drop index) := by
    have first : s.applier.baseIndex n + 1 + (index - s.applier.baseIndex n) = index + 1 := by
      omega
    have place : s.applier.baseIndex n + (index - s.applier.baseIndex n) = index := by omega
    rw [node.records, drop_appliedRecords, List.drop_drop, first, place, keeps]
  refine applied.write next (n := n) (fun m other => ⟨Function.update_of_ne other ..,
    Function.update_of_ne other .., Function.update_of_ne other .., rfl,
    Function.update_of_ne other ..⟩) ?_ ?_ (fun _ _ => .inl) rfl rfl
  · simp only [writeCompacted, Cluster.updatePersistent, Function.update_self]
    exact
      { base := compacted.ge
        behind := node.behind
        boundary := by
          rw [boundary, keeps, ← boundary]
          exact lastTerm.symm
        records := records
        durableBase := rfl
        durableTerm := rfl
        durable := rfl }
  · simp [writeCompacted, Cluster.logView, Cluster.updatePersistent]

/-- A node applies the next committed entry. -/
theorem apply {n : ν} {entry : LogEntry (Command ν)} {applier : StateMachineApplier ν}
    (committed : s.applier.lastApplied n + 1 ≤ s.commitIndex n)
    (found : (s.logView n).entryAt (s.applier.lastApplied n + 1) = some entry)
    (canonical : recordCanonical ⟨n, s.applier.lastApplied n + 1, entry⟩ s.applier =
      .ok applier)
    (next : NextLogs C s (writeApplied n (s.applier.lastApplied n + 1) entry
      { s with applier := applier }) A A') :
    AppliedInv C (writeApplied n (s.applier.lastApplied n + 1) entry { s with applier := applier })
      A' := by
  have node := applied.nodes n
  obtain ⟨recorded, same⟩ := recordCanonical_ok canonical
  have before := next.before.nodes n
  have above : (s.logView n).baseIndex < s.applier.lastApplied n + 1 :=
    Nat.lt_succ_of_le node.behind
  have place : (A.log n)[s.applier.lastApplied n]? = some entry := by
    rw [← found]
    exact (before.view.entryAt_eq above).symm
  have final : Final C A (s.currentTerm n) (s.applier.lastApplied n + 1) entry :=
    (before.committed.of_le committed).final (Nat.succ_pos _) place
  have lastApplied : (writeApplied n (s.applier.lastApplied n + 1) entry
      { s with applier := applier }).applier.lastApplied n = s.applier.lastApplied n + 1 :=
    Function.update_self ..
  have after := (next.after.nodes n).applied
  rw [lastApplied] at after
  have place' : (A'.log n)[s.applier.lastApplied n]? = some entry :=
    (final.later next.before.sound next.grows).getElem? after next.after.sound
  have keeps : (A'.log n).take (s.applier.lastApplied n) =
      (A.log n).take (s.applier.lastApplied n) :=
    next.take_applied (by rw [lastApplied]; exact Nat.le_succ _)
  have within : s.applier.lastApplied n ≤ (A'.log n).length := (Nat.le_succ _).trans after.within
  have inside : s.applier.baseIndex n ≤ s.applier.lastApplied n := node.base.trans node.behind
  have grown : ((A'.log n).take (s.applier.lastApplied n + 1)).drop (s.applier.baseIndex n) =
      ((A.log n).take (s.applier.lastApplied n)).drop (s.applier.baseIndex n) ++ [entry] := by
    rw [take_succ_of_getElem? place', keeps, List.drop_append_of_le_length]
    rw [← keeps, List.length_take_of_le within]
    exact inside
  refine applied.write next (n := n) (fun m other => ?_) ?_ ?_ (fun index r known => ?_) rfl rfl
  · rw [same]
    exact ⟨Function.update_of_ne other .., rfl, rfl, Function.update_of_ne other ..,
      Function.update_of_ne other ..⟩
  · simp only [writeApplied, Cluster.updatePersistent, Function.update_self, same]
    exact
      { base := node.base
        behind := node.behind.trans (Nat.le_succ _)
        boundary := by
          have early : min (s.applier.baseIndex n) (s.applier.lastApplied n) =
            s.applier.baseIndex n := min_eq_left inside
          rw [node.boundary, ← early, ← List.take_take, ← List.take_take, keeps]
        records := by
          have last : s.applier.baseIndex n + 1 + (((A.log n).take
              (s.applier.lastApplied n)).drop (s.applier.baseIndex n)).length =
              s.applier.lastApplied n + 1 := by
            rw [List.length_drop, ← keeps, List.length_take_of_le within]
            omega
          rw [grown, appliedRecords_append_singleton, last, ← node.records]
        durableBase := node.durableBase
        durableTerm := node.durableTerm
        durable := by rw [List.map_append, ← node.durable]; rfl }
  · simp [writeApplied, Cluster.logView, Cluster.updatePersistent]
  · change applier.canonicalByIndex.lookup index = some r at known
    unfold recordCanonical at canonical
    split at canonical
    · split at canonical
      · cases canonical
      · cases canonical
        exact .inl known
    · cases canonical
      obtain ⟨rfl, rfl⟩ | ⟨-, old⟩ := Dict.of_lookup_insert known
      · exact .inr ⟨_, final.later next.before.sound next.grows⟩
      · exact .inl old

/-- A node installs a snapshot. -/
theorem install {n : ν} {snapshot : KVSnapshot ν} {suffix : List (LogEntry (Command ν))}
    (beyond : (s.logView n).baseIndex ≤ snapshot.lastIncludedIndex)
    (next : NextLogs C s (writeSnapshot n snapshot suffix s) A A') :
    AppliedInv C (writeSnapshot n snapshot suffix s) A' := by
  have stored : ((writeSnapshot n snapshot suffix s).persistent n).kvSnapshot = some snapshot := by
    simp [writeSnapshot, Cluster.updatePersistent]
  obtain ⟨decided, lastTerm⟩ := (next.after.nodes n).snapshot snapshot stored
  refine applied.write next (n := n) (fun m other => ⟨Function.update_of_ne other ..,
    Function.update_of_ne other .., Function.update_of_ne other .., Function.update_of_ne other ..,
    Function.update_of_ne other ..⟩) ?_ ?_ (fun _ _ => .inl) rfl rfl
  · simp only [writeSnapshot, Cluster.updatePersistent, Function.update_self]
    exact
      { base := le_rfl
        behind := le_rfl
        boundary := lastTerm.symm
        records := by
          rw [List.drop_of_length_le (List.length_take_of_le decided.within).le]
          rfl
        durableBase := rfl
        durableTerm := rfl
        durable := rfl }
  · simpa [writeSnapshot, Cluster.logView, Cluster.updatePersistent] using beyond

/-- The harness observes. -/
theorem observe {harness : RaftSafetyHarness ν}
    (next : NextLogs C s { s with harness := harness } A A')
    (observed : ∀ index o, harness.committed.lookup index = some o →
      s.harness.committed.lookup index = some o ∨
        o.index = index ∧ Final C A' o.committedInTerm index o.entry)
    (leaders : ∀ T n, harness.leadersByTerm.lookup T = some n →
      s.leadersByTerm.lookup T = some n)
    (logs : ∀ T n view, harness.logsByLeadership.lookup (T, n) = some view →
      s.harness.logsByLeadership.lookup (T, n) = some view ∨
        view.baseIndex ≤ (s.logView n).baseIndex ∧
          ∃ log, log <+: A'.leaderLog T ∧ view.Ends log) :
    AppliedInv C { s with harness := harness } A' :=
  applied.remember next (fun n => (applied.nodes n).later (next.take_applied le_rfl) le_rfl
    (applied.nodes n).behind rfl rfl rfl) (fun _ _ => .inl) observed leaders (fun _ => le_rfl) logs

end AppliedInv

/-! ## Every move -/

/-- A durable write that the appliers do not see. -/
theorem sameApplied_update (n m : ν) {p : Persistent ν} (keeps : SameApplied (s.persistent n) p) :
    SameApplied (s.persistent m) (Function.update s.persistent n p m) := by
  by_cases same : m = n
  · subst same
    rw [Function.update_self]
    exact keeps
  · rw [Function.update_of_ne same]
    exact .refl _

/-- **Every move keeps what nodes have applied and what is remembered of it.** -/
theorem AppliedInv.move (protocol : ¬ U.own) (move : Move C U s s') (votes : VoteInv C s)
    (applied : AppliedInv C s A) (next : NextLogs C s s' A A') : AppliedInv C s' A' := by
  have updates : ∀ (n : ν) {p : Persistent ν}, s'.persistent = Function.update s.persistent n p →
      SameApplied (s.persistent n) p → s'.applier = s.applier → s'.harness = s.harness →
      s'.leadersByTerm = s.leadersByTerm → AppliedInv C s' A' := by
    intro n p persistent keeps applier harness leaders
    refine applied.frame next applier (fun m => ?_) harness fun T m found => leaders ▸ found
    rw [persistent]
    exact sameApplied_update n m keeps
  have unchanged : s'.persistent = s.persistent → s'.applier = s.applier →
      s'.harness = s.harness → s'.leadersByTerm = s.leadersByTerm → AppliedInv C s' A' := by
    intro persistent applier harness leaders
    refine applied.frame next applier (fun m => ?_) harness fun T m found => leaders ▸ found
    rw [persistent]
    exact .refl _
  cases move with
  | housekeeping same =>
      exact unchanged (show (core s').persistent = (core s).persistent by rw [same])
        (show (core s').applier = (core s).applier by rw [same])
        (show (core s').harness = (core s).harness by rw [same])
        (show (core s').leadersByTerm = (core s).leadersByTerm by rw [same])
  | advanceTerm n | stand n | append n | createSnapshot n =>
      exact updates n rfl ⟨rfl, rfl, rfl, rfl⟩ rfl rfl rfl
  | grant message | merge message =>
      exact updates message.dst rfl ⟨rfl, rfl, rfl, rfl⟩ rfl rfl rfl
  | watermark leader index command n => exact updates n rfl ⟨rfl, rfl, rfl, rfl⟩ rfl rfl rfl
  | lead n =>
      exact applied.frame next rfl (fun m => .refl _) rfl fun T m found =>
        Dict.lookup_setDefault_of_lookup found
  | apply n entry applier member committed found canonical =>
      exact applied.apply committed found canonical next
  | compactLog n snapshot member latest boundary term =>
      exact applied.compactLog boundary term next
  | compactApplied n snapshot member latest boundary term beyond compacted =>
      exact applied.compactApplied boundary term beyond compacted next
  | install message request suffix arrived payload term follows newer beyond =>
      exact applied.install beyond next
  | installOwn n snapshot suffix own => exact absurd own protocol
  | observeElection n term leads =>
      refine applied.observe next (fun _ _ => .inl) (fun T m found => ?_) fun _ _ _ => .inl
      obtain ⟨rfl, rfl⟩ | ⟨-, old⟩ := Dict.of_lookup_insert found
      · obtain recorded | ⟨role, rfl⟩ := leads
        · exact recorded
        · exact votes.recorded m _ (votes.leads m role).2
      · exact applied.leaders T m old
  | observeLog n leads =>
      refine applied.observe next (fun _ _ => .inl) applied.leaders fun T m view found => ?_
      obtain ⟨same, rfl⟩ | ⟨-, old⟩ := Dict.of_lookup_insert found
      · obtain ⟨rfl, rfl⟩ := Prod.mk.inj same
        have node := next.after.nodes m
        exact .inr ⟨le_rfl, A'.log m, (node.leader leads).2.1 ▸ List.prefix_rfl, node.view⟩
      · exact .inl old
  | observeEntry n index entry leads committed found =>
      refine applied.observe next (fun i o known => ?_) applied.leaders fun _ _ _ => .inl
      obtain ⟨rfl, rfl⟩ | ⟨-, old⟩ := Dict.of_lookup_insert known
      · have node := next.after.nodes n
        have above := RaftLogView.lt_of_entryAt found
        exact .inr ⟨rfl, (node.committed.of_le committed).final (Nat.zero_lt_of_lt above)
          ((node.view.entryAt_eq above).symm.trans found)⟩
      · exact .inl old
  | observeCommit n leads =>
      exact applied.observe next (fun _ _ => .inl) applied.leaders fun _ _ _ => .inl
  | collect | retire | reset | send | schedule | record | commit | image | newReplicator | probe
  | acknowledge | advanceCommit | activate | transitions => exact unchanged rfl rfl rfl rfl

/-! ## Runs -/

/-- The cluster has the logs of the archive, and its nodes have applied them. -/
structure Archived (C : Config ν) (s : Cluster ν) (A : Logs ν) : Prop where
  votes : VoteInv C s
  logs : LogInv C s A
  applied : AppliedInv C s A

/-- The cluster goes on with an archive that extends the one before. -/
theorem Archived.move (archived : Archived C s A) (fixed : C.kind = .fixed) (protocol : ¬ U.own)
    (move : Move C U s s') : ∃ A', A.Extends A' ∧ Archived C s' A' := by
  obtain ⟨A', grows, logs⟩ := archived.logs.move fixed protocol move archived.votes
  exact ⟨A', grows, archived.votes.move fixed move, logs,
    archived.applied.move protocol move archived.votes ⟨archived.logs, logs, grows⟩⟩

theorem Archived.moves (archived : Archived C s A) (fixed : C.kind = .fixed) (protocol : ¬ U.own)
    (moves : Moves C U s s') : ∃ A', A.Extends A' ∧ Archived C s' A' := by
  refine moves.invariant (P := fun s' => ∃ A', A.Extends A' ∧ Archived C s' A')
    (fun s₁ s₂ move kept => ?_) ⟨A, .refl A, archived⟩
  obtain ⟨A₁, grows, archived₁⟩ := kept
  obtain ⟨A₂, grows', archived₂⟩ := archived₁.move fixed protocol move
  exact ⟨A₂, grows.trans grows', archived₂⟩

/-- A cluster over durable state in which no node has a term. -/
theorem archived_over {configuration : VotingConfiguration ν} {images : ν → KVImage} :
    Archived C (Config.over (fun _ => {}) configuration {} images) Archive.initial where
  votes := voteInv_over
  logs := logInv_over
  applied :=
    { nodes := fun _ => ⟨le_rfl, le_rfl, rfl, rfl, rfl, rfl, rfl⟩
      canonical := fun _ _ found => by cases found
      observed := fun _ _ found => by cases found
      leaders := fun _ _ found => by cases found
      logs := fun _ _ _ found => by cases found }

end Distlab.Raft
