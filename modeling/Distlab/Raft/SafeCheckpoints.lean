import Distlab.Raft.AppliedLogs
import Distlab.Raft.Runs

/-!
# Checkpoints pass

Where a cluster has the logs of an archive, a recorded leader keeps what was decided in
earlier terms, and the views and applied entries of the nodes are those of logs that agree.
So no assertion of the safety harness is violated, and no entry conflicts with the canonical
one of its index.
-/

set_option autoImplicit false

namespace Distlab.Raft

open Foundations LeaderLogs

variable {ν : Type} [LinearOrder ν] {C : Config ν} {U : Licence ν} {s s' : Cluster ν}
  {A A' : Logs ν}

/-! ## Views of logs that agree -/

section Views

variable {view view' : RaftLogView (Command ν)} {log log' : List (LogEntry (Command ν))}
  (ends : view.Ends log) (ends' : view'.Ends log')
include ends ends'

/-- A view of a longer log keeps what was observed of the log. -/
theorem keepsObservedLog_of_ends (part : log <+: log')
    (base : view.baseIndex ≤ view'.baseIndex) : keepsObservedLog view view' = true := by
  unfold keepsObservedLog
  simp only [Bool.and_eq_true, decide_eq_true_eq, List.all_eq_true, List.mem_range'_1]
  refine ⟨⟨⟨base, ?_⟩, ?_⟩, fun index range => ?_⟩
  · rw [ends.lastIndex_eq, ends'.lastIndex_eq]
    exact part.length_le
  · rintro ⟨-, within⟩
    rw [ends.lastIndex_eq] at within
    refine ends.termAt_eq_some.mpr ⟨base, within, ?_⟩
    obtain ⟨rest, rfl⟩ := part
    rw [ends'.boundary, List.take_append_of_le_length within]
  · unfold RaftLogView.firstRetainedIndex at range
    rw [ends.lastIndex_eq] at range
    obtain ⟨rest, rfl⟩ := part
    rw [ends.entryAt_eq (by omega), ends'.entryAt_eq (by omega),
      List.getElem?_append_left (by omega)]

/-- Views of logs that agree up to a common term do not mismatch. -/
theorem logMismatch_eq_none
    (agree : ∀ index ≤ log.length, index ≤ log'.length →
      logTerm (log.take index) = logTerm (log'.take index) → log.take index = log'.take index) :
    logMismatch view view' = none := by
  unfold logMismatch RaftLogView.firstRetainedIndex
  simp only [List.find?_eq_none, List.mem_range'_1, Bool.and_eq_true, decide_eq_true_eq,
    List.any_eq_true, not_and, not_exists]
  intro index range term place covered other
  rw [ends.lastIndex_eq, ends'.lastIndex_eq] at range
  rw [ends.termAt_eq (by omega) (by omega), ends'.termAt_eq (by omega) (by omega)] at term
  have same := agree index (by omega) (by omega) (Option.some.inj term)
  refine other ?_
  have inside : place - 1 < index := by omega
  rw [ends.entryAt_eq (by omega), ends'.entryAt_eq (by omega), ← List.getElem?_take_of_lt inside,
    same, List.getElem?_take_of_lt inside]

end Views

/-! ## What leaders keep -/

namespace Archived

variable (archived : Archived C s A)
include archived

/-- A leader is recorded. -/
theorem recorded {T : ℕ} {n : ν} (leads : LeadsIn (C := C) s T n) :
    s.leadersByTerm.lookup T = some n := by
  obtain recorded | ⟨-, role, rfl⟩ := leads
  · exact recorded
  · exact archived.votes.recorded n _ (archived.votes.leads n role).2

/-- **Leader Completeness.** The recorded leader of a term keeps what was decided in
earlier terms, also after it has lost its leadership. -/
theorem prefix_log {t T index : ℕ} {n : ν} {log : List (LogEntry (Command ν))}
    (decided : Decided C A t log index) (earlier : t < T)
    (recorded : s.leadersByTerm.lookup T = some n) : log.take index <+: A.log n := by
  obtain none | ⟨t', below, index', chosen, part⟩ := decided.safe
  · rw [none]
    exact List.nil_prefix
  · have led : (A.elected T).isSome := (archived.logs.elected T).mpr (by rw [recorded]; rfl)
    obtain ⟨start, elected⟩ := Option.isSome_iff_exists.mp led
    exact part.trans (archived.logs.sound.prefix_log_of_chosen chosen (below.trans_lt earlier)
      elected ((archived.logs.started T n recorded).matched start elected))

theorem view (n : ν) : (s.logView n).Ends (A.log n) := (archived.logs.nodes n).view

/-- A view of a node's log covers its entries. -/
theorem covers {n : ν} {index : ℕ} {entry : LogEntry (Command ν)} (positive : 0 < index)
    (found : (A.log n)[index - 1]? = some entry) : (s.logView n).Covers index entry := by
  have view := archived.view n
  obtain below | rfl | above := lt_trichotomy index (s.logView n).baseIndex
  · have inside : index - 1 < (s.logView n).baseIndex := by omega
    have member : entry ∈ (A.log n).take (s.logView n).baseIndex :=
      List.mem_of_getElem? ((List.getElem?_take_of_lt inside).trans found)
    have rooted := (archived.logs.sound.rooted n).of_part
      (List.take_prefix (s.logView n).baseIndex _)
    exact .inl ⟨below, view.boundary.symm ▸ archived.logs.sound.term_le_lastTerm rooted member⟩
  · exact .inr (.inl ⟨rfl, by rw [← logTerm_take positive found]; exact view.boundary.symm⟩)
  · exact .inr (.inr ((view.entryAt_eq above).trans found))

/-- A view of a node's log covers the entries of a prefix of it. -/
theorem covers_of_part {n : ν} {index : ℕ} {log : List (LogEntry (Command ν))}
    {entry : LogEntry (Command ν)} (part : log.take index <+: A.log n) (positive : 0 < index)
    (found : log[index - 1]? = some entry) : (s.logView n).Covers index entry := by
  have below := (List.getElem?_eq_some_iff.mp found).1
  obtain ⟨rest, log'⟩ := part
  refine archived.covers positive ?_
  rw [← log', List.getElem?_append_left (by rw [List.length_take]; omega),
    List.getElem?_take_of_lt (by omega)]
  exact found

/-- A committed entry is final. -/
theorem final_of_committed {n : ν} {index : ℕ} {entry : LogEntry (Command ν)}
    (committed : index ≤ s.commitIndex n) (found : (s.logView n).entryAt index = some entry) :
    Final C A (s.currentTerm n) index entry := by
  have above := RaftLogView.lt_of_entryAt found
  exact ((archived.logs.nodes n).committed.of_le committed).final (Nat.zero_lt_of_lt above)
    (((archived.view n).entryAt_eq above).symm.trans found)

/-- A recorded leader keeps the entries that are final in earlier terms. -/
theorem covers_of_final {t T index : ℕ} {n : ν} {entry : LogEntry (Command ν)}
    (final : Final C A t index entry) (earlier : t < T)
    (recorded : s.leadersByTerm.lookup T = some n) : (s.logView n).Covers index entry := by
  obtain ⟨log, decided, positive, found⟩ := final
  exact archived.covers_of_part (archived.prefix_log decided earlier recorded) positive found

/-- What a node has applied is final. -/
theorem final_of_applied {n : ν} {k : ℕ} {entry : LogEntry (Command ν)}
    (found : (((A.log n).take (s.applier.lastApplied n)).drop (s.applier.baseIndex n))[k]? =
      some entry) : Final C A (s.currentTerm n) (s.applier.baseIndex n + 1 + k) entry := by
  have decided := (archived.logs.nodes n).applied
  rw [List.getElem?_drop] at found
  have below := (List.getElem?_eq_some_iff.mp found).1
  rw [List.length_take_of_le decided.within] at below
  rw [List.getElem?_take_of_lt below] at found
  have place : s.applier.baseIndex n + 1 + k - 1 = s.applier.baseIndex n + k := by omega
  exact (decided.of_le (by omega)).final (by omega) (place ▸ found)

end Archived

/-! ## The durable state of the appliers -/

/-- The durable state of a node that has applied its log loads. -/
theorem AppliedNode.loads {n : ν} {baseIndex baseTerm lastApplied : ℕ}
    {applied : List (AppliedEntry ν)}
    (node : AppliedNode A n (s.persistent n) baseIndex baseTerm lastApplied applied)
    (view : (s.logView n).Ends (A.log n)) (within : lastApplied ≤ (A.log n).length) :
    durableStateLoads n s = true := by
  have base : (s.persistent n).stateMachineBaseIndex ≤ (s.persistent n).log.baseIndex :=
    node.durableBase.trans_le node.base
  have inside : baseIndex ≤ lastApplied := node.base.trans node.behind
  have stored : (s.persistent n).stateMachineApplied =
      ((A.log n).take lastApplied).drop (s.persistent n).stateMachineBaseIndex := by
    rw [node.durable, node.records, appliedRecords_entries, node.durableBase]
  have last : (s.persistent n).stateMachineBaseIndex +
      (s.persistent n).stateMachineApplied.length = lastApplied := by
    rw [stored, node.durableBase, List.length_drop, List.length_take_of_le within]
    omega
  have term : (s.persistent n).stateMachineBaseTerm =
      logTerm ((A.log n).take (s.persistent n).stateMachineBaseIndex) := by
    rw [node.durableTerm, node.durableBase]
    exact node.boundary
  have entries : ∀ index, (s.persistent n).stateMachineBaseIndex < index → index ≤ lastApplied →
      (s.persistent n).stateMachineApplied[index - (s.persistent n).stateMachineBaseIndex - 1]? =
        (A.log n)[index - 1]? := by
    intro index above below
    have place : (s.persistent n).stateMachineBaseIndex +
        (index - (s.persistent n).stateMachineBaseIndex - 1) = index - 1 := by omega
    rw [stored, List.getElem?_drop, place, List.getElem?_take_of_lt (by omega)]
  have lastIndex : (s.persistent n).log.lastIndex = (A.log n).length := view.lastIndex_eq
  have boundary : (s.persistent n).log.baseTerm =
      logTerm ((A.log n).take (s.persistent n).log.baseIndex) := view.boundary
  unfold durableStateLoads
  simp only [Bool.and_eq_true, Bool.or_eq_true, decide_eq_true_eq, List.all_eq_true,
    List.mem_range'_1]
  refine ⟨⟨⟨⟨⟨?_, base⟩, ?_⟩, ?_⟩, ?_⟩, fun index range => ?_⟩
  · rintro ⟨zero, some⟩
    rw [term, zero] at some
    exact some rfl
  · rw [last, lastIndex]
    exact within
  · rintro ⟨same, -, other⟩
    rw [term, boundary, same] at other
    exact other rfl
  · refine or_iff_not_imp_left.mpr fun below => ?_
    rw [not_not, last] at below
    have found : (A.log n)[(s.persistent n).log.baseIndex - 1]? =
        some (A.log n)[(s.persistent n).log.baseIndex - 1] :=
      List.getElem?_eq_getElem (by omega)
    rw [entries _ below.1 below.2, found, boundary, logTerm_take (by omega) found]
    exact decide_eq_true rfl
  · unfold RaftLogView.firstRetainedIndex at range
    rw [entries index (by omega) (by omega)]
    exact view.entryAt_eq (show (s.persistent n).log.baseIndex < index by omega)

/-! ## What the assertion of State Machine Safety sees -/

/-- What the assertion has seen is decided. -/
structure SeenInv (C : Config ν) (A : Logs ν) (seen : Seen ν) : Prop where
  entries : ∀ index r, seen.entries.lookup index = some r → ∃ T, Final C A T index r.entry
  boundaries : ∀ index b, seen.boundaries.lookup index = some b →
    ∃ T log, Decided C A T log index ∧ logTerm (log.take index) = b.2

/-- A decided log has the terms of the final entries. -/
theorem Final.logTerm_take {T T' index : ℕ} {entry : LogEntry (Command ν)}
    {log : List (LogEntry (Command ν))} (final : Final C A T index entry)
    (decided : Decided C A T' log index) (sound : A.Sound (rules C)) :
    logTerm (log.take index) = entry.term := by
  have found := final.getElem? decided sound
  obtain ⟨-, -, positive, -⟩ := final
  exact Raft.logTerm_take positive found

section Seen

variable {seen : Seen ν} (inv : SeenInv C A seen) (sound : A.Sound (rules C)) (n : ν)
include inv sound

theorem checkRecord_of_final {T index : ℕ} {entry : LogEntry (Command ν)}
    (final : Final C A T index entry) :
    ∃ seen', checkRecord n seen index ⟨n, index, entry⟩ = .ok seen' ∧ SeenInv C A seen' := by
  have entries : ¬ (seen.entries.lookup index).any (·.entry ≠ entry) = true := by
    intro other
    obtain ⟨r, found, differs⟩ := (Option.any_eq_true _ _).mp other
    obtain ⟨T', final'⟩ := inv.entries index r found
    exact of_decide_eq_true differs (final'.unique final sound)
  have boundaries : ¬ (seen.boundaries.lookup index).any (·.2 ≠ entry.term) = true := by
    intro other
    obtain ⟨b, found, differs⟩ := (Option.any_eq_true _ _).mp other
    obtain ⟨T', log, decided, term⟩ := inv.boundaries index b found
    exact of_decide_eq_true differs (term.symm.trans (final.logTerm_take decided sound))
  unfold checkRecord
  rw [if_neg (not_not.mpr rfl), if_neg entries, if_neg boundaries]
  refine ⟨_, rfl, fun i r found => ?_, inv.boundaries⟩
  obtain old | ⟨rfl, rfl⟩ := Dict.of_lookup_setDefault found
  · exact inv.entries i r old
  · exact ⟨T, final⟩

theorem checkRecords_of_final (first : ℕ) (entries : List (LogEntry (Command ν)))
    (final : ∀ k entry, entries[k]? = some entry → ∃ T, Final C A T (first + k) entry) :
    ∃ seen', checkRecords n first (appliedRecords n first entries) seen = .ok seen' ∧
      SeenInv C A seen' := by
  induction entries generalizing first seen with
  | nil => exact ⟨seen, rfl, inv⟩
  | cons entry rest ih =>
      obtain ⟨T, here⟩ := final 0 entry rfl
      obtain ⟨next, checked, inv'⟩ := checkRecord_of_final inv sound n here
      obtain ⟨last, passed, inv''⟩ := ih inv' (first + 1) fun k entry' found => by
        obtain ⟨T', later⟩ := final (k + 1) entry' found
        have place : first + (k + 1) = first + 1 + k := by omega
        exact ⟨T', place ▸ later⟩
      refine ⟨last, ?_, inv''⟩
      rw [appliedRecords, checkRecords, ← passed]
      exact congrArg (· >>= _) checked

theorem checkBoundary_of_decided {T index : ℕ} {log : List (LogEntry (Command ν))}
    (decided : Decided C A T log index) :
    ∃ seen', checkBoundary n index (logTerm (log.take index)) seen = .ok seen' ∧
      SeenInv C A seen' := by
  have boundaries : ¬ (seen.boundaries.lookup index).any (·.2 ≠ logTerm (log.take index)) =
      true := by
    intro other
    obtain ⟨b, found, differs⟩ := (Option.any_eq_true _ _).mp other
    obtain ⟨T', log', decided', term⟩ := inv.boundaries index b found
    refine of_decide_eq_true differs ?_
    rw [← term, decided'.agree decided sound]
  have entries : ¬ (seen.entries.lookup index).any (·.entry.term ≠ logTerm (log.take index)) =
      true := by
    intro other
    obtain ⟨r, found, differs⟩ := (Option.any_eq_true _ _).mp other
    obtain ⟨T', final⟩ := inv.entries index r found
    exact of_decide_eq_true differs (final.logTerm_take decided sound).symm
  unfold checkBoundary
  by_cases zero : index = 0
  · rw [if_pos zero]
    exact ⟨seen, rfl, inv⟩
  rw [if_neg zero, if_neg boundaries, if_neg entries]
  refine ⟨_, rfl, inv.entries, fun i b found => ?_⟩
  obtain old | ⟨rfl, rfl⟩ := Dict.of_lookup_setDefault found
  · exact inv.boundaries i b old
  · exact ⟨T, log, decided, rfl⟩

end Seen

/-- What a node has applied passes. -/
theorem Archived.checkApplied (archived : Archived C s A) {seen : Seen ν}
    (inv : SeenInv C A seen) (n : ν) :
    ∃ seen', checkApplied s seen n = .ok seen' ∧ SeenInv C A seen' := by
  have sound := archived.logs.sound
  have node := archived.applied.nodes n
  have decided := (archived.logs.nodes n).applied
  have inside : s.applier.baseIndex n ≤ s.applier.lastApplied n := node.base.trans node.behind
  obtain ⟨seen₁, boundary, inv₁⟩ := checkBoundary_of_decided inv sound n (decided.of_le inside)
  rw [← node.boundary] at boundary
  obtain ⟨seen₂, records, inv₂⟩ := checkRecords_of_final inv₁ sound n (s.applier.baseIndex n + 1)
    (((A.log n).take (s.applier.lastApplied n)).drop (s.applier.baseIndex n))
    fun k entry found => ⟨_, archived.final_of_applied found⟩
  rw [← node.records] at records
  refine ⟨seen₂, ?_, inv₂⟩
  unfold Raft.checkApplied
  refine bind_eq_ok.mpr ⟨seen₁, boundary, bind_eq_ok.mpr ⟨seen₂, records, ?_⟩⟩
  exact if_pos ⟨node.loads (archived.logs.nodes n).view decided.within, node.durableBase,
    node.durableTerm, node.durable⟩

/-! ## Nothing is violated -/

namespace Archived

variable (archived : Archived C s A)
include archived

/-- A leader keeps the entries that the harness has observed as committed. -/
theorem keepsCommitted {T index : ℕ} {n : ν} {o : CommittedEntryObservation ν}
    (leads : LeadsIn (C := C) s T n) (observed : s.harness.committed.lookup index = some o) :
    keepsCommitted T (s.logView n) o = true := by
  obtain ⟨rfl, final⟩ := archived.applied.observed index o observed
  unfold Raft.keepsCommitted
  simp only [Bool.or_eq_true, decide_eq_true_eq]
  by_cases later : o.committedInTerm < T
  · obtain ⟨below, -⟩ | ⟨boundary, term⟩ | retained :=
      archived.covers_of_final final later (archived.recorded leads)
    · exact .inl (.inr below)
    · rw [if_pos boundary]
      exact .inr (decide_eq_true term.symm)
    · rw [if_neg (RaftLogView.lt_of_entryAt retained).ne']
      exact .inr (decide_eq_true retained)
  · exact .inl (.inl (not_lt.mp later))

/-- **No check of the harness is violated.** -/
theorem not_observed (violation : Error ν) : ¬ Observed C violation s := by
  cases violation with
  | observedElectionSafety T existing n =>
      rintro ⟨leads, known, other⟩
      have same := archived.applied.leaders T existing known
      rw [archived.recorded leads] at same
      exact other (Option.some.inj same).symm
  | leaderAppendOnly T n =>
      rintro ⟨role, rfl, previous, known, broken⟩
      obtain ⟨base, log, part, ends⟩ := archived.applied.logs _ n previous known
      have own := ((archived.logs.nodes n).leader role).2.1
      have kept := keepsObservedLog_of_ends ends (archived.view n) (own ▸ part) base
      rw [kept] at broken
      cases broken
  | indexError n index =>
      rintro ⟨-, above, committed, missing⟩
      have within := ((archived.logs.nodes n).committed.of_le committed).within
      rw [(archived.view n).entryAt_eq above, List.getElem?_eq_none_iff] at missing
      omega
  | leaderCompleteness index n =>
      rintro (⟨-, committed, entry, existing, found, known, other⟩ |
        ⟨T, o, key, leads, known, broken⟩)
      · exact other ((archived.applied.observed index existing known).2.unique
          (archived.final_of_committed committed found) archived.logs.sound)
      · rw [archived.keepsCommitted leads known] at broken
        cases broken
  | logMatching left right index =>
      rintro ⟨-, -, mismatch⟩
      rw [logMismatch_eq_none (archived.view left) (archived.view right)
        fun i within within' term => LogInv.take_eq (archived.logs.sound.rooted left)
          (archived.logs.sound.rooted right) within within' term] at mismatch
      cases mismatch
  | stateMachineSafety n =>
      intro failed
      have empty : SeenInv C A {} :=
        { entries := fun _ _ found => by cases found
          boundaries := fun _ _ found => by cases found }
      have passes : ∀ seen, ∀ m ∈ C.nodeIds, SeenInv C A seen →
          ∃ seen', Raft.checkApplied s seen m = .ok seen' ∧ SeenInv C A seen' :=
        fun seen m _ inv => archived.checkApplied inv m
      obtain ⟨seen, passed, -⟩ := exists_foldlM_eq_ok passes {} empty
      exact failed seen passed
  | _ => exact id

/-- No entry conflicts with the canonical one of its index. -/
theorem not_canonicalConflict (index : ℕ) (existing n : ν) :
    ¬ Guarded C (.canonicalConflict index existing n) s := by
  rintro ⟨-, -, committed, entry, canonical, found, known, other⟩
  obtain ⟨T, final⟩ := archived.applied.canonical index canonical known
  exact other (final.unique (archived.final_of_committed committed found) archived.logs.sound)

/-- **Checkpoints pass.** -/
theorem checkpoint (fixed : C.kind = .fixed) : (Raft.checkpoint C s).error? = none := by
  have checks : Checks C .protocol s (Raft.checkpoint C s) := checks_checkpoint s
  cases outcome : Raft.checkpoint C s with
  | returns _ s' => rfl
  | raises violation s' =>
      unfold Checks at checks
      rw [outcome] at checks
      obtain ⟨A', -, archived'⟩ := archived.moves fixed (U := .protocol) id checks.1.1
      exact absurd checks.2 (archived'.not_observed violation)

end Archived

end Distlab.Raft
