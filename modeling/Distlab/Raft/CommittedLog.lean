import Distlab.Raft.LeaderCompleteness
import Distlab.Raft.ExactApplication

/-!
# The committed log

All that is decided in an archive is part of one log, and an archive that the first one
extends has decided no more. So a node that has the logs of an archive commits and applies
entries of this log. The applier goes through what the node has committed, and a call of
the KV store that raises leaves the cluster as it was.
-/

set_option autoImplicit false

namespace Distlab.Raft

open Foundations LeaderLogs Deduplication

variable {ν : Type} [LinearOrder ν] {C : Config ν} {s t : Cluster ν} {A A' : Logs ν}
  {log : List (LogEntry (Command ν))} {n : ν}

/-! ## The log -/

/-- All that is decided is part of the log. -/
def Decides (C : Config ν) (A : Logs ν) (log : List (LogEntry (Command ν))) : Prop :=
  ∀ T other, A.Safe (rules C) T other → other <+: log

/-- A cluster has led finitely many terms, so what it has decided is part of one log. -/
theorem LogInv.exists_decides (inv : LogInv C s A) : ∃ log, Decides C A log := by
  have bounded : ∀ T log, A.Safe (rules C) T log → log.length ≤
      s.leadersByTerm.keys.toFinset.sup fun T => (A.leaderLog T).length := by
    intro T log safe
    obtain rfl | ⟨t, -, index, chosen, part⟩ := safe
    · exact Nat.zero_le _
    · have led := (inv.elected t).mp (inv.sound.isSome_elected_of_chosen chosen)
      have key : t ∈ s.leadersByTerm.keys.toFinset :=
        List.mem_toFinset.mpr (AList.mem_keys.mpr (AList.lookup_isSome.mp led))
      exact ((part.trans (List.take_prefix index _)).length_le).trans
        (Finset.le_sup (f := fun T => (A.leaderLog T).length) key)
  obtain ⟨longest, -, -, covers⟩ := inv.sound.exists_longest_safe bounded
  exact ⟨longest, covers⟩

theorem Decides.earlier (decides : Decides C A' log) (grows : A.Extends A')
    (sound : A.Sound (rules C)) : Decides C A log :=
  fun T other safe => decides T other (grows.safe sound le_rfl safe)

/-- What is decided of a log is the beginning of the committed log. -/
theorem Decides.take_eq (decides : Decides C A log) {T index : ℕ}
    {other : List (LogEntry (Command ν))} (decided : Decided C A T other index) :
    log.take index = other.take index ∧ index ≤ log.length := by
  have part := decides T _ decided.safe
  have length : (other.take index).length = index := List.length_take_of_le decided.within
  rw [List.prefix_iff_eq_take, length] at part
  refine ⟨part.symm, ?_⟩
  rw [part, List.length_take] at length
  omega

theorem Decides.getElem? (decides : Decides C A log) {T index : ℕ}
    {entry : LogEntry (Command ν)} (final : Final C A T index entry) :
    log[index - 1]? = some entry := by
  obtain ⟨other, decided, positive, found⟩ := final
  have inside : index - 1 < index := by omega
  rw [← List.getElem?_take_of_lt inside, (decides.take_eq decided).1,
    List.getElem?_take_of_lt inside]
  exact found

/-- A node commits entries of the committed log. -/
theorem Archived.commitsTo (archived : Archived C s A) (decides : Decides C A log) (n : ν) :
    CommitsTo log n s :=
  fun _ _ committed found => decides.getElem? (archived.final_of_committed committed found)

/-! ## Applying what is committed -/

omit [LinearOrder ν] in
theorem suffixFrom_eq_cons {view : RaftLogView (Command ν)} {index : ℕ}
    {entry : LogEntry (Command ν)} (found : view.entryAt index = some entry) :
    view.suffixFrom index = entry :: view.suffixFrom (index + 1) := by
  have above := RaftLogView.lt_of_entryAt found
  rw [RaftLogView.entryAt_eq_getElem above] at found
  obtain ⟨inside, here⟩ := List.getElem?_eq_some_iff.mp found
  have place : index - view.firstRetainedIndex = index - view.baseIndex - 1 := by
    unfold RaftLogView.firstRetainedIndex
    omega
  have next : index + 1 - view.firstRetainedIndex = index - view.baseIndex - 1 + 1 := by
    unfold RaftLogView.firstRetainedIndex
    omega
  rw [RaftLogView.suffixFrom, RaftLogView.suffixFrom, place, next,
    List.drop_eq_getElem_cons inside, here]

/-- **The apply loop goes through** what the node has committed. -/
theorem Archived.exists_applyEach (archived : Archived C s A) (fixed : C.kind = .fixed)
    (member : n ∈ C.nodeIds) {count : ℕ}
    (within : s.applier.lastApplied n + count ≤ s.commitIndex n) :
    ∃ records t, applyEach n (List.range' (s.applier.lastApplied n + 1) count) s =
        .returns records t ∧ t.kv = s.kv ∧ records.map (·.entry) =
          ((s.logView n).suffixFrom (s.applier.lastApplied n + 1)).take count := by
  induction count generalizing s A with
  | zero => exact ⟨[], s, rfl, rfl, by simp⟩
  | succ count ih =>
      have node := archived.logs.nodes n
      have view : (s.logView n).Ends (A.log n) := node.view
      have above : (s.logView n).baseIndex < s.applier.lastApplied n + 1 :=
        Nat.lt_succ_of_le (archived.applied.nodes n).behind
      have reach := (node.committed.of_le within).within
      obtain ⟨entry, found⟩ : ∃ entry,
          (s.logView n).entryAt (s.applier.lastApplied n + 1) = some entry := by
        rw [view.entryAt_eq above]
        exact ⟨_, List.getElem?_eq_getElem (by omega)⟩
      rw [List.range'_succ]
      unfold applyEach
      rw [found]
      dsimp only
      cases recorded : recordCanonical ⟨n, s.applier.lastApplied n + 1, entry⟩ s.applier with
      | error violation =>
          obtain ⟨canonical, known, other, rfl⟩ := recordCanonical_error recorded
          exact absurd ⟨member, rfl, by omega, entry, canonical, found, known, other⟩
            (archived.not_canonicalConflict _ canonical.nodeId n)
      | ok applier =>
          dsimp only
          have move : Move C .protocol s (writeApplied n (s.applier.lastApplied n + 1) entry
              { s with applier := applier }) :=
            .apply n entry applier member (by omega) found recorded
          obtain ⟨A', -, archived'⟩ := archived.move fixed id move
          have last : (writeApplied n (s.applier.lastApplied n + 1) entry
              { s with applier := applier }).applier.lastApplied n =
                s.applier.lastApplied n + 1 := Function.update_self ..
          have view : (writeApplied n (s.applier.lastApplied n + 1) entry
              { s with applier := applier }).logView n = s.logView n := by
            simp [writeApplied, Cluster.logView, Cluster.updatePersistent]
          have commit : (writeApplied n (s.applier.lastApplied n + 1) entry
              { s with applier := applier }).commitIndex n = s.commitIndex n := rfl
          have kv : (writeApplied n (s.applier.lastApplied n + 1) entry
              { s with applier := applier }).kv = s.kv := rfl
          generalize writeApplied n (s.applier.lastApplied n + 1) entry
            { s with applier := applier } = u at archived' last view commit kv ⊢
          obtain ⟨records, t, looped, same, entries⟩ := ih archived' (by omega)
          rw [last] at looped entries
          rw [looped]
          refine ⟨_, t, rfl, same.trans kv, ?_⟩
          rw [List.map_cons, entries, view, suffixFrom_eq_cons found, List.take_succ_cons]

theorem lastApplied_applyEach {start count : ℕ} {records : List (AppliedEntry ν)}
    (behind : s.applier.lastApplied n + 1 = start)
    (returned : applyEach n (List.range' start count) s = .returns records t) :
    t.applier.lastApplied n + 1 = start + count := by
  induction count generalizing s start records with
  | zero =>
      cases returned
      exact behind
  | succ count ih =>
      rw [List.range'_succ] at returned
      unfold applyEach at returned
      split at returned
      · cases returned
      split at returned
      · cases returned
      next entry _ _ applier _ =>
        obtain ⟨rest, u, looped, last⟩ := Outcome.bind_eq_returns.mp returned
        cases last
        have written : (writeApplied n start entry
            { s with applier := applier }).applier.lastApplied
            n + 1 = start + 1 := congrArg (· + 1) (Function.update_self ..)
        have reached := ih written looped
        omega

/-- A call of the KV store that returns has applied what the node has committed. -/
theorem commitIndex_le_of_kvApplyCommitted {records : List (AppliedEntry ν)}
    (returned : kvApplyCommitted n s = .returns records t) :
    s.commitIndex n ≤ t.applier.lastApplied n := by
  unfold kvApplyCommitted at returned
  dsimp only at returned
  split at returned
  · cases returned
  split at returned
  · cases returned
  split at returned
  · cases returned
  obtain ⟨applied, u, appliedAll, rest⟩ := Outcome.bind_eq_returns.mp returned
  obtain ⟨_, v, executed, last⟩ := Outcome.bind_eq_returns.mp rest
  cases last
  obtain ⟨image, rfl, -⟩ := applyCommands_returns executed
  unfold applierApplyCommitted at appliedAll
  dsimp only at appliedAll
  split at appliedAll
  next caught =>
    cases appliedAll
    exact caught
  next behind =>
  split at appliedAll
  · cases appliedAll
  split at appliedAll
  · cases appliedAll
  have reached : u.applier.lastApplied n + 1 = _ := lastApplied_applyEach rfl appliedAll
  change s.commitIndex n ≤ u.applier.lastApplied n
  omega

/-- **A call of the KV store returns or changes nothing.** -/
theorem Archived.kvApplyCommitted_cases (archived : Archived C s A) (fixed : C.kind = .fixed)
    (member : n ∈ C.nodeIds) :
    (∃ records t, kvApplyCommitted n s = .returns records t) ∨
      ∃ violation, kvApplyCommitted n s = .raises violation s := by
  unfold kvApplyCommitted
  dsimp only
  split
  · exact .inr ⟨_, rfl⟩
  split
  · exact .inr ⟨_, rfl⟩
  next valid =>
  split
  · exact .inr ⟨_, rfl⟩
  next agrees =>
  rw [not_not] at valid agrees
  by_cases behind : s.commitIndex n ≤ s.applier.lastApplied n
  · have nothing : applierApplyCommitted n s = .returns [] s := if_pos behind
    rw [nothing]
    exact .inl ⟨_, _, rfl⟩
  · have behind' := not_le.mp behind
    have node := archived.logs.nodes n
    have ends : (s.logView n).Ends (A.log n) := node.view
    have reach : ¬ (s.logView n).lastIndex < s.commitIndex n := by
      rw [ends.lastIndex_eq]
      exact not_lt.mpr node.committed.within
    have applied : ¬ s.applier.lastApplied n < (s.logView n).baseIndex :=
      not_lt.mpr (archived.applied.nodes n).behind
    have within : s.applier.lastApplied n + (s.commitIndex n - s.applier.lastApplied n) ≤
        s.commitIndex n := by omega
    obtain ⟨records, t, looped, kv, entries⟩ := archived.exists_applyEach fixed member within
    have loops : applierApplyCommitted n s = .returns records t := by
      unfold applierApplyCommitted
      dsimp only
      rw [if_neg behind, if_neg reach, if_neg applied]
      exact looped
    have pending : pendingEntries n s = records.map (·.entry) := by
      unfold pendingEntries
      dsimp only
      have count : s.commitIndex n + 1 - (s.applier.lastApplied n + 1) =
        s.commitIndex n - s.applier.lastApplied n := by omega
      rw [if_pos (by omega), count, entries]
    rw [pending] at valid agrees
    have known : ∀ key operation, (s.kv n).requests.lookup key = some operation →
        (s.kv n).requests.lookup key = some operation := fun _ _ => id
    obtain ⟨final, executed⟩ :=
      exists_foldlM_applyCommand (n := n) valid (requestsAgree_iff.mp agrees) known
    rw [loops, Outcome.bind_returns, applyCommands_of_foldlM (by rw [kv]; exact executed)]
    exact .inl ⟨_, _, rfl⟩

end Distlab.Raft
