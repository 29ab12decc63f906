import Distlab.Raft.LogIndex

/-!
# Views of full logs

The log of a node as if nothing had been compacted. The node's view keeps its end, behind
a boundary with the term of the entry before. What the view says of an index it says of
the full log, and a merge of the view is one of the full log.
-/

set_option autoImplicit false

namespace Distlab.Raft

variable {κ : Type} {view : RaftLogView κ} {log : List (LogEntry κ)} {index term : ℕ}

/-- The term of the last entry of a log. -/
def logTerm (log : List (LogEntry κ)) : ℕ := (log.getLast?.map (·.term)).getD 0

@[simp] theorem logTerm_nil : logTerm ([] : List (LogEntry κ)) = 0 := rfl

@[simp] theorem logTerm_append_singleton (log : List (LogEntry κ)) (entry : LogEntry κ) :
    logTerm (log ++ [entry]) = entry.term := by
  simp [logTerm]

theorem take_succ_of_getElem? {entry : LogEntry κ} (found : log[index]? = some entry) :
    log.take (index + 1) = log.take index ++ [entry] := by
  rw [List.take_add_one, found]
  rfl

theorem logTerm_take {entry : LogEntry κ} (positive : 0 < index)
    (found : log[index - 1]? = some entry) : logTerm (log.take index) = entry.term := by
  obtain ⟨before, rfl⟩ : ∃ before, index = before + 1 := ⟨index - 1, by omega⟩
  rw [Nat.add_sub_cancel] at found
  rw [take_succ_of_getElem? found, logTerm_append_singleton]

namespace RaftLogView

theorem lt_of_entryAt {entry : LogEntry κ} (found : view.entryAt index = some entry) :
    view.baseIndex < index := by
  by_contra low
  rw [entryAt, if_pos (not_lt.mp low)] at found
  cases found

/-- The view has the entry at the index, or its boundary covers the index. -/
def Covers (view : RaftLogView κ) (index : ℕ) (entry : LogEntry κ) : Prop :=
  index < view.baseIndex ∧ entry.term ≤ view.baseTerm ∨
    index = view.baseIndex ∧ entry.term = view.baseTerm ∨ view.entryAt index = some entry

/-- The view keeps the end of the log. -/
structure Ends (view : RaftLogView κ) (log : List (LogEntry κ)) : Prop where
  within : view.baseIndex ≤ log.length
  boundary : view.baseTerm = logTerm (log.take view.baseIndex)
  retained : view.entries = log.drop view.baseIndex

namespace Ends

theorem initial : ({} : RaftLogView κ).Ends [] := ⟨le_rfl, rfl, rfl⟩

variable (ends : view.Ends log)
include ends

theorem lastIndex_eq : view.lastIndex = log.length := by
  have within := ends.within
  rw [lastIndex, ends.retained, List.length_drop]
  omega

theorem entryAt_eq (above : view.baseIndex < index) : view.entryAt index = log[index - 1]? := by
  have place : view.baseIndex + (index - view.baseIndex - 1) = index - 1 := by omega
  rw [entryAt_eq_getElem above, ends.retained, List.getElem?_drop, place]

theorem termAt_eq (above : view.baseIndex ≤ index) (below : index ≤ log.length) :
    view.termAt index = some (logTerm (log.take index)) := by
  unfold termAt
  split
  next boundary => rw [boundary, ends.boundary]
  next beyond =>
    obtain ⟨before, rfl⟩ : ∃ before, index = before + 1 := ⟨index - 1, by omega⟩
    have found : log[before]? = some log[before] := List.getElem?_eq_getElem (by omega)
    rw [ends.entryAt_eq (by omega), Nat.add_sub_cancel, found, take_succ_of_getElem? found,
      logTerm_append_singleton]
    rfl

theorem termAt_eq_some :
    view.termAt index = some term ↔
      view.baseIndex ≤ index ∧ index ≤ log.length ∧ logTerm (log.take index) = term := by
  constructor
  · intro known
    have range : view.baseIndex ≤ index ∧ index ≤ log.length := by
      unfold termAt at known
      split at known
      next boundary => exact ⟨boundary.ge, boundary ▸ ends.within⟩
      next beyond =>
        obtain ⟨entry, found, -⟩ := Option.map_eq_some_iff.mp known
        have above := lt_of_entryAt found
        rw [ends.entryAt_eq above] at found
        have below := (List.getElem?_eq_some_iff.mp found).1
        omega
    rw [ends.termAt_eq range.1 range.2] at known
    exact ⟨range.1, range.2, Option.some.inj known⟩
  · rintro ⟨above, below, rfl⟩
    exact ends.termAt_eq above below

theorem prefixMatches_eq_true :
    view.prefixMatches index term = true ↔
      view.baseIndex ≤ index ∧ index ≤ log.length ∧ logTerm (log.take index) = term := by
  rw [prefixMatches_iff, ends.lastIndex_eq, ends.termAt_eq_some]
  exact ⟨fun ⟨_, _, known⟩ => known, fun known => ⟨known.1, known.2.1, known⟩⟩

theorem lastTerm_eq : view.lastTerm = logTerm log := by
  have within := ends.within
  unfold lastTerm
  rw [ends.retained, ends.boundary]
  by_cases all : view.baseIndex = log.length
  · rw [all, List.drop_length, List.take_length]
    rfl
  · have nonempty : log ≠ [] := by
      rintro rfl
      exact all (Nat.le_zero.mp within)
    have last : (log.drop view.baseIndex).getLast? = some (log.getLast nonempty) := by
      rw [List.getLast?_drop, if_neg (by omega), List.getLast?_eq_some_getLast nonempty]
    rw [last]
    unfold logTerm
    rw [List.getLast?_eq_some_getLast nonempty]
    rfl

theorem suffixFrom_eq (above : view.baseIndex < index) :
    view.suffixFrom index = log.drop (index - 1) := by
  have place : view.baseIndex + (index - view.firstRetainedIndex) = index - 1 := by
    unfold firstRetainedIndex
    omega
  rw [suffixFrom, ends.retained, List.drop_drop, place]

theorem append (entry : LogEntry κ) :
    ({ view with entries := view.entries ++ [entry] } : RaftLogView κ).Ends (log ++ [entry]) where
  within := by
    rw [List.length_append]
    exact ends.within.trans (Nat.le_add_right _ _)
  boundary := by
    rw [List.take_append_of_le_length ends.within]
    exact ends.boundary
  retained := by
    rw [List.drop_append_of_le_length ends.within]
    exact congrArg (· ++ [entry]) ends.retained

theorem compactThrough (above : view.baseIndex ≤ index) (below : index ≤ log.length) :
    (view.compactThrough index).Ends log := by
  unfold RaftLogView.compactThrough
  split
  · exact ends
  · refine ⟨below, ?_, ?_⟩
    · dsimp only
      rw [ends.termAt_eq above below]
      rfl
    · have place : view.baseIndex + (index - view.baseIndex) = index := by omega
      dsimp only
      rw [ends.retained, List.drop_drop, place]

/-- The boundary of a view may lie anywhere in a log that agrees with it. -/
theorem of_take {other : List (LogEntry κ)} {merged : List (LogEntry κ)}
    (within : view.baseIndex ≤ other.length)
    (same : other.take view.baseIndex = log.take view.baseIndex)
    (retained : merged = other.drop view.baseIndex) :
    ({ view with entries := merged } : RaftLogView κ).Ends other :=
  ⟨within, by rw [same]; exact ends.boundary, retained⟩

end Ends

variable [DecidableEq κ]

/-- A merge keeps what begins with the incoming entries, and otherwise ends with them. -/
theorem mergeLoop_choice {retained incoming merged : List (LogEntry κ)}
    (merges : mergeLoop retained incoming = some merged) :
    incoming <+: retained ∧ merged = retained ∨ ¬ incoming <+: retained ∧ merged = incoming := by
  induction retained generalizing incoming merged with
  | nil =>
      cases merges
      by_cases empty : incoming = []
      · subst empty
        exact .inl ⟨List.nil_prefix, rfl⟩
      · exact .inr ⟨fun part => empty (List.prefix_nil.mp part), rfl⟩
  | cons existing retained ih =>
      cases incoming with
      | nil =>
          cases merges
          exact .inl ⟨List.nil_prefix, rfl⟩
      | cons candidate incoming =>
          rw [mergeLoop] at merges
          split at merges
          next different =>
            cases merges
            refine .inr ⟨fun part => different ?_, rfl⟩
            rw [(List.cons_prefix_cons.mp part).1]
          split at merges
          · cases merges
          next same =>
            rw [not_not] at same
            subst same
            obtain ⟨rest, looped, rfl⟩ := Option.map_eq_some_iff.mp merges
            rw [List.cons_prefix_cons]
            obtain ⟨part, rfl⟩ | ⟨missing, rfl⟩ := ih looped
            · exact .inl ⟨⟨rfl, part⟩, rfl⟩
            · exact .inr ⟨fun part => missing part.2, rfl⟩

/-- **A merge of the view is one of the full log.** It has the incoming entries already
and stays, or it ends with them. -/
theorem Ends.merge {incoming merged : List (LogEntry κ)} (ends : view.Ends log)
    (above : view.baseIndex ≤ index) (below : index ≤ log.length)
    (merges : view.mergeAfter index incoming = some merged) :
    log.take index ++ incoming <+: log ∧
        ({ view with entries := merged } : RaftLogView κ).Ends log ∨
      ¬ log.take index ++ incoming <+: log ∧
        ({ view with entries := merged } : RaftLogView κ).Ends (log.take index ++ incoming) := by
  obtain ⟨rest, looped, rfl⟩ := Option.map_eq_some_iff.mp merges
  have place : view.baseIndex + (index - view.baseIndex) = index := by omega
  have reach : (log.take index).length = index := List.length_take_of_le below
  rw [ends.retained, List.drop_drop, place] at looped
  have whole : ∀ rest, view.entries.take (index - view.baseIndex) ++ rest =
      (log.take index ++ rest).drop view.baseIndex := by
    intro rest
    rw [List.drop_append_of_le_length (by omega), ends.retained, List.drop_take]
  have split : log.take index ++ incoming <+: log ↔ incoming <+: log.drop index := by
    conv_lhs => rw [← List.take_append_drop index log]
    rw [List.take_append_of_le_length (by omega), List.take_of_length_le (by omega),
      List.prefix_append_right_inj]
  rw [split]
  refine (mergeLoop_choice looped).imp ?_ ?_
  · rintro ⟨part, rfl⟩
    refine ⟨part, ends.of_take ends.within rfl ?_⟩
    rw [whole, List.take_append_drop]
  · rintro ⟨missing, rfl⟩
    refine ⟨missing, ends.of_take ?_ ?_ (whole rest)⟩
    · rw [List.length_append]
      omega
    · rw [List.take_append_of_le_length (by omega), List.take_take, min_eq_left above]

end RaftLogView

end Distlab.Raft
