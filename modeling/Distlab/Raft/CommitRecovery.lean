import Distlab.Raft.Events

/-!
# The current-term barrier

`append_current_term_barrier` appends an entry to a leader's log and returns an index.
Its callers take the index for the entry's position in the whole log, but it counts
the retained entries only. So it is right exactly while the leader's log has not been
compacted.
-/

set_option autoImplicit false

namespace Distlab.Raft

open Foundations

variable {ν : Type} [LinearOrder ν] {n : ν} {command : Command ν} {s : Cluster ν}

/-! ## A log with one more entry -/

namespace RaftLogView

variable {κ : Type} (view : RaftLogView κ) (entry : LogEntry κ)

/-- The view with one more entry. -/
def append : RaftLogView κ := { view with entries := view.entries ++ [entry] }

@[simp] theorem baseIndex_append : (view.append entry).baseIndex = view.baseIndex := rfl

@[simp] theorem baseTerm_append : (view.append entry).baseTerm = view.baseTerm := rfl

@[simp] theorem lastIndex_append : (view.append entry).lastIndex = view.lastIndex + 1 := by
  simp [append, lastIndex, Nat.add_assoc]

/-- The entries before the new one stay where they are. -/
theorem entryAt_append_of_le {index : ℕ} (earlier : index ≤ view.lastIndex) :
    (view.append entry).entryAt index = view.entryAt index := by
  unfold lastIndex at earlier
  by_cases retained : view.baseIndex < index
  · have here : (view.append entry).baseIndex < index := retained
    rw [entryAt_eq_getElem retained, entryAt_eq_getElem here]
    exact List.getElem?_append_left (by rw [baseIndex_append]; omega)
  · unfold entryAt
    rw [baseIndex_append, if_pos (by omega), if_pos (by omega)]

/-- The new entry is the last one. -/
theorem entryAt_append_last : (view.append entry).entryAt (view.lastIndex + 1) = some entry := by
  have position : view.lastIndex + 1 - view.baseIndex - 1 = view.entries.length := by
    unfold lastIndex
    omega
  rw [entryAt_eq_getElem (by rw [baseIndex_append]; unfold lastIndex; omega), baseIndex_append,
    position]
  simp [append]

end RaftLogView

/-! ## The barrier -/

/-- The state after a barrier. -/
def barrierAppended (n : ν) (command : Command ν) (s : Cluster ν) : Cluster ν :=
  s.updatePersistent n fun p => { p with log := p.log.append ⟨p.currentTerm, command⟩ }

theorem logView_barrierAppended : (barrierAppended n command s).logView n =
    (s.logView n).append ⟨s.currentTerm n, command⟩ := by
  simp [barrierAppended, Cluster.updatePersistent, Cluster.logView, Cluster.currentTerm]

/-- **What the call does** for a live leader: the entry is appended, and the index is
the number of the retained entries. -/
theorem appendCurrentTerm_eq (alive : s.alive n = true) (leads : s.role n = .leader) :
    appendCurrentTerm n command s =
      .returns ((s.logView n).entries.length + 1) (barrierAppended n command s) := by
  have length : ((barrierAppended n command s).logView n).entries.length =
      (s.logView n).entries.length + 1 := by
    rw [logView_barrierAppended]
    simp [RaftLogView.append]
  unfold appendCurrentTerm
  rw [if_neg (by simp [alive]), if_neg (by simp [leads]), ← length]
  rfl

/-- The call put the barrier at an absolute index, left the log before it as it was,
and committing through the index commits every earlier entry. -/
structure AbsoluteBarrier (n : ν) (command : Command ν) (s : Cluster ν) (index : ℕ)
    (t : Cluster ν) : Prop where
  last : index = (t.logView n).lastIndex
  barrier : (t.logView n).entryAt index = some ⟨t.currentTerm n, command⟩
  baseIndex : (t.logView n).baseIndex = (s.logView n).baseIndex
  baseTerm : (t.logView n).baseTerm = (s.logView n).baseTerm
  earlier : ∀ i ≤ (s.logView n).lastIndex, (t.logView n).entryAt i = (s.logView n).entryAt i
  commits : ∃ u, advanceNodeCommit n index t = .returns () u ∧
    ∀ i ≤ (s.logView n).lastIndex, i ≤ u.commitIndex n

/-- Committing through the last index commits every entry. -/
theorem advanceNodeCommit_last : ∃ u, advanceNodeCommit n (s.logView n).lastIndex s =
    .returns () u ∧ ∀ i ≤ (s.logView n).lastIndex, i ≤ u.commitIndex n := by
  unfold advanceNodeCommit
  rw [if_neg (lt_irrefl _)]
  split
  next reached => exact ⟨s, rfl, fun i within => within.trans reached⟩
  next =>
    refine ⟨_, rfl, fun i within => ?_⟩
    simpa [Cluster.commitIndex, Cluster.updateVolatile] using within

/-- **The returned index is absolute exactly on an uncompacted log.** -/
theorem barrier_index_absolute_iff (alive : s.alive n = true) (leads : s.role n = .leader) :
    (∃ index t, appendCurrentTerm n command s = .returns index t ∧
      AbsoluteBarrier n command s index t) ↔ (s.logView n).baseIndex = 0 := by
  have view := @logView_barrierAppended ν _ n command s
  rw [appendCurrentTerm_eq alive leads]
  constructor
  · rintro ⟨index, t, returned, absolute⟩
    cases returned
    have last := absolute.last
    rw [view, RaftLogView.lastIndex_append, RaftLogView.lastIndex] at last
    omega
  · intro uncompacted
    have last : (s.logView n).entries.length + 1 =
        ((barrierAppended n command s).logView n).lastIndex := by
      rw [view, RaftLogView.lastIndex_append, RaftLogView.lastIndex, uncompacted, Nat.zero_add]
    have term : (barrierAppended n command s).currentTerm n = s.currentTerm n := by
      simp [barrierAppended, Cluster.updatePersistent, Cluster.currentTerm]
    refine ⟨_, _, rfl, last, ?_, ?_, ?_, ?_, ?_⟩
    · rw [last, term, view, RaftLogView.lastIndex_append, RaftLogView.entryAt_append_last]
    · rw [view, RaftLogView.baseIndex_append]
    · rw [view, RaftLogView.baseTerm_append]
    · intro i earlier
      rw [view, RaftLogView.entryAt_append_of_le _ _ earlier]
    · rw [last]
      obtain ⟨u, committed, reaches⟩ := advanceNodeCommit_last
        (n := n) (s := barrierAppended n command s)
      refine ⟨u, committed, fun i earlier => reaches i ?_⟩
      rw [view, RaftLogView.lastIndex_append]
      omega

/-! ## A compacted leader -/

/-- A cluster of one node. -/
def hermit : Config ℕ where
  nodeIds := [11]
  nonempty := by decide
  nodup := by decide

/-- The node leads, commits a write, and may then compact its log. -/
def hermitWrites : List (Event ℕ) :=
  [.startElection 11, .appendCurrentTerm 11 (.operation (.put "key" "value")),
    .newReplicator 11 false false, .advanceCommitIndex 0, .kvApplyCommitted 11]

def hermitCompacts : List (Event ℕ) := hermitWrites ++ [.compactSnapshot 11]

/-- A barrier of the uncompacted log. -/
theorem hermit_barrier_absolute : ∃ index t,
    appendCurrentTerm 11 .commitRecoveryBarrier (run hermit hermitWrites) = .returns index t ∧
      AbsoluteBarrier 11 .commitRecoveryBarrier (run hermit hermitWrites) index t :=
  (barrier_index_absolute_iff (by decide +kernel) (by decide +kernel)).mpr (by decide +kernel)

/-- A barrier of the compacted log: the second entry is given the index of the first. -/
theorem hermit_barrier_misplaced :
    (run hermit hermitCompacts).alive 11 = true ∧
      (run hermit hermitCompacts).role 11 = .leader ∧
      ((run hermit hermitCompacts).logView 11).lastIndex = 1 ∧
      (appendCurrentTerm 11 .commitRecoveryBarrier (run hermit hermitCompacts)).value? = some 1 ∧
      ¬ ∃ index t, appendCurrentTerm 11 .commitRecoveryBarrier (run hermit hermitCompacts) =
          .returns index t ∧
        AbsoluteBarrier 11 .commitRecoveryBarrier (run hermit hermitCompacts) index t := by
  refine ⟨by decide +kernel, by decide +kernel, by decide +kernel, by decide +kernel, ?_⟩
  rintro ⟨index, t, returned, absolute⟩
  have value : (appendCurrentTerm 11 .commitRecoveryBarrier
      (run hermit hermitCompacts)).value? = some 1 := by decide +kernel
  have last : ((appendCurrentTerm 11 .commitRecoveryBarrier
      (run hermit hermitCompacts)).state.logView 11).lastIndex = 2 := by decide +kernel
  rw [returned] at value last
  cases value
  exact absurd (absolute.last.trans last) (by decide)

end Distlab.Raft
