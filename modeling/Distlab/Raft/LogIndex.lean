import Mathlib.Data.Fintype.Basic
import Mathlib.Data.List.MinMax

/-!
# Log views

A node keeps a suffix of its log behind a compacted boundary. `RaftLogView`
addresses the suffix by absolute log indexes; the boundary carries the term of
the last compacted entry.
-/

set_option autoImplicit false

namespace Distlab.Raft

/-- `LogEntry`. -/
structure LogEntry (κ : Type) where
  term : ℕ
  command : κ
  deriving DecidableEq

/-- `RaftLogView`. -/
structure RaftLogView (κ : Type) where
  baseIndex : ℕ := 0
  baseTerm : ℕ := 0
  entries : List (LogEntry κ) := []
  deriving DecidableEq

namespace RaftLogView

variable {κ : Type}

/-- `first_retained_index`. -/
def firstRetainedIndex (view : RaftLogView κ) : ℕ := view.baseIndex + 1

/-- `last_index`. -/
def lastIndex (view : RaftLogView κ) : ℕ := view.baseIndex + view.entries.length

/-- `last_term`. -/
def lastTerm (view : RaftLogView κ) : ℕ := (view.entries.getLast?.map (·.term)).getD view.baseTerm

/-- `entry_at`; `none` is the `IndexError`. -/
def entryAt (view : RaftLogView κ) (index : ℕ) : Option (LogEntry κ) :=
  if index ≤ view.baseIndex then none else view.entries[index - view.baseIndex - 1]?

/-- `term_at`; `none` is the `IndexError`. -/
def termAt (view : RaftLogView κ) (index : ℕ) : Option ℕ :=
  if index = view.baseIndex then some view.baseTerm else (view.entryAt index).map (·.term)

/-- `suffix_from`, for an index that is retained or the append position. -/
def suffixFrom (view : RaftLogView κ) (index : ℕ) : List (LogEntry κ) :=
  view.entries.drop (index - view.firstRetainedIndex)

/-- `compact_through`, for an index between the boundary and the last index. -/
def compactThrough (view : RaftLogView κ) (index : ℕ) : RaftLogView κ :=
  if index = view.baseIndex then view
  else
    { baseIndex := index
      baseTerm := (view.termAt index).getD 0
      entries := view.entries.drop (index - view.baseIndex) }

/-- `prefix_matches`. -/
def prefixMatches (view : RaftLogView κ) (index term : ℕ) : Bool :=
  if index < view.baseIndex ∨ view.lastIndex < index then false
  else view.termAt index = some term

variable [DecidableEq κ]

/-- The loop of `merge_after`, over the retained entries from the insertion
point on and the incoming ones; `none` is the `LogMatchingViolation`. -/
def mergeLoop : List (LogEntry κ) → List (LogEntry κ) → Option (List (LogEntry κ))
  | [], incoming => some incoming
  | retained, [] => some retained
  | existing :: retained, candidate :: incoming =>
      if existing.term ≠ candidate.term then some (candidate :: incoming)
      else if existing ≠ candidate then none
      else (mergeLoop retained incoming).map (existing :: ·)

/-- `merge_after`, for a previous index within the retained range. -/
def mergeAfter (view : RaftLogView κ) (prevIndex : ℕ) (incoming : List (LogEntry κ)) :
    Option (List (LogEntry κ)) :=
  (mergeLoop (view.entries.drop (prevIndex - view.baseIndex)) incoming).map
    (view.entries.take (prevIndex - view.baseIndex) ++ ·)

omit [DecidableEq κ] in
/-- A view that matches an entry reaches it. -/
theorem le_of_prefixMatches {view : RaftLogView κ} {index term : ℕ}
    (matched : view.prefixMatches index term = true) :
    view.baseIndex ≤ index ∧ index ≤ view.lastIndex ∧ view.termAt index = some term := by
  unfold prefixMatches at matched
  split at matched
  · cases matched
  · next here =>
    exact ⟨by omega, by omega, of_decide_eq_true matched⟩

omit [DecidableEq κ] in
theorem prefixMatches_iff {view : RaftLogView κ} {index term : ℕ} :
    view.prefixMatches index term = true ↔
      view.baseIndex ≤ index ∧ index ≤ view.lastIndex ∧ view.termAt index = some term := by
  refine ⟨le_of_prefixMatches, fun ⟨above, below, same⟩ => ?_⟩
  unfold prefixMatches
  rw [if_neg (by omega)]
  exact decide_eq_true same

omit [DecidableEq κ] in
/-- Only an index that the view has is compacted. -/
theorem baseIndex_le_compactThrough {view : RaftLogView κ} {index term : ℕ}
    (known : view.termAt index = some term) :
    view.baseIndex ≤ (view.compactThrough index).baseIndex := by
  unfold compactThrough
  split
  · exact le_rfl
  · next beyond =>
    unfold termAt entryAt at known
    rw [if_neg beyond] at known
    split at known
    · cases known
    · exact (not_le.mp ‹_›).le

omit [DecidableEq κ] in
@[simp] theorem baseIndex_compactThrough (view : RaftLogView κ) (index : ℕ) :
    (view.compactThrough index).baseIndex = index := by
  unfold compactThrough
  split
  next boundary => exact boundary.symm
  next => rfl

omit [DecidableEq κ] in
/-- A compacted view keeps the term of its new boundary. -/
theorem termAt_compactThrough {view : RaftLogView κ} {index term : ℕ}
    (known : view.termAt index = some term) :
    (view.compactThrough index).termAt index = some term := by
  unfold compactThrough
  split
  · exact known
  · rw [known]
    simp [termAt]

/-- The merged entries begin with the incoming ones. -/
theorem mergeLoop_prefix {retained incoming merged : List (LogEntry κ)}
    (merges : mergeLoop retained incoming = some merged) : incoming <+: merged := by
  induction retained generalizing incoming merged with
  | nil =>
      obtain rfl := Option.some.inj merges
      exact List.prefix_rfl
  | cons existing retained ih =>
      cases incoming with
      | nil => exact List.nil_prefix
      | cons candidate incoming =>
          unfold mergeLoop at merges
          split at merges
          · obtain rfl := Option.some.inj merges
            exact List.prefix_rfl
          split at merges
          · cases merges
          next same =>
            rw [not_not] at same
            subst same
            obtain ⟨rest, merged, rfl⟩ := Option.map_eq_some_iff.mp merges
            exact List.cons_prefix_cons.mpr ⟨rfl, ih merged⟩

omit [DecidableEq κ] in
theorem entryAt_eq_getElem {view : RaftLogView κ} {index : ℕ} (retained : view.baseIndex < index) :
    view.entryAt index = view.entries[index - view.baseIndex - 1]? := by
  unfold entryAt
  rw [if_neg (by omega)]

/-- After a merge the view matches the previous entry and has the incoming ones. -/
theorem mergeAfter_agrees {view : RaftLogView κ} {prevIndex prevTerm : ℕ}
    {incoming merged : List (LogEntry κ)}
    (matched : view.prefixMatches prevIndex prevTerm = true)
    (merges : view.mergeAfter prevIndex incoming = some merged) :
    ({ view with entries := merged } : RaftLogView κ).prefixMatches prevIndex prevTerm = true ∧
      ∀ k entry, incoming[k]? = some entry →
        ({ view with entries := merged } : RaftLogView κ).entryAt (prevIndex + 1 + k) =
          some entry := by
  obtain ⟨above, below, term⟩ := le_of_prefixMatches matched
  obtain ⟨rest, looped, rfl⟩ := Option.map_eq_some_iff.mp merges
  obtain ⟨tail, rfl⟩ := mergeLoop_prefix looped
  have length : (view.entries.take (prevIndex - view.baseIndex)).length =
      prevIndex - view.baseIndex := by
    unfold lastIndex at below
    rw [List.length_take]
    omega
  constructor
  · refine prefixMatches_iff.mpr ⟨above, ?_, ?_⟩
    · simp only [lastIndex, List.length_append, length]
      omega
    · unfold termAt at term ⊢
      by_cases boundary : prevIndex = view.baseIndex
      · simpa [boundary] using term
      · simp only [if_neg boundary] at term ⊢
        rw [entryAt_eq_getElem (by omega)] at term
        rw [entryAt_eq_getElem (by dsimp only; omega), ← term]
        dsimp only
        rw [List.getElem?_append_left (by omega), List.getElem?_take_of_lt (by omega)]
  · intro k entry found
    have index : prevIndex + 1 + k - view.baseIndex - 1 = prevIndex - view.baseIndex + k := by
      omega
    rw [entryAt_eq_getElem (by dsimp only; omega)]
    dsimp only
    rw [index, List.getElem?_append_right (by omega), length, Nat.add_sub_cancel_left,
      List.getElem?_append_left (List.getElem?_eq_some_iff.mp found).1]
    exact found

end RaftLogView

end Distlab.Raft
