import Distlab.Foundations.Outcome
import Distlab.Raft.LogIndex

/-!
# Compacted views

The methods of `RaftLogView` with their checks and what they raise. At every index from a
compaction point on, the compacted view answers as the view before it, the compaction
point itself included: it has a term there but no entry.
-/

set_option autoImplicit false

namespace Distlab.Raft

open Foundations

/-- What a method of `RaftLogView` raises: an `IndexError` or a `ValueError`, and the
`LogMatchingViolation` of `merge_after`. -/
inductive ViewError where
  /-- "log index ... is at or before compacted boundary ..." -/
  | compacted (index boundary : ℕ)
  /-- "log index ... exceeds last index ..." -/
  | beyondLast (index last : ℕ)
  /-- "log index ... precedes first retained index ..." -/
  | beforeFirst (index first : ℕ)
  /-- "log index ... exceeds append position ..." -/
  | beyondAppend (index position : ℕ)
  /-- "compaction index ... precedes current boundary ..." -/
  | compactionBefore (index boundary : ℕ)
  /-- "compaction index ... exceeds last index ..." -/
  | compactionBeyond (index last : ℕ)
  /-- "previous log index ... is outside retained range [..., ...]" -/
  | outsideRetained (index boundary last : ℕ)
  /-- "log term must be non-negative" -/
  | negativeTerm
  /-- "same index/term identifies different entries at index ..., term ..." -/
  | logMatching (index term : ℕ)
  deriving DecidableEq

namespace ViewCalls

variable {κ : Type}

/-- `uncompacted`. -/
def uncompacted (entries : List (LogEntry κ)) : RaftLogView κ := ⟨0, 0, entries⟩

/-- `entry_at`. -/
def entryAt (view : RaftLogView κ) (index : ℕ) : Except ViewError (LogEntry κ) :=
  if index ≤ view.baseIndex then .error (.compacted index view.baseIndex)
  else
    match view.entries[index - view.baseIndex - 1]? with
    | none => .error (.beyondLast index view.lastIndex)
    | some entry => .ok entry

/-- `term_at`. -/
def termAt (view : RaftLogView κ) (index : ℕ) : Except ViewError ℕ :=
  if index = view.baseIndex then .ok view.baseTerm
  else (entryAt view index).map (·.term)

/-- `suffix_from`. -/
def suffixFrom (view : RaftLogView κ) (index : ℕ) : Except ViewError (List (LogEntry κ)) :=
  if index < view.firstRetainedIndex then .error (.beforeFirst index view.firstRetainedIndex)
  else if view.lastIndex + 1 < index then .error (.beyondAppend index (view.lastIndex + 1))
  else .ok (view.entries.drop (index - view.firstRetainedIndex))

/-- `compact_through`. -/
def compactThrough (view : RaftLogView κ) (index : ℕ) : Except ViewError (RaftLogView κ) :=
  if index < view.baseIndex then .error (.compactionBefore index view.baseIndex)
  else if view.lastIndex < index then .error (.compactionBeyond index view.lastIndex)
  else if index = view.baseIndex then .ok view
  else
    (termAt view index).map fun boundaryTerm =>
      ⟨index, boundaryTerm, view.entries.drop (index - view.baseIndex)⟩

/-- `prefix_matches`. -/
def prefixMatches (view : RaftLogView κ) (index : ℕ) (term : ℤ) : Except ViewError Bool :=
  if term < 0 then .error .negativeTerm
  else if index < view.baseIndex ∨ view.lastIndex < index then .ok false
  else (termAt view index).map fun known : ℕ => decide ((known : ℤ) = term)

variable [DecidableEq κ]

/-- The loop of `merge_after`: what it leaves from the index on, of the entries that are
retained there and the incoming ones. -/
def mergeFrom : ℕ → List (LogEntry κ) → List (LogEntry κ) → Except ViewError (List (LogEntry κ))
  | _, [], incoming => .ok incoming
  | _, retained, [] => .ok retained
  | index, existing :: retained, candidate :: incoming =>
      if existing.term ≠ candidate.term then .ok (candidate :: incoming)
      else if existing ≠ candidate then .error (.logMatching index existing.term)
      else (mergeFrom (index + 1) retained incoming).map (existing :: ·)

/-- `merge_after`. -/
def mergeAfter (view : RaftLogView κ) (prevIndex : ℕ) (incoming : List (LogEntry κ)) :
    Except ViewError (List (LogEntry κ)) :=
  if prevIndex < view.baseIndex ∨ view.lastIndex < prevIndex then
    .error (.outsideRetained prevIndex view.baseIndex view.lastIndex)
  else if incoming = [] then .ok view.entries
  else
    let insertAt := prevIndex - view.baseIndex
    (mergeFrom (view.baseIndex + insertAt + 1) (view.entries.drop insertAt) incoming).map
      (view.entries.take insertAt ++ ·)

/-- The view whose entries are replaced by the merged ones, as a node stores them. -/
def merged (view : RaftLogView κ) (prevIndex : ℕ) (incoming : List (LogEntry κ)) :
    Except ViewError (RaftLogView κ) :=
  (mergeAfter view prevIndex incoming).map fun log => { view with entries := log }

/-! ## The methods without their errors -/

section Unchecked

variable {view : RaftLogView κ} {index : ℕ}

omit [DecidableEq κ] in
theorem entryAt_eq_ok {entry : LogEntry κ} :
    entryAt view index = .ok entry ↔ view.entryAt index = some entry := by
  unfold entryAt RaftLogView.entryAt
  split
  · simp
  · cases view.entries[index - view.baseIndex - 1]? <;> simp

/-- The merge of an index in range is the one of `RaftLogView`. -/
theorem mergeFrom_eq_ok {retained incoming log : List (LogEntry κ)} :
    mergeFrom index retained incoming = .ok log ↔
      RaftLogView.mergeLoop retained incoming = some log := by
  induction retained generalizing index incoming log with
  | nil => simp [mergeFrom, RaftLogView.mergeLoop]
  | cons existing retained ih =>
      cases incoming with
      | nil => simp [mergeFrom, RaftLogView.mergeLoop]
      | cons candidate incoming =>
          rw [mergeFrom, RaftLogView.mergeLoop]
          split
          · simp
          · split
            · simp
            · rw [Option.map_eq_some_iff]
              simp only [← @ih (index + 1)]
              cases mergeFrom (index + 1) retained incoming <;> simp [Except.map]

theorem mergeLoop_nil (retained : List (LogEntry κ)) :
    RaftLogView.mergeLoop retained [] = some retained := by
  cases retained <;> rfl

/-- A merge after an index that is in range. -/
theorem mergeAfter_of_within (above : view.baseIndex ≤ index) (within : index ≤ view.lastIndex)
    (incoming : List (LogEntry κ)) :
    mergeAfter view index incoming =
      if incoming = [] then .ok view.entries
      else
        (mergeFrom (view.baseIndex + (index - view.baseIndex) + 1)
          (view.entries.drop (index - view.baseIndex)) incoming).map
          (view.entries.take (index - view.baseIndex) ++ ·) := by
  unfold mergeAfter
  rw [if_neg (by omega)]

theorem mergeAfter_eq_ok {incoming log : List (LogEntry κ)}
    (above : view.baseIndex ≤ index) (below : index ≤ view.lastIndex) :
    mergeAfter view index incoming = .ok log ↔ view.mergeAfter index incoming = some log := by
  rw [mergeAfter_of_within above below, RaftLogView.mergeAfter]
  split
  next none =>
    rw [none, mergeLoop_nil, Option.map_some, List.take_append_drop]
    simp
  next =>
    rw [Option.map_eq_some_iff]
    simp only [← @mergeFrom_eq_ok _ _ (view.baseIndex + (index - view.baseIndex) + 1)]
    cases mergeFrom (view.baseIndex + (index - view.baseIndex) + 1)
      (view.entries.drop (index - view.baseIndex)) incoming <;> simp [Except.map]

end Unchecked

/-! ## One compaction -/

section Compaction

variable {view : RaftLogView κ} {point index term : ℕ}

omit [DecidableEq κ] in
/-- Every index from the boundary to the last one has a term. -/
theorem exists_termAt (above : view.baseIndex ≤ index) (below : index ≤ view.lastIndex) :
    ∃ term, termAt view index = .ok term := by
  unfold termAt
  split
  · exact ⟨_, rfl⟩
  next inside =>
    have within : index - view.baseIndex - 1 < view.entries.length := by
      unfold RaftLogView.lastIndex at below
      omega
    unfold entryAt
    rw [if_neg (by omega), List.getElem?_eq_getElem within]
    exact ⟨_, rfl⟩

omit [DecidableEq κ] in
/-- What a compaction within the view leaves, the compaction at its boundary included. -/
theorem compactThrough_eq (above : view.baseIndex ≤ point) (below : point ≤ view.lastIndex)
    (known : termAt view point = .ok term) :
    compactThrough view point =
      .ok ⟨point, term, view.entries.drop (point - view.baseIndex)⟩ := by
  unfold compactThrough
  rw [if_neg (by omega), if_neg (by omega)]
  split
  next boundary =>
    subst boundary
    unfold termAt at known
    rw [if_pos rfl] at known
    cases known
    rw [Nat.sub_self, List.drop_zero]
  next =>
    rw [known]
    rfl

omit [DecidableEq κ] in
theorem compactThrough_beyond (above : view.baseIndex ≤ index) (beyond : view.lastIndex < index) :
    compactThrough view index = .error (.compactionBeyond index view.lastIndex) := by
  unfold compactThrough
  rw [if_neg (not_lt.mpr above), if_pos beyond]

omit [DecidableEq κ] in
theorem lastIndex_compacted (above : view.baseIndex ≤ point) (below : point ≤ view.lastIndex) :
    (⟨point, term, view.entries.drop (point - view.baseIndex)⟩ : RaftLogView κ).lastIndex =
      view.lastIndex := by
  unfold RaftLogView.lastIndex at below ⊢
  simp only [List.length_drop]
  omega

omit [DecidableEq κ] in
theorem entryAt_compacted (above : view.baseIndex ≤ point) (below : point ≤ view.lastIndex)
    (later : point < index) :
    entryAt ⟨point, term, view.entries.drop (point - view.baseIndex)⟩ index =
      entryAt view index := by
  have offset : point - view.baseIndex + (index - point - 1) = index - view.baseIndex - 1 := by
    omega
  unfold entryAt
  rw [if_neg (not_le.mpr later), if_neg (by omega), lastIndex_compacted above below,
    List.getElem?_drop, offset]

omit [DecidableEq κ] in
theorem termAt_compacted (above : view.baseIndex ≤ point) (below : point ≤ view.lastIndex)
    (known : termAt view point = .ok term) (later : point ≤ index) :
    termAt ⟨point, term, view.entries.drop (point - view.baseIndex)⟩ index =
      termAt view index := by
  rcases later.eq_or_lt with rfl | later
  · rw [known]
    exact if_pos rfl
  · unfold termAt
    rw [if_neg (by dsimp only; omega), if_neg (by omega), entryAt_compacted above below later]

omit [DecidableEq κ] in
theorem termAt_lastIndex (view : RaftLogView κ) :
    termAt view view.lastIndex = .ok view.lastTerm := by
  unfold termAt RaftLogView.lastTerm RaftLogView.lastIndex
  rcases List.eq_nil_or_concat view.entries with none | ⟨before, entry, split⟩
  · rw [none]
    exact if_pos rfl
  · rw [split, List.concat_eq_append, if_neg (by simp), entryAt, if_neg (by simp), split]
    simp [Except.map]

omit [DecidableEq κ] in
theorem lastTerm_compacted (above : view.baseIndex ≤ point) (below : point ≤ view.lastIndex)
    (known : termAt view point = .ok term) :
    (⟨point, term, view.entries.drop (point - view.baseIndex)⟩ : RaftLogView κ).lastTerm =
      view.lastTerm := by
  have last := termAt_lastIndex
    (⟨point, term, view.entries.drop (point - view.baseIndex)⟩ : RaftLogView κ)
  rw [lastIndex_compacted above below, termAt_compacted above below known below,
    termAt_lastIndex] at last
  exact (Except.ok.inj last).symm

omit [DecidableEq κ] in
theorem suffixFrom_compacted (above : view.baseIndex ≤ point) (below : point ≤ view.lastIndex)
    (later : point < index) :
    suffixFrom ⟨point, term, view.entries.drop (point - view.baseIndex)⟩ index =
      suffixFrom view index := by
  have offset : point - view.baseIndex + (index - (point + 1)) =
      index - (view.baseIndex + 1) := by
    omega
  unfold suffixFrom RaftLogView.firstRetainedIndex
  rw [lastIndex_compacted above below, if_neg (not_lt.mpr later),
    if_neg (c := index < view.baseIndex + 1) (by omega), List.drop_drop, offset]

omit [DecidableEq κ] in
theorem prefixMatches_compacted (above : view.baseIndex ≤ point)
    (below : point ≤ view.lastIndex) (known : termAt view point = .ok term)
    (later : point ≤ index) (claimed : ℤ) :
    prefixMatches ⟨point, term, view.entries.drop (point - view.baseIndex)⟩ index claimed =
      prefixMatches view index claimed := by
  have lower : index < point ↔ index < view.baseIndex := by omega
  unfold prefixMatches
  rw [lastIndex_compacted above below, termAt_compacted above below known later]
  simp only [lower]

omit [DecidableEq κ] in
/-- A compaction of a compacted view is one of the view. -/
theorem compactThrough_compacted (above : view.baseIndex ≤ point)
    (below : point ≤ view.lastIndex) (known : termAt view point = .ok term)
    (later : point ≤ index) :
    compactThrough ⟨point, term, view.entries.drop (point - view.baseIndex)⟩ index =
      compactThrough view index := by
  by_cases within : index ≤ view.lastIndex
  · obtain ⟨term', known'⟩ := exists_termAt (above.trans later) within
    rw [compactThrough_eq (above.trans later) within known']
    rw [compactThrough_eq later (by rwa [lastIndex_compacted above below])
      (by rwa [termAt_compacted above below known later])]
    have offset : point - view.baseIndex + (index - point) = index - view.baseIndex := by omega
    rw [List.drop_drop, offset]
  · have last : (⟨point, term, view.entries.drop (point - view.baseIndex)⟩ :
        RaftLogView κ).lastIndex = view.lastIndex := lastIndex_compacted above below
    rw [compactThrough_beyond (above.trans later) (by omega),
      compactThrough_beyond later (by omega), last]

theorem mergeAfter_compacted (above : view.baseIndex ≤ point) (below : point ≤ view.lastIndex)
    (later : point ≤ index) (within : index ≤ view.lastIndex)
    (incoming : List (LogEntry κ)) :
    mergeAfter ⟨point, term, view.entries.drop (point - view.baseIndex)⟩ index incoming =
      (mergeAfter view index incoming).map (List.drop (point - view.baseIndex)) := by
  have offset : point - view.baseIndex + (index - point) = index - view.baseIndex := by omega
  have absolute : point + (index - point) + 1 =
      view.baseIndex + (index - view.baseIndex) + 1 := by omega
  rw [mergeAfter_of_within (above.trans later) within,
    mergeAfter_of_within later (by rwa [lastIndex_compacted above below])]
  split
  · rfl
  · rw [List.drop_drop, offset, absolute]
    have prefix' : ∀ rest : List (LogEntry κ),
        (view.entries.take (index - view.baseIndex) ++ rest).drop (point - view.baseIndex) =
          (view.entries.drop (point - view.baseIndex)).take (index - point) ++ rest := by
      intro rest
      have short : point - view.baseIndex ≤
          (view.entries.take (index - view.baseIndex)).length := by
        unfold RaftLogView.lastIndex at within
        rw [List.length_take]
        omega
      rw [List.drop_append_of_le_length short, List.drop_take]
      congr 2
      omega
    cases mergeFrom (view.baseIndex + (index - view.baseIndex) + 1)
        (view.entries.drop (index - view.baseIndex)) incoming with
    | error raised => rfl
    | ok rest => exact congrArg Except.ok (prefix' rest).symm

/-- A merge keeps what is before it. -/
theorem mergeAfter_take {incoming log : List (LogEntry κ)} (above : view.baseIndex ≤ index)
    (below : index ≤ view.lastIndex) (merges : mergeAfter view index incoming = .ok log) :
    log.take (index - view.baseIndex) = view.entries.take (index - view.baseIndex) := by
  rw [mergeAfter_eq_ok above below] at merges
  obtain ⟨rest, _, rfl⟩ := Option.map_eq_some_iff.mp merges
  have length : (view.entries.take (index - view.baseIndex)).length = index - view.baseIndex := by
    unfold RaftLogView.lastIndex at below
    rw [List.length_take]
    omega
  rw [List.take_append_of_le_length length.ge, List.take_of_length_le length.le]

/-- A merge after an index keeps its term. -/
theorem termAt_merged {incoming log : List (LogEntry κ)} (above : view.baseIndex ≤ point)
    (later : point ≤ index) (within : index ≤ view.lastIndex)
    (merges : mergeAfter view index incoming = .ok log) :
    point ≤ view.baseIndex + log.length ∧
      termAt { view with entries := log } point = termAt view point := by
  have kept := mergeAfter_take (above.trans later) within merges
  have length := congrArg List.length kept
  unfold RaftLogView.lastIndex at within
  simp only [List.length_take] at length
  refine ⟨by omega, ?_⟩
  unfold termAt
  split
  · rfl
  next inside =>
    dsimp only at inside
    have first := congrArg (fun entries : List (LogEntry κ) =>
      entries[point - view.baseIndex - 1]?) kept
    rw [List.getElem?_take_of_lt (by omega), List.getElem?_take_of_lt (by omega)] at first
    have listed : point - view.baseIndex - 1 < view.entries.length := by omega
    unfold entryAt
    dsimp only
    rw [first, List.getElem?_eq_getElem listed]

/-- A merge and a compaction commute, if the merge starts at or after the compaction. -/
theorem compactThrough_merged (above : view.baseIndex ≤ point) (below : point ≤ view.lastIndex)
    (known : termAt view point = .ok term) (later : point ≤ index)
    (within : index ≤ view.lastIndex) (incoming : List (LogEntry κ)) :
    (merged view index incoming).bind (compactThrough · point) =
      merged ⟨point, term, view.entries.drop (point - view.baseIndex)⟩ index incoming := by
  unfold merged
  rw [mergeAfter_compacted above below later within]
  cases merges : mergeAfter view index incoming with
  | error raised => rfl
  | ok log =>
      obtain ⟨reached, same⟩ := termAt_merged above later within merges
      exact compactThrough_eq above reached (same.trans known)

end Compaction

/-- **A compacted view refines the full log**: from the compaction point on, each method
answers as the one of the uncompacted view. -/
theorem compacted_refines (log : List (LogEntry κ)) (point : ℕ) (within : point ≤ log.length) :
    ∃ compacted, compactThrough (uncompacted log) point = .ok compacted ∧
      compacted.lastIndex = (uncompacted log).lastIndex ∧
      compacted.lastTerm = (uncompacted log).lastTerm ∧
      (∀ index, point ≤ index → termAt compacted index = termAt (uncompacted log) index) ∧
      (∀ index, point < index → entryAt compacted index = entryAt (uncompacted log) index) ∧
      (∀ index, point < index → suffixFrom compacted index = suffixFrom (uncompacted log) index) ∧
      (∀ index term, point ≤ index →
        prefixMatches compacted index term = prefixMatches (uncompacted log) index term) ∧
      (∀ index incoming, point ≤ index → index ≤ log.length →
        mergeAfter compacted index incoming =
          (mergeAfter (uncompacted log) index incoming).map (List.drop point)) ∧
      (∀ index incoming, log.length < index →
        mergeAfter compacted index incoming = .error (.outsideRetained index point log.length) ∧
        mergeAfter (uncompacted log) index incoming =
          .error (.outsideRetained index 0 log.length)) ∧
      (∀ later, point ≤ later →
        compactThrough compacted later = compactThrough (uncompacted log) later) ∧
      ∀ index incoming, point ≤ index → index ≤ log.length →
        (merged (uncompacted log) index incoming).bind (compactThrough · point) =
          merged compacted index incoming := by
  have above : (uncompacted log).baseIndex ≤ point := Nat.zero_le point
  have last : (uncompacted log).lastIndex = log.length := Nat.zero_add _
  have below : point ≤ (uncompacted log).lastIndex := last.symm ▸ within
  obtain ⟨term, known⟩ := exists_termAt above below
  refine ⟨_, compactThrough_eq above below known, lastIndex_compacted above below,
    lastTerm_compacted above below known, fun index later =>
      termAt_compacted above below known later,
    fun index later => entryAt_compacted above below later,
    fun index later => suffixFrom_compacted above below later,
    fun index claimed later => prefixMatches_compacted above below known later claimed,
    fun index incoming later inside =>
      mergeAfter_compacted above below later (last.symm ▸ inside) incoming,
    fun index incoming outside => ⟨?_, ?_⟩,
    fun index later => compactThrough_compacted above below known later,
    fun index incoming later inside =>
      compactThrough_merged above below known later (last.symm ▸ inside) incoming⟩
  · unfold mergeAfter
    rw [lastIndex_compacted above below, last, if_pos (.inr outside)]
  · unfold mergeAfter
    rw [last, if_pos (.inr outside)]
    rfl

/-- Compaction through the second of three entries. -/
theorem compacted_refines_three :
    ∃ compacted, compactThrough (uncompacted [⟨1, 10⟩, ⟨1, 11⟩, ⟨2, 12⟩]) 2 = .ok compacted ∧
      compacted.lastTerm = 2 ∧ termAt compacted 2 = .ok 1 := by
  obtain ⟨compacted, returned, _, lastTerm, terms, _⟩ :=
    compacted_refines [⟨1, 10⟩, ⟨1, 11⟩, ⟨2, 12⟩] 2 (by decide)
  exact ⟨compacted, returned, lastTerm, terms 2 le_rfl⟩

end ViewCalls

end Distlab.Raft
