import Distlab.Raft.CompactedViews
import Distlab.Raft.Node

/-!
# Merges of a leader's slices

A follower's view that satisfies Log Matching with a leader's log keeps it under every
merge of a slice of that log. A merge whose entries the view has already changes nothing;
any other one ends the view at the end of the slice, so that nothing on which the two
agree is lost. Hence the slices may come in any order, late and more than once.
-/

set_option autoImplicit false

namespace Distlab.Raft.ViewCalls

open Foundations

variable {κ : Type} {leader follower view : RaftLogView κ} {index : ℕ}

/-- Two views do not differ at an index that both have. -/
structure AgreeAt (leader follower : RaftLogView κ) (index : ℕ) : Prop where
  term : ∀ t t', termAt follower index = .ok t → termAt leader index = .ok t' → t = t'
  entry : ∀ e e', entryAt follower index = .ok e → entryAt leader index = .ok e' → e = e'

/-- Log Matching: two views with the same term at an index agree up to it. -/
def Matching (leader follower : RaftLogView κ) : Prop :=
  ∀ index term, termAt follower index = .ok term → termAt leader index = .ok term →
    ∀ i ≤ index, AgreeAt leader follower i

/-- Both views reach the index, and agree up to it. -/
structure AgreesThrough (leader follower : RaftLogView κ) (reach : ℕ) : Prop where
  reached : reach ≤ follower.lastIndex
  known : reach ≤ leader.lastIndex
  agree : ∀ i ≤ reach, AgreeAt leader follower i

/-- What an `AppendEntries` of the leader carries: its entries after an index that has a
term in its log. -/
structure Slice (leader : RaftLogView κ) where
  prevIndex : ℕ
  prevTerm : ℕ
  entries : List (LogEntry κ)
  known : termAt leader prevIndex = .ok prevTerm
  part : ∀ k entry, entries[k]? = some entry → entryAt leader (prevIndex + 1 + k) = .ok entry

/-- The end of a slice. -/
def Slice.reach (slice : Slice leader) : ℕ := slice.prevIndex + slice.entries.length

/-- The follower has the entry before the slice. -/
def Slice.Matches (slice : Slice leader) (follower : RaftLogView κ) : Prop :=
  prefixMatches follower slice.prevIndex slice.prevTerm = .ok true

/-! ## Indexes of a view -/

theorem exists_entryAt (above : view.baseIndex < index) (below : index ≤ view.lastIndex) :
    ∃ entry, entryAt view index = .ok entry := by
  have within : index - view.baseIndex - 1 < view.entries.length := by
    unfold RaftLogView.lastIndex at below
    omega
  exact ⟨_, entryAt_eq_ok.mpr
    ((RaftLogView.entryAt_eq_getElem above).trans (List.getElem?_eq_getElem within))⟩

theorem within_of_entryAt {entry : LogEntry κ} (found : entryAt view index = .ok entry) :
    view.baseIndex < index ∧ index ≤ view.lastIndex := by
  rw [entryAt_eq_ok, RaftLogView.entryAt] at found
  split at found
  · cases found
  next above =>
    have within := (List.getElem?_eq_some_iff.mp found).1
    unfold RaftLogView.lastIndex
    omega

theorem termAt_of_entryAt {entry : LogEntry κ} (found : entryAt view index = .ok entry) :
    termAt view index = .ok entry.term := by
  unfold termAt
  rw [if_neg (within_of_entryAt found).1.ne', found]
  rfl

theorem within_of_termAt {term : ℕ} (known : termAt view index = .ok term) :
    view.baseIndex ≤ index ∧ index ≤ view.lastIndex := by
  unfold termAt at known
  split at known
  next boundary =>
    unfold RaftLogView.lastIndex
    omega
  next =>
    cases found : entryAt view index with
    | error raised =>
        rw [found] at known
        cases known
    | ok entry => exact (within_of_entryAt found).imp le_of_lt id

/-- The entries after an index are those of the offset that `merge_after` computes. -/
theorem getElem?_drop_iff {prevIndex k : ℕ} {entry : LogEntry κ}
    (above : view.baseIndex ≤ prevIndex) :
    (view.entries.drop (prevIndex - view.baseIndex))[k]? = some entry ↔
      entryAt view (prevIndex + 1 + k) = .ok entry := by
  have offset : prevIndex + 1 + k - view.baseIndex - 1 = prevIndex - view.baseIndex + k := by
    omega
  rw [entryAt_eq_ok, RaftLogView.entryAt_eq_getElem (by omega), List.getElem?_drop, offset]

theorem prefixMatches_eq_true {term : ℕ} :
    prefixMatches view index term = .ok true ↔
      view.baseIndex ≤ index ∧ index ≤ view.lastIndex ∧ termAt view index = .ok term := by
  unfold prefixMatches
  rw [if_neg (not_lt.mpr (Int.natCast_nonneg term))]
  split
  next outside =>
    constructor
    · rintro ⟨⟩
    · omega
  next inside =>
    obtain ⟨above, below⟩ : view.baseIndex ≤ index ∧ index ≤ view.lastIndex := by omega
    obtain ⟨known, found⟩ := exists_termAt above below
    rw [found]
    simp only [Except.map, Except.ok.injEq, decide_eq_true_eq, Int.natCast_inj]
    exact ⟨fun same => ⟨by omega, by omega, same⟩, fun matched => matched.2.2⟩

/-- A prefix test of a term raises nothing. -/
theorem exists_prefixMatches (view : RaftLogView κ) (index term : ℕ) :
    ∃ matched, prefixMatches view index term = .ok matched := by
  unfold prefixMatches
  rw [if_neg (not_lt.mpr (Int.natCast_nonneg term))]
  split
  · exact ⟨_, rfl⟩
  next inside =>
    obtain ⟨above, below⟩ : view.baseIndex ≤ index ∧ index ≤ view.lastIndex := by omega
    obtain ⟨known, found⟩ := exists_termAt above below
    rw [found]
    exact ⟨_, rfl⟩

theorem AgreesThrough.mono {reach reach' : ℕ} (agrees : AgreesThrough leader follower reach)
    (less : reach' ≤ reach) : AgreesThrough leader follower reach' :=
  ⟨less.trans agrees.reached, less.trans agrees.known,
    fun i below => agrees.agree i (below.trans less)⟩

/-- Views with one entry at an index agree up to it. -/
theorem Matching.agreesThrough (matching : Matching leader follower) {entry : LogEntry κ}
    (found : entryAt follower index = .ok entry) (found' : entryAt leader index = .ok entry) :
    AgreesThrough leader follower index :=
  ⟨(within_of_entryAt found).2, (within_of_entryAt found').2,
    matching index entry.term (termAt_of_entryAt found) (termAt_of_entryAt found')⟩

/-- A view that agrees with the leader as far as it goes satisfies Log Matching. -/
theorem AgreesThrough.matching (agrees : AgreesThrough leader view view.lastIndex) :
    Matching leader view := fun _ _ known _ i below =>
  agrees.agree i (below.trans (within_of_termAt known).2)

namespace Slice

variable (slice : Slice leader)

theorem reach_le_lastIndex : slice.reach ≤ leader.lastIndex := by
  unfold reach
  cases size : slice.entries.length with
  | zero => exact (within_of_termAt slice.known).2
  | succ k =>
      have within : k < slice.entries.length := by omega
      have last := slice.part k _ (List.getElem?_eq_getElem within)
      have below := (within_of_entryAt last).2
      omega

/-- A view that agrees up to the slice and has its entries agrees up to its end. -/
theorem agreesThrough {slice : Slice leader} (reaches : slice.reach ≤ view.lastIndex)
    (before : ∀ i ≤ slice.prevIndex, AgreeAt leader view i)
    (has : ∀ k entry, slice.entries[k]? = some entry →
      entryAt view (slice.prevIndex + 1 + k) = .ok entry) :
    AgreesThrough leader view slice.reach := by
  refine ⟨reaches, slice.reach_le_lastIndex, fun i below => ?_⟩
  rcases Nat.lt_or_ge slice.prevIndex i with inside | early
  · obtain ⟨k, rfl⟩ := Nat.exists_eq_add_of_le (Nat.succ_le_of_lt inside)
    have within : k < slice.entries.length := by
      unfold reach at below
      omega
    have ours := has k _ (List.getElem?_eq_getElem within)
    have theirs := slice.part k _ (List.getElem?_eq_getElem within)
    constructor
    · intro t t' known known'
      cases known.symm.trans (termAt_of_entryAt ours)
      cases known'.symm.trans (termAt_of_entryAt theirs)
      rfl
    · intro e e' found found'
      cases found.symm.trans ours
      cases found'.symm.trans theirs
      rfl
  · exact before i early

/-- A view that agrees past the slice has its entries. -/
theorem prefix_of_agreesThrough {slice : Slice leader} {reach : ℕ}
    (above : follower.baseIndex ≤ slice.prevIndex)
    (agrees : AgreesThrough leader follower reach) (past : slice.reach ≤ reach) :
    slice.entries <+: follower.entries.drop (slice.prevIndex - follower.baseIndex) := by
  rw [List.prefix_iff_getElem?]
  intro k within
  have theirs := slice.part k _ (List.getElem?_eq_getElem within)
  have below : slice.prevIndex + 1 + k ≤ reach := by
    unfold Slice.reach at past
    omega
  have inside : follower.baseIndex < slice.prevIndex + 1 + k := by omega
  obtain ⟨entry, ours⟩ := exists_entryAt inside (below.trans agrees.reached)
  rw [getElem?_drop_iff above, ours, (agrees.agree _ below).entry _ _ ours theirs]

end Slice

/-! ## One merge -/

/-- The view that ends with the merged entries. -/
def spliced (view : RaftLogView κ) (prevIndex : ℕ) (incoming : List (LogEntry κ)) :
    RaftLogView κ :=
  { view with entries := view.entries.take (prevIndex - view.baseIndex) ++ incoming }

section Spliced

variable {prevIndex : ℕ} {incoming : List (LogEntry κ)}

@[simp] theorem baseIndex_spliced :
    (spliced view prevIndex incoming).baseIndex = view.baseIndex := rfl

theorem length_take_entries (above : view.baseIndex ≤ prevIndex)
    (below : prevIndex ≤ view.lastIndex) :
    (view.entries.take (prevIndex - view.baseIndex)).length = prevIndex - view.baseIndex := by
  unfold RaftLogView.lastIndex at below
  rw [List.length_take]
  omega

theorem lastIndex_spliced (above : view.baseIndex ≤ prevIndex)
    (below : prevIndex ≤ view.lastIndex) :
    (spliced view prevIndex incoming).lastIndex = prevIndex + incoming.length := by
  have length := length_take_entries above below
  simp only [spliced, RaftLogView.lastIndex, List.length_append, length]
  omega

/-- A splice has its entries. -/
theorem drop_spliced (above : view.baseIndex ≤ prevIndex) (below : prevIndex ≤ view.lastIndex) :
    (spliced view prevIndex incoming).entries.drop (prevIndex - view.baseIndex) = incoming :=
  List.drop_left' (length_take_entries above below)

theorem entryAt_spliced (below : prevIndex ≤ view.lastIndex) (early : index ≤ prevIndex) :
    entryAt (spliced view prevIndex incoming) index = entryAt view index := by
  by_cases above : view.baseIndex < index
  · have length := length_take_entries (above.le.trans early) below
    have same : (spliced view prevIndex incoming).entries[index - view.baseIndex - 1]? =
        view.entries[index - view.baseIndex - 1]? := by
      unfold spliced
      rw [List.getElem?_append_left (by omega), List.getElem?_take_of_lt (by omega)]
    obtain ⟨entry, found⟩ := exists_entryAt above (early.trans below)
    rw [found]
    rw [entryAt_eq_ok, RaftLogView.entryAt_eq_getElem above] at found
    have offset : (spliced view prevIndex incoming).entryAt index =
        (spliced view prevIndex incoming).entries[index - view.baseIndex - 1]? :=
      RaftLogView.entryAt_eq_getElem above
    exact entryAt_eq_ok.mpr (offset.trans (same.trans found))
  · unfold entryAt
    rw [if_pos (not_lt.mp above)]
    exact if_pos (not_lt.mp above)

theorem termAt_spliced (below : prevIndex ≤ view.lastIndex) (early : index ≤ prevIndex) :
    termAt (spliced view prevIndex incoming) index = termAt view index := by
  unfold termAt
  rw [entryAt_spliced below early]
  rfl

/-- A splice differs from the leader's log before it no more than the view does. -/
theorem AgreeAt.spliced (agree : AgreeAt leader view index) (below : prevIndex ≤ view.lastIndex)
    (early : index ≤ prevIndex) : AgreeAt leader (spliced view prevIndex incoming) index := by
  constructor
  · rw [termAt_spliced below early]
    exact agree.term
  · rw [entryAt_spliced below early]
    exact agree.entry

end Spliced

variable [DecidableEq κ]

/-- A loop over entries that are the same wherever their terms are: it keeps what is
retained, if it begins with the incoming entries, and otherwise ends with them. -/
theorem mergeFrom_choice {retained incoming : List (LogEntry κ)}
    (same : ∀ (k : ℕ) (e e' : LogEntry κ), retained[k]? = some e → incoming[k]? = some e' →
      e.term = e'.term → e = e') :
    mergeFrom index retained incoming =
      .ok (if incoming <+: retained then retained else incoming) := by
  induction retained generalizing index incoming with
  | nil =>
      cases incoming with
      | nil => simp [mergeFrom]
      | cons candidate incoming => simp [mergeFrom]
  | cons existing retained ih =>
      cases incoming with
      | nil => simp [mergeFrom]
      | cons candidate incoming =>
          rw [mergeFrom]
          by_cases terms : existing.term = candidate.term
          · obtain rfl := same 0 existing candidate rfl rfl terms
            rw [if_neg (not_not.mpr rfl), if_neg (not_not.mpr rfl),
              ih fun k e e' left right => same (k + 1) e e' left right]
            by_cases begins : incoming <+: retained
            · simp [Except.map, List.cons_prefix_cons, begins]
            · simp [Except.map, List.cons_prefix_cons, begins]
          · have other : existing ≠ candidate := fun same => terms (same ▸ rfl)
            simp [terms, List.cons_prefix_cons, other.symm]

/-- **One merge**: the view has the slice already and stays, or it ends with the slice. -/
theorem merged_choice (matching : Matching leader follower) {slice : Slice leader}
    (matched : slice.Matches follower) :
    merged follower slice.prevIndex slice.entries =
      .ok (if slice.entries <+: follower.entries.drop (slice.prevIndex - follower.baseIndex) then
        follower else spliced follower slice.prevIndex slice.entries) := by
  obtain ⟨above, below, _⟩ := prefixMatches_eq_true.mp matched
  have same : ∀ (k : ℕ) (e e' : LogEntry κ),
      (follower.entries.drop (slice.prevIndex - follower.baseIndex))[k]? = some e →
        slice.entries[k]? = some e' → e.term = e'.term → e = e' := by
    intro k e e' ours theirs terms
    have found := (getElem?_drop_iff above).mp ours
    have found' := slice.part k e' theirs
    have known := termAt_of_entryAt found
    rw [terms] at known
    exact (matching _ _ known (termAt_of_entryAt found') _ le_rfl).entry _ _ found found'
  unfold merged
  rw [mergeAfter_of_within above below, mergeFrom_choice same]
  by_cases begins : slice.entries <+: follower.entries.drop (slice.prevIndex - follower.baseIndex)
  · rw [if_pos begins, if_pos begins, Except.map, List.take_append_drop]
    split <;> rfl
  · have some' : slice.entries ≠ [] := by
      intro none
      rw [none] at begins
      exact begins List.nil_prefix
    rw [if_neg begins, if_neg begins, if_neg some']
    rfl

/-- What a merge of a slice leaves. -/
structure Merges (leader follower view : RaftLogView κ) (slice : Slice leader) : Prop where
  kept : ∀ i entry, entryAt follower i = .ok entry → entryAt leader i = .ok entry →
    entryAt view i = .ok entry
  keeps : ∀ reach, AgreesThrough leader follower reach → AgreesThrough leader view reach
  agrees : AgreesThrough leader view slice.reach
  matching : Matching leader view
  matches' : slice.Matches view
  again : merged view slice.prevIndex slice.entries = .ok view

/-- A merge that the view has already. -/
theorem merges_self (matching : Matching leader follower) {slice : Slice leader}
    (matched : slice.Matches follower)
    (begins : slice.entries <+: follower.entries.drop (slice.prevIndex - follower.baseIndex)) :
    Merges leader follower follower slice := by
  obtain ⟨above, below, known⟩ := prefixMatches_eq_true.mp matched
  have length := begins.length_le
  have again := merged_choice matching matched
  rw [if_pos begins] at again
  refine ⟨fun _ _ found _ => found, fun _ => id, ?_, matching, matched, again⟩
  refine Slice.agreesThrough ?_ (matching _ _ known slice.known) fun k entry listed => ?_
  · unfold Slice.reach
    unfold RaftLogView.lastIndex at below ⊢
    rw [List.length_drop] at length
    omega
  · obtain ⟨rest, split⟩ := begins
    rw [← getElem?_drop_iff above, ← split,
      List.getElem?_append_left (List.getElem?_eq_some_iff.mp listed).1]
    exact listed

/-- A merge that the view did not have ends it at the end of the slice. -/
theorem merges_spliced (matching : Matching leader follower) {slice : Slice leader}
    (matched : slice.Matches follower)
    (begins : ¬ slice.entries <+: follower.entries.drop (slice.prevIndex - follower.baseIndex)) :
    Merges leader follower (spliced follower slice.prevIndex slice.entries) slice := by
  obtain ⟨above, below, known⟩ := prefixMatches_eq_true.mp matched
  have last : (spliced follower slice.prevIndex slice.entries).lastIndex = slice.reach :=
    lastIndex_spliced above below
  have drop : (spliced follower slice.prevIndex slice.entries).entries.drop
      (slice.prevIndex - follower.baseIndex) = slice.entries := drop_spliced above below
  have agrees : AgreesThrough leader (spliced follower slice.prevIndex slice.entries)
      slice.reach := by
    refine Slice.agreesThrough last.ge (fun i early => ?_) fun k entry listed => ?_
    · exact (matching _ _ known slice.known i early).spliced below early
    · have offset : ((spliced follower slice.prevIndex slice.entries).entries.drop
          (slice.prevIndex - follower.baseIndex))[k]? = some entry := by rw [drop, listed]
      have above' : (spliced follower slice.prevIndex slice.entries).baseIndex ≤
          slice.prevIndex := above
      exact (getElem?_drop_iff above').mp offset
  have after : Matching leader (spliced follower slice.prevIndex slice.entries) :=
    AgreesThrough.matching (last.symm ▸ agrees)
  have matched' : slice.Matches (spliced follower slice.prevIndex slice.entries) := by
    refine prefixMatches_eq_true.mpr ⟨above, ?_, ?_⟩
    · rw [last]
      exact Nat.le_add_right _ _
    · rw [termAt_spliced below le_rfl]
      exact known
  have again := merged_choice after matched'
  rw [baseIndex_spliced, drop, if_pos List.prefix_rfl] at again
  -- the view does not agree with the leader past the slice, or it would have it
  have short : ∀ reach, AgreesThrough leader follower reach → reach ≤ slice.reach := by
    intro reach agreed
    by_contra past
    exact begins (Slice.prefix_of_agreesThrough above agreed (not_le.mp past).le)
  refine ⟨fun i entry found found' => ?_, fun reach agreed => agrees.mono (short reach agreed),
    agrees, after, matched', again⟩
  have within := short i (matching.agreesThrough found found')
  obtain ⟨entry', ours⟩ : ∃ entry',
      entryAt (spliced follower slice.prevIndex slice.entries) i = .ok entry' :=
    exists_entryAt (within_of_entryAt found).1 (within.trans last.ge)
  rw [ours, (agrees.agree i within).entry _ _ ours found']

/-- **A merge of a slice** raises nothing and keeps what agrees. -/
theorem exists_merges (matching : Matching leader follower) {slice : Slice leader}
    (matched : slice.Matches follower) :
    ∃ view, merged follower slice.prevIndex slice.entries = .ok view ∧
      Merges leader follower view slice := by
  refine ⟨_, merged_choice matching matched, ?_⟩
  split
  next begins => exact merges_self matching matched begins
  next begins => exact merges_spliced matching matched begins

/-! ## Runs of merges -/

/-- The log of `_handle_append_entries`: `_merge_entries` if `_prefix_matches`, and the
reported success. -/
def appendEntries (view : RaftLogView κ) (prevIndex : ℕ) (prevTerm : ℤ)
    (entries : List (LogEntry κ)) : Except ViewError (RaftLogView κ × Bool) := do
  if ← prefixMatches view prevIndex prevTerm then
    if entries = [] then .ok (view, true)
    else
      let log ← mergeAfter view prevIndex entries
      .ok ({ view with entries := log }, true)
  else .ok (view, false)

/-- The view after slices of the leader's log, and the ends of those that it accepted. -/
def deliver (view : RaftLogView κ) : List (Slice leader) →
    Except ViewError (RaftLogView κ × List ℕ)
  | [] => .ok (view, [])
  | slice :: rest => do
      let (view, success) ← appendEntries view slice.prevIndex slice.prevTerm slice.entries
      let (view, reached) ← deliver view rest
      .ok (view, if success then slice.reach :: reached else reached)

/-- An accepted slice is merged, whether or not it has entries. -/
theorem appendEntries_of_matches {slice : Slice leader} (matched : slice.Matches follower)
    {view : RaftLogView κ} (merges : merged follower slice.prevIndex slice.entries = .ok view) :
    appendEntries follower slice.prevIndex slice.prevTerm slice.entries = .ok (view, true) := by
  unfold merged at merges
  unfold appendEntries
  rw [matched]
  cases returned : mergeAfter follower slice.prevIndex slice.entries with
  | error raised =>
      rw [returned] at merges
      cases merges
  | ok log =>
      rw [returned] at merges
      cases merges
      by_cases none : slice.entries = []
      · obtain ⟨above, below, _⟩ := prefixMatches_eq_true.mp matched
        rw [mergeAfter_of_within above below, if_pos none] at returned
        cases returned
        exact if_pos none
      · exact if_neg none

/-- What is left of the follower's view after a run of slices. -/
structure Delivers (leader follower view : RaftLogView κ) (reached : List ℕ) : Prop where
  kept : ∀ i entry, entryAt follower i = .ok entry → entryAt leader i = .ok entry →
    entryAt view i = .ok entry
  keeps : ∀ reach, AgreesThrough leader follower reach → AgreesThrough leader view reach
  agrees : ∀ reach ∈ reached, AgreesThrough leader view reach
  matching : Matching leader view

/-- **Slices in any order** raise nothing, and the view agrees through each accepted one. -/
theorem exists_deliver (matching : Matching leader follower) (slices : List (Slice leader)) :
    ∃ view reached, deliver follower slices = .ok (view, reached) ∧
      Delivers leader follower view reached := by
  induction slices generalizing follower with
  | nil =>
      refine ⟨follower, [], rfl, fun _ _ found _ => found, fun _ => id, ?_, matching⟩
      exact fun _ member => absurd member List.not_mem_nil
  | cons slice rest ih =>
      obtain ⟨success, tested⟩ := exists_prefixMatches follower slice.prevIndex slice.prevTerm
      cases success with
      | false =>
          obtain ⟨view, reached, delivered, delivers⟩ := ih matching
          refine ⟨view, reached, ?_, delivers⟩
          have rejected : appendEntries follower slice.prevIndex slice.prevTerm slice.entries =
              .ok (follower, false) := by
            unfold appendEntries
            rw [tested]
            rfl
          rw [deliver, rejected]
          exact bind_eq_ok.mpr ⟨_, rfl, bind_eq_ok.mpr ⟨_, delivered, rfl⟩⟩
      | true =>
          obtain ⟨next, merges, left⟩ := exists_merges matching tested
          obtain ⟨view, reached, delivered, delivers⟩ := ih left.matching
          refine ⟨view, slice.reach :: reached, ?_, ?_⟩
          · rw [deliver, appendEntries_of_matches tested merges]
            exact bind_eq_ok.mpr ⟨_, rfl, bind_eq_ok.mpr ⟨_, delivered, rfl⟩⟩
          · refine ⟨fun i entry found found' => ?_, fun reach agreed => ?_, fun reach member => ?_,
              delivers.matching⟩
            · exact delivers.kept i entry (left.kept i entry found found') found'
            · exact delivers.keeps reach (left.keeps reach agreed)
            · rcases List.mem_cons.mp member with rfl | member
              · exact delivers.keeps _ left.agrees
              · exact delivers.agrees reach member

/-- **Merges of a leader's slices** lose nothing that agrees, and agree through the end of
every slice that was accepted, in whatever order the slices came. -/
theorem merges_of_matching (leader follower : RaftLogView κ)
    (matching : Matching leader follower) :
    (∀ slice : Slice leader, slice.Matches follower →
      ∃ view, merged follower slice.prevIndex slice.entries = .ok view ∧
        (∀ i entry, entryAt follower i = .ok entry → entryAt leader i = .ok entry →
          entryAt view i = .ok entry) ∧
        AgreesThrough leader view slice.reach ∧ Matching leader view ∧
        slice.Matches view ∧ merged view slice.prevIndex slice.entries = .ok view) ∧
    ∀ slices : List (Slice leader), ∃ view reached,
      deliver follower slices = .ok (view, reached) ∧ Matching leader view ∧
        ∀ reach ∈ reached, AgreesThrough leader view reach := by
  constructor
  · intro slice matched
    obtain ⟨view, returned, left⟩ := exists_merges matching matched
    exact ⟨view, returned, left.kept, left.agrees, left.matching, left.matches', left.again⟩
  · intro slices
    obtain ⟨view, reached, delivered, left⟩ := exists_deliver matching slices
    exact ⟨view, reached, delivered, left.matching, left.agrees⟩

/-- A follower compacted through the first entry takes the other two. -/
theorem merges_of_matching_compacted :
    ∃ view, merged ⟨1, 1, []⟩ 1 [⟨1, 11⟩, ⟨2, 12⟩] = .ok view ∧
      AgreesThrough (uncompacted [⟨1, 10⟩, ⟨1, 11⟩, ⟨2, 12⟩]) view 3 := by
  have agrees : AgreesThrough (uncompacted [⟨1, 10⟩, ⟨1, 11⟩, ⟨2, 12⟩]) ⟨1, 1, []⟩ 1 := by
    refine ⟨by decide, by decide, fun i below => ?_⟩
    rcases Nat.le_one_iff_eq_zero_or_eq_one.mp below with rfl | rfl
    · constructor <;> intro _ _ known <;> cases known
    · constructor
      · intro _ _ known known'
        cases known
        cases known'
        rfl
      · intro _ _ found
        cases found
  have part : ∀ (k : ℕ) (entry : LogEntry ℕ), [⟨1, 11⟩, ⟨2, 12⟩][k]? = some entry →
      entryAt (uncompacted [⟨1, 10⟩, ⟨1, 11⟩, ⟨2, 12⟩]) (1 + 1 + k) = .ok entry := by
    rintro (_ | _ | k) entry listed <;> cases listed <;> rfl
  obtain ⟨view, returned, _, through, _⟩ :=
    (merges_of_matching _ ⟨1, 1, []⟩ agrees.matching).1 ⟨1, 1, _, rfl, part⟩ rfl
  exact ⟨view, returned, through⟩

/-- A merge by a node is one of its view. -/
theorem mergeEntries_of_merged {ν : Type} [LinearOrder ν] {n : ν}
    {prevIndex : ℕ} {entries : List (LogEntry (Command ν))} {s : Cluster ν}
    {view : RaftLogView (Command ν)} (above : (s.logView n).baseIndex ≤ prevIndex)
    (below : prevIndex ≤ (s.logView n).lastIndex)
    (merges : merged (s.logView n) prevIndex entries = .ok view) :
    mergeEntries n prevIndex entries s =
      .returns () (s.updatePersistent n fun p => { p with log := view }) := by
  unfold merged at merges
  cases returned : mergeAfter (s.logView n) prevIndex entries with
  | error raised =>
      rw [returned] at merges
      cases merges
  | ok log =>
      rw [returned] at merges
      cases merges
      unfold mergeEntries
      rw [(mergeAfter_eq_ok above below).mp returned]
      refine congrArg (Outcome.returns ()) ?_
      simp [Cluster.updatePersistent, Cluster.logView]

end Distlab.Raft.ViewCalls
