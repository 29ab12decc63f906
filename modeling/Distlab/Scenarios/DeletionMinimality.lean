import Mathlib.Data.List.InsertIdx
import Distlab.Foundations.Outcome
import Distlab.Scenarios.Minimizers

/-!
# What one minimizer leaves

A minimizer of one sequence ends, and what it returns is the selection of the entries
that it did not delete: it still fails, and no single further deletion does.
-/

set_option autoImplicit false

namespace Distlab.Scenarios

open Foundations

/-! ## One sequence -/

section Sequence

variable {ε τ : Type} {preserves : List τ → Except ε Bool}

theorem firstDeletion_none {before after : List (ℕ × τ)}
    (scanned : firstDeletion preserves before after = .ok none) :
    ∀ i, before.length ≤ i → i < (before ++ after).length →
      preserves (((before ++ after).eraseIdx i).map Prod.snd) = .ok false := by
  induction after generalizing before with
  | nil =>
      intro i above below
      rw [List.append_nil] at below
      omega
  | cons item after ih =>
      obtain ⟨verdict, tested, rest⟩ := bind_eq_ok.mp scanned
      cases verdict with
      | true => cases rest
      | false =>
          intro i above below
          rcases above.eq_or_lt with rfl | beyond
          · rw [List.eraseIdx_append_of_length_le le_rfl, Nat.sub_self, List.eraseIdx_cons_zero]
            exact tested
          · rw [List.append_cons] at below ⊢
            refine ih rest i ?_ below
            rw [List.length_append, List.length_singleton]
            exact beyond

theorem firstDeletion_some {before after candidate : List (ℕ × τ)} {index : ℕ}
    (scanned : firstDeletion preserves before after = .ok (some (index, candidate))) :
    ∃ first item last, before ++ after = first ++ item :: last ∧ candidate = first ++ last ∧
      index = item.1 ∧ preserves (candidate.map Prod.snd) = .ok true := by
  induction after generalizing before with
  | nil => cases scanned
  | cons item after ih =>
      obtain ⟨verdict, tested, rest⟩ := bind_eq_ok.mp scanned
      cases verdict with
      | true =>
          cases rest
          exact ⟨before, item, after, rfl, rfl, rfl, tested⟩
      | false =>
          rw [List.append_cons]
          exact ih rest

/-- What the deletions leave. -/
structure Reduces (preserves : List τ → Except ε Bool) (current : List (ℕ × τ))
    (removed : List ℕ) (final : List (ℕ × τ)) (deleted : List ℕ) : Prop where
  sublist : final.Sublist current
  partition : (final.map Prod.fst ++ deleted).Perm (current.map Prod.fst ++ removed)
  minimal : ∀ i < final.length, preserves ((final.eraseIdx i).map Prod.snd) = .ok false
  preserved : final = current ∨ preserves (final.map Prod.snd) = .ok true

/-- **The deletion loop ends**, and no single further deletion preserves the failure. -/
theorem deletionLoop_spec {fuel : ℕ} {current : List (ℕ × τ)} (removed : List ℕ)
    (enough : current.length < fuel) :
    deletionLoop preserves fuel current removed ≠ .running ∧
      ∀ final deleted, deletionLoop preserves fuel current removed = .returned (final, deleted) →
        Reduces preserves current removed final deleted := by
  induction fuel generalizing current removed with
  | zero => exact absurd enough (Nat.not_lt_zero _)
  | succ fuel ih =>
      -- a deletion leaves a shorter sequence
      have later : ∀ index candidate,
          firstDeletion preserves [] current = .ok (some (index, candidate)) →
            candidate.length < fuel := by
        intro index candidate scanned
        obtain ⟨first, item, last, split, rfl, _⟩ := firstDeletion_some scanned
        rw [List.nil_append] at split
        rw [split] at enough
        simp only [List.length_append, List.length_cons] at enough ⊢
        omega
      constructor
      · refine Looped.bind_ne_running (Looped.ofExcept_ne_running _) fun found scanned => ?_
        rw [Looped.ofExcept_eq_returned] at scanned
        cases found with
        | none => rintro ⟨⟩
        | some deletion =>
            obtain ⟨index, candidate⟩ := deletion
            exact (ih _ (later index candidate scanned)).1
      · intro final deleted returned
        obtain ⟨found, scanned, rest⟩ := Looped.bind_eq_returned.mp returned
        rw [Looped.ofExcept_eq_returned] at scanned
        cases found with
        | none =>
            cases rest
            refine ⟨List.Sublist.refl _, List.Perm.refl _, fun i below => ?_, .inl rfl⟩
            exact firstDeletion_none scanned i (Nat.zero_le i) below
        | some deletion =>
            obtain ⟨index, candidate⟩ := deletion
            obtain ⟨sublist, partition, minimal, preserved⟩ :=
              (ih _ (later index candidate scanned)).2 final deleted rest
            obtain ⟨first, item, last, split, rfl, rfl, holds⟩ := firstDeletion_some scanned
            rw [List.nil_append] at split
            have within : (first ++ last).Sublist current := by
              rw [split]
              exact List.Sublist.append_left (List.sublist_cons_self item last) first
            refine ⟨sublist.trans within, partition.trans ?_, minimal, ?_⟩
            · rw [split]
              simp only [List.map_append, List.map_cons, List.append_assoc]
              refine List.Perm.append_left _ ?_
              rw [List.cons_append, ← List.append_assoc]
              exact List.perm_append_singleton item.1 _
            · rcases preserved with rfl | holds'
              · exact .inr holds
              · exact .inr holds'

/-- The selection that a minimizer of a sequence returns. -/
structure MinimalSelection (preserves : List τ → Except ε Bool) (entries part : List τ)
    (kept removed : List ℕ) : Prop where
  selects : Selects entries part kept
  removed : removed = unselected entries.length kept
  minimal : ∀ i < part.length, preserves (part.eraseIdx i) = .ok false
  preserved : part = entries ∨ preserves part = .ok true

theorem map_fst_enumerate (entries : List τ) :
    (enumerate entries).map Prod.fst = List.range entries.length := by
  rw [enumerate, List.map_map]
  exact (List.zipIdx_map_snd 0 entries).trans List.range_eq_range'.symm

theorem map_snd_enumerate (entries : List τ) : (enumerate entries).map Prod.snd = entries := by
  rw [enumerate, List.map_map]
  exact List.zipIdx_map_fst 0 entries

/-- A part of the enumeration selects its entries. -/
theorem selects_of_sublist {entries : List τ} {part : List (ℕ × τ)}
    (within : part.Sublist (enumerate entries)) :
    Selects entries (part.map Prod.snd) (part.map Prod.fst) := by
  refine ⟨?_, ?_⟩
  · refine List.Pairwise.sublist (within.map Prod.fst) ?_
    rw [map_fst_enumerate]
    exact List.pairwise_lt_range
  · rw [List.map_map, List.map_map]
    refine List.map_congr_left fun item member => ?_
    obtain ⟨⟨entry, index⟩, listed, rfl⟩ := List.mem_map.mp (within.subset member)
    exact (List.mem_zipIdx_iff_getElem?.mp listed).symm

/-- **A minimizer of a sequence ends**, with a minimal selection. -/
theorem minimizeIndexedSequence_spec (preserves : List τ → Except ε Bool) (entries : List τ) :
    minimizeIndexedSequence preserves entries ≠ .running ∧
      ∀ current removed, minimizeIndexedSequence preserves entries = .returned (current, removed) →
        MinimalSelection preserves entries (current.map Prod.snd) (current.map Prod.fst)
          removed := by
  have length : (enumerate entries).length = entries.length := by
    rw [enumerate, List.length_map, List.length_zipIdx]
  obtain ⟨ends, spec⟩ := deletionLoop_spec []
    (show (enumerate entries).length < entries.length + 1 by omega)
  constructor
  · exact Looped.bind_ne_running ends fun _ _ => by rintro ⟨⟩
  · intro current removed returned
    obtain ⟨⟨final, deleted⟩, looped, last⟩ := Looped.bind_eq_returned.mp returned
    cases last
    obtain ⟨sublist, partition, minimal, preserved⟩ := spec _ _ looped
    have selects := selects_of_sublist sublist
    rw [map_fst_enumerate, List.append_nil] at partition
    refine ⟨selects, ?_, fun i below => ?_, ?_⟩
    · exact sort_eq_unselected partition
    · rw [List.length_map] at below
      rw [List.eraseIdx_map]
      exact minimal i below
    · rcases preserved with rfl | holds
      · exact .inl (map_snd_enumerate entries)
      · exact .inr holds

/-- The entries that are left stand with their positions. -/
theorem minimizeIndexedSequence_sublist {entries : List τ} {current : List (ℕ × τ)}
    {removed : List ℕ}
    (returned : minimizeIndexedSequence preserves entries = .returned (current, removed)) :
    current.Sublist (enumerate entries) := by
  have enough : (enumerate entries).length < entries.length + 1 := by
    rw [enumerate, List.length_map, List.length_zipIdx]
    exact Nat.lt_succ_self _
  obtain ⟨⟨final, deleted⟩, looped, last⟩ := Looped.bind_eq_returned.mp returned
  cases last
  exact ((deletionLoop_spec [] enough).2 _ _ looped).sublist

variable (predicate : List τ → Bool)

/-- A predicate is asked for every deletion, and never raises. -/
theorem firstDeletion_ok (before after : List (ℕ × τ)) :
    ∃ found, firstDeletion (ε := ε) (fun candidate => .ok (predicate candidate)) before after =
      .ok found := by
  induction after generalizing before with
  | nil => exact ⟨none, rfl⟩
  | cons item after ih =>
      cases held : predicate ((before ++ after).map Prod.snd) with
      | true => exact ⟨some (item.1, before ++ after), by rw [firstDeletion, held]; rfl⟩
      | false =>
          obtain ⟨found, scanned⟩ := ih (before ++ [item])
          exact ⟨found, by rw [firstDeletion, held]; exact scanned⟩

theorem deletionLoop_ne_raised (fuel : ℕ) (current : List (ℕ × τ)) (removed : List ℕ)
    (error : ε) :
    deletionLoop (fun candidate => .ok (predicate candidate)) fuel current removed ≠
      .raised error := by
  induction fuel generalizing current removed with
  | zero => rintro ⟨⟩
  | succ fuel ih =>
      obtain ⟨found, scanned⟩ := firstDeletion_ok (ε := ε) predicate [] current
      rw [deletionLoop, scanned]
      cases found with
      | none => rintro ⟨⟩
      | some deletion => exact ih deletion.2 _

/-- With a predicate that does not raise, the minimizer returns. -/
theorem minimizeIndexedSequence_returns (entries : List τ) :
    ∃ current removed, minimizeIndexedSequence (ε := ε)
      (fun candidate => .ok (predicate candidate)) entries = .returned (current, removed) := by
  have ends := (minimizeIndexedSequence_spec (ε := ε)
    (fun candidate => .ok (predicate candidate)) entries).1
  have quiet := deletionLoop_ne_raised (ε := ε) predicate (entries.length + 1)
    (enumerate entries) []
  unfold minimizeIndexedSequence at ends ⊢
  cases looped : deletionLoop (ε := ε) (fun candidate => .ok (predicate candidate))
      (entries.length + 1) (enumerate entries) [] with
  | running =>
      rw [looped] at ends
      exact absurd rfl ends
  | raised error => exact absurd looped (quiet error)
  | returned final => exact ⟨final.1, final.2.insertionSort (· ≤ ·), rfl⟩

/-- **The minimizer of a sequence** returns a part of it with the original positions, from
which no single entry can be deleted. -/
theorem minimizeIndexedSequence_one_minimal (entries : List τ) :
    ∃ current removed,
      minimizeIndexedSequence (ε := ε) (fun candidate => .ok (predicate candidate)) entries =
        .returned (current, removed) ∧
      current.Sublist (enumerate entries) ∧
      (∀ item ∈ current, entries[item.1]? = some item.2) ∧
      (current.map Prod.fst).Pairwise (· < ·) ∧ removed.Pairwise (· < ·) ∧
      (current.map Prod.fst).Disjoint removed ∧
      (∀ index, index < entries.length ↔ index ∈ current.map Prod.fst ∨ index ∈ removed) ∧
      (removed ≠ [] → predicate (current.map Prod.snd) = true) ∧
      ∀ position < current.length,
        predicate ((current.eraseIdx position).map Prod.snd) = false := by
  obtain ⟨current, removed, returned⟩ :=
    minimizeIndexedSequence_returns (ε := ε) predicate entries
  obtain ⟨selects, complement, minimal, preserved⟩ :=
    (minimizeIndexedSequence_spec _ entries).2 current removed returned
  have sublist := minimizeIndexedSequence_sublist returned
  subst complement
  refine ⟨current, _, returned, sublist, ?_, selects.increasing, increasing_unselected _ _,
    ?_, ?_, ?_, ?_⟩
  · intro item member
    obtain ⟨⟨entry, index⟩, listed, rfl⟩ := List.mem_map.mp (sublist.subset member)
    exact List.mem_zipIdx_iff_getElem?.mp listed
  · intro index keeps deletes
    exact (mem_unselected.mp deletes).2 keeps
  · intro index
    rw [mem_unselected]
    constructor
    · intro within
      by_cases keeps : index ∈ current.map Prod.fst
      · exact .inl keeps
      · exact .inr ⟨within, keeps⟩
    · rintro (keeps | ⟨within, _⟩)
      · exact selects.lt_of_mem keeps
      · exact within
  · intro deleted
    rcases preserved with whole | holds
    · -- a selection of everything deletes nothing
      have all : current = enumerate entries := by
        refine sublist.eq_of_length ?_
        rw [← List.length_map (f := Prod.snd), whole, ← List.length_map (f := Prod.snd),
          map_snd_enumerate]
      refine absurd ?_ deleted
      rw [all, map_fst_enumerate, unselected, List.filter_eq_nil_iff]
      intro index member
      simpa using member
    · exact Except.ok.inj holds
  · intro position within
    have refuted := minimal position (by rwa [List.length_map])
    rw [List.eraseIdx_map] at refuted
    exact Except.ok.inj refuted

end Sequence

/-! ## One schedule -/

section OneSchedule

variable {α : Type} {valid : List α → Bool}

/-- A run that is linearizable or cannot be executed. -/
def Harmless (verdict : Except RunnerError Bool) : Prop :=
  verdict = .ok true ∨ ∃ error, verdict = .error error

/-- Without the entry at the position, the run is harmless. -/
def HarmlessWithout (run : Schedule valid → Except RunnerError Bool) (schedule : Schedule valid)
    (position : ℕ) : Prop :=
  ∃ candidate : Schedule valid, candidate.seed = schedule.seed ∧
    candidate.entries = schedule.entries.eraseIdx position ∧ Harmless (run candidate)

/-- A schedule of the seed of another one, with its entries at the kept positions. -/
structure Restricts (original part : Schedule valid) (kept : List ℕ) : Prop where
  seed : part.seed = original.seed
  selects : Selects original.entries part.entries kept

/-- What the minimizer of one schedule returns. -/
structure MinimalSchedule (run : Schedule valid → Except RunnerError Bool)
    (original : Schedule valid) (result : MinimizationResult valid) : Prop where
  restricts : Restricts original result.schedule result.keptOriginalIndices
  removed : result.removedOriginalIndices =
    unselected original.entries.length result.keptOriginalIndices
  fails : run result.schedule = .ok false
  minimal : ∀ position < result.schedule.entries.length,
    HarmlessWithout run result.schedule position

theorem restricts_self (schedule : Schedule valid) :
    Restricts schedule schedule (List.range schedule.entries.length) :=
  ⟨rfl, selects_self schedule.entries⟩

/-- A restriction to everything is the schedule. -/
theorem Restricts.eq_of_length {original part : Schedule valid} {kept : List ℕ}
    (restricts : Restricts original part kept)
    (length : part.entries.length = original.entries.length) : part = original :=
  Schedule.ext_entries restricts.seed (restricts.selects.eq_of_length length)

theorem Restricts.length_le {original part : Schedule valid} {kept : List ℕ}
    (restricts : Restricts original part kept) :
    part.entries.length ≤ original.entries.length := restricts.selects.sublist.length_le

/-- The test of a candidate of valid entries is the verdict on its run. -/
theorem preservesFailure_of_valid {caught : RunnerError → Bool}
    {run : Schedule valid → Except RunnerError Bool} {seed : ℤ} {actions : List α}
    (passed : valid actions = true) {verdict : Bool}
    (tested : preservesFailure caught run seed actions = .ok verdict) :
    if verdict then run ⟨seed, actions, passed⟩ = .ok false
    else Harmless (run ⟨seed, actions, passed⟩) := by
  unfold preservesFailure at tested
  rw [Schedule.make_of_valid passed] at tested
  obtain ⟨candidate, made, tested⟩ := bind_eq_ok.mp tested
  cases made
  unfold Harmless
  split at tested
  next error raised =>
    split at tested
    · cases tested
      exact .inr ⟨error, raised⟩
    · cases tested
  next linearizable ran =>
    cases tested
    cases linearizable with
    | true => exact .inl ran
    | false => exact ran

/-- **A minimizer of one schedule ends**, and what it returns is minimal. -/
theorem minimizeSchedule_spec {caught : RunnerError → Bool}
    {run : Schedule valid → Except RunnerError Bool} (hereditary : Hereditary valid)
    (schedule : Schedule valid) :
    minimizeSchedule caught run schedule ≠ .running ∧
      ∀ result, minimizeSchedule caught run schedule = .returned result →
        MinimalSchedule run schedule result := by
  obtain ⟨ends, spec⟩ := minimizeIndexedSequence_spec
    (preservesFailure caught run schedule.seed) schedule.entries
  constructor
  · refine Looped.bind_ne_running (Looped.ofExcept_ne_running _) fun linearizable _ => ?_
    cases linearizable with
    | true => rintro ⟨⟩
    | false =>
        refine Looped.bind_ne_running ends fun _ _ => ?_
        exact Looped.bind_ne_running (Looped.ofExcept_ne_running _) fun _ _ => by rintro ⟨⟩
  · intro result returned
    obtain ⟨linearizable, ran, rest⟩ := Looped.bind_eq_returned.mp returned
    cases linearizable with
    | true => cases rest
    | false =>
        obtain ⟨⟨current, removed⟩, minimized, rest⟩ := Looped.bind_eq_returned.mp rest
        obtain ⟨part, made, last⟩ := Looped.bind_eq_returned.mp rest
        cases last
        obtain ⟨selects, complement, minimal, preserved⟩ := spec _ _ minimized
        have passed : valid (current.map Prod.snd) = true :=
          hereditary _ _ selects.sublist schedule.passed
        rw [Schedule.make_of_valid passed, Looped.ofExcept_eq_returned] at made
        cases made
        refine ⟨⟨rfl, selects⟩, complement, ?_, fun position below => ?_⟩
        · rcases preserved with whole | holds
          · have same : (⟨schedule.seed, current.map Prod.snd, passed⟩ : Schedule valid) =
                schedule := Schedule.ext_entries rfl whole
            rw [Looped.ofExcept_eq_returned] at ran
            rw [same]
            unfold raising at ran
            split at ran
            · cases ran
            next value verdict =>
              cases ran
              exact verdict
          · exact preservesFailure_of_valid passed holds
        · have smaller : valid ((current.map Prod.snd).eraseIdx position) = true :=
            hereditary _ _ (List.eraseIdx_sublist _ _) passed
          refine ⟨⟨schedule.seed, _, smaller⟩, rfl, rfl, ?_⟩
          have tested := preservesFailure_of_valid smaller (minimal position below)
          exact tested

end OneSchedule

end Distlab.Scenarios
