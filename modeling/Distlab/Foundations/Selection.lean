import Mathlib.Data.List.NodupEquivFin
import Mathlib.Data.List.Sort
import Distlab.Foundations.Dict

/-!
# Selections

A part of a list with the positions that it keeps. Selections compose: the positions of
a part of a part, read through the positions of the part, are positions of the whole.
-/

set_option autoImplicit false

namespace Distlab.Foundations

universe u

variable {α : Type u} {whole part rest : List α} {kept : List ℕ}

/-- The part has the entries of the whole at the kept positions, in their order. -/
structure Selects (whole part : List α) (kept : List ℕ) : Prop where
  increasing : kept.Pairwise (· < ·)
  entries : part.map some = kept.map (whole[·]?)

/-- The positions that are not kept. -/
def unselected (size : ℕ) (kept : List ℕ) : List ℕ := (List.range size).filter (· ∉ kept)

theorem Selects.length (selects : Selects whole part kept) : kept.length = part.length := by
  rw [← List.length_map (f := (whole[·]?)), ← selects.entries, List.length_map]

theorem Selects.lt_of_mem (selects : Selects whole part kept) {index : ℕ}
    (member : index ∈ kept) : index < whole.length := by
  have listed : whole[index]? ∈ part.map some := by
    rw [selects.entries]
    exact List.mem_map.mpr ⟨index, member, rfl⟩
  obtain ⟨entry, _, same⟩ := List.mem_map.mp listed
  exact (List.getElem?_eq_some_iff.mp same.symm).1

theorem selects_self (whole : List α) : Selects whole whole (List.range whole.length) where
  increasing := List.pairwise_lt_range
  entries := by
    apply List.ext_getElem
    · simp
    · intro index _ within
      simp only [List.length_map, List.length_range] at within
      simp [within]

/-- The entry of a part stands at its kept position. -/
theorem Selects.getElem (selects : Selects whole part kept) {position : ℕ}
    (inPart : position < part.length) (inKept : position < kept.length) :
    whole[kept[position]]? = some part[position] := by
  have here := congrArg (fun entries : List (Option α) => entries[position]?) selects.entries
  simpa [inPart, inKept] using here.symm

/-- **Selections compose.** -/
theorem Selects.trans {positions through : List ℕ} (first : Selects whole part kept)
    (second : Selects part rest positions)
    (read : through.map some = positions.map (kept[·]?)) : Selects whole rest through := by
  have length : through.length = positions.length := by
    rw [← List.length_map (f := some), read, List.length_map]
  have within : ∀ i, (inside : i < positions.length) → ∃ bound : positions[i] < kept.length,
      kept[positions[i]] = through[i] := by
    intro i inside
    have here := congrArg (fun entries : List (Option ℕ) => entries[i]?) read
    simp only [List.getElem?_map, List.getElem?_eq_getElem inside,
      List.getElem?_eq_getElem (length.symm ▸ inside), Option.map_some, Option.some.injEq] at here
    exact List.getElem?_eq_some_iff.mp here.symm
  constructor
  · rw [List.pairwise_iff_getElem]
    intro i j hi hj less
    obtain ⟨boundI, lower⟩ := within i (length ▸ hi)
    obtain ⟨boundJ, upper⟩ := within j (length ▸ hj)
    rw [← lower, ← upper]
    exact List.pairwise_iff_getElem.mp first.increasing _ _ boundI boundJ
      (List.pairwise_iff_getElem.mp second.increasing i j (length ▸ hi) (length ▸ hj) less)
  · apply List.ext_getElem
    · rw [List.length_map, List.length_map, ← second.length, length]
    · intro i inRest inThrough
      simp only [List.length_map] at inRest inThrough
      obtain ⟨bound, same⟩ := within i (length ▸ inThrough)
      have inPart : positions[i] < part.length := first.length ▸ bound
      have outer := first.getElem inPart bound
      have inner := second.getElem inRest (length ▸ inThrough)
      rw [List.getElem?_eq_getElem inPart, Option.some.injEq] at inner
      rw [List.getElem_map, List.getElem_map, ← same, outer, inner]

/-- The selected part is in the order of the whole. -/
theorem Selects.sublist (selects : Selects whole part kept) : part.Sublist whole := by
  have position : ∀ i : Fin part.length, i.val < kept.length := by
    intro i
    rw [selects.length]
    exact i.isLt
  have bound : ∀ i : Fin part.length, kept.get ⟨i.val, position i⟩ < whole.length :=
    fun i => selects.lt_of_mem (List.getElem_mem _)
  rw [List.sublist_iff_exists_fin_orderEmbedding_get_eq]
  refine ⟨OrderEmbedding.ofStrictMono (fun i => ⟨kept.get ⟨i.val, position i⟩, bound i⟩) ?_, ?_⟩
  · intro i j less
    exact List.pairwise_iff_getElem.mp selects.increasing _ _ (position i) (position j) less
  · intro i
    have here := selects.getElem i.isLt (position i)
    exact ((List.getElem?_eq_some_iff.mp here).2).symm

/-- A selection of everything is the whole. -/
theorem Selects.eq_of_length (selects : Selects whole part kept)
    (length : part.length = whole.length) : part = whole :=
  selects.sublist.eq_of_length length

theorem mem_unselected {size index : ℕ} : index ∈ unselected size kept ↔
    index < size ∧ index ∉ kept := by
  rw [unselected, List.mem_filter, List.mem_range, decide_eq_true_eq]

theorem increasing_unselected (size : ℕ) (kept : List ℕ) :
    (unselected size kept).Pairwise (· < ·) := List.pairwise_lt_range.filter _

/-- What was deleted, once sorted, is what was not kept. -/
theorem sort_eq_unselected {size : ℕ} {deleted : List ℕ}
    (partition : (kept ++ deleted).Perm (List.range size)) :
    deleted.insertionSort (· ≤ ·) = unselected size kept := by
  have nodup : (kept ++ deleted).Nodup := partition.nodup_iff.mpr List.nodup_range
  have disjoint := List.disjoint_of_nodup_append nodup
  have remaining : (unselected size kept).Perm deleted := by
    have filtered := (partition.filter (· ∉ kept)).symm
    have none : kept.filter (· ∉ kept) = [] :=
      List.filter_eq_nil_iff.mpr fun index member => by simpa using member
    have all : deleted.filter (· ∉ kept) = deleted :=
      List.filter_eq_self.mpr fun index member => by
        simpa using fun listed => disjoint listed member
    rw [List.filter_append, none, all, List.nil_append] at filtered
    exact filtered
  have sorted : (unselected size kept).SortedLE :=
    ((increasing_unselected size kept).imp le_of_lt).sortedLE
  exact ((List.perm_insertionSort _ deleted).trans remaining.symm).eq_of_sortedLE
    List.sortedLE_insertionSort sorted

end Distlab.Foundations
