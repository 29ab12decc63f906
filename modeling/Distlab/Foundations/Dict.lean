import Mathlib.Data.List.AList
import Mathlib.Data.Finset.Card
import Mathlib.Data.List.Sort

/-!
# Dictionaries

The dictionaries of the modelled programs are association lists without
duplicate keys. The programs never depend on the order of the entries, except
to pick the first of several entries that compare equal.
-/

set_option autoImplicit false

namespace Distlab.Foundations

universe u v

/-- Membership in a list, by the equality of its elements. -/
instance decidableMemList {α : Type u} [DecidableEq α] (a : α) (items : List α) :
    Decidable (a ∈ items) := inferInstance

/-- A dictionary with keys `κ` and values `β`. -/
abbrev Dict (κ : Type u) (β : Type v) := AList fun _ : κ => β

namespace Dict

variable {κ : Type u} {β : Type v}

/-- The values of the entries. -/
def values (d : Dict κ β) : List β := d.entries.map Sigma.snd

/-- The keys as a finite set. -/
def keySet (d : Dict κ β) : Finset κ := ⟨d.keys, d.nodupKeys⟩

variable [DecidableEq κ]

/-- Add an entry unless the key has one. -/
def setDefault (d : Dict κ β) (k : κ) (b : β) : Dict κ β :=
  if k ∈ d then d else d.insert k b

/-- The values in increasing order of their keys. -/
def sortedValues [LinearOrder κ] (d : Dict κ β) : List β :=
  (d.keys.insertionSort (· ≤ ·)).filterMap fun k => d.lookup k

/-- The items in the order `r` of their keys. -/
def sortedItems (d : Dict κ β) (r : κ → κ → Prop) [DecidableRel r] : List (κ × β) :=
  (d.keys.insertionSort r).filterMap fun k => (d.lookup k).map (k, ·)

/-- The dictionary with the items of a list, a later item overriding an earlier one. -/
def ofItems (items : List (κ × β)) : Dict κ β :=
  items.foldl (fun d item => d.insert item.1 item.2) ∅

theorem mem_values {d : Dict κ β} {b : β} : b ∈ d.values ↔ ∃ k, d.lookup k = some b := by
  constructor
  · intro member
    obtain ⟨⟨k, b'⟩, entry, rfl⟩ := List.mem_map.mp member
    exact ⟨k, AList.mem_lookup_iff.mpr entry⟩
  · rintro ⟨k, found⟩
    exact List.mem_map.mpr ⟨⟨k, b⟩, AList.mem_lookup_iff.mp found, rfl⟩

theorem mem_keySet {d : Dict κ β} {k : κ} : k ∈ d.keySet ↔ ∃ b, d.lookup k = some b := by
  rw [← Option.isSome_iff_exists, AList.lookup_isSome]
  exact Iff.rfl

theorem mem_sortedValues [LinearOrder κ] {d : Dict κ β} {b : β} :
    b ∈ d.sortedValues ↔ ∃ k, d.lookup k = some b := by
  simp only [sortedValues, List.mem_filterMap, List.mem_insertionSort]
  constructor
  · rintro ⟨k, _, found⟩
    exact ⟨k, found⟩
  · rintro ⟨k, found⟩
    refine ⟨k, AList.mem_keys.mpr ?_, found⟩
    exact AList.lookup_isSome.mp (Option.isSome_iff_exists.mpr ⟨b, found⟩)

theorem mem_sortedItems {d : Dict κ β} {r : κ → κ → Prop} [DecidableRel r] {k : κ} {b : β} :
    (k, b) ∈ d.sortedItems r ↔ d.lookup k = some b := by
  simp only [sortedItems, List.mem_filterMap, List.mem_insertionSort, Option.map_eq_some_iff]
  constructor
  · rintro ⟨k', _, b', found, same⟩
    obtain ⟨rfl, rfl⟩ := Prod.mk.inj same
    exact found
  · intro found
    refine ⟨k, AList.mem_keys.mpr ?_, b, found, rfl⟩
    exact AList.lookup_isSome.mp (Option.isSome_iff_exists.mpr ⟨b, found⟩)

/-- Sorted items have distinct keys. -/
theorem nodup_keys_sortedItems (d : Dict κ β) (r : κ → κ → Prop) [DecidableRel r] :
    ((d.sortedItems r).map Prod.fst).Nodup := by
  have sorted : (d.keys.insertionSort r).Nodup :=
    (List.perm_insertionSort r d.keys).nodup_iff.mpr d.nodupKeys
  rw [sortedItems, List.map_filterMap]
  refine sorted.filterMap fun k l key here there => ?_
  cases first : d.lookup k <;> cases second : d.lookup l <;> simp_all

theorem lookup_insert (d : Dict κ β) (k l : κ) (b : β) :
    (d.insert k b).lookup l = if l = k then some b else d.lookup l := by
  by_cases same : l = k
  · rw [if_pos same, same, AList.lookup_insert]
  · rw [if_neg same, AList.lookup_insert_ne same]

theorem lookup_erase (d : Dict κ β) (k l : κ) :
    (d.erase k).lookup l = if l = k then none else d.lookup l := by
  by_cases same : l = k
  · rw [if_pos same, same, AList.lookup_erase]
  · rw [if_neg same, AList.lookup_erase_ne same]

theorem lookup_setDefault (d : Dict κ β) (k l : κ) (b : β) :
    (d.setDefault k b).lookup l = if l = k ∧ k ∉ d then some b else d.lookup l := by
  unfold setDefault
  by_cases present : k ∈ d
  · simp [present]
  · simp [present, lookup_insert]

theorem mem_setDefault {d : Dict κ β} {k l : κ} {b : β} :
    l ∈ d.setDefault k b ↔ l = k ∨ l ∈ d := by
  unfold setDefault
  split
  next present => exact (or_iff_right_of_imp fun same => same ▸ present).symm
  next => exact AList.mem_insert _

theorem lookup_setDefault_self (d : Dict κ β) (k : κ) (b : β) :
    (d.setDefault k b).lookup k = some ((d.lookup k).getD b) := by
  rw [lookup_setDefault]
  cases found : d.lookup k with
  | none => rw [if_pos ⟨rfl, AList.lookup_eq_none.mp found⟩, Option.getD_none]
  | some c =>
      have present : k ∈ d := AList.lookup_isSome.mp (Option.isSome_of_mem found)
      rw [if_neg fun absent => absent.2 present, Option.getD_some]

theorem lookup_setDefault_of_lookup {d : Dict κ β} {k l : κ} {b c : β}
    (found : d.lookup l = some c) : (d.setDefault k b).lookup l = some c := by
  rw [lookup_setDefault, if_neg ?_, found]
  rintro ⟨rfl, absent⟩
  exact absent (AList.lookup_isSome.mp (Option.isSome_of_mem found))

/-- An entry after adding a default is the default or was there before. -/
theorem of_lookup_setDefault {d : Dict κ β} {k l : κ} {b c : β}
    (found : (d.setDefault k b).lookup l = some c) :
    d.lookup l = some c ∨ (l = k ∧ c = b) := by
  rw [lookup_setDefault] at found
  split at found
  next new => exact .inr ⟨new.1, (Option.some.inj found).symm⟩
  next => exact .inl found

/-- An entry after an insertion is the new one or was there before. -/
theorem of_lookup_insert {d : Dict κ β} {k l : κ} {b c : β}
    (found : (d.insert k b).lookup l = some c) :
    (l = k ∧ c = b) ∨ (l ≠ k ∧ d.lookup l = some c) := by
  rw [lookup_insert] at found
  split at found
  next same => exact .inl ⟨same, (Option.some.inj found).symm⟩
  next other => exact .inr ⟨other, found⟩

/-- An entry after an erasure was there before. -/
theorem of_lookup_erase {d : Dict κ β} {k l : κ} {c : β}
    (found : (d.erase k).lookup l = some c) : l ≠ k ∧ d.lookup l = some c := by
  rw [lookup_erase] at found
  split at found
  next => cases found
  next other => exact ⟨other, found⟩

/-- Folding items into a dictionary: an item's key has the item's value, and any other
key what it had. -/
theorem lookup_foldl_insert {items : List (κ × β)} {d : Dict κ β}
    (functional : ∀ k b c, (k, b) ∈ items → (k, c) ∈ items → b = c) (k : κ) :
    (∀ b, (k, b) ∈ items →
      (items.foldl (fun d item => d.insert item.1 item.2) d).lookup k = some b) ∧
      ((∀ b, (k, b) ∉ items) →
        (items.foldl (fun d item => d.insert item.1 item.2) d).lookup k = d.lookup k) := by
  induction items generalizing d with
  | nil => exact ⟨fun b member => absurd member List.not_mem_nil, fun _ => rfl⟩
  | cons item rest ih =>
      obtain ⟨listed, absent⟩ := ih (d := d.insert item.1 item.2) fun k b c first second =>
        functional k b c (List.mem_cons_of_mem _ first) (List.mem_cons_of_mem _ second)
      refine ⟨fun b member => ?_, fun none => ?_⟩
      · by_cases later : ∃ c, (k, c) ∈ rest
        · obtain ⟨c, later⟩ := later
          rw [functional k b c member (List.mem_cons_of_mem _ later)]
          exact listed c later
        · have here : (k, b) = item :=
            (List.mem_cons.mp member).resolve_right fun later' => later ⟨b, later'⟩
          subst here
          rw [List.foldl_cons, absent fun c later' => later ⟨c, later'⟩, lookup_insert, if_pos rfl]
      · have other : k ≠ item.1 := fun same =>
          none item.2 (by rw [same]; exact List.mem_cons_self)
        rw [List.foldl_cons, absent fun b later => none b (List.mem_cons_of_mem _ later),
          lookup_insert, if_neg other]

/-- A dictionary of items has the items. -/
theorem lookup_ofItems {items : List (κ × β)}
    (functional : ∀ k b c, (k, b) ∈ items → (k, c) ∈ items → b = c) {k : κ} {b : β} :
    (ofItems items).lookup k = some b ↔ (k, b) ∈ items := by
  obtain ⟨listed, absent⟩ := lookup_foldl_insert (d := (∅ : Dict κ β)) functional k
  constructor
  · intro found
    by_contra missing
    by_cases other : ∃ c, (k, c) ∈ items
    · obtain ⟨c, other⟩ := other
      rw [ofItems, listed c other] at found
      exact missing (Option.some.inj found ▸ other)
    · rw [ofItems, absent fun c member => other ⟨c, member⟩] at found
      cases found
  · exact listed b

/-- The sorted items depend on what the dictionary has only. -/
theorem sortedItems_map {γ : Type*} {d : Dict κ β} {d' : Dict κ γ} {f : κ → β → γ}
    (r : κ → κ → Prop) [DecidableRel r] [Std.Total r] [IsTrans κ r] [Std.Antisymm r]
    (same : ∀ k, d'.lookup k = (d.lookup k).map (f k)) :
    d'.sortedItems r = (d.sortedItems r).map fun item => (item.1, f item.1 item.2) := by
  have perm : d'.keys.Perm d.keys := by
    refine (List.perm_ext_iff_of_nodup d'.nodupKeys d.nodupKeys).mpr fun k => ?_
    show k ∈ d' ↔ k ∈ d
    rw [← AList.lookup_isSome, ← AList.lookup_isSome, same, Option.isSome_map]
  have sorted : d'.keys.insertionSort r = d.keys.insertionSort r :=
    (((List.perm_insertionSort r _).trans perm).trans
      (List.perm_insertionSort r _).symm).eq_of_pairwise'
        (List.pairwise_insertionSort r _) (List.pairwise_insertionSort r _)
  unfold sortedItems
  rw [sorted, List.map_filterMap]
  refine List.filterMap_congr fun k _ => ?_
  rw [same]
  cases d.lookup k <;> rfl

/-- A dictionary is restored from its sorted items. -/
theorem lookup_ofItems_sortedItems (d : Dict κ β) (r : κ → κ → Prop) [DecidableRel r] (k : κ) :
    (ofItems (d.sortedItems r)).lookup k = d.lookup k := by
  have functional : ∀ k b c, (k, b) ∈ d.sortedItems r → (k, c) ∈ d.sortedItems r → b = c :=
    fun k b c first second =>
      Option.some.inj ((mem_sortedItems.mp first).symm.trans (mem_sortedItems.mp second))
  refine Option.ext fun b => ?_
  rw [lookup_ofItems functional, mem_sortedItems]

end Dict

end Distlab.Foundations
