import Mathlib.Data.Finset.Card
import Distlab.Foundations.Linearizability
import Distlab.Foundations.MemoSearch

/-!
# Searching for a linearization

The search places operations one after another. The operations are numbered; a state
of the search is the set of numbers that are placed and the object's value after them.
An operation may be placed when its predecessors are, and when the object allows it.

What the search follows is the beginnings of sequential runs (`Describes.path_iff`). Where
it returns, it answers exactly (`Describes.search_exact`): what it returns is a
linearization, and when it returns nothing there is none.
-/

set_option autoImplicit false

namespace Distlab.Foundations.Linearizability

open MemoSearch

universe u v

/-- Numbered operations, to be placed one after another. -/
structure Placing (ι : Type u) (σ : Type v) where
  count : ℕ
  name : ℕ → ι
  predecessors : ℕ → Finset ℕ
  effect : ℕ → σ → Option σ
  /-- Enough is placed. -/
  finished : Finset ℕ → Bool

namespace Placing

variable {ι : Type u} {σ : Type v}

/-- The operations that may be placed next, in the order of their numbers. -/
def placements (P : Placing ι σ) (s : Finset ℕ × σ) : List (ι × (Finset ℕ × σ)) :=
  (List.range P.count).filterMap fun i =>
    if i ∈ s.1 ∨ ¬ P.predecessors i ⊆ s.1 then none
    else (P.effect i s.2).map fun value => (P.name i, insert i s.1, value)

/-- Placing as a search problem. -/
def problem (P : Placing ι σ) : Problem (Finset ℕ × σ) ι where
  isGoal s := P.finished s.1
  moves := P.placements

variable {P : Placing ι σ}

theorem mem_placements {s t : Finset ℕ × σ} {a : ι} :
    (a, t) ∈ P.placements s ↔ ∃ i < P.count, i ∉ s.1 ∧ P.predecessors i ⊆ s.1 ∧
      ∃ value, P.effect i s.2 = some value ∧ a = P.name i ∧ t = (insert i s.1, value) := by
  simp only [placements, List.mem_filterMap, List.mem_range]
  constructor
  · rintro ⟨i, bound, placed⟩
    split at placed
    next => cases placed
    next open' =>
      rw [not_or, not_not] at open'
      obtain ⟨value, stepped, same⟩ := Option.map_eq_some_iff.mp placed
      obtain ⟨rfl, rfl⟩ := Prod.mk.inj same
      exact ⟨i, bound, open'.1, open'.2, value, stepped, rfl, rfl⟩
  · rintro ⟨i, bound, fresh, ready, value, stepped, rfl, rfl⟩
    refine ⟨i, bound, ?_⟩
    rw [if_neg (by rw [not_or, not_not]; exact ⟨fresh, ready⟩), stepped]
    rfl

/-- Each placement places one more operation. -/
theorem problem_leveled (P : Placing ι σ) : P.problem.Leveled fun s => s.1.card := by
  rintro s ⟨a, t⟩ member
  obtain ⟨i, _, fresh, _, value, _, _, rfl⟩ := mem_placements.mp member
  exact Finset.card_insert_of_notMem fresh

theorem subset_of_path {s t : Finset ℕ × σ} {order : List ι}
    (inside : s.1 ⊆ Finset.range P.count) (path : P.problem.Path s order t) :
    t.1 ⊆ Finset.range P.count := by
  induction path with
  | here => exact inside
  | move listed _ ih =>
      obtain ⟨i, bound, _, _, value, _, _, rfl⟩ := mem_placements.mp listed
      exact ih (Finset.insert_subset (Finset.mem_range.mpr bound) inside)

/-- From the start as many operations are placed as stand in the order. -/
theorem card_of_path {start : σ} {t : Finset ℕ × σ} {order : List ι}
    (path : P.problem.Path (∅, start) order t) : t.1.card = order.length := by
  have level := path.level P.problem_leveled
  rwa [Finset.card_empty, Nat.zero_add] at level

/-- **The search has frames enough** when enough is placed once all operations are, and it
has more than one for each operation of an order that places some. -/
theorem search_returns [DecidableEq σ] (P : Placing ι σ) (start : σ) {frames : ℕ}
    (some' : 0 < frames)
    (done : ∀ placed ⊆ Finset.range P.count, placed = Finset.range P.count →
      P.finished placed = true)
    (shallow : ∀ order t, P.problem.Path (∅, start) order t → order.length < P.count →
      order.length + 1 < frames) :
    ∃ answer after, search P.problem none frames (∅, start) {} = .returns answer after := by
  refine MemoSearch.search_returns some' (fun order t path open' => ?_) {}
  have inside := subset_of_path (Finset.empty_subset _) path
  have left : t.1 ≠ Finset.range P.count := by
    intro all
    rw [show P.problem.isGoal t = P.finished t.1 from rfl, done t.1 inside all] at open'
    cases open'
  have fewer := Finset.card_lt_card (inside.ssubset_of_ne left)
  rw [card_of_path path, Finset.card_range] at fewer
  exact shallow order t path fewer

/-- The numbered operations are those of an observation. -/
structure Describes (P : Placing ι σ) (O : Observation ι) (step : ι → σ → Option σ) : Prop where
  distinct : ∀ i < P.count, ∀ j < P.count, P.name i = P.name j → i = j
  sound : ∀ i < P.count, (O.responded (P.name i)).isSome ∨ O.optional (P.name i)
  complete : ∀ a, (O.responded a).isSome ∨ O.optional a → ∃ i < P.count, P.name i = a
  predecessors : ∀ i < P.count, ∀ j,
    j ∈ P.predecessors i ↔ j < P.count ∧ O.Precedes (P.name j) (P.name i)
  effect : ∀ i < P.count, ∀ value, P.effect i value = step (P.name i) value
  finished : ∀ placed ⊆ Finset.range P.count, P.finished placed = true ↔
    ∀ i < P.count, (O.responded (P.name i)).isSome → i ∈ placed

/-- An order extends what is placed. -/
structure Extends (P : Placing ι σ) (O : Observation ι) (step : ι → σ → Option σ)
    (placed : Finset ℕ) (value : σ) (order : List ι) : Prop where
  nodup : order.Nodup
  fresh : ∀ a ∈ order, ∃ i < P.count, i ∉ placed ∧ P.name i = a
  closed : ∀ b ∈ order, ∀ j < P.count, O.Precedes (P.name j) b → P.name j ∈ order ∨ j ∈ placed
  inTime : order.Pairwise fun a b => ¬ O.Precedes b a
  legal : Legal step value order

/-- The operations of a list, numbered by their positions. -/
def ofList {α : Type*} [Inhabited ι] (items : List α) (name : α → ι) (before : α → α → Bool)
    (effect : α → σ → Option σ) (finished : Finset ℕ → Bool) : Placing ι σ where
  count := items.length
  name i := (items[i]?.map name).getD default
  predecessors i := (Finset.range items.length).filter fun j =>
    items[j]?.any fun other => items[i]?.any fun current => before other current
  effect i value := items[i]?.bind fun item => effect item value
  finished := finished

/-- When the operations of a list are those of an observation. -/
theorem describes_ofList {α : Type*} [Inhabited ι] {items : List α} {name : α → ι}
    {before : α → α → Bool} {effect : α → σ → Option σ} {finished : Finset ℕ → Bool}
    {O : Observation ι} {step : ι → σ → Option σ} (distinct : (items.map name).Nodup)
    (sound : ∀ item ∈ items, (O.responded (name item)).isSome ∨ O.optional (name item))
    (complete : ∀ a, (O.responded a).isSome ∨ O.optional a → ∃ item ∈ items, name item = a)
    (precedes : ∀ item ∈ items, ∀ other ∈ items,
      before other item = true ↔ O.Precedes (name other) (name item))
    (effects : ∀ item ∈ items, ∀ value, effect item value = step (name item) value)
    (enough : ∀ placed ⊆ Finset.range items.length, finished placed = true ↔
      ∀ i item, items[i]? = some item → (O.responded (name item)).isSome → i ∈ placed) :
    (ofList items name before effect finished).Describes O step where
  distinct := by
    intro i bound j bound' same
    have first : items[i]? = some items[i] := List.getElem?_eq_getElem bound
    have second : items[j]? = some items[j] := List.getElem?_eq_getElem bound'
    simp only [ofList, first, second, Option.map_some, Option.getD_some] at same
    have named : i < (items.map name).length := by
      rw [List.length_map]
      exact bound
    have named' : j < (items.map name).length := by
      rw [List.length_map]
      exact bound'
    have equal : (items.map name)[i] = (items.map name)[j] := by
      rw [List.getElem_map, List.getElem_map]
      exact same
    exact (List.Nodup.getElem_inj_iff distinct).mp equal
  sound := by
    intro i bound
    have here : items[i]? = some items[i] := List.getElem?_eq_getElem bound
    simp only [ofList, here, Option.map_some, Option.getD_some]
    exact sound _ (List.getElem_mem bound)
  complete := by
    intro a seen
    obtain ⟨item, member, rfl⟩ := complete a seen
    obtain ⟨i, bound, rfl⟩ := List.mem_iff_getElem.mp member
    refine ⟨i, bound, ?_⟩
    simp only [ofList, List.getElem?_eq_getElem bound, Option.map_some, Option.getD_some]
  predecessors := by
    intro i bound j
    have here : items[i]? = some items[i] := List.getElem?_eq_getElem bound
    simp only [ofList, Finset.mem_filter, Finset.mem_range, here]
    refine and_congr_right fun bound' => ?_
    have there : items[j]? = some items[j] := List.getElem?_eq_getElem bound'
    simp only [there, Option.any_some, Option.map_some, Option.getD_some]
    exact precedes _ (List.getElem_mem bound) _ (List.getElem_mem bound')
  effect := by
    intro i bound value
    have here : items[i]? = some items[i] := List.getElem?_eq_getElem bound
    simp only [ofList, here, Option.bind_some, Option.map_some, Option.getD_some]
    exact effects _ (List.getElem_mem bound) value
  finished := by
    intro placed inside
    rw [show (ofList items name before effect finished).finished placed = finished placed from rfl,
      enough placed inside]
    constructor
    · intro all i bound answered
      have here : items[i]? = some items[i] := List.getElem?_eq_getElem bound
      simp only [ofList, here, Option.map_some, Option.getD_some] at answered
      exact all i _ here answered
    · intro all i item here answered
      refine all i (List.getElem?_eq_some_iff.mp here).1 ?_
      simp only [ofList, here, Option.map_some, Option.getD_some]
      exact answered

section Exactness

variable {O : Observation ι} {step : ι → σ → Option σ}

/-- What labels lead to extends what was placed, and is placed as well. -/
theorem Describes.extends_of_path (describes : P.Describes O step) {s t : Finset ℕ × σ}
    {order : List ι} (path : P.problem.Path s order t) :
    P.Extends O step s.1 s.2 order ∧
      ∀ i < P.count, i ∈ t.1 ↔ i ∈ s.1 ∨ P.name i ∈ order := by
  induction path with
  | here =>
      refine ⟨⟨.nil, fun a member => absurd member List.not_mem_nil, fun b member => ?_, .nil,
        trivial⟩, fun i _ => ?_⟩
      · exact absurd member List.not_mem_nil
      · rw [or_iff_left List.not_mem_nil]
  | move listed _ ih =>
      rename_i s _ t _ order _
      obtain ⟨i, bound, fresh, ready, value, stepped, rfl, rfl⟩ := mem_placements.mp listed
      obtain ⟨rest, placed⟩ := ih
      have later : ∀ b ∈ order, ∃ j < P.count, j ∉ s.1 ∧ j ≠ i ∧ P.name j = b := by
        intro b member
        obtain ⟨j, bound', fresh', rfl⟩ := rest.fresh b member
        rw [Finset.mem_insert, not_or] at fresh'
        exact ⟨j, bound', fresh'.2, fresh'.1, rfl⟩
      refine ⟨⟨?_, ?_, ?_, ?_, ?_⟩, ?_⟩
      · refine List.nodup_cons.mpr ⟨fun again => ?_, rest.nodup⟩
        obtain ⟨j, bound', _, other, same⟩ := later _ again
        exact other (describes.distinct j bound' i bound same)
      · intro a member
        rcases List.mem_cons.mp member with rfl | member
        · exact ⟨i, bound, fresh, rfl⟩
        · obtain ⟨j, bound', fresh', _, same⟩ := later a member
          exact ⟨j, bound', fresh', same⟩
      · intro b member j bound' before
        rcases List.mem_cons.mp member with rfl | member
        · exact .inr (ready ((describes.predecessors i bound j).mpr ⟨bound', before⟩))
        · rcases rest.closed b member j bound' before with listed' | known
          · exact .inl (List.mem_cons_of_mem _ listed')
          · rcases Finset.mem_insert.mp known with rfl | known
            · exact .inl List.mem_cons_self
            · exact .inr known
      · refine List.pairwise_cons.mpr ⟨fun b member before => ?_, rest.inTime⟩
        obtain ⟨j, bound', fresh', _, rfl⟩ := later b member
        exact fresh' (ready ((describes.predecessors i bound j).mpr ⟨bound', before⟩))
      · exact ⟨value, by rw [← describes.effect i bound]; exact stepped, rest.legal⟩
      · intro j bound'
        have named : P.name j = P.name i ↔ j = i :=
          ⟨describes.distinct j bound' i bound, fun same => same ▸ rfl⟩
        rw [placed j bound', Finset.mem_insert, List.mem_cons, named]
        tauto

theorem Describes.path_of_extends (describes : P.Describes O step) (timely : O.Timely)
    {placed : Finset ℕ} {value : σ} {order : List ι}
    (extends' : P.Extends O step placed value order) :
    ∃ t, P.problem.Path (placed, value) order t := by
  induction order generalizing placed value with
  | nil => exact ⟨_, .here⟩
  | cons a rest ih =>
      obtain ⟨i, bound, fresh, rfl⟩ := extends'.fresh a List.mem_cons_self
      obtain ⟨first, inTime⟩ := List.pairwise_cons.mp extends'.inTime
      obtain ⟨once, nodup⟩ := List.nodup_cons.mp extends'.nodup
      obtain ⟨value', stepped, legal⟩ := extends'.legal
      have ready : P.predecessors i ⊆ placed := by
        intro j before
        obtain ⟨bound', precedes⟩ := (describes.predecessors i bound j).mp before
        rcases extends'.closed _ List.mem_cons_self j bound' precedes with member | known
        · rcases List.mem_cons.mp member with same | later
          · rw [same] at precedes
            exact absurd precedes (timely.irreflexive _)
          · exact absurd precedes (first _ later)
        · exact known
      have later : P.Extends O step (insert i placed) value' rest := by
        refine ⟨nodup, fun b member => ?_, fun b member j bound' before => ?_, inTime, legal⟩
        · obtain ⟨j, bound', fresh', rfl⟩ := extends'.fresh b (List.mem_cons_of_mem _ member)
          refine ⟨j, bound', ?_, rfl⟩
          rw [Finset.mem_insert, not_or]
          exact ⟨fun same => once (same ▸ member), fresh'⟩
        · rcases extends'.closed b (List.mem_cons_of_mem _ member) j bound' before with
            member | known
          · rcases List.mem_cons.mp member with same | here
            · have equal := describes.distinct j bound' i bound same
              exact .inr (equal ▸ Finset.mem_insert_self i placed)
            · exact .inl here
          · exact .inr (Finset.mem_insert_of_mem known)
      obtain ⟨t, path⟩ := ih later
      exact ⟨t, .move (mem_placements.mpr ⟨i, bound, fresh, ready, value',
        (describes.effect i bound value).trans stepped, rfl, rfl⟩) path⟩

/-- **The search follows the beginnings** of sequential runs. -/
theorem Describes.path_iff (describes : P.Describes O step) (timely : O.Timely) {start : σ}
    {order : List ι} :
    (∃ t, P.problem.Path (∅, start) order t) ↔ Begins O step start order := by
  constructor
  · rintro ⟨t, path⟩
    obtain ⟨run, -⟩ := describes.extends_of_path path
    have known : ∀ a, (O.responded a).isSome ∨ O.optional a → ∃ i < P.count, P.name i = a :=
      describes.complete
    refine ⟨run.nodup, fun a member => ?_, fun b member a before => ?_, run.inTime, run.legal⟩
    · obtain ⟨i, bound, _, rfl⟩ := run.fresh a member
      exact describes.sound i bound
    · obtain ⟨i, bound, rfl⟩ := known a (.inl before.answered)
      exact (run.closed b member i bound before).resolve_right (Finset.notMem_empty i)
  · intro begins
    refine describes.path_of_extends timely ⟨begins.nodup, fun a member => ?_,
      fun b member j _ before => .inl (begins.closed b member _ before), begins.inTime,
      begins.legal⟩
    obtain ⟨i, bound, same⟩ := describes.complete a (begins.allowed a member)
    exact ⟨i, bound, Finset.notMem_empty i, same⟩

/-- **The search looks for linearizations.** -/
theorem Describes.leads_iff (describes : P.Describes O step) (timely : O.Timely) {start : σ}
    {order : List ι} :
    P.problem.Leads (∅, start) order ↔ Linearizes O step start order := by
  constructor
  · rintro ⟨t, path, done⟩
    have begins := (describes.path_iff timely).mp ⟨t, path⟩
    have inside := subset_of_path (Finset.empty_subset _) path
    refine ⟨begins.nodup, fun a answered => ?_, begins.allowed, begins.inTime, begins.legal⟩
    obtain ⟨i, bound, rfl⟩ := describes.complete a (.inl answered)
    have placed := (describes.finished t.1 inside).mp done i bound answered
    exact (((describes.extends_of_path path).2 i bound).mp placed).resolve_left
      (Finset.notMem_empty i)
  · intro linearizes
    have begins := linearizes.begins order.length
    rw [List.take_length] at begins
    obtain ⟨t, path⟩ := (describes.path_iff timely).mpr begins
    have inside := subset_of_path (Finset.empty_subset _) path
    refine ⟨t, path, (describes.finished t.1 inside).mpr fun i bound answered => ?_⟩
    exact ((describes.extends_of_path path).2 i bound).mpr (.inr (linearizes.complete _ answered))

/-- What a search for a linearization answers. -/
def Explains (O : Observation ι) (step : ι → σ → Option σ) (start : σ) :
    Option (List ι) → Prop
  | some order => Linearizes O step start order
  | none => ¬ ∃ order, Linearizes O step start order

theorem Explains.isSome_iff {start : σ} {answer : Option (List ι)}
    (explains : Explains O step start answer) :
    answer.isSome = true ↔ ∃ order, Linearizes O step start order := by
  cases answer with
  | some order => exact iff_of_true rfl ⟨order, explains⟩
  | none => exact iff_of_false Bool.false_ne_true explains

/-- **The search for a linearization is exact.** -/
theorem Describes.search_exact [DecidableEq σ] (describes : P.Describes O step)
    (timely : O.Timely) {limit : Option ℕ} {frames : ℕ} {start : σ}
    {after : Memo (Finset ℕ × σ)} {answer : Option (List ι)}
    (returned : search P.problem limit frames (∅, start) {} = .returns answer after) :
    Explains O step start answer := by
  have answers := search_answers (s := (∅, start)) returned
  cases answer with
  | some order => exact (describes.leads_iff timely).mp answers
  | none =>
      rintro ⟨order, linearizes⟩
      exact answers order ((describes.leads_iff timely).mpr linearizes)

end Exactness

end Placing

end Distlab.Foundations.Linearizability
