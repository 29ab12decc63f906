import Mathlib.Data.List.Basic
import Mathlib.Data.List.Nodup
import Mathlib.Logic.Function.Basic
import Mathlib.Order.Lattice

/-!
# Linearizability

An observation of a concurrent object says when each operation was invoked, when it
was answered, and which unanswered operations may have taken effect. A linearization
is a sequential run of the answered operations and some of those others, in which no
operation stands after one that was invoked when it had been answered already.

Linearizability is local (`locality`): a history over several objects has a
linearization over their shared state if and only if each object has one. The
linearizations of the objects are merged by stamps: the stamp of an operation is the
latest invocation in its object's order up to it. Every operation is stamped between
its invocation and its answer, so the stamps order all objects in time.
-/

set_option autoImplicit false

namespace Distlab.Foundations.Linearizability

universe u v w

/-- What is seen of the operations. -/
structure Observation (ι : Type u) where
  invoked : ι → ℕ
  responded : ι → Option ℕ
  /-- The operation was not answered and may have taken effect. -/
  optional : ι → Prop

/-- An operation was answered before another was invoked. -/
def Observation.Precedes {ι : Type u} (O : Observation ι) (a b : ι) : Prop :=
  ∃ time ∈ O.responded a, time < O.invoked b

/-- An operation is answered after its invocation. -/
def Observation.Timely {ι : Type u} (O : Observation ι) : Prop :=
  ∀ a, ∀ time ∈ O.responded a, O.invoked a ≤ time

/-- The steps of a sequential run are all possible. -/
def Legal {ι : Type u} {σ : Type v} (step : ι → σ → Option σ) : σ → List ι → Prop
  | _, [] => True
  | s, a :: rest => ∃ s', step a s = some s' ∧ Legal step s' rest

/-- An order of operations explains an observation. -/
structure Linearizes {ι : Type u} {σ : Type v} (O : Observation ι) (step : ι → σ → Option σ)
    (start : σ) (order : List ι) : Prop where
  nodup : order.Nodup
  complete : ∀ a, (O.responded a).isSome → a ∈ order
  allowed : ∀ a ∈ order, (O.responded a).isSome ∨ O.optional a
  inTime : order.Pairwise fun a b => ¬ O.Precedes b a
  legal : Legal step start order

/-- An order of operations begins a sequential run: each stands after those that were
answered before its invocation. -/
structure Begins {ι : Type u} {σ : Type v} (O : Observation ι) (step : ι → σ → Option σ)
    (start : σ) (order : List ι) : Prop where
  nodup : order.Nodup
  allowed : ∀ a ∈ order, (O.responded a).isSome ∨ O.optional a
  closed : ∀ b ∈ order, ∀ a, O.Precedes a b → a ∈ order
  inTime : order.Pairwise fun a b => ¬ O.Precedes b a
  legal : Legal step start order

section Basics

variable {ι : Type u} {σ : Type v} {O O' : Observation ι} {step step' : ι → σ → Option σ}

theorem Observation.Timely.irreflexive (timely : O.Timely) (a : ι) : ¬ O.Precedes a a := by
  rintro ⟨time, answered, earlier⟩
  have := timely a time answered
  omega

theorem Observation.Precedes.answered {a b : ι} (precedes : O.Precedes a b) :
    (O.responded a).isSome := by
  obtain ⟨time, answered, _⟩ := precedes
  exact Option.isSome_of_mem answered

theorem Legal.congr {order : List ι} (same : ∀ a ∈ order, ∀ s, step a s = step' a s) {s : σ}
    (legal : Legal step s order) : Legal step' s order := by
  induction order generalizing s with
  | nil => trivial
  | cons a rest ih =>
      obtain ⟨s', stepped, legal'⟩ := legal
      refine ⟨s', ?_, ih (fun b member => same b (List.mem_cons_of_mem _ member)) legal'⟩
      rw [← same a List.mem_cons_self]
      exact stepped

theorem Legal.take {order : List ι} {s : σ} (legal : Legal step s order) (n : ℕ) :
    Legal step s (order.take n) := by
  induction order generalizing s n with
  | nil => rwa [List.take_nil]
  | cons a rest ih =>
      cases n with
      | zero => trivial
      | succ n =>
          obtain ⟨s', stepped, legal'⟩ := legal
          exact ⟨s', stepped, ih legal' n⟩

/-- An order that explains an observation begins with any of its first operations. -/
theorem Linearizes.begins {start : σ} {order : List ι} (linearizes : Linearizes O step start order)
    (n : ℕ) : Begins O step start (order.take n) where
  nodup := linearizes.nodup.sublist (List.take_sublist n order)
  allowed a member := linearizes.allowed a (List.mem_of_mem_take member)
  closed b member a precedes := by
    have listed := linearizes.complete a precedes.answered
    rw [← List.take_append_drop n order, List.mem_append] at listed
    refine listed.resolve_right fun later => ?_
    have inTime := linearizes.inTime
    rw [← List.take_append_drop n order] at inTime
    exact (List.pairwise_append.mp inTime).2.2 b member a later precedes
  inTime := linearizes.inTime.sublist (List.take_sublist n order)
  legal := linearizes.legal.take n

/-- Observations that agree on the operations that may take effect begin alike. -/
theorem Begins.congr {start : σ} {order : List ι}
    (allowed : ∀ a, (O.responded a).isSome ∨ O.optional a →
      (O'.responded a).isSome ∨ O'.optional a)
    (precedes : ∀ b, (O.responded b).isSome ∨ O.optional b →
      ∀ a, O'.Precedes a b ↔ O.Precedes a b)
    (same : ∀ a, (O.responded a).isSome ∨ O.optional a → ∀ s, step a s = step' a s)
    (begins : Begins O step start order) : Begins O' step' start order where
  nodup := begins.nodup
  allowed a member := allowed a (begins.allowed a member)
  closed b member a before :=
    begins.closed b member a ((precedes b (begins.allowed b member) a).mp before)
  inTime := by
    refine List.Pairwise.imp_of_mem ?_ begins.inTime
    intro a b first second inTime before
    exact inTime ((precedes a (begins.allowed a first) b).mp before)
  legal := begins.legal.congr fun a member => same a (begins.allowed a member)

/-- Observations that agree on the operations of an order are explained by it alike. -/
theorem Linearizes.congr {start : σ} {order : List ι}
    (answered : ∀ a, (O'.responded a).isSome ↔ (O.responded a).isSome)
    (optional : ∀ a ∈ order, O.optional a → O'.optional a)
    (precedes : ∀ a ∈ order, ∀ b ∈ order, O'.Precedes a b → O.Precedes a b)
    (same : ∀ a ∈ order, ∀ s, step a s = step' a s)
    (linearizes : Linearizes O step start order) : Linearizes O' step' start order where
  nodup := linearizes.nodup
  complete := fun a seen => linearizes.complete a ((answered a).mp seen)
  allowed := fun a member =>
    (linearizes.allowed a member).imp (answered a).mpr (optional a member)
  inTime := by
    refine List.Pairwise.imp_of_mem ?_ linearizes.inTime
    intro a b first second inTime before
    exact inTime (precedes b second a first before)
  legal := linearizes.legal.congr same

/-- Observations that agree on the operations that may take effect are explained alike. -/
theorem linearizes_congr {start : σ} {order : List ι}
    (answered : ∀ a, (O'.responded a).isSome ↔ (O.responded a).isSome)
    (optional : ∀ a, O'.optional a ↔ O.optional a)
    (precedes : ∀ a b, (O.responded a).isSome ∨ O.optional a →
      (O.responded b).isSome ∨ O.optional b → (O'.Precedes a b ↔ O.Precedes a b))
    (same : ∀ a, (O.responded a).isSome ∨ O.optional a → ∀ s, step a s = step' a s) :
    Linearizes O step start order ↔ Linearizes O' step' start order := by
  constructor
  · intro linearizes
    exact linearizes.congr answered (fun a _ => (optional a).mpr)
      (fun a first b second => (precedes a b (linearizes.allowed a first)
        (linearizes.allowed b second)).mp)
      fun a member => same a (linearizes.allowed a member)
  · intro linearizes
    have allowed : ∀ a ∈ order, (O.responded a).isSome ∨ O.optional a := fun a member =>
      (linearizes.allowed a member).imp (answered a).mp (optional a).mp
    exact linearizes.congr (fun a => (answered a).symm) (fun a _ => (optional a).mp)
      (fun a first b second => (precedes a b (allowed a first) (allowed b second)).mpr)
      fun a member s => (same a (allowed a member) s).symm

end Basics

/-! ## Some of the operations -/

section Restricted

variable {ι : Type u} {keeps : ι → Prop} [DecidablePred keeps]

/-- What is seen of the operations that are kept. -/
def Observation.restrict (O : Observation ι) (keeps : ι → Prop) [DecidablePred keeps] :
    Observation ι where
  invoked := O.invoked
  responded a := if keeps a then O.responded a else none
  optional a := keeps a ∧ O.optional a

theorem Observation.precedes_restrict (O : Observation ι) {a b : ι} :
    (O.restrict keeps).Precedes a b ↔ keeps a ∧ O.Precedes a b := by
  unfold Precedes restrict
  by_cases here : keeps a
  · simp [here]
  · simp [here]

theorem Observation.isSome_responded_restrict (O : Observation ι) {a : ι} :
    ((O.restrict keeps).responded a).isSome ↔ keeps a ∧ (O.responded a).isSome := by
  unfold restrict
  by_cases here : keeps a
  · simp [here]
  · simp [here]

end Restricted

/-! ## Several objects -/

section Objects

variable {ι : Type u} {κ : Type w} {σ : Type v} [DecidableEq κ]

/-- What is seen of the operations on one object. -/
def Observation.on (O : Observation ι) (object : ι → κ) (k : κ) : Observation ι where
  invoked := O.invoked
  responded a := if object a = k then O.responded a else none
  optional a := object a = k ∧ O.optional a

/-- An operation on the state of all objects changes its own. -/
def sharedStep (object : ι → κ) (step : ι → σ → Option σ) (a : ι) (states : κ → σ) :
    Option (κ → σ) :=
  (step a (states (object a))).map (Function.update states (object a))

/-- The operations on one object, in order. -/
def projection (object : ι → κ) (k : κ) (order : List ι) : List ι :=
  order.filter (object · = k)

variable {O : Observation ι} {object : ι → κ} {step : ι → σ → Option σ}

theorem mem_projection {k : κ} {order : List ι} {a : ι} :
    a ∈ projection object k order ↔ a ∈ order ∧ object a = k := by
  rw [projection, List.mem_filter, decide_eq_true_eq]

theorem Observation.precedes_on {k : κ} {a b : ι} :
    (O.on object k).Precedes a b ↔ object a = k ∧ O.Precedes a b :=
  O.precedes_restrict

theorem Observation.isSome_responded_on {k : κ} {a : ι} :
    ((O.on object k).responded a).isSome ↔ object a = k ∧ (O.responded a).isSome :=
  O.isSome_responded_restrict

/-- A run over all objects is legal when each object's own run is. -/
theorem legal_sharedStep {order : List ι} {states : κ → σ} :
    Legal (sharedStep object step) states order ↔
      ∀ k, Legal step (states k) (projection object k order) := by
  induction order generalizing states with
  | nil => exact iff_of_true trivial fun _ => trivial
  | cons a rest ih =>
      have here : ∀ k, object a = k → projection object k (a :: rest) =
          a :: projection object k rest := fun k same => List.filter_cons_of_pos (by simp [same])
      have elsewhere : ∀ k, object a ≠ k → projection object k (a :: rest) =
          projection object k rest := fun k other => List.filter_cons_of_neg (by simp [other])
      constructor
      · rintro ⟨states', stepped, legal⟩ k
        obtain ⟨s', own, rfl⟩ := Option.map_eq_some_iff.mp stepped
        have legal' := ih.mp legal k
        by_cases same : object a = k
        · subst same
          rw [Function.update_self] at legal'
          rw [here _ rfl]
          exact ⟨s', own, legal'⟩
        · rw [Function.update_of_ne (Ne.symm same)] at legal'
          rw [elsewhere k same]
          exact legal'
      · intro legal
        have own := legal (object a)
        rw [here _ rfl] at own
        obtain ⟨s', stepped, legal'⟩ := own
        refine ⟨Function.update states (object a) s', by rw [sharedStep, stepped]; rfl, ?_⟩
        refine ih.mpr fun k => ?_
        by_cases same : object a = k
        · subst same
          rw [Function.update_self]
          exact legal'
        · rw [Function.update_of_ne (Ne.symm same), ← elsewhere k same]
          exact legal k

/-- The operations on one object, in the order of a linearization of them all. -/
theorem Linearizes.projection {states : κ → σ} {order : List ι} (k : κ)
    (linearizes : Linearizes O (sharedStep object step) states order) :
    Linearizes (O.on object k) step (states k) (projection object k order) where
  nodup := linearizes.nodup.filter _
  complete := by
    intro a seen
    obtain ⟨here, answered⟩ := Observation.isSome_responded_on.mp seen
    exact mem_projection.mpr ⟨linearizes.complete a answered, here⟩
  allowed := by
    intro a member
    obtain ⟨listed, here⟩ := mem_projection.mp member
    exact (linearizes.allowed a listed).imp
      (fun answered => Observation.isSome_responded_on.mpr ⟨here, answered⟩) (⟨here, ·⟩)
  inTime := by
    refine (linearizes.inTime.sublist List.filter_sublist).imp ?_
    intro a b inTime before
    exact inTime (Observation.precedes_on.mp before).2
  legal := legal_sharedStep.mp linearizes.legal k

/-! ## Stamps -/

/-- Each operation with the latest invocation up to it. -/
def stamped (O : Observation ι) : ℕ → List ι → List (ℕ × ι)
  | _, [] => []
  | latest, a :: rest =>
      (max latest (O.invoked a), a) :: stamped O (max latest (O.invoked a)) rest

theorem map_snd_stamped (latest : ℕ) (order : List ι) :
    (stamped O latest order).map Prod.snd = order := by
  induction order generalizing latest with
  | nil => rfl
  | cons a rest ih => rw [stamped, List.map_cons, ih]

theorem le_of_mem_stamped {latest : ℕ} {order : List ι} {entry : ℕ × ι}
    (member : entry ∈ stamped O latest order) :
    latest ≤ entry.1 ∧ O.invoked entry.2 ≤ entry.1 := by
  induction order generalizing latest with
  | nil => cases member
  | cons a rest ih =>
      rcases List.mem_cons.mp member with rfl | later
      · exact ⟨Nat.le_max_left _ _, Nat.le_max_right _ _⟩
      · obtain ⟨above, own⟩ := ih later
        exact ⟨(Nat.le_max_left _ _).trans above, own⟩

theorem pairwise_stamped (latest : ℕ) (order : List ι) :
    (stamped O latest order).Pairwise fun e f => e.1 ≤ f.1 := by
  induction order generalizing latest with
  | nil => exact .nil
  | cons a rest ih =>
      refine List.pairwise_cons.mpr ⟨fun entry later => ?_, ih _⟩
      exact (le_of_mem_stamped later).1

/-- No operation is stamped after its answer. -/
theorem stamp_le_answer (timely : O.Timely) {latest : ℕ} {order : List ι}
    (inTime : order.Pairwise fun a b => ¬ O.Precedes b a)
    (early : ∀ a ∈ order, ∀ time ∈ O.responded a, latest ≤ time) {entry : ℕ × ι}
    (member : entry ∈ stamped O latest order) : ∀ time ∈ O.responded entry.2, entry.1 ≤ time := by
  induction order generalizing latest with
  | nil => cases member
  | cons a rest ih =>
      obtain ⟨first, inTime'⟩ := List.pairwise_cons.mp inTime
      rcases List.mem_cons.mp member with rfl | later
      · intro time answered
        exact Nat.max_le.mpr ⟨early a List.mem_cons_self time answered, timely a time answered⟩
      · refine ih inTime' (fun b listed time answered => ?_) later
        refine Nat.max_le.mpr ⟨early b (List.mem_cons_of_mem _ listed) time answered, ?_⟩
        exact Nat.le_of_not_lt fun before => first b listed ⟨time, answered, before⟩

/-- The orders of the objects, merged by their stamps. -/
def merged (O : Observation ι) (keys : List κ) (orders : κ → List ι) : List (ℕ × ι) :=
  (keys.flatMap fun k => stamped O 0 (orders k)).mergeSort (·.1 ≤ ·.1)

omit [DecidableEq κ] in
theorem mem_merged {keys : List κ} {orders : κ → List ι} {entry : ℕ × ι} :
    entry ∈ merged O keys orders ↔ ∃ k ∈ keys, entry ∈ stamped O 0 (orders k) := by
  rw [merged, List.mem_mergeSort, List.mem_flatMap]

omit [DecidableEq κ] in
theorem pairwise_merged (keys : List κ) (orders : κ → List ι) :
    (merged O keys orders).Pairwise fun e f => e.1 ≤ f.1 := by
  have sorted : (merged O keys orders).Pairwise fun e f => decide (e.1 ≤ f.1) = true := by
    apply List.pairwise_mergeSort
    · intro a b c first second
      simp only [decide_eq_true_eq] at *
      omega
    · intro a b
      simp only [Bool.or_eq_true, decide_eq_true_eq]
      omega
  exact sorted.imp of_decide_eq_true

theorem mem_orders_of_mem_stamped {latest : ℕ} {order : List ι} {entry : ℕ × ι}
    (member : entry ∈ stamped O latest order) : entry.2 ∈ order := by
  rw [← map_snd_stamped (O := O) latest order]
  exact List.mem_map_of_mem member

omit [DecidableEq κ] in
/-- Of a concatenation of lists, one of which alone meets a test, the test keeps that one. -/
theorem filter_flatMap_eq {α : Type*} {keys : List κ} {lists : κ → List α} {test : α → Bool}
    {k : κ} (nodup : keys.Nodup) (listed : k ∈ keys) (kept : ∀ a ∈ lists k, test a = true)
    (dropped : ∀ k' ∈ keys, k' ≠ k → ∀ a ∈ lists k', test a = false) :
    (keys.flatMap lists).filter test = lists k := by
  have others : ∀ keys' : List κ, (∀ k' ∈ keys', k' ∈ keys ∧ k' ≠ k) →
      (keys'.flatMap lists).filter test = [] := by
    intro keys' apart
    refine List.filter_eq_nil_iff.mpr fun a member => ?_
    obtain ⟨k', listed', member'⟩ := List.mem_flatMap.mp member
    obtain ⟨known, other⟩ := apart k' listed'
    rw [dropped k' known other a member']
    exact Bool.false_ne_true
  obtain ⟨before, after, rfl⟩ := List.append_of_mem listed
  have unique := List.nodup_middle.mp nodup
  obtain ⟨fresh, _⟩ := List.nodup_cons.mp unique
  rw [List.mem_append, not_or] at fresh
  rw [List.flatMap_append, List.flatMap_cons, List.filter_append, List.filter_append,
    others before fun k' member => ⟨List.mem_append_left _ member, fun same =>
      fresh.1 (same ▸ member)⟩,
    others after fun k' member => ⟨List.mem_append_right _ (List.mem_cons_of_mem _ member),
      fun same => fresh.2 (same ▸ member)⟩,
    List.filter_eq_self.mpr kept, List.nil_append, List.append_nil]

/-- Merging keeps each object's order. -/
theorem projection_merged {keys : List κ} {orders : κ → List ι} (nodup : keys.Nodup)
    (own : ∀ k ∈ keys, ∀ a ∈ orders k, object a = k) {k : κ} (listed : k ∈ keys) :
    projection object k ((merged O keys orders).map Prod.snd) = orders k := by
  have here : ∀ entry ∈ stamped O 0 (orders k), decide (object entry.2 = k) = true :=
    fun entry member => decide_eq_true (own k listed _ (mem_orders_of_mem_stamped member))
  have elsewhere : ∀ k' ∈ keys, k' ≠ k → ∀ entry ∈ stamped O 0 (orders k'),
      decide (object entry.2 = k) = false := by
    intro k' listed' other entry member
    exact decide_eq_false fun same =>
      other ((own k' listed' _ (mem_orders_of_mem_stamped member)).symm.trans same)
  set mine := (merged O keys orders).filter fun entry => decide (object entry.2 = k) with mine_eq
  have projected : projection object k ((merged O keys orders).map Prod.snd) =
      mine.map Prod.snd := List.filter_map
  have kept : (stamped O 0 (orders k)).Sublist (merged O keys orders) := by
    refine List.sublist_mergeSort ?_ ?_ ?_ ?_
    · intro a b c first second
      simp only [decide_eq_true_eq] at *
      omega
    · intro a b
      simp only [Bool.or_eq_true, decide_eq_true_eq]
      omega
    · exact (pairwise_stamped 0 (orders k)).imp decide_eq_true
    · exact List.sublist_flatten_of_mem (List.mem_map_of_mem listed)
  have sublist : (stamped O 0 (orders k)).Sublist mine := by
    have filtered := kept.filter fun entry => decide (object entry.2 = k)
    rwa [List.filter_eq_self.mpr here] at filtered
  have count : mine.length = (stamped O 0 (orders k)).length := by
    rw [mine_eq, merged, ((List.mergeSort_perm _ _).filter _).length_eq,
      filter_flatMap_eq nodup listed here elsewhere]
  rw [projected, ← sublist.eq_of_length count.symm, map_snd_stamped]

/-- A list is free of duplicates when each object's part of it is. -/
theorem nodup_of_projections {order : List ι}
    (unique : ∀ a ∈ order, (projection object (object a) order).Nodup) : order.Nodup := by
  classical
  refine List.nodup_iff_count_le_one.mpr fun a => ?_
  by_cases listed : a ∈ order
  · have own := List.nodup_iff_count_le_one.mp (unique a listed) a
    rwa [projection, List.count_filter (by simp)] at own
  · rw [List.count_eq_zero_of_not_mem listed]
    exact Nat.zero_le 1

/-! ## Locality -/

/-- Linearizations of the objects merge into one of them all. -/
theorem linearizes_merged (timely : O.Timely) {states : κ → σ} {keys : List κ}
    (nodup : keys.Nodup) (listed : ∀ a, (O.responded a).isSome → object a ∈ keys)
    {orders : κ → List ι}
    (linearizes : ∀ k ∈ keys, Linearizes (O.on object k) step (states k) (orders k)) :
    Linearizes O (sharedStep object step) states ((merged O keys orders).map Prod.snd) := by
  have own : ∀ k ∈ keys, ∀ a ∈ orders k, object a = k := by
    intro k listed a member
    rcases (linearizes k listed).allowed a member with seen | optional
    · exact (Observation.isSome_responded_on.mp seen).1
    · exact optional.1
  have split : ∀ k ∈ keys, projection object k ((merged O keys orders).map Prod.snd) = orders k :=
    fun k listed => projection_merged nodup own listed
  have known : ∀ a ∈ (merged O keys orders).map Prod.snd,
      object a ∈ keys ∧ a ∈ orders (object a) := by
    intro a member
    obtain ⟨entry, inside, rfl⟩ := List.mem_map.mp member
    obtain ⟨k, listed, stamped⟩ := mem_merged.mp inside
    have inOrder := mem_orders_of_mem_stamped stamped
    rw [own k listed _ inOrder]
    exact ⟨listed, inOrder⟩
  have bounds : ∀ entry ∈ merged O keys orders,
      O.invoked entry.2 ≤ entry.1 ∧ ∀ time ∈ O.responded entry.2, entry.1 ≤ time := by
    intro entry member
    obtain ⟨k, listed, stamped⟩ := mem_merged.mp member
    have here := own k listed _ (mem_orders_of_mem_stamped stamped)
    have inTime : (orders k).Pairwise fun a b => ¬ O.Precedes b a := by
      refine List.Pairwise.imp_of_mem ?_ (linearizes k listed).inTime
      intro a b _ second inTime before
      exact inTime (Observation.precedes_on.mpr ⟨own k listed b second, before⟩)
    exact ⟨(le_of_mem_stamped stamped).2,
      stamp_le_answer timely inTime (fun _ _ _ _ => Nat.zero_le _) stamped⟩
  constructor
  · refine @nodup_of_projections _ _ _ object _ fun a member => ?_
    obtain ⟨listed, _⟩ := known a member
    rw [split _ listed]
    exact (linearizes _ listed).nodup
  · intro a answered
    have member := (linearizes _ (listed a answered)).complete a
      (Observation.isSome_responded_on.mpr ⟨rfl, answered⟩)
    rw [← split _ (listed a answered)] at member
    exact (mem_projection.mp member).1
  · intro a member
    obtain ⟨listed, inOrder⟩ := known a member
    exact ((linearizes _ listed).allowed a inOrder).imp
      (fun seen => (Observation.isSome_responded_on.mp seen).2) And.right
  · refine List.pairwise_map.mpr (List.Pairwise.imp_of_mem ?_ (pairwise_merged keys orders))
    rintro e f first second ordered ⟨time, answered, before⟩
    have stampedBefore := (bounds f second).2 time answered
    have stampedAfter := (bounds e first).1
    omega
  · refine legal_sharedStep.mpr fun k => ?_
    by_cases listed : k ∈ keys
    · rw [split k listed]
      exact (linearizes k listed).legal
    · have empty : projection object k ((merged O keys orders).map Prod.snd) = [] := by
        refine List.filter_eq_nil_iff.mpr fun a member same => listed ?_
        rw [← of_decide_eq_true same]
        exact (known a member).1
      rw [empty]
      trivial

/-- **Linearizability is local.** -/
theorem locality (timely : O.Timely) {states : κ → σ} {keys : List κ} (nodup : keys.Nodup)
    (listed : ∀ a, (O.responded a).isSome → object a ∈ keys) :
    (∃ order, Linearizes O (sharedStep object step) states order) ↔
      ∀ k ∈ keys, ∃ order, Linearizes (O.on object k) step (states k) order := by
  constructor
  · rintro ⟨order, linearizes⟩ k _
    exact ⟨_, linearizes.projection k⟩
  · intro each
    have chosen : ∀ k, ∃ order, k ∈ keys →
        Linearizes (O.on object k) step (states k) order := by
      intro k
      by_cases known : k ∈ keys
      · obtain ⟨order, linearizes⟩ := each k known
        exact ⟨order, fun _ => linearizes⟩
      · exact ⟨[], fun absent => absurd absent known⟩
    choose orders linearizes using chosen
    exact ⟨_, linearizes_merged timely nodup listed linearizes⟩

end Objects

end Distlab.Foundations.Linearizability
