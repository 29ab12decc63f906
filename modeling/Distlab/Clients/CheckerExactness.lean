import Distlab.Clients.HistoryRuns
import Distlab.Clients.LinearizabilityChecker

/-!
# The single-key checkers are exact

A register holds one value; an order of operations is explained when each read in it
returns what the register holds. The checkers find such an order where one exists
(`check_answers`, `checkWithPendingExtensions_answers`). The search of `check` follows every
run of completed operations that respects real time and the register, so it is nested too
deep exactly where such a run is long (`check_returns_iff`, `check_overflows`).
-/

set_option autoImplicit false

namespace Distlab.Clients

open Foundations Foundations.MemoSearch Foundations.Linearizability

namespace OperationHistory

/-! ## What is observed -/

/-- The number of the invocation of an operation. -/
def invokedAt (h : OperationHistory) (id : String) : ℕ :=
  ((h.invocationsById.lookup id).map Invocation.sequence).getD 0

/-- The number of the response of an operation. -/
def respondedAt (h : OperationHistory) (id : String) : Option ℕ :=
  (h.completions.lookup id).map Completion.sequence

/-- An unanswered `Put` or `Delete`. -/
def PendingWrite (h : OperationHistory) (id : String) : Prop :=
  id ∉ h.completions ∧
    ∃ invocation, h.invocationsById.lookup id = some invocation ∧ invocation.operation.isWrite

/-- The completed operations alone. -/
def completedObservation (h : OperationHistory) : Observation String where
  invoked := h.invokedAt
  responded := h.respondedAt
  optional _ := False

/-- The completed operations, and pending writes that may have taken effect. -/
def extendedObservation (h : OperationHistory) : Observation String where
  invoked := h.invokedAt
  responded := h.respondedAt
  optional := h.PendingWrite

/-- An operation on a register: a write sets it, a completed read returned what it holds. -/
def registerStep (h : OperationHistory) (id : String) (value : HistoryResult) :
    Option HistoryResult :=
  match (h.invocationsById.lookup id).map Invocation.operation with
  | some (.write (.put _ written)) => some (some written)
  | some (.write (.delete _)) => some none
  | some (.get _) =>
      if (h.completions.lookup id).any (·.result = value) then some value else none
  | none => none

/-- An order of the completed operations that explains them. -/
abbrev LinearizesCompleted (h : OperationHistory) (order : List String) : Prop :=
  Linearizes h.completedObservation h.registerStep none order

/-- An order of the completed operations and some pending writes that explains them. -/
abbrev LinearizesExtended (h : OperationHistory) (order : List String) : Prop :=
  Linearizes h.extendedObservation h.registerStep none order

/-! ## The lists of a history -/

variable {h : OperationHistory}

theorem mem_invocations (wellFormed : h.WellFormed) {invocation : Invocation} :
    invocation ∈ h.invocations ↔
      h.invocationsById.lookup invocation.operationId = some invocation := by
  rw [invocations, List.mem_insertionSort, Dict.mem_values]
  constructor
  · rintro ⟨id, found⟩
    rw [wellFormed.invocationKey id invocation found]
    exact found
  · exact fun found => ⟨_, found⟩

theorem mem_completedOperations (wellFormed : h.WellFormed) {item : CompletedOperation} :
    item ∈ h.completedOperations ↔
      h.invocationsById.lookup item.operationId = some item.invocation ∧
        h.completions.lookup item.operationId = some item.completion := by
  obtain ⟨invocation, completion⟩ := item
  rw [completedOperations, List.mem_insertionSort, List.mem_filterMap]
  constructor
  · rintro ⟨found, member, same⟩
    obtain ⟨completion', answered, same'⟩ := Option.map_eq_some_iff.mp same
    obtain ⟨rfl, rfl⟩ := CompletedOperation.mk.inj same'
    obtain ⟨id, known⟩ := Dict.mem_values.mp member
    obtain rfl := wellFormed.invocationKey id _ known
    exact ⟨known, answered⟩
  · rintro ⟨known, answered⟩
    refine ⟨invocation, Dict.mem_values.mpr ⟨_, known⟩, ?_⟩
    rw [show h.completions.lookup invocation.operationId = some completion from answered]
    rfl

/-- The names of selected items are some of all names. -/
theorem map_filterMap_sublist {α β γ : Type*} {select : α → Option β} {name : α → γ}
    {name' : β → γ} (same : ∀ a b, select a = some b → name' b = name a) (items : List α) :
    ((items.filterMap select).map name').Sublist (items.map name) := by
  induction items with
  | nil => exact .slnil
  | cons a rest ih =>
      cases selected : select a with
      | none =>
          rw [List.filterMap_cons_none selected]
          exact ih.cons _
      | some b =>
          rw [List.filterMap_cons_some selected, List.map_cons, same a b selected]
          exact ih.cons_cons _

theorem values_map_operationId (wellFormed : h.WellFormed) :
    h.invocationsById.values.map Invocation.operationId = h.invocationsById.keys := by
  rw [Dict.values, List.map_map]
  refine List.map_congr_left fun entry member => ?_
  exact wellFormed.invocationKey entry.1 entry.2 (AList.mem_lookup_iff.mpr member)

theorem nodup_invocations (wellFormed : h.WellFormed) :
    (h.invocations.map Invocation.operationId).Nodup := by
  rw [invocations, ((List.perm_insertionSort _ _).map _).nodup_iff,
    values_map_operationId wellFormed]
  exact h.invocationsById.keys_nodup

theorem nodup_completedOperations (wellFormed : h.WellFormed) :
    (h.completedOperations.map CompletedOperation.operationId).Nodup := by
  rw [completedOperations, ((List.perm_insertionSort _ _).map _).nodup_iff]
  have names : ((h.invocationsById.values.filterMap fun invocation =>
      (h.completions.lookup invocation.operationId).map (⟨invocation, ·⟩)).map
        CompletedOperation.operationId).Sublist
          (h.invocationsById.values.map Invocation.operationId) := by
    refine map_filterMap_sublist (fun invocation item selected => ?_) _
    obtain ⟨_, _, rfl⟩ := Option.map_eq_some_iff.mp selected
    rfl
  rw [values_map_operationId wellFormed] at names
  exact names.nodup h.invocationsById.keys_nodup

theorem lookup_observed (wellFormed : h.WellFormed) {id : String} {item : CompletedOperation} :
    h.observed.lookup id = some item ↔ item ∈ h.completedOperations ∧ item.operationId = id := by
  have entry : ∀ id item, (id, item) ∈ h.completedOperations.map (fun item =>
      (item.operationId, item)) ↔ item ∈ h.completedOperations ∧ item.operationId = id := by
    intro id item
    simp only [List.mem_map, Prod.mk.injEq]
    constructor
    · rintro ⟨_, member, same, rfl⟩
      exact ⟨member, same⟩
    · rintro ⟨member, same⟩
      exact ⟨item, member, same, rfl⟩
  rw [observed, Dict.lookup_ofItems, entry]
  intro id item item' first second
  obtain ⟨member, rfl⟩ := (entry _ _).mp first
  obtain ⟨member', same⟩ := (entry _ _).mp second
  obtain ⟨invoked, answered⟩ := (mem_completedOperations wellFormed).mp member
  obtain ⟨invoked', answered'⟩ := (mem_completedOperations wellFormed).mp member'
  rw [same, invoked] at invoked'
  rw [same, answered] at answered'
  cases item
  cases item'
  exact CompletedOperation.mk.injEq .. ▸ ⟨Option.some.inj invoked', Option.some.inj answered'⟩

theorem mem_observed (wellFormed : h.WellFormed) {id : String} :
    id ∈ h.observed ↔ id ∈ h.completions := by
  rw [← AList.lookup_isSome, ← AList.lookup_isSome, Option.isSome_iff_exists,
    Option.isSome_iff_exists]
  constructor
  · rintro ⟨item, found⟩
    obtain ⟨member, rfl⟩ := (lookup_observed wellFormed).mp found
    exact ⟨_, ((mem_completedOperations wellFormed).mp member).2⟩
  · rintro ⟨completion, answered⟩
    obtain ⟨invocation, invoked, _⟩ := wellFormed.answers id completion answered
    obtain rfl := wellFormed.invocationKey id invocation invoked
    exact ⟨⟨invocation, completion⟩, (lookup_observed wellFormed).mpr
      ⟨(mem_completedOperations wellFormed).mpr ⟨invoked, answered⟩, rfl⟩⟩

theorem mem_candidates (wellFormed : h.WellFormed) {invocation : Invocation} :
    invocation ∈ h.candidates ↔
      h.invocationsById.lookup invocation.operationId = some invocation ∧
        (invocation.operationId ∈ h.completions ∨ invocation.operation.isWrite) := by
  rw [candidates, List.mem_insertionSort, List.mem_filter, mem_invocations wellFormed,
    decide_eq_true_eq, mem_observed wellFormed]

theorem nodup_candidates (wellFormed : h.WellFormed) :
    (h.candidates.map Invocation.operationId).Nodup := by
  rw [candidates, ((List.perm_insertionSort _ _).map _).nodup_iff]
  exact ((List.filter_sublist).map _).nodup (nodup_invocations wellFormed)

/-! ## The searches search the observations -/

theorem timely (wellFormed : h.WellFormed) {optional : String → Prop} :
    (⟨h.invokedAt, h.respondedAt, optional⟩ : Observation String).Timely := by
  intro id time answered
  obtain ⟨completion, found, rfl⟩ := Option.map_eq_some_iff.mp answered
  obtain ⟨invocation, invoked, earlier, _⟩ := wellFormed.answers id completion found
  have number : h.invokedAt id = invocation.sequence := by
    rw [invokedAt, invoked]
    rfl
  exact number.trans_le earlier.le

theorem precedes_iff {optional : String → Prop} {a b : String} {completion : Completion}
    {invocation : Invocation} (answered : h.completions.lookup a = some completion)
    (invoked : h.invocationsById.lookup b = some invocation) :
    (⟨h.invokedAt, h.respondedAt, optional⟩ : Observation String).Precedes a b ↔
      completion.sequence < invocation.sequence := by
  simp [Observation.Precedes, respondedAt, invokedAt, answered, invoked]

theorem isSome_respondedAt {id : String} : (h.respondedAt id).isSome ↔ id ∈ h.completions := by
  rw [respondedAt, Option.isSome_map, AList.lookup_isSome]

/-- A completed operation acts as on a register. -/
theorem applyCompleted_eq (wellFormed : h.WellFormed) {item : CompletedOperation}
    (member : item ∈ h.completedOperations) (value : HistoryResult) :
    applyCompleted item value = h.registerStep item.operationId value := by
  obtain ⟨invoked, answered⟩ := (mem_completedOperations wellFormed).mp member
  obtain ⟨invocation, same, _, silent⟩ := wellFormed.answers _ _ answered
  rw [invoked] at same
  cases same
  rw [applyCompleted, registerStep, invoked, answered]
  cases operation : item.invocation.operation with
  | get key => simp [operation]
  | write change =>
      rw [operation] at silent
      have nothing := silent rfl
      cases change <;> simp [operation, nothing]

theorem completedPlacing_describes (wellFormed : h.WellFormed) :
    (completedPlacing h.completedOperations).Describes h.completedObservation h.registerStep := by
  refine Placing.describes_ofList (nodup_completedOperations wellFormed) ?_ ?_ ?_ ?_ ?_
  · intro item member
    refine .inl (isSome_respondedAt.mpr (AList.lookup_isSome.mp ?_))
    rw [((mem_completedOperations wellFormed).mp member).2]
    rfl
  · rintro id (answered | ⟨⟨⟩⟩)
    obtain ⟨item, found⟩ := Option.isSome_iff_exists.mp
      (AList.lookup_isSome.mpr ((mem_observed wellFormed).mpr (isSome_respondedAt.mp answered)))
    obtain ⟨member, same⟩ := (lookup_observed wellFormed).mp found
    exact ⟨item, member, same⟩
  · intro item member other member'
    rw [decide_eq_true_eq]
    exact (precedes_iff ((mem_completedOperations wellFormed).mp member').2
      ((mem_completedOperations wellFormed).mp member).1).symm
  · exact fun item member value => applyCompleted_eq wellFormed member value
  · intro placed inside
    rw [decide_eq_true_eq]
    constructor
    · rintro rfl i item found _
      exact Finset.mem_range.mpr (List.getElem?_eq_some_iff.mp found).1
    · intro all
      refine Finset.Subset.antisymm inside fun i member => ?_
      have here := List.getElem?_eq_getElem (Finset.mem_range.mp member)
      refine all i _ here (isSome_respondedAt.mpr (AList.lookup_isSome.mp ?_))
      rw [((mem_completedOperations wellFormed).mp (List.getElem_mem _)).2]
      rfl

/-- A candidate acts as on a register. -/
theorem applyCandidate_eq (wellFormed : h.WellFormed) {invocation : Invocation}
    (member : invocation ∈ h.candidates) (value : HistoryResult) :
    applyCandidate h.observed invocation value =
      h.registerStep invocation.operationId value := by
  obtain ⟨invoked, allowed⟩ := (mem_candidates wellFormed).mp member
  rw [applyCandidate]
  cases found : h.observed.lookup invocation.operationId with
  | some actual =>
      obtain ⟨member', same⟩ := (lookup_observed wellFormed).mp found
      rw [← same]
      exact applyCompleted_eq wellFormed member' value
  | none =>
      have open' : invocation.operationId ∉ h.completions := by
        rw [← mem_observed wellFormed]
        exact AList.lookup_eq_none.mp found
      have write := allowed.resolve_left open'
      rw [registerStep, invoked]
      cases operation : invocation.operation with
      | get key =>
          rw [operation] at write
          cases write
      | write change => cases change <;> simp [operation]

theorem extensionPlacing_describes (wellFormed : h.WellFormed) :
    (extensionPlacing h.observed h.candidates).Describes h.extendedObservation h.registerStep := by
  refine Placing.describes_ofList (nodup_candidates wellFormed) ?_ ?_ ?_ ?_ ?_
  · intro invocation member
    obtain ⟨invoked, allowed⟩ := (mem_candidates wellFormed).mp member
    by_cases answered : invocation.operationId ∈ h.completions
    · exact .inl (isSome_respondedAt.mpr answered)
    · exact .inr ⟨answered, invocation, invoked, allowed.resolve_left answered⟩
  · rintro id (answered | ⟨_, invocation, invoked, write⟩)
    · obtain ⟨completion, found⟩ := Option.isSome_iff_exists.mp
        (AList.lookup_isSome.mpr (isSome_respondedAt.mp answered))
      obtain ⟨invocation, invoked, _⟩ := wellFormed.answers id completion found
      obtain rfl := wellFormed.invocationKey id invocation invoked
      exact ⟨invocation, (mem_candidates wellFormed).mpr
        ⟨invoked, .inl (isSome_respondedAt.mp answered)⟩, rfl⟩
    · obtain rfl := wellFormed.invocationKey id invocation invoked
      exact ⟨invocation, (mem_candidates wellFormed).mpr ⟨invoked, .inr write⟩, rfl⟩
  · intro invocation member other _
    have invoked := ((mem_candidates wellFormed).mp member).1
    rw [Option.any_eq_true]
    constructor
    · rintro ⟨item, found, earlier⟩
      obtain ⟨member', same⟩ := (lookup_observed wellFormed).mp found
      have answered := ((mem_completedOperations wellFormed).mp member').2
      rw [same] at answered
      exact (precedes_iff answered invoked).mpr (of_decide_eq_true earlier)
    · intro precedes
      obtain ⟨item, found⟩ := Option.isSome_iff_exists.mp (AList.lookup_isSome.mpr
        ((mem_observed wellFormed).mpr (isSome_respondedAt.mp precedes.answered)))
      obtain ⟨member', same⟩ := (lookup_observed wellFormed).mp found
      have answered := ((mem_completedOperations wellFormed).mp member').2
      rw [same] at answered
      exact ⟨item, found, decide_eq_true ((precedes_iff answered invoked).mp precedes)⟩
  · exact fun invocation member value => applyCandidate_eq wellFormed member value
  · intro placed _
    rw [decide_eq_true_eq]
    constructor
    · intro subset i invocation found answered
      refine subset (Finset.mem_filter.mpr
        ⟨Finset.mem_range.mpr (List.getElem?_eq_some_iff.mp found).1, ?_⟩)
      rw [found, Option.any_some, decide_eq_true_eq, mem_observed wellFormed]
      exact isSome_respondedAt.mp answered
    · intro all i member
      obtain ⟨_, required⟩ := Finset.mem_filter.mp member
      obtain ⟨invocation, found, known⟩ := (Option.any_eq_true _ _).mp required
      refine all i invocation found (isSome_respondedAt.mpr ?_)
      rw [← mem_observed wellFormed]
      exact of_decide_eq_true known

/-! ## Parts of a history -/

/-- Some order explains the completed operations among the kept ones. -/
def Explained (h : OperationHistory) (keep : List String) : Prop :=
  ∃ order, Linearizes (h.completedObservation.restrict (· ∈ keep)) h.registerStep none order

theorem mem_completedIds (wellFormed : h.WellFormed) {id : String} :
    id ∈ h.completedOperations.map CompletedOperation.operationId ↔ id ∈ h.completions := by
  rw [← mem_observed wellFormed, ← AList.lookup_isSome, Option.isSome_iff_exists, List.mem_map]
  exact exists_congr fun item => (lookup_observed wellFormed).symm

/-- What is kept of completed operations is answered. -/
theorem isSome_responded_kept {keep : List String} (completed : ∀ id ∈ keep, id ∈ h.completions)
    {id : String} :
    ((h.completedObservation.restrict (· ∈ keep)).responded id).isSome ↔ id ∈ keep := by
  rw [Observation.isSome_responded_restrict]
  exact and_iff_left_of_imp fun member => isSome_respondedAt.mpr (completed id member)

/-- All completed operations are all that is answered. -/
theorem isSome_responded_completedIds (wellFormed : h.WellFormed) {id : String} :
    ((h.completedObservation.restrict (· ∈ h.completedOperations.map
      CompletedOperation.operationId)).responded id).isSome ↔
        (h.completedObservation.responded id).isSome := by
  rw [isSome_responded_kept fun id => (mem_completedIds wellFormed).mp,
    mem_completedIds wellFormed]
  exact isSome_respondedAt.symm

theorem precedes_completedIds (wellFormed : h.WellFormed) {a b : String} :
    (h.completedObservation.restrict (· ∈ h.completedOperations.map
      CompletedOperation.operationId)).Precedes a b ↔ h.completedObservation.Precedes a b := by
  rw [Observation.precedes_restrict, mem_completedIds wellFormed]
  exact and_iff_right_of_imp fun precedes => isSome_respondedAt.mp precedes.answered

/-- All completed operations are explained when the history is. -/
theorem explained_completedIds (wellFormed : h.WellFormed) :
    h.Explained (h.completedOperations.map CompletedOperation.operationId) ↔
      ∃ order, h.LinearizesCompleted order := by
  refine exists_congr fun order => ?_
  exact linearizes_congr (fun _ => (isSome_responded_completedIds wellFormed).symm)
    (fun _ => ⟨False.elim, And.right⟩) (fun _ _ _ _ => (precedes_completedIds wellFormed).symm)
    fun _ _ _ => rfl

/-- The ids of an order that explains completed operations are theirs. -/
theorem perm_of_explains {keep order : List String} (nodup : keep.Nodup)
    (completed : ∀ id ∈ keep, id ∈ h.completions)
    (explains : Linearizes (h.completedObservation.restrict (· ∈ keep)) h.registerStep none
      order) : order.Perm keep := by
  refine (List.perm_ext_iff_of_nodup explains.nodup nodup).mpr fun id => ⟨fun member => ?_, ?_⟩
  · exact (isSome_responded_kept completed).mp
      ((explains.allowed id member).resolve_right And.right)
  · exact fun member => explains.complete id ((isSome_responded_kept completed).mpr member)

/-! ## Deep histories -/

/-- Some of the kept operations, not all of them, begin a sequential run, and with one more
they are as many as the frames, or more. -/
def DeepAmong (frames : ℕ) (h : OperationHistory) (keep : List String) : Prop :=
  ∃ order, Begins (h.completedObservation.restrict (· ∈ keep)) h.registerStep none order ∧
    order.length < keep.length ∧ frames ≤ order.length + 1

/-- No completed operations, or fewer than the frames for the search. -/
def FewCompleted (frames : ℕ) (h : OperationHistory) : Prop :=
  h.completedOperations = [] ∨ h.completedOperations.length < frames

instance (frames : ℕ) (h : OperationHistory) : Decidable (h.FewCompleted frames) :=
  inferInstanceAs (Decidable (_ ∨ _))

theorem fewCompleted_iff {frames : ℕ} : h.FewCompleted frames ↔
    h.completedOperations.map CompletedOperation.operationId = [] ∨
      (h.completedOperations.map CompletedOperation.operationId).length < frames := by
  rw [FewCompleted, List.map_eq_nil_iff, List.length_map]

/-- Few operations are not deep. -/
theorem not_deepAmong_of_few {frames : ℕ} {keep : List String}
    (few : keep = [] ∨ keep.length < frames) : ¬ h.DeepAmong frames keep := by
  rintro ⟨order, -, fewer, deep⟩
  rcases few with rfl | few
  · exact Nat.not_lt_zero _ fewer
  · omega

/-- Operations that are explained and not deep are few. -/
theorem few_of_explained {frames : ℕ} {keep : List String} (nodup : keep.Nodup)
    (completed : ∀ id ∈ keep, id ∈ h.completions) (explained : h.Explained keep)
    (shallow : ¬ h.DeepAmong frames keep) : keep = [] ∨ keep.length < frames := by
  obtain ⟨order, explains⟩ := explained
  have size := (perm_of_explains nodup completed explains).length_eq
  by_contra many
  obtain ⟨some', many⟩ := not_or.mp many
  have positive := List.length_pos_iff.mpr some'
  refine shallow ⟨order.take (frames - 1), explains.begins (frames - 1), ?_, ?_⟩
  · rw [List.length_take]
    omega
  · rw [List.length_take]
    omega

/-- Operations that are explained and not few are deep. -/
theorem deepAmong_of_explained {frames : ℕ} {keep : List String} (nodup : keep.Nodup)
    (completed : ∀ id ∈ keep, id ∈ h.completions) (explained : h.Explained keep)
    (some' : keep ≠ []) (many : frames ≤ keep.length) : h.DeepAmong frames keep := by
  by_contra shallow
  rcases few_of_explained nodup completed explained shallow with empty | few
  · exact some' empty
  · omega

/-- All completed operations are deep when the history is. -/
theorem deepAmong_completedIds (wellFormed : h.WellFormed) {frames : ℕ} :
    h.DeepAmong frames (h.completedOperations.map CompletedOperation.operationId) ↔
      ∃ order, Begins h.completedObservation h.registerStep none order ∧
        order.length < h.completedOperations.length ∧ frames ≤ order.length + 1 := by
  unfold DeepAmong
  rw [List.length_map]
  refine exists_congr fun order => and_congr_left' ⟨fun begins => ?_, fun begins => ?_⟩
  · exact begins.congr (fun _ => Or.imp (isSome_responded_completedIds wellFormed).mp And.right)
      (fun _ _ _ => (precedes_completedIds wellFormed).symm) fun _ _ _ => rfl
  · exact begins.congr (fun _ => Or.imp (isSome_responded_completedIds wellFormed).mpr False.elim)
      (fun _ _ _ => precedes_completedIds wellFormed) fun _ _ _ => rfl

/-! ## What the checkers return -/

/-- The ids of an order that explains the completed operations are theirs. -/
theorem perm_of_linearizesCompleted (wellFormed : h.WellFormed) {order : List String}
    (linearizes : h.LinearizesCompleted order) :
    order.Perm (h.completedOperations.map CompletedOperation.operationId) := by
  refine (List.perm_ext_iff_of_nodup linearizes.nodup
    (nodup_completedOperations wellFormed)).mpr fun id => ?_
  rw [mem_completedIds wellFormed, ← isSome_respondedAt]
  exact ⟨fun member => (linearizes.allowed id member).resolve_right not_false,
    linearizes.complete id⟩

/-- What explains no completed operations. -/
theorem explains_nil (wellFormed : h.WellFormed) (empty : h.completedOperations = []) :
    h.LinearizesCompleted [] := by
  refine ⟨.nil, fun id answered => ?_, fun id member => ?_, .nil, trivial⟩
  · have member := (mem_observed wellFormed).mpr (isSome_respondedAt.mp answered)
    obtain ⟨item, found⟩ := Option.isSome_iff_exists.mp (AList.lookup_isSome.mpr member)
    have listed := ((lookup_observed wellFormed).mp found).1
    rw [empty] at listed
    cases listed
  · cases member

/-- **`check` where it returns.** Its search goes one call deeper for each operation of a run,
so the history is not deep. -/
theorem check_answers (wellFormed : h.WellFormed) {frames : ℕ} {result : LinearizabilityResult}
    (returned : check frames h = .ok result) :
    ∃ answer, Placing.Explains h.completedObservation h.registerStep none answer ∧
      result = ⟨answer.isSome, answer.getD []⟩ ∧
      ¬ h.DeepAmong frames (h.completedOperations.map CompletedOperation.operationId) := by
  have describes := completedPlacing_describes wellFormed
  have exact' : ∀ answer memo, search (completedPlacing h.completedOperations).problem none frames
      ((∅, none) : SearchState) {} = .returns answer memo →
      Placing.Explains h.completedObservation h.registerStep none answer :=
    fun answer memo searched => describes.search_exact (timely wellFormed) searched
  unfold check at returned
  dsimp only at returned
  split at returned
  next empty =>
    cases returned
    refine ⟨some [], explains_nil wellFormed empty, rfl, not_deepAmong_of_few (.inl ?_)⟩
    rw [empty, List.map_nil]
  split at returned
  next => cases returned
  split at returned
  next memo searched =>
    cases returned
    refine ⟨none, exact' none memo searched, rfl, fun deep => ?_⟩
    obtain ⟨order, begins, -, long⟩ := (deepAmong_completedIds wellFormed).mp deep
    obtain ⟨t, path⟩ := (describes.path_iff (timely wellFormed)).mpr begins
    exact absurd (shallow_of_search (Placing.problem_leveled _) searched order t path)
      (by omega)
  next order memo searched =>
    cases returned
    have explains := exact' (some order) memo searched
    have size := (perm_of_linearizesCompleted wellFormed explains).length_eq
    exact ⟨some order, explains, rfl,
      not_deepAmong_of_few (.inr (size ▸ length_lt_of_search searched))⟩
  next => cases returned

theorem card_keys (nonempty : h.completedOperations ≠ [])
    (oneKey : ∀ item ∈ h.completedOperations, ∀ item' ∈ h.completedOperations,
      item.invocation.operation.key = item'.invocation.operation.key) :
    (h.completedOperations.map (·.invocation.operation.key)).toFinset.card = 1 := by
  obtain ⟨item, member⟩ := List.exists_mem_of_ne_nil _ nonempty
  refine Finset.card_eq_one.mpr ⟨item.invocation.operation.key, ?_⟩
  ext key
  simp only [List.mem_toFinset, List.mem_map, Finset.mem_singleton]
  constructor
  · rintro ⟨item', member', rfl⟩
    exact oneKey item' member' item member
  · rintro rfl
    exact ⟨item, member, rfl⟩

/-- **The recursion limit.** On a deep history of one key the search of `check` is nested too
deep. -/
theorem check_overflows (wellFormed : h.WellFormed) {frames : ℕ}
    (oneKey : ∀ item ∈ h.completedOperations, ∀ item' ∈ h.completedOperations,
      item.invocation.operation.key = item'.invocation.operation.key)
    (deep : h.DeepAmong frames (h.completedOperations.map CompletedOperation.operationId)) :
    check frames h = .error .recursion := by
  have never : ∀ result, check frames h ≠ .ok result := by
    intro result returned
    obtain ⟨answer, -, -, shallow⟩ := check_answers wellFormed returned
    exact shallow deep
  have nonempty : h.completedOperations ≠ [] := by
    intro empty
    refine not_deepAmong_of_few (.inl ?_) deep
    rw [empty, List.map_nil]
  have single := card_keys nonempty oneKey
  unfold check at never ⊢
  simp only [if_neg nonempty, single, ne_eq, not_true_eq_false, if_false] at never ⊢
  split
  next memo searched =>
    rw [searched] at never
    exact absurd rfl (never _)
  next order memo searched =>
    rw [searched] at never
    exact absurd rfl (never _)
  next => rfl

/-- `check` on a history that is not deep, whose completed operations use one key. -/
theorem check_returns (wellFormed : h.WellFormed) {frames : ℕ}
    (oneKey : ∀ item ∈ h.completedOperations, ∀ item' ∈ h.completedOperations,
      item.invocation.operation.key = item'.invocation.operation.key)
    (shallow : ¬ h.DeepAmong frames (h.completedOperations.map CompletedOperation.operationId)) :
    ∃ answer, Placing.Explains h.completedObservation h.registerStep none answer ∧
      check frames h = .ok ⟨answer.isSome, answer.getD []⟩ := by
  unfold check
  by_cases empty : h.completedOperations = []
  · refine ⟨some [], explains_nil wellFormed empty, ?_⟩
    rw [if_pos empty]
    rfl
  · have single := card_keys empty oneKey
    have describes := completedPlacing_describes wellFormed
    have bound : ∀ order t, (completedPlacing h.completedOperations).problem.Path (∅, none) order
        t → order.length < h.completedOperations.length → order.length + 1 < frames := by
      intro order t path fewer
      by_contra long
      have begins := (describes.path_iff (timely wellFormed)).mp ⟨t, path⟩
      exact shallow ((deepAmong_completedIds wellFormed).mpr ⟨order, begins, fewer, by omega⟩)
    have spare := bound [] _ .here (List.length_pos_iff.mpr empty)
    obtain ⟨answer, memo, returned⟩ := (completedPlacing h.completedOperations).search_returns
      (none : HistoryResult) (Nat.zero_lt_of_lt spare) (fun placed _ all => decide_eq_true all)
      bound
    refine ⟨answer, describes.search_exact (timely wellFormed) returned, ?_⟩
    simp only [if_neg empty, single, ne_eq, not_true_eq_false, if_false, returned]
    cases answer <;> rfl

/-- **`check` returns** on the histories of one key that are not deep. -/
theorem check_returns_iff (wellFormed : h.WellFormed) {frames : ℕ}
    (oneKey : ∀ item ∈ h.completedOperations, ∀ item' ∈ h.completedOperations,
      item.invocation.operation.key = item'.invocation.operation.key) :
    (∃ result, check frames h = .ok result) ↔
      ¬ h.DeepAmong frames (h.completedOperations.map CompletedOperation.operationId) := by
  constructor
  · rintro ⟨result, returned⟩
    obtain ⟨answer, -, -, shallow⟩ := check_answers wellFormed returned
    exact shallow
  · intro shallow
    obtain ⟨answer, -, returned⟩ := check_returns wellFormed oneKey shallow
    exact ⟨_, returned⟩

/-- The result that `check_with_pending_extensions` builds from what its search answers. -/
def extensionResult (h : OperationHistory) : Option (List String) → CompletionExtensionResult
  | none => ⟨false, [], [], []⟩
  | some order =>
      ⟨true, order, order.filter (· ∉ h.completions),
        (h.pending.filter fun invocation =>
          invocation.operationId ∉ order.filter (· ∉ h.completions)).map Invocation.operationId⟩

theorem extensionResult_linearizable (answer : Option (List String)) :
    (h.extensionResult answer).linearizable = answer.isSome := by
  cases answer <;> rfl

/-- `check_with_pending_extensions` where it returns. -/
theorem checkWithPendingExtensions_answers (wellFormed : h.WellFormed)
    {maxOperations maxStates : ℤ} {result : CompletionExtensionResult}
    (returned : checkWithPendingExtensions maxOperations maxStates h = .ok result) :
    ¬ 1 < (h.invocations.map (·.operation.key)).toFinset.card ∧
    ∃ answer, Placing.Explains h.extendedObservation h.registerStep none answer ∧
      result = h.extensionResult answer := by
  have exact' : ∀ answer memo, search (extensionPlacing h.observed h.candidates).problem
      (some maxStates.toNat) (h.candidates.length + 1) ((∅, none) : SearchState) {} =
        .returns answer memo →
      Placing.Explains h.extendedObservation h.registerStep none answer :=
    fun answer memo searched =>
      (extensionPlacing_describes wellFormed).search_exact (timely wellFormed) searched
  unfold checkWithPendingExtensions at returned
  split at returned
  next => cases returned
  next =>
    split at returned
    next => cases returned
    next =>
      dsimp only at returned
      split at returned
      next => cases returned
      next =>
        split at returned
        next => cases returned
        next oneKey =>
          refine ⟨oneKey, ?_⟩
          split at returned
          next => cases returned
          next =>
            split at returned
            next memo searched =>
              cases returned
              exact ⟨none, exact' none memo searched, rfl⟩
            next order memo searched =>
              refine ⟨some order, exact' _ memo searched, (Except.ok.inj returned).symm.trans ?_⟩
              simp only [extensionResult, mem_observed wellFormed, pending, List.filter_filter,
                Bool.decide_and, Bool.and_comm]
            all_goals cases returned

/-- An order of the completed operations that explains them needs no pending write. -/
theorem LinearizesCompleted.extended {order : List String}
    (linearizes : h.LinearizesCompleted order) : h.LinearizesExtended order :=
  Linearizes.congr (O := h.completedObservation) (fun _ => Iff.rfl)
    (fun _ _ impossible => False.elim impossible) (fun _ _ _ _ => id) (fun _ _ _ => rfl) linearizes

/-- Without pending writes there is nothing to extend. -/
theorem LinearizesExtended.completed {order : List String} (none' : ∀ id, ¬ h.PendingWrite id)
    (linearizes : h.LinearizesExtended order) : h.LinearizesCompleted order :=
  Linearizes.congr (O := h.extendedObservation) (fun _ => Iff.rfl)
    (fun a _ pending => none' a pending) (fun _ _ _ _ => id) (fun _ _ _ => rfl) linearizes

/-- The pending operations of an order are those it has no response of. -/
theorem filter_pending (wellFormed : h.WellFormed) {order : List String}
    (linearizes : h.LinearizesExtended order) :
    order.filter (· ∉ h.completions) =
      order.filter (· ∈ h.pending.map Invocation.operationId) := by
  refine List.filter_congr fun id member => decide_eq_decide.mpr ?_
  simp only [pending, List.mem_map, List.mem_filter, decide_eq_true_eq]
  constructor
  · intro open'
    obtain ⟨_, invocation, invoked, _⟩ :=
      (linearizes.allowed id member).resolve_left fun answered =>
        open' (isSome_respondedAt.mp answered)
    obtain rfl := wellFormed.invocationKey id invocation invoked
    exact ⟨invocation, ⟨(mem_invocations wellFormed).mpr invoked, open'⟩, rfl⟩
  · rintro ⟨invocation, ⟨_, open'⟩, rfl⟩
    exact open'

end OperationHistory

end Distlab.Clients
