import Distlab.Clients.CheckerExactness

/-!
# Long histories

Operations in the order of their invocations respect real time, so they explain a history
when they act in this order. Here it is one that may be as long as one likes: a read, and
after it writes one after the other. An order of it has as many operations as the search
of the checker has nested calls.
-/

set_option autoImplicit false

namespace Distlab.Clients

open Foundations Foundations.Linearizability

namespace OperationHistory

variable {h : OperationHistory} {frames : ℕ}

/-! ## The order of the invocations -/

/-- Completed operations in the order of their invocations respect real time. -/
theorem pairwise_completedOperations (wellFormed : h.WellFormed) :
    h.completedOperations.Pairwise fun a b =>
      ¬ h.completedObservation.Precedes b.operationId a.operationId := by
  have total : Std.Total fun a b : CompletedOperation =>
      a.invocation.sequence ≤ b.invocation.sequence := ⟨fun a b => Nat.le_total _ _⟩
  have trans : IsTrans CompletedOperation fun a b =>
      a.invocation.sequence ≤ b.invocation.sequence := ⟨fun _ _ _ => Nat.le_trans⟩
  have sorted : h.completedOperations.Pairwise fun a b =>
      a.invocation.sequence ≤ b.invocation.sequence := List.pairwise_insertionSort _ _
  refine sorted.imp_of_mem fun {a b} first second earlier precedes => ?_
  obtain ⟨invoked, -⟩ := (mem_completedOperations wellFormed).mp first
  obtain ⟨invoked', answered⟩ := (mem_completedOperations wellFormed).mp second
  obtain ⟨invocation, same, before, -⟩ := wellFormed.answers _ _ answered
  obtain rfl := Option.some.inj (invoked'.symm.trans same)
  have := (precedes_iff answered invoked).mp precedes
  omega

/-- **Some completed operations are explained** in the order of their invocations, when they
act in it. -/
theorem explained_of_legal (wellFormed : h.WellFormed) {items : List CompletedOperation}
    (part : items.Sublist h.completedOperations)
    (legal : Legal h.registerStep none (items.map CompletedOperation.operationId)) :
    h.Explained (items.map CompletedOperation.operationId) := by
  have completed : ∀ id ∈ items.map CompletedOperation.operationId, id ∈ h.completions :=
    fun id member => (mem_completedIds wellFormed).mp ((part.map _).subset member)
  refine ⟨items.map CompletedOperation.operationId,
    (part.map _).nodup (nodup_completedOperations wellFormed),
    fun _ => (isSome_responded_kept completed).mp,
    fun _ member => .inl ((isSome_responded_kept completed).mpr member), ?_, legal⟩
  refine List.pairwise_map.mpr ((pairwise_completedOperations wellFormed).sublist part |>.imp ?_)
  exact fun inTime precedes => inTime ((Observation.precedes_restrict _).mp precedes).2

/-- Puts act on a register that holds any value. -/
theorem legal_of_puts {ids : List String} (puts : ∀ id ∈ ids, ∃ invocation key written,
      h.invocationsById.lookup id = some invocation ∧
        invocation.operation = .write (.put key written)) (value : HistoryResult) :
    Legal h.registerStep value ids := by
  induction ids generalizing value with
  | nil => trivial
  | cons id rest ih =>
      obtain ⟨invocation, key, written, invoked, put⟩ := puts id List.mem_cons_self
      refine ⟨some written, ?_,
        ih (fun other member => puts other (List.mem_cons_of_mem _ member)) _⟩
      simp [registerStep, invoked, put]

/-! ## A read and writes after it -/

/-- The id of a write: as many letters as writes up to it. -/
def writeId (i : ℕ) : String := String.ofList (List.replicate (i + 1) 'w')

theorem writeId_injective : Function.Injective writeId := by
  intro i j same
  have letters := congrArg List.length (String.ofList_injective same)
  simpa using letters

theorem writeId_ne_read (i : ℕ) : writeId i ≠ "r" := by
  intro same
  have letters := congrArg String.toList same
  rw [writeId, String.toList_ofList, List.replicate_succ] at letters
  exact absurd (List.cons.inj letters).1 (by decide)

theorem writeId_ne_empty (i : ℕ) : writeId i ≠ "" := by
  rw [writeId, Ne, String.ofList_eq_empty_iff]
  exact List.cons_ne_nil _ _

/-- A read with an answer, and writes of one value, one after the other. -/
def readThenWrites (answer : HistoryResult) : ℕ → List HistoryCall
  | 0 => [.invoke "r" "bob" (.get "k"), .respond "r" answer]
  | n + 1 => readThenWrites answer n ++
      [.invoke (writeId n) "alice" (.write (.put "k" "1")), .respond (writeId n) none]

/-- What the history has after the read and so many writes. -/
structure ReadThenWrites (answer : HistoryResult) (n : ℕ) (h : OperationHistory) : Prop where
  wellFormed : h.WellFormed
  read : h.invocationsById.lookup "r" = some ⟨"r", "bob", .get "k", 0⟩
  answered : h.completions.lookup "r" = some ⟨"r", answer, 1⟩
  writes : ∀ i < n, writeId i ∈ h.completions
  others : ∀ id invocation, h.invocationsById.lookup id = some invocation → id ≠ "r" →
    (∃ i < n, id = writeId i) ∧ invocation.operation = .write (.put "k" "1") ∧
      2 ≤ invocation.sequence
  later : 2 ≤ h.sequence
  present : h.abandonedIds = ∅

namespace ReadThenWrites

variable {answer : HistoryResult} {n : ℕ}

/-- One more write. -/
theorem write (filled : ReadThenWrites answer n h) :
    ReadThenWrites answer (n + 1)
      ((h.after (.invoke (writeId n) "alice" (.write (.put "k" "1")))).after
        (.respond (writeId n) none)) := by
  have wellFormed := filled.wellFormed
  have unknown : writeId n ∉ h.invocationsById := by
    intro known
    obtain ⟨invocation, found⟩ := Option.isSome_iff_exists.mp (AList.lookup_isSome.mpr known)
    obtain ⟨⟨i, below, same⟩, -⟩ := filled.others _ _ found (writeId_ne_read n)
    exact absurd (writeId_injective same) (by omega)
  have unanswered : writeId n ∉ h.completions := by
    intro known
    obtain ⟨completion, found⟩ := Option.isSome_iff_exists.mp (AList.lookup_isSome.mpr known)
    obtain ⟨invocation, invoked, -⟩ := wellFormed.answers _ _ found
    exact unknown (AList.lookup_isSome.mp (Option.isSome_of_mem invoked))
  obtain ⟨h₁, invoked, same₁⟩ : ∃ h₁, h.perform (.invoke (writeId n) "alice"
      (.write (.put "k" "1"))) = .ok h₁ ∧ h₁ = { h with
        sequence := h.sequence + 1
        invocationsById := h.invocationsById.insert (writeId n)
          ⟨writeId n, "alice", .write (.put "k" "1"), h.sequence⟩ } :=
    ⟨_, invoke_eq_ok.mpr ⟨writeId_ne_empty n, by decide, unknown, rfl⟩, rfl⟩
  have first : h.after (.invoke (writeId n) "alice" (.write (.put "k" "1"))) = h₁ := by
    rw [after, invoked]
  have wellFormed₁ : h₁.WellFormed := first ▸ wellFormed.after _
  have here : h₁.invocationsById.lookup (writeId n) =
      some ⟨writeId n, "alice", .write (.put "k" "1"), h.sequence⟩ := by
    rw [same₁, Dict.lookup_insert, if_pos rfl]
  obtain ⟨h₂, responded, same₂⟩ : ∃ h₂, h₁.perform (.respond (writeId n) none) = .ok h₂ ∧
      h₂ = { h₁ with
        sequence := h₁.sequence + 1
        completions := h₁.completions.insert (writeId n) ⟨writeId n, none, h₁.sequence⟩ } := by
    refine ⟨_, respond_eq_ok.mpr ⟨_, here, ?_, ?_, fun _ => rfl, rfl⟩, rfl⟩
    · rw [same₁]
      exact unanswered
    · rw [same₁, filled.present]
      exact Finset.notMem_empty _
  have second : h₁.after (.respond (writeId n) none) = h₂ := by
    rw [after, responded]
  have wellFormed₂ : h₂.WellFormed := second ▸ wellFormed₁.after _
  rw [first, second]
  subst same₁ same₂
  refine ⟨wellFormed₂, ?_, ?_, fun i below => ?_, fun id invocation found other => ?_, ?_,
    filled.present⟩
  · rw [Dict.lookup_insert, if_neg (writeId_ne_read n).symm]
    exact filled.read
  · rw [Dict.lookup_insert, if_neg (writeId_ne_read n).symm]
    exact filled.answered
  · rw [← AList.lookup_isSome, Dict.lookup_insert]
    split
    next => rfl
    next different =>
      have earlier : i ≠ n := fun same => different (congrArg writeId same)
      exact AList.lookup_isSome.mpr (filled.writes i (by omega))
  · rcases Dict.of_lookup_insert found with ⟨rfl, rfl⟩ | ⟨_, old⟩
    · exact ⟨⟨n, Nat.lt_succ_self n, rfl⟩, rfl, filled.later⟩
    · obtain ⟨⟨i, below, same⟩, put, above⟩ := filled.others id invocation old other
      exact ⟨⟨i, below.trans (Nat.lt_succ_self n), same⟩, put, above⟩
  · exact filled.later.trans (Nat.le_add_right _ 2)

end ReadThenWrites

/-- The calls record the history. -/
theorem readThenWrites_recorded (answer : HistoryResult) (n : ℕ) :
    ReadThenWrites answer n (recorded (readThenWrites answer n)) := by
  induction n with
  | zero =>
      have wellFormed := recorded_wellFormed (readThenWrites answer 0)
      refine ⟨wellFormed, rfl, rfl, fun i below => absurd below (Nat.not_lt_zero i),
        fun id invocation found other => ?_, le_rfl, rfl⟩
      rcases Dict.of_lookup_insert found with ⟨rfl, -⟩ | ⟨_, old⟩
      · exact absurd rfl other
      · cases old
  | succ n ih =>
      have same : recorded (readThenWrites answer (n + 1)) =
          ((recorded (readThenWrites answer n)).after
            (.invoke (writeId n) "alice" (.write (.put "k" "1")))).after
              (.respond (writeId n) none) := by
        rw [recorded, readThenWrites, List.foldl_append]
        rfl
      rw [same]
      exact ih.write

namespace ReadThenWrites

variable {answer : HistoryResult} {n : ℕ} (filled : ReadThenWrites answer n h)
include filled

/-- A completed operation is the read or a write. -/
theorem cases_of_completed {item : CompletedOperation} (member : item ∈ h.completedOperations) :
    (item.operationId = "r" ∧ item.invocation = ⟨"r", "bob", .get "k", 0⟩) ∨
      item.operationId ≠ "r" ∧ item.invocation.operation = .write (.put "k" "1") ∧
        2 ≤ item.invocation.sequence := by
  obtain ⟨invoked, -⟩ := (mem_completedOperations filled.wellFormed).mp member
  by_cases read : item.operationId = "r"
  · refine .inl ⟨read, ?_⟩
    rw [read, filled.read] at invoked
    exact (Option.some.inj invoked).symm
  · obtain ⟨-, put, above⟩ := filled.others _ _ invoked read
    exact .inr ⟨read, put, above⟩

/-- All completed operations use one key. -/
theorem oneKey : ∀ item ∈ h.completedOperations, ∀ item' ∈ h.completedOperations,
    item.invocation.operation.key = item'.invocation.operation.key := by
  have key : ∀ item ∈ h.completedOperations, item.invocation.operation.key = "k" := by
    intro item member
    rcases filled.cases_of_completed member with ⟨-, read⟩ | ⟨-, put, -⟩
    · rw [read]
      rfl
    · rw [put]
      rfl
  exact fun item member item' member' => (key item member).trans (key item' member').symm

/-- The read is the first completed operation. -/
theorem completedOperations_eq : ∃ first rest, h.completedOperations = first :: rest ∧
    first.operationId = "r" ∧ (∀ item ∈ rest, item.operationId ≠ "r") ∧ n ≤ rest.length := by
  have wellFormed := filled.wellFormed
  have total : Std.Total fun a b : CompletedOperation =>
      a.invocation.sequence ≤ b.invocation.sequence := ⟨fun a b => Nat.le_total _ _⟩
  have trans : IsTrans CompletedOperation fun a b =>
      a.invocation.sequence ≤ b.invocation.sequence := ⟨fun _ _ _ => Nat.le_trans⟩
  have sorted : h.completedOperations.Pairwise fun a b =>
      a.invocation.sequence ≤ b.invocation.sequence := List.pairwise_insertionSort _ _
  have nodup := nodup_completedOperations wellFormed
  have writes : ∀ i < n, writeId i ∈ h.completedOperations.map CompletedOperation.operationId :=
    fun i below => (mem_completedIds wellFormed).mpr (filled.writes i below)
  have read : "r" ∈ h.completedOperations.map CompletedOperation.operationId := by
    refine (mem_completedIds wellFormed).mpr (AList.lookup_isSome.mp ?_)
    rw [filled.answered]
    rfl
  cases listed : h.completedOperations with
  | nil =>
      rw [listed] at read
      cases read
  | cons first rest =>
      rw [listed, List.map_cons] at nodup read writes
      have here := filled.cases_of_completed (listed ▸ List.mem_cons_self)
      have isRead : first.operationId = "r" := by
        rcases List.mem_cons.mp read with same | later
        · exact same.symm
        · obtain ⟨item, member, named⟩ := List.mem_map.mp later
          rw [listed] at sorted
          have before := (List.pairwise_cons.mp sorted).1 item member
          rcases here with ⟨same, -⟩ | ⟨-, -, above⟩
          · exact same
          · rcases filled.cases_of_completed (listed ▸ List.mem_cons_of_mem _ member) with
              ⟨-, same⟩ | ⟨other, -⟩
            · rw [same] at before
              exact absurd before (by dsimp only; omega)
            · exact absurd named other
      have fresh := (List.nodup_cons.mp nodup).1
      refine ⟨first, rest, rfl, isRead, fun item member same => fresh ?_, ?_⟩
      · exact List.mem_map.mpr ⟨item, member, same.trans isRead.symm⟩
      · have ids : ((List.range n).map writeId) ⊆ rest.map CompletedOperation.operationId := by
          intro id member
          obtain ⟨i, below, rfl⟩ := List.mem_map.mp member
          rcases List.mem_cons.mp (writes i (List.mem_range.mp below)) with same | later
          · exact absurd (same.trans isRead) (writeId_ne_read i)
          · exact later
        have size := ((List.nodup_range.map writeId_injective).subperm ids).length_le
        simpa using size

theorem exists_put {item : CompletedOperation} (member : item ∈ h.completedOperations)
    (other : item.operationId ≠ "r") : ∃ invocation key written,
      h.invocationsById.lookup item.operationId = some invocation ∧
        invocation.operation = .write (.put key written) := by
  obtain ⟨invoked, -⟩ := (mem_completedOperations filled.wellFormed).mp member
  rcases filled.cases_of_completed member with ⟨same, -⟩ | ⟨-, put, -⟩
  · exact absurd same other
  · exact ⟨item.invocation, "k", "1", invoked, put⟩

/-- The writes are explained. -/
theorem explained_writes :
    h.Explained ((h.completedOperations.map CompletedOperation.operationId).drop 1) := by
  obtain ⟨first, rest, listed, -, others, -⟩ := filled.completedOperations_eq
  rw [listed, List.map_cons, List.drop_one, List.tail_cons]
  refine explained_of_legal filled.wellFormed (listed ▸ List.sublist_cons_self _ _)
    (legal_of_puts (fun id member => ?_) none)
  obtain ⟨item, inside, rfl⟩ := List.mem_map.mp member
  exact filled.exists_put (listed ▸ List.mem_cons_of_mem _ inside) (others item inside)

/-- The read and the writes are deep when they are explained, and the writes alone are. -/
theorem deep_of_explained {m : ℕ} (within : m ≤ 1) (some' : 0 < n) (explained : h.Explained
      ((h.completedOperations.map CompletedOperation.operationId).drop m)) :
    h.DeepAmong n ((h.completedOperations.map CompletedOperation.operationId).drop m) := by
  obtain ⟨first, rest, listed, -, -, writes⟩ := filled.completedOperations_eq
  have size : n ≤ ((h.completedOperations.map CompletedOperation.operationId).drop m).length := by
    rw [List.length_drop, List.length_map, listed, List.length_cons]
    omega
  refine deepAmong_of_explained ?_ (fun id member => ?_) explained ?_ size
  · exact (nodup_completedOperations filled.wellFormed).sublist (List.drop_sublist m _)
  · exact (mem_completedIds filled.wellFormed).mp (List.mem_of_mem_drop member)
  · exact List.ne_nil_of_length_pos (some'.trans_le size)

/-- The history is deep when it is linearizable. -/
theorem deep (some' : 0 < n) (found : ∃ order, h.LinearizesCompleted order) :
    h.DeepAmong n (h.completedOperations.map CompletedOperation.operationId) := by
  have deep := filled.deep_of_explained (Nat.zero_le 1) some'
  rw [List.drop_zero] at deep
  exact deep ((explained_completedIds filled.wellFormed).mpr found)

omit filled

/-- A read of the register as it was is explained before the writes. -/
theorem exists_linearizes (filled : ReadThenWrites none n h) :
    ∃ order, h.LinearizesCompleted order := by
  obtain ⟨first, rest, listed, read, others, -⟩ := filled.completedOperations_eq
  refine (explained_completedIds filled.wellFormed).mp
    (explained_of_legal filled.wellFormed (List.Sublist.refl _) ?_)
  rw [listed, List.map_cons, read]
  refine ⟨none, ?_, legal_of_puts (fun id member => ?_) none⟩
  · simp [registerStep, filled.read, filled.answered]
  · obtain ⟨item, inside, rfl⟩ := List.mem_map.mp member
    exact filled.exists_put (listed ▸ List.mem_cons_of_mem _ inside) (others item inside)

/-- A read of a value that was not written yet is not. -/
theorem not_linearizes {value : String} (filled : ReadThenWrites (some value) n h) :
    ¬ ∃ order, h.LinearizesCompleted order := by
  rintro ⟨order, linearizes⟩
  have completed : "r" ∈ h.completions := AList.lookup_isSome.mp (by rw [filled.answered]; rfl)
  obtain ⟨before, rest, rfl⟩ :=
    List.append_of_mem (linearizes.complete "r" (isSome_respondedAt.mpr completed))
  have nothing : before = [] := by
    -- The read was answered before any write was invoked.
    refine List.eq_nil_iff_forall_not_mem.mpr fun id member => ?_
    have listed := List.mem_append_left ("r" :: rest) member
    have other : id ≠ "r" := by
      rintro rfl
      exact List.disjoint_of_nodup_append linearizes.nodup member List.mem_cons_self
    have answered := (linearizes.allowed id listed).resolve_right not_false
    obtain ⟨completion, found⟩ := Option.isSome_iff_exists.mp
      (AList.lookup_isSome.mpr (isSome_respondedAt.mp answered))
    obtain ⟨invocation, invoked, -⟩ := filled.wellFormed.answers _ _ found
    obtain ⟨-, -, above⟩ := filled.others _ _ invoked other
    have inTime := (List.pairwise_append.mp linearizes.inTime).2.2 id member "r" List.mem_cons_self
    exact inTime ((precedes_iff filled.answered invoked).mpr (by dsimp only; omega))
  subst nothing
  obtain ⟨next, stepped, -⟩ := linearizes.legal
  simp [registerStep, filled.read, filled.answered] at stepped

end ReadThenWrites

end OperationHistory

end Distlab.Clients
