import Distlab.Clients.LongHistories

/-!
# The verdicts of the single-key checkers

Where a checker returns, its verdict and its order are right. `check` returns when the
recursion limit leaves its search a frame more than there are completed operations. On a
longer history it finds no order that explains them, and returns only where no long run of
some of them respects real time and the register.
-/

set_option autoImplicit false

namespace Distlab.Clients

open Foundations Foundations.Linearizability OperationHistory

/-! ## The verdicts -/

/-- **The completion-extension checker is sound and complete.** -/
theorem completion_extensions_exact (calls : List HistoryCall) (maxOperations maxStates : ℤ)
    (result : CompletionExtensionResult)
    (returned : checkWithPendingExtensions maxOperations maxStates (recorded calls) =
      .ok result) :
    (result.linearizable = true ↔ ∃ order, (recorded calls).LinearizesExtended order) ∧
      (result.linearizable = true →
        (recorded calls).LinearizesExtended result.order ∧
        (∀ item ∈ (recorded calls).completedOperations, item.operationId ∈ result.order) ∧
        result.includedPending = result.order.filter
          (· ∈ (recorded calls).pending.map Invocation.operationId) ∧
        result.omittedPending = ((recorded calls).pending.map Invocation.operationId).filter
          (· ∉ result.includedPending) ∧
        ∀ invocation ∈ (recorded calls).pending, invocation.operation.isWrite = false →
          invocation.operationId ∉ result.order) := by
  have wellFormed := recorded_wellFormed calls
  obtain ⟨_, answer, explains, rfl⟩ := checkWithPendingExtensions_answers wellFormed returned
  cases answer with
  | none => exact ⟨⟨Bool.noConfusion, fun found => (explains found).elim⟩, Bool.noConfusion⟩
  | some order =>
      refine ⟨⟨fun _ => ⟨order, explains⟩, fun _ => rfl⟩, fun _ => ⟨explains, ?_, ?_, ?_, ?_⟩⟩
      · intro item member
        refine explains.complete _ (isSome_respondedAt.mpr ((mem_observed wellFormed).mp ?_))
        rw [← AList.lookup_isSome, (lookup_observed wellFormed).mpr ⟨member, rfl⟩]
        rfl
      · exact filter_pending wellFormed explains
      · rw [List.filter_map]
        rfl
      · intro invocation member read placed
        obtain ⟨listed, open'⟩ := List.mem_filter.mp member
        rcases explains.allowed _ placed with answered | ⟨_, other, invoked, write⟩
        · exact of_decide_eq_true open' (isSome_respondedAt.mp answered)
        · rw [(mem_invocations wellFormed).mp listed] at invoked
          cases invoked
          rw [read] at write
          cases write

/-- A read that returned the value of a write without a response. -/
def readOfPendingWrite : List HistoryCall :=
  [.invoke "w" "alice" (.write (.put "k" "1")), .invoke "r" "bob" (.get "k"),
    .respond "r" (some "1")]

/-- The write has to be placed before the read. -/
theorem pending_write_placed :
    checkWithPendingExtensions 32 100000 (recorded readOfPendingWrite) =
      .ok ⟨true, ["w", "r"], ["w"], []⟩ ∧
    (recorded readOfPendingWrite).LinearizesExtended ["w", "r"] :=
  have returned : checkWithPendingExtensions 32 100000 (recorded readOfPendingWrite) =
      .ok ⟨true, ["w", "r"], ["w"], []⟩ := by decide +kernel
  ⟨returned, ((completion_extensions_exact readOfPendingWrite 32 100000 _ returned).2 rfl).1⟩

/-- **The completed-history checker is exact where it is not nested too deep.** On a history
of one key it returns true exactly when some order explains the completed operations, if and
only if there are few of these or no order does; it returns if and only if the history is not
deep. What it returns is right, and agrees with the pending-aware checker. -/
theorem completed_check_exact (frames : ℕ) (calls : List HistoryCall) :
    ((∀ item ∈ (recorded calls).completedOperations,
        ∀ item' ∈ (recorded calls).completedOperations,
          item.invocation.operation.key = item'.invocation.operation.key) →
      ((((∃ result, check frames (recorded calls) = .ok result ∧ result.linearizable = true) ↔
            ∃ order, (recorded calls).LinearizesCompleted order) ↔
          ((recorded calls).FewCompleted frames ∨
            ¬ ∃ order, (recorded calls).LinearizesCompleted order)) ∧
        ((∃ result, check frames (recorded calls) = .ok result) ↔
          ¬ (recorded calls).DeepAmong frames ((recorded calls).completedOperations.map
            CompletedOperation.operationId)))) ∧
    ∀ result, check frames (recorded calls) = .ok result →
      (result.linearizable = true ↔ ∃ order, (recorded calls).LinearizesCompleted order) ∧
      (result.linearizable = true → (recorded calls).LinearizesCompleted result.order ∧
        result.order.Perm ((recorded calls).completedOperations.map
          CompletedOperation.operationId)) ∧
      ∀ maxOperations maxStates extended,
        checkWithPendingExtensions maxOperations maxStates (recorded calls) = .ok extended →
          (result.linearizable = true → extended.linearizable = true) ∧
          ((∀ invocation ∈ (recorded calls).pending, invocation.operation.isWrite = false) →
            result.linearizable = extended.linearizable) := by
  have wellFormed := recorded_wellFormed calls
  have verdict : ∀ result, check frames (recorded calls) = .ok result →
      (result.linearizable = true ↔ ∃ order, (recorded calls).LinearizesCompleted order) := by
    intro result returned
    obtain ⟨answer, explains, rfl, -⟩ := check_answers wellFormed returned
    exact explains.isSome_iff
  refine ⟨fun oneKey => ⟨⟨fun exact' => ?_, fun condition => ⟨?_, fun explained => ?_⟩⟩,
    check_returns_iff wellFormed oneKey⟩, fun result returned =>
      ⟨verdict result returned, fun positive => ?_, ?_⟩⟩
  · refine or_iff_not_imp_right.mpr fun explained => fewCompleted_iff.mpr ?_
    obtain ⟨result, returned, -⟩ := exact'.mpr (not_not.mp explained)
    obtain ⟨answer, -, -, shallow⟩ := check_answers wellFormed returned
    exact few_of_explained (nodup_completedOperations wellFormed)
      (fun id => (mem_completedIds wellFormed).mp)
      ((explained_completedIds wellFormed).mpr (not_not.mp explained)) shallow
  · rintro ⟨result, returned, positive⟩
    exact (verdict result returned).mp positive
  · have few := fewCompleted_iff.mp (condition.resolve_right (not_not.mpr explained))
    obtain ⟨answer, explains, returned⟩ :=
      check_returns wellFormed oneKey (not_deepAmong_of_few few)
    exact ⟨_, returned, explains.isSome_iff.mpr explained⟩
  · obtain ⟨answer, explains, rfl, -⟩ := check_answers wellFormed returned
    obtain ⟨order, rfl⟩ := Option.isSome_iff_exists.mp positive
    exact ⟨explains, perm_of_linearizesCompleted wellFormed explains⟩
  · intro maxOperations maxStates extended returned'
    obtain ⟨-, answer', explains', rfl⟩ :=
      checkWithPendingExtensions_answers wellFormed returned'
    have verdict' : answer'.isSome = true ↔ ∃ order, (recorded calls).LinearizesExtended order :=
      explains'.isSome_iff
    refine ⟨?_, fun noWrite => ?_⟩
    · rw [extensionResult_linearizable, verdict result returned, verdict']
      exact Exists.imp fun _ => LinearizesCompleted.extended
    · rw [extensionResult_linearizable, Bool.eq_iff_iff, verdict result returned, verdict']
      refine exists_congr fun order => ⟨LinearizesCompleted.extended,
        LinearizesExtended.completed fun id pending => ?_⟩
      obtain ⟨open', invocation, invoked, write⟩ := pending
      obtain rfl := wellFormed.invocationKey id invocation invoked
      have read := noWrite invocation (List.mem_filter.mpr
        ⟨(mem_invocations wellFormed).mpr invoked, decide_eq_true open'⟩)
      rw [read] at write
      cases write

/-- Without the write nothing explains the read. -/
theorem pending_write_left_out : check 4 (recorded readOfPendingWrite) = .ok ⟨false, []⟩ ∧
    ¬ ∃ order, (recorded readOfPendingWrite).LinearizesCompleted order := by
  have checked : check 4 (recorded readOfPendingWrite) = .ok ⟨false, []⟩ := by decide +kernel
  obtain ⟨-, right⟩ := completed_check_exact 4 readOfPendingWrite
  exact ⟨checked, fun found => Bool.false_ne_true ((right _ checked).1.mpr found)⟩

/-- A read of the register as it was and a thousand writes after it are linearizable. The
search is nested too deep for a thousand frames. -/
theorem thousand_writes_overflow :
    (∃ order, (recorded (readThenWrites none 1000)).LinearizesCompleted order) ∧
      check 1000 (recorded (readThenWrites none 1000)) = .error .recursion := by
  have filled := readThenWrites_recorded none 1000
  refine ⟨filled.exists_linearizes, check_overflows filled.wellFormed filled.oneKey ?_⟩
  exact filled.deep (by decide) filled.exists_linearizes

end Distlab.Clients
