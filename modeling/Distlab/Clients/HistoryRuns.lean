import Distlab.Clients.OperationHistory
import Distlab.Foundations.Outcome

/-!
# Histories that calls record

Whatever a client calls, in whatever order, the history stays well-formed: its events
are numbered one after another, an answer follows its invocation, writes are answered
with nothing, and an attached request id belongs to one unresolved write.
-/

set_option autoImplicit false

namespace Distlab.Clients

open Foundations

/-- A call on a history. -/
inductive HistoryCall where
  | invoke (operationId clientId : String) (operation : HistoryOperation)
  | respond (operationId : String) (result : HistoryResult)
  | abandon (operationId : String)
  | attachClientRequestId (operationId : String) (requestId : ℕ)
  | retireClientRequestId (operationId : String)

/-- What is numbered in a history. -/
inductive HistoryEvent where
  | invoked (invocation : Invocation)
  | completed (completion : Completion)
  deriving DecidableEq

/-- The number of an event. -/
def HistoryEvent.sequence : HistoryEvent → ℕ
  | .invoked invocation => invocation.sequence
  | .completed completion => completion.sequence

namespace OperationHistory

/-- The call on a history. -/
def perform : HistoryCall → OperationHistory → Except HistoryError OperationHistory
  | .invoke operationId clientId operation => invoke operationId clientId operation
  | .respond operationId result => respond operationId result
  | .abandon operationId => abandon operationId
  | .attachClientRequestId operationId requestId => attachClientRequestId operationId requestId
  | .retireClientRequestId operationId => retireClientRequestId operationId

/-- The history after a call. A call that raises changes nothing. -/
def after (h : OperationHistory) (call : HistoryCall) : OperationHistory :=
  match h.perform call with
  | .ok h' => h'
  | .error _ => h

/-- The history that a list of calls records. -/
def recorded (calls : List HistoryCall) : OperationHistory := calls.foldl after {}

/-- The history has the event. -/
def Has (h : OperationHistory) : HistoryEvent → Prop
  | .invoked invocation => h.invocationsById.lookup invocation.operationId = some invocation
  | .completed completion => h.completions.lookup completion.operationId = some completion

/-- A history as its calls keep it. -/
structure WellFormed (h : OperationHistory) : Prop where
  invocationKey : ∀ id invocation, h.invocationsById.lookup id = some invocation →
    invocation.operationId = id
  completionKey : ∀ id completion, h.completions.lookup id = some completion →
    completion.operationId = id
  answers : ∀ id completion, h.completions.lookup id = some completion →
    ∃ invocation, h.invocationsById.lookup id = some invocation ∧
      invocation.sequence < completion.sequence ∧
      (invocation.operation.isWrite → completion.result = none)
  early : ∀ event, h.Has event → event.sequence < h.sequence
  distinct : ∀ event event', h.Has event → h.Has event' →
    event.sequence = event'.sequence → event = event'
  dense : ∀ n < h.sequence, ∃ event, h.Has event ∧ event.sequence = n
  abandoned : ∀ id ∈ h.abandonedIds, id ∉ h.completions ∧
    ∃ invocation, h.invocationsById.lookup id = some invocation ∧
      invocation.operation.isWrite = false
  attached : ∀ id requestId, h.clientRequestIds.lookup id = some requestId →
    ∃ invocation, h.invocationsById.lookup id = some invocation ∧
      invocation.operation.isWrite ∧
      h.activeClientRequests.lookup (invocation.clientId, requestId) = some id
  active : ∀ clientId requestId id,
    h.activeClientRequests.lookup (clientId, requestId) = some id →
      h.clientRequestIds.lookup id = some requestId ∧
        ∃ invocation, h.invocationsById.lookup id = some invocation ∧
          invocation.clientId = clientId
  named : ∀ id invocation, h.invocationsById.lookup id = some invocation →
    id ≠ "" ∧ invocation.clientId ≠ ""

variable {h h' : OperationHistory}

/-- An invocation is numbered below the next event. -/
theorem WellFormed.invocation_lt (wellFormed : h.WellFormed) {id : String}
    {invocation : Invocation} (invoked : h.invocationsById.lookup id = some invocation) :
    invocation.sequence < h.sequence := by
  refine wellFormed.early (.invoked invocation) ?_
  rw [Has, wellFormed.invocationKey id invocation invoked]
  exact invoked

/-- A completion is numbered below the next event. -/
theorem WellFormed.completion_lt (wellFormed : h.WellFormed) {id : String}
    {completion : Completion} (found : h.completions.lookup id = some completion) :
    completion.sequence < h.sequence := by
  refine wellFormed.early (.completed completion) ?_
  rw [Has, wellFormed.completionKey id completion found]
  exact found

/-! ## What each call changes -/

theorem invoke_eq_ok {id clientId : String} {operation : HistoryOperation} :
    invoke id clientId operation h = .ok h' ↔
      id ≠ "" ∧ clientId ≠ "" ∧ id ∉ h.invocationsById ∧
        h' = { h with
          sequence := h.sequence + 1
          invocationsById := h.invocationsById.insert id
            ⟨id, clientId, operation, h.sequence⟩ } := by
  unfold invoke
  split
  next empty => simp [empty]
  next named =>
    split
    next empty => simp [empty]
    next client =>
      split
      next known => simp [known]
      next fresh => simp [named, client, fresh, eq_comm]

theorem respond_eq_ok {id : String} {result : HistoryResult} :
    respond id result h = .ok h' ↔
      ∃ invocation, h.invocationsById.lookup id = some invocation ∧ id ∉ h.completions ∧
        id ∉ h.abandonedIds ∧ (invocation.operation.isWrite → result = none) ∧
        h' = { h with
          sequence := h.sequence + 1
          completions := h.completions.insert id ⟨id, result, h.sequence⟩ } := by
  unfold respond
  cases found : h.invocationsById.lookup id with
  | none => simp
  | some invocation =>
      simp only [Option.some.injEq, exists_eq_left']
      split
      next known => simp [known]
      next fresh =>
        split
        next gone => simp [gone]
        next here =>
          cases operation : invocation.operation with
          | get key => simp [fresh, here, HistoryOperation.isWrite, eq_comm]
          | write change =>
              cases result with
              | none =>
                  constructor
                  · intro returned
                    exact ⟨fresh, here, fun _ => rfl, (Except.ok.inj returned).symm⟩
                  · rintro ⟨_, _, _, rfl⟩
                    rfl
              | some value => simp [HistoryOperation.isWrite]

theorem abandon_eq_ok {id : String} :
    abandon id h = .ok h' ↔
      ∃ invocation, h.invocationsById.lookup id = some invocation ∧ id ∉ h.completions ∧
        invocation.operation.isWrite = false ∧ id ∉ h.abandonedIds ∧
        h' = { h with abandonedIds := insert id h.abandonedIds } := by
  unfold abandon
  cases found : h.invocationsById.lookup id with
  | none => simp
  | some invocation =>
      simp only [Option.some.injEq, exists_eq_left']
      by_cases known : id ∈ h.completions
      · simp [known]
      · cases operation : invocation.operation with
        | write change => simp [known, HistoryOperation.isWrite]
        | get key =>
            by_cases gone : id ∈ h.abandonedIds
            · simp [gone, known]
            · simp [gone, known, HistoryOperation.isWrite, eq_comm]

theorem attachClientRequestId_eq_ok {id : String} {requestId : ℕ} :
    attachClientRequestId id requestId h = .ok h' ↔
      ∃ invocation, h.invocationsById.lookup id = some invocation ∧
        invocation.operation.isWrite ∧ id ∉ h.completions ∧ id ∉ h.clientRequestIds ∧
        h.activeClientRequests.lookup (invocation.clientId, requestId) = none ∧
        h' = { h with
          clientRequestIds := h.clientRequestIds.insert id requestId
          activeClientRequests :=
            h.activeClientRequests.insert (invocation.clientId, requestId) id } := by
  unfold attachClientRequestId
  cases found : h.invocationsById.lookup id with
  | none => simp
  | some invocation =>
      simp only [Option.some.injEq, exists_eq_left']
      cases operation : invocation.operation with
      | get key => simp [HistoryOperation.isWrite]
      | write change =>
          by_cases known : id ∈ h.completions
          · simp [known]
          · by_cases old : id ∈ h.clientRequestIds
            · simp [known, old]
            · cases owner : h.activeClientRequests.lookup (invocation.clientId, requestId) with
              | some other => simp [known, old]
              | none => simp [known, old, HistoryOperation.isWrite, eq_comm]

theorem retireClientRequestId_eq_ok {id : String} :
    retireClientRequestId id h = .ok h' ↔
      ∃ completion invocation requestId, h.completions.lookup id = some completion ∧
        h.invocationsById.lookup id = some invocation ∧
        h.clientRequestIds.lookup id = some requestId ∧
        h.activeClientRequests.lookup (invocation.clientId, requestId) = some id ∧
        h' = { h with
          clientRequestIds := h.clientRequestIds.erase id
          activeClientRequests :=
            h.activeClientRequests.erase (invocation.clientId, requestId) } := by
  unfold retireClientRequestId
  cases answered : h.completions.lookup id with
  | none => simp
  | some completion =>
      cases found : h.invocationsById.lookup id with
      | none => simp
      | some invocation =>
          cases attached : h.clientRequestIds.lookup id with
          | none => simp
          | some requestId =>
              by_cases owner : h.activeClientRequests.lookup (invocation.clientId, requestId) =
                  some id
              · simp [owner, eq_comm]
              · simp [owner]

theorem has_invoke {id clientId : String} {operation : HistoryOperation}
    (returned : invoke id clientId operation h = .ok h') (event : HistoryEvent) :
    h'.Has event ↔ event = .invoked ⟨id, clientId, operation, h.sequence⟩ ∨ h.Has event := by
  obtain ⟨_, _, fresh, rfl⟩ := invoke_eq_ok.mp returned
  have unknown : h.invocationsById.lookup id = none := AList.lookup_eq_none.mpr fresh
  cases event with
  | completed completion => simp [Has]
  | invoked invocation =>
      simp only [Has, HistoryEvent.invoked.injEq]
      constructor
      · intro found
        rcases Dict.of_lookup_insert found with ⟨_, new⟩ | ⟨_, old⟩
        · exact .inl new
        · exact .inr old
      · rintro (rfl | old)
        · exact AList.lookup_insert _
        · rw [AList.lookup_insert_ne, old]
          intro same
          rw [same, unknown] at old
          cases old

theorem has_respond {id : String} {result : HistoryResult}
    (returned : respond id result h = .ok h') (event : HistoryEvent) :
    h'.Has event ↔ event = .completed ⟨id, result, h.sequence⟩ ∨ h.Has event := by
  obtain ⟨_, _, fresh, _, _, rfl⟩ := respond_eq_ok.mp returned
  have unanswered : h.completions.lookup id = none := AList.lookup_eq_none.mpr fresh
  cases event with
  | invoked invocation => simp [Has]
  | completed completion =>
      simp only [Has, HistoryEvent.completed.injEq]
      constructor
      · intro found
        rcases Dict.of_lookup_insert found with ⟨_, new⟩ | ⟨_, old⟩
        · exact .inl new
        · exact .inr old
      · rintro (rfl | old)
        · exact AList.lookup_insert _
        · rw [AList.lookup_insert_ne, old]
          intro same
          rw [same, unanswered] at old
          cases old

/-! ## Well-formed histories -/

theorem wellFormed_empty : WellFormed {} := by
  constructor
  case dense =>
    intro n bound
    exact absurd bound (Nat.not_lt_zero n)
  case early =>
    rintro (_ | _) has <;> cases has
  case distinct =>
    rintro (_ | _) _ has <;> cases has
  case abandoned =>
    intro id member
    cases Finset.notMem_empty id member
  all_goals
    intros
    rename_i found
    cases found

namespace WellFormed

/-- A history with the same events, whose identities are kept in order, stays well-formed. -/
theorem withEvents (wellFormed : h.WellFormed) (sequence : h'.sequence = h.sequence)
    (invocations : h'.invocationsById = h.invocationsById)
    (completions : h'.completions = h.completions)
    (abandoned : ∀ id ∈ h'.abandonedIds, id ∉ h.completions ∧
      ∃ invocation, h.invocationsById.lookup id = some invocation ∧
        invocation.operation.isWrite = false)
    (attached : ∀ id requestId, h'.clientRequestIds.lookup id = some requestId →
      ∃ invocation, h.invocationsById.lookup id = some invocation ∧
        invocation.operation.isWrite ∧
        h'.activeClientRequests.lookup (invocation.clientId, requestId) = some id)
    (active : ∀ clientId requestId id,
      h'.activeClientRequests.lookup (clientId, requestId) = some id →
        h'.clientRequestIds.lookup id = some requestId ∧
          ∃ invocation, h.invocationsById.lookup id = some invocation ∧
            invocation.clientId = clientId) : h'.WellFormed := by
  have same : ∀ event, h'.Has event ↔ h.Has event := by
    rintro (_ | _)
    · rw [Has, Has, invocations]
    · rw [Has, Has, completions]
  constructor
  · rw [invocations]
    exact wellFormed.invocationKey
  · rw [completions]
    exact wellFormed.completionKey
  · rw [invocations, completions]
    exact wellFormed.answers
  · simp only [same, sequence]
    exact wellFormed.early
  · simp only [same]
    exact wellFormed.distinct
  · simp only [same, sequence]
    exact wellFormed.dense
  · rw [invocations, completions]
    exact abandoned
  · rw [invocations]
    exact attached
  · rw [invocations]
    exact active
  · rw [invocations]
    exact wellFormed.named

/-- The numbers of events when one event is added. -/
theorem numbered (wellFormed : h.WellFormed) {new : HistoryEvent}
    (number : new.sequence = h.sequence) (sequence : h'.sequence = h.sequence + 1)
    (has : ∀ event, h'.Has event ↔ event = new ∨ h.Has event) :
    (∀ event, h'.Has event → event.sequence < h'.sequence) ∧
      (∀ event event', h'.Has event → h'.Has event' →
        event.sequence = event'.sequence → event = event') ∧
      ∀ n < h'.sequence, ∃ event, h'.Has event ∧ event.sequence = n := by
  refine ⟨fun event member => ?_, fun event event' first second same => ?_, fun n bound => ?_⟩
  · rw [sequence]
    rcases (has event).mp member with rfl | old
    · omega
    · have := wellFormed.early event old
      omega
  · rcases (has event).mp first with rfl | old
    · rcases (has event').mp second with rfl | old'
      · rfl
      · have := wellFormed.early event' old'
        omega
    · rcases (has event').mp second with rfl | old'
      · have := wellFormed.early event old
        omega
      · exact wellFormed.distinct event event' old old' same
  · rw [sequence] at bound
    rcases Nat.lt_succ_iff_lt_or_eq.mp bound with earlier | last
    · obtain ⟨event, member, same⟩ := wellFormed.dense n earlier
      exact ⟨event, (has event).mpr (.inr member), same⟩
    · exact ⟨new, (has new).mpr (.inl rfl), by omega⟩

theorem invoke (wellFormed : h.WellFormed) {id clientId : String} {operation : HistoryOperation}
    (returned : OperationHistory.invoke id clientId operation h = .ok h') : h'.WellFormed := by
  have has := has_invoke returned
  obtain ⟨named, client, fresh, rfl⟩ := invoke_eq_ok.mp returned
  have unknown : h.invocationsById.lookup id = none := AList.lookup_eq_none.mpr fresh
  have kept : ∀ id' invocation, h.invocationsById.lookup id' = some invocation →
      (h.invocationsById.insert id ⟨id, clientId, operation, h.sequence⟩).lookup id' =
        some invocation := by
    intro id' invocation found
    rw [AList.lookup_insert_ne, found]
    rintro rfl
    rw [unknown] at found
    cases found
  obtain ⟨early, distinct, dense⟩ := wellFormed.numbered rfl rfl has
  constructor
  · intro id' invocation found
    rcases Dict.of_lookup_insert found with ⟨rfl, rfl⟩ | ⟨_, old⟩
    · rfl
    · exact wellFormed.invocationKey id' invocation old
  · exact wellFormed.completionKey
  · intro id' completion found
    obtain ⟨invocation, invoked, rest⟩ := wellFormed.answers id' completion found
    exact ⟨invocation, kept _ _ invoked, rest⟩
  · exact early
  · exact distinct
  · exact dense
  · intro id' member
    obtain ⟨open', invocation, found, read⟩ := wellFormed.abandoned id' member
    exact ⟨open', invocation, kept _ _ found, read⟩
  · intro id' requestId found
    obtain ⟨invocation, invoked, rest⟩ := wellFormed.attached id' requestId found
    exact ⟨invocation, kept _ _ invoked, rest⟩
  · intro clientId' requestId id' found
    obtain ⟨attached, invocation, invoked, owner⟩ :=
      wellFormed.active clientId' requestId id' found
    exact ⟨attached, invocation, kept _ _ invoked, owner⟩
  · intro id' invocation found
    rcases Dict.of_lookup_insert found with ⟨rfl, rfl⟩ | ⟨_, old⟩
    · exact ⟨named, client⟩
    · exact wellFormed.named id' invocation old

theorem respond (wellFormed : h.WellFormed) {id : String} {result : HistoryResult}
    (returned : OperationHistory.respond id result h = .ok h') : h'.WellFormed := by
  have has := has_respond returned
  obtain ⟨invocation, invoked, fresh, awaited, allowed, rfl⟩ := respond_eq_ok.mp returned
  obtain ⟨early, distinct, dense⟩ := wellFormed.numbered rfl rfl has
  constructor
  · exact wellFormed.invocationKey
  · intro id' completion found
    rcases Dict.of_lookup_insert found with ⟨rfl, rfl⟩ | ⟨_, old⟩
    · rfl
    · exact wellFormed.completionKey id' completion old
  · intro id' completion found
    rcases Dict.of_lookup_insert found with ⟨rfl, rfl⟩ | ⟨_, old⟩
    · refine ⟨invocation, invoked, wellFormed.early (.invoked invocation) ?_, allowed⟩
      rw [Has, wellFormed.invocationKey _ _ invoked]
      exact invoked
    · exact wellFormed.answers id' completion old
  · exact early
  · exact distinct
  · exact dense
  · intro id' member
    obtain ⟨open', read⟩ := wellFormed.abandoned id' member
    refine ⟨fun answered => ?_, read⟩
    rcases (AList.mem_insert _).mp answered with rfl | old
    · exact awaited member
    · exact open' old
  · exact wellFormed.attached
  · exact wellFormed.active
  · exact wellFormed.named

theorem abandon (wellFormed : h.WellFormed) {id : String}
    (returned : OperationHistory.abandon id h = .ok h') : h'.WellFormed := by
  obtain ⟨invocation, invoked, open', read, _, rfl⟩ := abandon_eq_ok.mp returned
  refine wellFormed.withEvents rfl rfl rfl (fun id' member => ?_) wellFormed.attached
    wellFormed.active
  rcases Finset.mem_insert.mp member with rfl | old
  · exact ⟨open', invocation, invoked, read⟩
  · exact wellFormed.abandoned id' old

theorem attachClientRequestId (wellFormed : h.WellFormed) {id : String} {requestId : ℕ}
    (returned : OperationHistory.attachClientRequestId id requestId h = .ok h') :
    h'.WellFormed := by
  obtain ⟨invocation, invoked, write, _, fresh, free, rfl⟩ :=
    attachClientRequestId_eq_ok.mp returned
  have unattached : h.clientRequestIds.lookup id = none := AList.lookup_eq_none.mpr fresh
  refine wellFormed.withEvents rfl rfl rfl wellFormed.abandoned (fun id' requestId' found => ?_)
    fun clientId requestId' id' found => ?_
  · rcases Dict.of_lookup_insert found with ⟨rfl, rfl⟩ | ⟨_, old⟩
    · exact ⟨invocation, invoked, write, AList.lookup_insert _⟩
    · obtain ⟨invocation', invoked', write', owner⟩ := wellFormed.attached id' requestId' old
      refine ⟨invocation', invoked', write', ?_⟩
      dsimp only
      rw [AList.lookup_insert_ne, owner]
      intro same
      rw [same, free] at owner
      cases owner
  · rcases Dict.of_lookup_insert found with ⟨same, rfl⟩ | ⟨_, old⟩
    · obtain ⟨rfl, rfl⟩ := Prod.mk.inj same
      exact ⟨AList.lookup_insert _, invocation, invoked, rfl⟩
    · obtain ⟨attached, owner⟩ := wellFormed.active clientId requestId' id' old
      refine ⟨?_, owner⟩
      dsimp only
      rw [AList.lookup_insert_ne, attached]
      rintro rfl
      rw [unattached] at attached
      cases attached

theorem retireClientRequestId (wellFormed : h.WellFormed) {id : String}
    (returned : OperationHistory.retireClientRequestId id h = .ok h') : h'.WellFormed := by
  obtain ⟨_, invocation, requestId, _, invoked, attached, owner, rfl⟩ :=
    retireClientRequestId_eq_ok.mp returned
  refine wellFormed.withEvents rfl rfl rfl wellFormed.abandoned (fun id' requestId' found => ?_)
    fun clientId requestId' id' found => ?_
  · obtain ⟨other, old⟩ := Dict.of_lookup_erase found
    obtain ⟨invocation', invoked', write', owner'⟩ := wellFormed.attached id' requestId' old
    refine ⟨invocation', invoked', write', ?_⟩
    dsimp only
    rw [Dict.lookup_erase, if_neg, owner']
    intro same
    rw [same, owner] at owner'
    exact other (Option.some.inj owner').symm
  · obtain ⟨other, old⟩ := Dict.of_lookup_erase found
    obtain ⟨attached', invocation', invoked', owner'⟩ :=
      wellFormed.active clientId requestId' id' old
    refine ⟨?_, invocation', invoked', owner'⟩
    dsimp only
    rw [Dict.lookup_erase, if_neg, attached']
    rintro rfl
    rw [attached] at attached'
    rw [invoked] at invoked'
    cases attached'
    cases invoked'
    exact other (by rw [owner'])

theorem after (wellFormed : h.WellFormed) (call : HistoryCall) : (h.after call).WellFormed := by
  unfold OperationHistory.after
  cases performed : h.perform call with
  | error raised => exact wellFormed
  | ok h' =>
      cases call with
      | invoke id clientId operation => exact wellFormed.invoke performed
      | respond id result => exact wellFormed.respond performed
      | abandon id => exact wellFormed.abandon performed
      | attachClientRequestId id requestId => exact wellFormed.attachClientRequestId performed
      | retireClientRequestId id => exact wellFormed.retireClientRequestId performed

end WellFormed

/-- **Every recorded history is well-formed.** -/
theorem recorded_wellFormed (calls : List HistoryCall) : (recorded calls).WellFormed := by
  suffices kept : ∀ h : OperationHistory, h.WellFormed → (calls.foldl after h).WellFormed from
    kept {} wellFormed_empty
  induction calls with
  | nil => exact fun h wellFormed => wellFormed
  | cons call calls ih => exact fun h wellFormed => ih _ (wellFormed.after call)

end OperationHistory

end Distlab.Clients
