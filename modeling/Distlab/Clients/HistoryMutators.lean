import Distlab.Clients.HistoryRuns

/-!
# The mutators of a history, errors included

`OperationHistory` is changed by five methods, each of which may raise after it has read
its tables, and one after it has popped an entry that it puts back. Here the methods keep
the history they leave behind in both cases, and take what a caller may pass: a value that
is no operation, a result that is no text, a negative request id. A method that returns
performs a call of `HistoryCall`; one that raises leaves the history as it was.
-/

set_option autoImplicit false

namespace Distlab.Clients

open Foundations

/-- What is passed where an operation is expected. -/
inductive OperationArgument where
  | operation (operation : HistoryOperation)
  /-- Neither a `Put`, nor a `Delete`, nor a `Get`. -/
  | other
  deriving DecidableEq

/-- What is passed where a result is expected. -/
inductive ResultArgument where
  | result (result : HistoryResult)
  /-- Neither `None` nor a `str`. -/
  | other
  deriving DecidableEq

/-- What a mutator raises. -/
inductive MutatorError where
  | history (error : HistoryError)
  /-- `TypeError`: "history operation must be Put, Delete, or Get". -/
  | operationType
  /-- "Get response must be str or None" -/
  | getResponse
  /-- `ValueError`: "request_id must be non-negative". -/
  | negativeRequestId
  /-- `KeyError`, of an answered operation that was not invoked. -/
  | keyError
  deriving DecidableEq

/-- A call of a mutator. -/
inductive Mutation where
  | invoke (operationId clientId : String) (operation : OperationArgument)
  | respond (operationId : String) (result : ResultArgument)
  | abandon (operationId : String)
  | attachClientRequestId (operationId : String) (requestId : ℤ)
  | retireClientRequestId (operationId : String)
  deriving DecidableEq

namespace Mutators

/-- `invoke`. -/
def invoke (operationId clientId : String) (operation : OperationArgument)
    (h : OperationHistory) : Outcome MutatorError OperationHistory Invocation :=
  if operationId = "" then .raises (.history .emptyOperationId) h
  else if clientId = "" then .raises (.history .emptyClientId) h
  else if operationId ∈ h.invocationsById then
    .raises (.history (.duplicateInvocation operationId)) h
  else
    match operation with
    | .other => .raises .operationType h
    | .operation operation =>
        let invocation : Invocation := ⟨operationId, clientId, operation, h.sequence⟩
        .returns invocation { h with
          sequence := h.sequence + 1
          invocationsById := h.invocationsById.insert operationId invocation }

/-- What `respond` records once the result is accepted. -/
def complete (operationId : String) (result : HistoryResult) (h : OperationHistory) :
    Outcome MutatorError OperationHistory Completion :=
  let completion : Completion := ⟨operationId, result, h.sequence⟩
  .returns completion { h with
    sequence := h.sequence + 1
    completions := h.completions.insert operationId completion }

/-- `respond`. -/
def respond (operationId : String) (result : ResultArgument) (h : OperationHistory) :
    Outcome MutatorError OperationHistory Completion :=
  match h.invocationsById.lookup operationId with
  | none => .raises (.history (.responseWithoutInvocation operationId)) h
  | some invocation =>
      if operationId ∈ h.completions then
        .raises (.history (.duplicateResponse operationId)) h
      else if operationId ∈ h.abandonedIds then
        .raises (.history (.responseForAbandoned operationId)) h
      else
        match invocation.operation, result with
        | .write _, .result none => complete operationId none h
        | .write _, _ => .raises (.history .writeResponse) h
        | .get _, .result result => complete operationId result h
        | .get _, .other => .raises .getResponse h

/-- `abandon`. -/
def abandon (operationId : String) (h : OperationHistory) :
    Outcome MutatorError OperationHistory Invocation :=
  match h.invocationsById.lookup operationId with
  | none => .raises (.history (.abandonWithoutInvocation operationId)) h
  | some invocation =>
      if operationId ∈ h.completions then
        .raises (.history (.abandonCompleted operationId)) h
      else if invocation.operation.isWrite then
        .raises (.history (.abandonWrite operationId)) h
      else if operationId ∈ h.abandonedIds then
        .raises (.history (.duplicateAbandonment operationId)) h
      else .returns invocation { h with abandonedIds := insert operationId h.abandonedIds }

/-- `attach_client_request_id`. -/
def attachClientRequestId (operationId : String) (requestId : ℤ) (h : OperationHistory) :
    Outcome MutatorError OperationHistory Unit :=
  match h.invocationsById.lookup operationId with
  | none => .raises (.history (.identityWithoutInvocation operationId)) h
  | some invocation =>
      if ¬ invocation.operation.isWrite then .raises (.history .identityOfRead) h
      else if operationId ∈ h.completions then
        .raises (.history (.identityAfterResponse operationId)) h
      else if requestId < 0 then .raises .negativeRequestId h
      else if operationId ∈ h.clientRequestIds then
        .raises (.history (.duplicateIdentity operationId)) h
      else
        let identity := (invocation.clientId, requestId.toNat)
        match h.activeClientRequests.lookup identity with
        | some owner =>
            .raises (.history (.identityActive owner invocation.clientId requestId.toNat)) h
        | none =>
            .returns () { h with
              clientRequestIds := h.clientRequestIds.insert operationId requestId.toNat
              activeClientRequests := h.activeClientRequests.insert identity operationId }

/-- `retire_client_request_id`: the id is popped first, and put back if the identity has
another owner. -/
def retireClientRequestId (operationId : String) (h : OperationHistory) :
    Outcome MutatorError OperationHistory ℕ :=
  if operationId ∉ h.completions then
    .raises (.history (.retireBeforeResponse operationId)) h
  else
    match h.invocationsById.lookup operationId with
    | none => .raises .keyError h
    | some invocation =>
        match h.clientRequestIds.lookup operationId with
        | none => .raises (.history (.missingIdentity operationId)) h
        | some requestId =>
            let popped := { h with clientRequestIds := h.clientRequestIds.erase operationId }
            let identity := (invocation.clientId, requestId)
            if popped.activeClientRequests.lookup identity ≠ some operationId then
              .raises (.history (.identityOwner operationId)) { popped with
                clientRequestIds := popped.clientRequestIds.insert operationId requestId }
            else
              .returns requestId { popped with
                activeClientRequests := popped.activeClientRequests.erase identity }

/-- A mutator whose value is not used. -/
def discard {α : Type} (outcome : Outcome MutatorError OperationHistory α) :
    Outcome MutatorError OperationHistory Unit :=
  outcome.bind fun _ h => .returns () h

/-- The call of a mutator. -/
def perform : Mutation → OperationHistory → Outcome MutatorError OperationHistory Unit
  | .invoke operationId clientId operation, h => discard (invoke operationId clientId operation h)
  | .respond operationId result, h => discard (respond operationId result h)
  | .abandon operationId, h => discard (abandon operationId h)
  | .attachClientRequestId operationId requestId, h =>
      discard (attachClientRequestId operationId requestId h)
  | .retireClientRequestId operationId, h => discard (retireClientRequestId operationId h)

/-! ## What a mutator leaves -/

variable {h : OperationHistory}

/-- The mutator performed a call, or raised and left the history as it was. -/
inductive Settles {α : Type} (h : OperationHistory) :
    Outcome MutatorError OperationHistory α → Prop
  | performed {value : α} {h' : OperationHistory} (call : HistoryCall)
      (returned : h.perform call = .ok h') : Settles h (.returns value h')
  | unchanged (error : MutatorError) : Settles h (.raises error h)

theorem Settles.discard {α : Type} {outcome : Outcome MutatorError OperationHistory α}
    (settles : Settles h outcome) : Settles h (discard outcome) := by
  cases settles with
  | performed call returned => exact .performed call returned
  | unchanged error => exact .unchanged error

theorem settles_invoke (id clientId : String) (operation : OperationArgument) :
    Settles h (invoke id clientId operation h) := by
  unfold invoke
  split
  · exact .unchanged _
  next named =>
    split
    · exact .unchanged _
    next client =>
      split
      · exact .unchanged _
      next fresh =>
        cases operation with
        | other => exact .unchanged _
        | operation operation =>
            exact .performed (.invoke id clientId operation)
              (OperationHistory.invoke_eq_ok.mpr ⟨named, client, fresh, rfl⟩)

theorem settles_complete {id : String} {result : HistoryResult} {invocation : Invocation}
    (invoked : h.invocationsById.lookup id = some invocation) (open' : id ∉ h.completions)
    (here : id ∉ h.abandonedIds) (fits : invocation.operation.isWrite → result = none) :
    Settles h (complete id result h) :=
  .performed (.respond id result)
    (OperationHistory.respond_eq_ok.mpr ⟨invocation, invoked, open', here, fits, rfl⟩)

theorem settles_respond (id : String) (result : ResultArgument) :
    Settles h (respond id result h) := by
  unfold respond
  split
  · exact .unchanged _
  next invocation invoked =>
    split
    · exact .unchanged _
    next open' =>
      split
      · exact .unchanged _
      next here =>
        split
        next _ write => exact settles_complete invoked open' here fun _ => rfl
        next => exact .unchanged _
        next key result operation =>
          refine settles_complete invoked open' here fun write => ?_
          rw [operation] at write
          cases write
        next => exact .unchanged _

theorem settles_abandon (id : String) : Settles h (abandon id h) := by
  unfold abandon
  split
  · exact .unchanged _
  next invocation invoked =>
    split
    · exact .unchanged _
    next open' =>
      split
      · exact .unchanged _
      next read =>
        split
        · exact .unchanged _
        next here =>
          have kind : invocation.operation.isWrite = false := by simpa using read
          exact .performed (.abandon id)
            (OperationHistory.abandon_eq_ok.mpr ⟨invocation, invoked, open', kind, here, rfl⟩)

theorem settles_attachClientRequestId (id : String) (requestId : ℤ) :
    Settles h (attachClientRequestId id requestId h) := by
  unfold attachClientRequestId
  split
  · exact .unchanged _
  next invocation invoked =>
    split
    · exact .unchanged _
    next write =>
      split
      · exact .unchanged _
      next open' =>
        split
        · exact .unchanged _
        next =>
          split
          · exact .unchanged _
          next fresh =>
            dsimp only
            split
            · exact .unchanged _
            next free =>
              exact .performed (.attachClientRequestId id requestId.toNat)
                (OperationHistory.attachClientRequestId_eq_ok.mpr
                  ⟨invocation, invoked, not_not.mp write, open', fresh, free, rfl⟩)

/-- In a well-formed history the popped id belongs to its operation, so that it is never
put back. -/
theorem settles_retireClientRequestId (wellFormed : h.WellFormed) (id : String) :
    Settles h (retireClientRequestId id h) := by
  unfold retireClientRequestId
  split
  · exact .unchanged _
  next answered =>
    have known : (h.completions.lookup id).isSome :=
      AList.lookup_isSome.mpr (not_not.mp answered)
    obtain ⟨completion, completed⟩ := Option.isSome_iff_exists.mp known
    split
    · exact .unchanged _
    next invocation invoked =>
      split
      · exact .unchanged _
      next requestId attached =>
        have owner : h.activeClientRequests.lookup (invocation.clientId, requestId) = some id := by
          obtain ⟨invocation', invoked', _, owner⟩ := wellFormed.attached id requestId attached
          cases invoked.symm.trans invoked'
          exact owner
        dsimp only
        rw [if_neg (not_not.mpr owner)]
        exact .performed (.retireClientRequestId id)
          (OperationHistory.retireClientRequestId_eq_ok.mpr
            ⟨completion, invocation, requestId, completed, invoked, attached, owner, rfl⟩)

/-- **A mutator performs a call or changes nothing.** -/
theorem settles_perform (wellFormed : h.WellFormed) (mutation : Mutation) :
    Settles h (perform mutation h) := by
  cases mutation with
  | invoke id clientId operation => exact (settles_invoke id clientId operation).discard
  | respond id result => exact (settles_respond id result).discard
  | abandon id => exact (settles_abandon id).discard
  | attachClientRequestId id requestId =>
      exact (settles_attachClientRequestId id requestId).discard
  | retireClientRequestId id => exact (settles_retireClientRequestId wellFormed id).discard

theorem wellFormed_perform (wellFormed : h.WellFormed) (mutation : Mutation) :
    (perform mutation h).state.WellFormed := by
  have settles := settles_perform wellFormed mutation
  revert settles
  generalize perform mutation h = outcome
  rintro (⟨call, returned⟩ | _)
  · have after := wellFormed.after call
    rw [OperationHistory.after, returned] at after
    exact after
  · exact wellFormed

/-! ## Runs of the mutators -/

/-- The history that a list of mutations leaves, raising ones included. -/
def mutated (mutations : List Mutation) : OperationHistory := runEvents perform mutations {}

theorem wellFormed_mutated (mutations : List Mutation) : (mutated mutations).WellFormed :=
  runEvents_invariant (P := OperationHistory.WellFormed)
    (fun mutation _ wellFormed => wellFormed_perform wellFormed mutation) mutations {}
    OperationHistory.wellFormed_empty

/-- **The tables of a history agree** after every list of mutations, and a mutation that
raises leaves them as they are. -/
theorem mutated_integrity (mutations : List Mutation) :
    (∀ clientId requestId id,
      (mutated mutations).activeClientRequests.lookup (clientId, requestId) = some id ↔
        (mutated mutations).clientRequestIds.lookup id = some requestId ∧
          ∃ invocation, (mutated mutations).invocationsById.lookup id = some invocation ∧
            invocation.clientId = clientId) ∧
    (∀ id ∈ (mutated mutations).clientRequestIds,
      ∃ invocation, (mutated mutations).invocationsById.lookup id = some invocation ∧
        invocation.operation.isWrite) ∧
    (∀ id ∈ (mutated mutations).completions, id ∈ (mutated mutations).invocationsById ∧
      id ∉ (mutated mutations).abandonedIds) ∧
    (∀ id ∈ (mutated mutations).abandonedIds, id ∈ (mutated mutations).invocationsById) ∧
    (∀ event event', (mutated mutations).Has event → (mutated mutations).Has event' →
      event.sequence = event'.sequence → event = event') ∧
    (∀ id completion, (mutated mutations).completions.lookup id = some completion →
      ∃ invocation, (mutated mutations).invocationsById.lookup id = some invocation ∧
        invocation.sequence < completion.sequence) ∧
    ∀ mutation error, (perform mutation (mutated mutations)).error? = some error →
      (perform mutation (mutated mutations)).state = mutated mutations := by
  have wellFormed := wellFormed_mutated mutations
  generalize mutated mutations = h at wellFormed ⊢
  refine ⟨fun clientId requestId id => ⟨wellFormed.active clientId requestId id, ?_⟩,
    fun id member => ?_, fun id member => ⟨?_, fun gone => (wellFormed.abandoned id gone).1 member⟩,
    fun id gone => ?_, wellFormed.distinct, fun id completion completed => ?_,
    fun mutation error raised => ?_⟩
  · rintro ⟨attached, invocation, invoked, rfl⟩
    obtain ⟨invocation', invoked', _, owner⟩ := wellFormed.attached id requestId attached
    cases invoked.symm.trans invoked'
    exact owner
  · obtain ⟨requestId, attached⟩ :=
      Option.isSome_iff_exists.mp (AList.lookup_isSome.mpr member)
    obtain ⟨invocation, invoked, write, _⟩ := wellFormed.attached id requestId attached
    exact ⟨invocation, invoked, write⟩
  · obtain ⟨completion, completed⟩ :=
      Option.isSome_iff_exists.mp (AList.lookup_isSome.mpr member)
    obtain ⟨invocation, invoked, _⟩ := wellFormed.answers id completion completed
    exact AList.lookup_isSome.mp (Option.isSome_of_mem invoked)
  · obtain ⟨_, invocation, invoked, _⟩ := wellFormed.abandoned id gone
    exact AList.lookup_isSome.mp (Option.isSome_of_mem invoked)
  · obtain ⟨invocation, invoked, earlier, _⟩ := wellFormed.answers id completion completed
    exact ⟨invocation, invoked, earlier⟩
  · have settles := settles_perform wellFormed mutation
    revert settles raised
    generalize perform mutation h = outcome
    rintro raised (⟨call, returned⟩ | _)
    · cases raised
    · rfl

end Mutators

end Distlab.Clients
