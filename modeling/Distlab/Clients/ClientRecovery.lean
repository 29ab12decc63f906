import Distlab.Clients.CheckerExactness
import Distlab.Clients.ClientHistory

/-!
# Client histories are rebuilt from what they recorded

A client history holds the request of each write that is open: invoked with the identity of
its request, and not answered. So the history that it recorded has all of it, and a new
client history over the recorded one answers every later call as the old one would. A write
is recorded as a whole or not at all.
-/

set_option autoImplicit false

namespace Distlab.Clients

open Foundations Raft

/-- The request of an unanswered write. -/
def OperationHistory.openWrite (h : OperationHistory) (id : String) : Option ClientRequest :=
  if id ∈ h.completions then none
  else
    match h.invocationsById.lookup id, h.clientRequestIds.lookup id with
    | some ⟨_, clientId, .write operation, _⟩, some requestId =>
        some ⟨clientId, requestId, operation⟩
    | _, _ => none

namespace OperationHistory

variable {h h' : OperationHistory} {id : String}

theorem openWrite_eq_some {request : ClientRequest} :
    h.openWrite id = some request ↔
      id ∉ h.completions ∧ h.clientRequestIds.lookup id = some request.requestId ∧
        ∃ invocation, h.invocationsById.lookup id = some invocation ∧
          invocation.clientId = request.clientId ∧
          invocation.operation = .write request.operation := by
  obtain ⟨clientId, requestId, operation⟩ := request
  unfold openWrite
  split
  · next answered => simp [answered]
  next unanswered =>
  split
  · next invoked attached => simp [invoked, attached, unanswered, and_left_comm]
  · next none =>
    constructor
    · intro found
      cases found
    · rintro ⟨-, attached, ⟨_, client, _, sequence⟩, invoked, same, write⟩
      cases write
      exact (none _ _ _ _ _ invoked attached).elim

/-- What is open depends on the invocation, the identity and the answer alone. -/
theorem openWrite_congr (invoked : h'.invocationsById.lookup id = h.invocationsById.lookup id)
    (attached : h'.clientRequestIds.lookup id = h.clientRequestIds.lookup id)
    (answered : id ∈ h'.completions ↔ id ∈ h.completions) : h'.openWrite id = h.openWrite id := by
  unfold openWrite
  rw [invoked, attached]
  simp only [answered]

/-- A read is not open. -/
theorem openWrite_of_read {invocation : Invocation}
    (invoked : h.invocationsById.lookup id = some invocation)
    (read : invocation.operation.isWrite = false) : h.openWrite id = none := by
  cases found : h.openWrite id with
  | none => rfl
  | some request =>
      obtain ⟨-, -, _, invoked', -, write⟩ := openWrite_eq_some.mp found
      obtain rfl := Option.some.inj (invoked.symm.trans invoked')
      rw [write] at read
      cases read

theorem mem_pending (wellFormed : h.WellFormed) {invocation : Invocation} :
    invocation ∈ h.pending ↔ h.invocationsById.lookup invocation.operationId = some invocation ∧
      invocation.operationId ∉ h.completions := by
  rw [pending, List.mem_filter, mem_invocations wellFormed, decide_eq_true_eq]

/-- An invocation that `pending` lists under an operation. -/
theorem pendingInvocation_eq_some (wellFormed : h.WellFormed) {invocation : Invocation}
    (found : h.pendingInvocation id = some invocation) :
    h.invocationsById.lookup id = some invocation ∧ id ∉ h.completions := by
  unfold OperationHistory.pendingInvocation at found
  have named : invocation.operationId = id := by simpa using List.find?_some found
  have listed := (mem_pending wellFormed).mp (List.mem_of_find?_eq_some found)
  rwa [named] at listed

/-! ## What each call leaves open -/

theorem openWrite_invoke {clientId : String} {operation : HistoryOperation}
    (wellFormed : h.WellFormed) (returned : invoke id clientId operation h = .ok h') :
    h'.openWrite = h.openWrite := by
  obtain ⟨-, -, fresh, rfl⟩ := invoke_eq_ok.mp returned
  funext other
  by_cases same : other = id
  · subst same
    have unknown : h.invocationsById.lookup other = none := AList.lookup_eq_none.mpr fresh
    have unattached : h.clientRequestIds.lookup other = none := by
      cases attached : h.clientRequestIds.lookup other with
      | none => rfl
      | some requestId =>
          obtain ⟨_, invoked, -⟩ := wellFormed.attached other requestId attached
          rw [unknown] at invoked
          cases invoked
    simp [openWrite, unattached]
  · exact openWrite_congr (AList.lookup_insert_ne same) rfl Iff.rfl

theorem openWrite_attach {requestId : ℕ}
    (returned : attachClientRequestId id requestId h = .ok h') (other : String) :
    h'.openWrite other = if other = id then
      h.invocationsById.lookup id >>= fun invocation =>
        match invocation.operation with
        | .write operation => some ⟨invocation.clientId, requestId, operation⟩
        | .get _ => none
      else h.openWrite other := by
  obtain ⟨invocation, invoked, write, unanswered, -, -, rfl⟩ :=
    attachClientRequestId_eq_ok.mp returned
  by_cases same : other = id
  · subst same
    obtain ⟨_, clientId, operation, sequence⟩ := invocation
    cases operation with
    | get key => cases write
    | write operation => simp [openWrite, invoked, unanswered]
  · rw [if_neg same]
    exact openWrite_congr rfl (AList.lookup_insert_ne same) Iff.rfl

theorem openWrite_respond {result : HistoryResult} (returned : respond id result h = .ok h')
    (other : String) : h'.openWrite other = if other = id then none else h.openWrite other := by
  obtain ⟨_, -, -, -, -, rfl⟩ := respond_eq_ok.mp returned
  by_cases same : other = id
  · subst same
    simp [openWrite]
  · rw [if_neg same]
    exact openWrite_congr rfl rfl (by simp [AList.mem_insert, same])

theorem openWrite_retire (returned : retireClientRequestId id h = .ok h') :
    h'.openWrite = h.openWrite := by
  obtain ⟨completion, _, _, answered, -, -, -, rfl⟩ := retireClientRequestId_eq_ok.mp returned
  funext other
  by_cases same : other = id
  · subst same
    have known : other ∈ h.completions := AList.lookup_isSome.mp (Option.isSome_of_mem answered)
    simp [openWrite, known]
  · refine openWrite_congr rfl ?_ Iff.rfl
    exact (Dict.lookup_erase _ _ _).trans (if_neg same)

theorem openWrite_abandon (returned : abandon id h = .ok h') : h'.openWrite = h.openWrite := by
  obtain ⟨_, -, -, -, -, rfl⟩ := abandon_eq_ok.mp returned
  rfl

end OperationHistory

open OperationHistory

namespace KVClientHistory

variable {c c' : KVClientHistory}

/-! ## Open writes -/

/-- The client history holds exactly the open writes. -/
structure Exact (c : KVClientHistory) : Prop where
  wellFormed : c.history.WellFormed
  open_eq : ∀ id, c.pendingWrites.lookup id = c.history.openWrite id

/-- The identity check of a write has no false pass: the identity can be attached. -/
theorem Exact.attaches (exact : c.Exact) {id clientId : String} {requestId : ℕ}
    {operation : KVOperation} {invoked : OperationHistory}
    (available : ensureClientRequestIdentityAvailable clientId requestId c.history = .ok ())
    (returned : invoke id clientId (.write operation) c.history = .ok invoked) :
    ∃ attached, attachClientRequestId id requestId invoked = .ok attached := by
  have wellFormed := exact.wellFormed
  obtain ⟨-, -, fresh, rfl⟩ := invoke_eq_ok.mp returned
  have unknown : c.history.invocationsById.lookup id = none := AList.lookup_eq_none.mpr fresh
  refine ⟨_, attachClientRequestId_eq_ok.mpr ⟨_, AList.lookup_insert _, rfl, ?_, ?_, ?_, rfl⟩⟩
  · intro answered
    obtain ⟨completion, found⟩ := Option.isSome_iff_exists.mp (AList.lookup_isSome.mpr answered)
    obtain ⟨_, invoked', -⟩ := wellFormed.answers id completion found
    rw [unknown] at invoked'
    cases invoked'
  · intro attached
    obtain ⟨requestId', found⟩ := Option.isSome_iff_exists.mp (AList.lookup_isSome.mpr attached)
    obtain ⟨_, invoked', -⟩ := wellFormed.attached id requestId' found
    rw [unknown] at invoked'
    cases invoked'
  · cases owner : c.history.activeClientRequests.lookup (clientId, requestId) with
    | none => rfl
    | some other =>
        -- The owner of the identity has an invocation, which the check would have found.
        obtain ⟨attached, invocation, invoked', same⟩ :=
          wellFormed.active clientId requestId other owner
        have named := wellFormed.invocationKey other invocation invoked'
        unfold ensureClientRequestIdentityAvailable at available
        split at available
        · cases available
        next none =>
          have refused := List.find?_eq_none.mp none invocation
            ((mem_invocations wellFormed).mpr (by rw [named]; exact invoked'))
          refine absurd ?_ refused
          rw [decide_eq_true_eq, clientRequestId, named]
          exact ⟨same, attached⟩

/-- **A write is invoked as a whole or not at all.** -/
theorem Exact.invokeWrite (exact : c.Exact) (id clientId : String) (requestId : ℕ)
    (operation : KVOperation) :
    (∃ error, c.invokeWrite id clientId requestId operation = .raises error c) ∨
      ∃ c', c.invokeWrite id clientId requestId operation =
          .returns ⟨clientId, requestId, operation⟩ c' ∧ c'.Exact ∧
        c'.pendingWrites = c.pendingWrites.insert id ⟨clientId, requestId, operation⟩ ∧
        ∃ invoked, invoke id clientId (.write operation) c.history = .ok invoked ∧
          attachClientRequestId id requestId invoked = .ok c'.history := by
  unfold KVClientHistory.invokeWrite
  split
  · exact .inl ⟨_, rfl⟩
  split
  · exact .inl ⟨_, rfl⟩
  next available =>
  split
  · exact .inl ⟨_, rfl⟩
  next invoked returned =>
  obtain ⟨attached, same⟩ := exact.attaches available returned
  rw [same]
  refine .inr ⟨_, rfl, ⟨?_, fun other => ?_⟩, rfl, invoked, returned, same⟩
  · exact (exact.wellFormed.invoke returned).attachClientRequestId same
  · rw [Dict.lookup_insert, openWrite_attach same, openWrite_invoke exact.wellFormed returned,
      exact.open_eq]
    obtain ⟨-, -, -, rfl⟩ := invoke_eq_ok.mp returned
    by_cases here : other = id
    · subst here
      simp
    · rw [if_neg here, if_neg here]

/-- A write that was pending and is answered gives back its request identity. -/
theorem Exact.retires (exact : c.Exact) {id : String} {request : ClientRequest}
    {responded : OperationHistory} (pending : c.pendingWrites.lookup id = some request)
    (returned : respond id none c.history = .ok responded) :
    ∃ retired, retireClientRequestId id responded = .ok retired := by
  obtain ⟨-, attached, invocation, invoked, -⟩ :=
    openWrite_eq_some.mp ((exact.open_eq id).symm.trans pending)
  obtain ⟨_, invoked', -, owner⟩ := exact.wellFormed.attached id _ attached
  obtain rfl := Option.some.inj (invoked.symm.trans invoked')
  obtain ⟨_, -, -, -, -, rfl⟩ := respond_eq_ok.mp returned
  exact ⟨_, retireClientRequestId_eq_ok.mpr
    ⟨_, invocation, request.requestId, AList.lookup_insert _, invoked, attached, owner, rfl⟩⟩

/-- **A write is completed as a whole or not at all.** -/
theorem Exact.completeWrite (exact : c.Exact) (id : String)
    (clientRequests : Dict (String × ℕ) KVOperation) :
    (∃ error, c.completeWrite id clientRequests = .raises error c) ∨
      ∃ c' request, c.completeWrite id clientRequests = .returns () c' ∧ c'.Exact ∧
        c.pendingWrites.lookup id = some request ∧
        clientRequests.lookup (request.clientId, request.requestId) = some request.operation ∧
        c'.pendingWrites = c.pendingWrites.erase id ∧
        ∃ responded, respond id none c.history = .ok responded ∧
          retireClientRequestId id responded = .ok c'.history := by
  have wellFormed := exact.wellFormed
  unfold KVClientHistory.completeWrite pendingWrite
  split
  · exact .inl ⟨_, rfl⟩
  next request pending =>
  split
  · exact .inl ⟨_, rfl⟩
  next applied found =>
  split
  · exact .inl ⟨_, rfl⟩
  next agrees =>
  rw [not_not] at agrees
  split
  · exact .inl ⟨_, rfl⟩
  next responded returned =>
  obtain ⟨retired, same⟩ := exact.retires pending returned
  rw [same]
  refine .inr ⟨_, request, rfl, ⟨?_, fun other => ?_⟩, pending, agrees ▸ found, rfl, responded,
    returned, same⟩
  · exact (wellFormed.respond returned).retireClientRequestId same
  · rw [Dict.lookup_erase, openWrite_retire same, openWrite_respond returned, exact.open_eq]

/-- **A pending write is completed** by a node that has applied its request. -/
theorem Exact.completeWrite_returns (exact : c.Exact) {id : String} {request : ClientRequest}
    {clientRequests : Dict (String × ℕ) KVOperation}
    (pending : c.pendingWrites.lookup id = some request)
    (applied : clientRequests.lookup (request.clientId, request.requestId) =
      some request.operation) :
    ∃ c', c.completeWrite id clientRequests = .returns () c' := by
  obtain ⟨unanswered, -, invocation, invoked, -, write⟩ :=
    openWrite_eq_some.mp ((exact.open_eq id).symm.trans pending)
  have kept : id ∉ c.history.abandonedIds := by
    intro abandoned
    obtain ⟨-, _, invoked', read⟩ := exact.wellFormed.abandoned id abandoned
    obtain rfl := Option.some.inj (invoked.symm.trans invoked')
    rw [write] at read
    cases read
  have answers : ∃ responded, respond id none c.history = .ok responded :=
    ⟨_, respond_eq_ok.mpr ⟨invocation, invoked, unanswered, kept, fun _ => rfl, rfl⟩⟩
  obtain ⟨responded, answered⟩ := answers
  obtain ⟨retired, retires⟩ := exact.retires pending answered
  refine ⟨⟨retired, c.pendingWrites.erase id⟩, ?_⟩
  unfold KVClientHistory.completeWrite pendingWrite
  rw [pending]
  dsimp only
  rw [applied]
  dsimp only
  rw [if_neg (not_not.mpr rfl), answered]
  dsimp only
  rw [retires]

/-- A read is invoked or not. -/
theorem Exact.invokeRead (exact : c.Exact) (id clientId key : String) :
    (∃ error, c.invokeRead id clientId key = .raises error c) ∨
      ∃ c', c.invokeRead id clientId key = .returns () c' ∧ c'.Exact ∧
        c'.pendingWrites = c.pendingWrites ∧
        invoke id clientId (.get key) c.history = .ok c'.history := by
  unfold KVClientHistory.invokeRead
  split
  · exact .inl ⟨_, rfl⟩
  split
  · exact .inl ⟨_, rfl⟩
  next invoked returned =>
  refine .inr ⟨_, rfl, ⟨exact.wellFormed.invoke returned, fun other => ?_⟩, rfl, returned⟩
  rw [exact.open_eq, openWrite_invoke exact.wellFormed returned]

/-- A read is answered or not. -/
theorem Exact.respondRead (exact : c.Exact) (id : String) (result : Option String)
    (read : c.history.openWrite id = none) :
    (∃ error, c.respondRead id result = .raises error c) ∨
      ∃ c', c.respondRead id result = .returns result c' ∧ c'.Exact ∧
        c'.pendingWrites = c.pendingWrites ∧ respond id result c.history = .ok c'.history := by
  unfold KVClientHistory.respondRead
  split
  · exact .inl ⟨_, rfl⟩
  next responded returned =>
  refine .inr ⟨_, rfl, ⟨exact.wellFormed.respond returned, fun other => ?_⟩, rfl, returned⟩
  rw [exact.open_eq, openWrite_respond returned]
  by_cases same : other = id
  · rw [if_pos same, same, read]
  · rw [if_neg same]

/-- A read is abandoned or not. -/
theorem Exact.abandonLinearizableRead (exact : c.Exact) (id clientId key : String) :
    (∃ error, c.abandonLinearizableRead id clientId key = .raises error c) ∨
      ∃ c', c.abandonLinearizableRead id clientId key = .returns () c' ∧ c'.Exact ∧
        c'.pendingWrites = c.pendingWrites ∧ abandon id c.history = .ok c'.history := by
  unfold KVClientHistory.abandonLinearizableRead
  split
  · exact .inl ⟨_, rfl⟩
  split
  · exact .inl ⟨_, rfl⟩
  split
  · exact .inl ⟨_, rfl⟩
  split
  · exact .inl ⟨_, rfl⟩
  split
  · exact .inl ⟨_, rfl⟩
  split
  · exact .inl ⟨_, rfl⟩
  next abandoned returned =>
  refine .inr ⟨_, rfl, ⟨exact.wellFormed.abandon returned, fun other => ?_⟩, rfl, returned⟩
  rw [exact.open_eq, openWrite_abandon returned]

theorem requireMatchingRead_of_required {id clientId key : String}
    (required : c.requirePendingRead id clientId key = .ok ()) :
    c.requireMatchingRead id clientId key = .ok () := by
  unfold requirePendingRead at required
  split at required
  · cases required
  · exact required

/-- A read that matches its retry asks for the key. -/
theorem Exact.open_of_matchingRead (exact : c.Exact) {id clientId key : String}
    (matching : c.requireMatchingRead id clientId key = .ok ()) :
    ∃ pending, c.history.invocationsById.lookup id = some pending ∧
      pending.operation = .get key := by
  unfold requireMatchingRead at matching
  split at matching
  · cases matching
  next pending found =>
  split at matching
  · cases matching
  split at matching
  · cases matching
  split at matching
  · cases matching
  next read => exact ⟨pending, (pendingInvocation_eq_some exact.wellFormed found).1,
    not_not.mp read⟩

/-- A read that may be retried is not open. -/
theorem Exact.openWrite_of_required (exact : c.Exact) {id clientId key : String}
    (required : c.requirePendingRead id clientId key = .ok ()) : c.history.openWrite id = none := by
  obtain ⟨pending, found, read⟩ :=
    exact.open_of_matchingRead (requireMatchingRead_of_required required)
  refine openWrite_of_read found ?_
  rw [read]
  rfl

/-- A read that was just invoked is not open. -/
theorem openWrite_of_invoked {id clientId key : String} {h : OperationHistory}
    (returned : invoke id clientId (.get key) h = .ok c.history) :
    c.history.openWrite id = none := by
  obtain ⟨-, -, -, same⟩ := invoke_eq_ok.mp returned
  rw [same]
  exact openWrite_of_read (AList.lookup_insert _) rfl

theorem Exact.completeRead (exact : c.Exact) {id : String} (answer : Option (Option String))
    (read : c.history.openWrite id = none) : (c.completeRead id answer).state.Exact := by
  unfold KVClientHistory.completeRead
  split
  · exact exact
  · next result =>
    obtain ⟨error, raised⟩ | ⟨c', returned, exact', -, -⟩ := exact.respondRead id result read
    · rw [raised]
      exact exact
    · rw [returned]
      exact exact'

/-- **Every call keeps it.** -/
theorem Exact.perform (exact : c.Exact) (call : Call) : (c.perform call).state.Exact := by
  have passes : ∀ {β : Type} {op : ClientOp β} (f : β → Option ClientRequest × Option String),
      op.state.Exact → (op.bind fun b c => .returns (f b) c).state.Exact := by
    intro β op f kept
    cases op <;> exact kept
  cases call with
  | invokeWrite id clientId requestId operation =>
      refine passes _ ?_
      obtain ⟨error, raised⟩ | ⟨c', returned, exact', -⟩ :=
        exact.invokeWrite id clientId requestId operation
      · rw [raised]
        exact exact
      · rw [returned]
        exact exact'
  | retryWrite id =>
      refine passes _ ?_
      unfold KVClientHistory.retryWrite
      split <;> exact exact
  | completeWrite id clientRequests =>
      refine passes _ ?_
      obtain ⟨error, raised⟩ | ⟨c', request, returned, exact', -⟩ :=
        exact.completeWrite id clientRequests
      · rw [raised]
        exact exact
      · rw [returned]
        exact exact'
  | read id clientId key state =>
      refine passes _ ?_
      unfold KVClientHistory.read
      obtain ⟨error, raised⟩ | ⟨c', invoked, exact', -, recorded⟩ :=
        exact.invokeRead id clientId key
      · rw [raised]
        exact exact
      · rw [invoked]
        exact exact'.completeRead (some (state.lookup key)) (openWrite_of_invoked recorded)
  | linearizableRead id clientId key answer =>
      unfold KVClientHistory.perform
      dsimp only
      obtain ⟨error, raised⟩ | ⟨c', invoked, exact', -, recorded⟩ :=
        exact.invokeRead id clientId key
      · rw [raised]
        exact exact
      · rw [invoked]
        exact passes _ (exact'.completeRead answer (openWrite_of_invoked recorded))
  | retryLinearizableRead id clientId key answer =>
      unfold KVClientHistory.perform
      dsimp only
      split
      · exact exact
      · next required => exact passes _ (exact.completeRead answer
          (exact.openWrite_of_required required))
  | abandonLinearizableRead id clientId key =>
      refine passes _ ?_
      obtain ⟨error, raised⟩ | ⟨c', returned, exact', -⟩ :=
        exact.abandonLinearizableRead id clientId key
      · rw [raised]
        exact exact
      · rw [returned]
        exact exact'

/-! ## Reconstruction -/

/-- One pending invocation restores its open write. -/
theorem restoreWrite_eq {h : OperationHistory} (wellFormed : h.WellFormed) {invocation : Invocation}
    (pending : invocation ∈ h.pending) (d : Dict String ClientRequest) :
    ∃ d', restoreWrite h d invocation = .ok d' ∧ ∀ id, d'.lookup id =
      if id = invocation.operationId then (h.openWrite id).or (d.lookup id) else d.lookup id := by
  obtain ⟨invoked, unanswered⟩ := (mem_pending wellFormed).mp pending
  unfold restoreWrite
  split
  · next unattached =>
    refine ⟨d, rfl, fun id => ?_⟩
    split
    · next same =>
      have none : h.openWrite id = none := by
        cases found : h.openWrite id with
        | none => rfl
        | some request =>
            obtain ⟨-, attached, -⟩ := openWrite_eq_some.mp found
            rw [same, show h.clientRequestIds.lookup invocation.operationId = none from
              unattached] at attached
            cases attached
      rw [none, Option.none_or]
    · rfl
  next requestId attached =>
  obtain ⟨_, invoked', write, -⟩ := wellFormed.attached _ requestId attached
  obtain rfl := Option.some.inj (invoked.symm.trans invoked')
  have named := (wellFormed.named _ _ invoked).2
  cases operation : invocation.operation with
  | get key =>
      rw [operation] at write
      cases write
  | write change =>
      dsimp only
      rw [if_neg named]
      refine ⟨_, rfl, fun id => ?_⟩
      rw [Dict.lookup_insert]
      split
      · next same =>
        have found : h.openWrite id = some ⟨invocation.clientId, requestId, change⟩ :=
          openWrite_eq_some.mpr ⟨same ▸ unanswered, same ▸ attached, invocation,
            same ▸ invoked, rfl,
            operation⟩
        rw [found, Option.some_or]
      · rfl

theorem foldlM_restoreWrite {h : OperationHistory} (wellFormed : h.WellFormed)
    {invocations : List Invocation} (pending : ∀ invocation ∈ invocations, invocation ∈ h.pending)
    (d : Dict String ClientRequest) :
    ∃ d', invocations.foldlM (restoreWrite h) d = .ok d' ∧ ∀ id, d'.lookup id =
      if id ∈ invocations.map (·.operationId) then (h.openWrite id).or (d.lookup id)
      else d.lookup id := by
  induction invocations generalizing d with
  | nil => exact ⟨d, rfl, fun id => by simp⟩
  | cons invocation rest ih =>
      obtain ⟨between, restored, first⟩ :=
        restoreWrite_eq wellFormed (pending _ List.mem_cons_self) d
      obtain ⟨d', folded, later⟩ :=
        ih (fun other member => pending other (List.mem_cons_of_mem _ member)) between
      refine ⟨d', by rw [List.foldlM_cons, restored]; exact folded, fun id => ?_⟩
      rw [later, first]
      by_cases here : id = invocation.operationId <;>
        by_cases listed : id ∈ rest.map (·.operationId) <;>
          cases h.openWrite id <;> simp [here, listed]

/-- **The constructor restores the open writes** of a recorded history. -/
theorem exists_ofHistory {h : OperationHistory} (wellFormed : h.WellFormed) :
    ∃ c, ofHistory h = .ok c ∧ c.history = h ∧ c.Exact := by
  obtain ⟨d, folded, lookups⟩ := foldlM_restoreWrite wellFormed (fun _ => id) ∅
  refine ⟨⟨h, d⟩, ?_, rfl, wellFormed, fun id => ?_⟩
  · unfold ofHistory
    rw [folded]
    rfl
  rw [lookups]
  have empty : (∅ : Dict String ClientRequest).lookup id = none := AList.lookup_empty id
  rw [empty, Option.or_none]
  split
  · rfl
  next unlisted =>
  cases found : h.openWrite id with
  | none => rfl
  | some request =>
      obtain ⟨unanswered, -, invocation, invoked, -⟩ := openWrite_eq_some.mp found
      have named := wellFormed.invocationKey id invocation invoked
      refine absurd (List.mem_map.mpr ⟨invocation, (mem_pending wellFormed).mpr ?_, named⟩) unlisted
      rw [named]
      exact ⟨invoked, unanswered⟩

/-! ## Histories that answer alike -/

/-- The same history, and the same open writes in any order. -/
structure Same (c c' : KVClientHistory) : Prop where
  history : c'.history = c.history
  pendingWrite : ∀ id, c'.pendingWrite id = c.pendingWrite id

theorem Exact.same (exact : c.Exact) (exact' : c'.Exact) (history : c'.history = c.history) :
    Same c c' where
  history := history
  pendingWrite id := by
    have here : c'.pendingWrite id = c'.history.openWrite id := exact'.open_eq id
    rw [here, history]
    exact (exact.open_eq id).symm

/-- Two calls return or raise the same, and leave histories that are the same. -/
inductive Alike {β : Type} : ClientOp β → ClientOp β → Prop
  | returns (b : β) {c c' : KVClientHistory} (same : Same c c') :
      Alike (.returns b c) (.returns b c')
  | raises (error : ClientError) {c c' : KVClientHistory} (same : Same c c') :
      Alike (.raises error c) (.raises error c')

theorem Alike.bind {β γ : Type} {op op' : ClientOp β} {next : β → KVClientHistory → ClientOp γ}
    (alike : Alike op op') (rest : ∀ b c c', Same c c' → Alike (next b c) (next b c')) :
    Alike (op.bind next) (op'.bind next) := by
  cases alike with
  | returns b same => exact rest b _ _ same
  | raises error same => exact .raises error same

theorem Alike.state {β : Type} {op op' : ClientOp β} (alike : Alike op op') :
    Same op.state op'.state := by
  cases alike with
  | returns b same => exact same
  | raises error same => exact same

theorem Alike.outcome {β : Type} {op op' : ClientOp β} (alike : Alike op op') :
    op'.value? = op.value? ∧ op'.error? = op.error? := by
  cases alike <;> exact ⟨rfl, rfl⟩

section Alike

variable (same : Same c c')
include same

/-- Histories that are the same stay so when both get the same events. -/
theorem Same.record (h : OperationHistory) :
    Same { c with history := h } { c' with history := h } := ⟨rfl, same.pendingWrite⟩

theorem alike_invokeWrite (id clientId : String) (requestId : ℕ) (operation : KVOperation) :
    Alike (c.invokeWrite id clientId requestId operation)
      (c'.invokeWrite id clientId requestId operation) := by
  unfold invokeWrite
  rw [same.history]
  split
  · exact .raises _ same
  cases ensureClientRequestIdentityAvailable clientId requestId c.history with
  | error error => exact .raises _ same
  | ok _ =>
      cases invoke id clientId (.write operation) c.history with
      | error error => exact .raises _ same
      | ok invoked =>
          dsimp only
          cases attachClientRequestId id requestId invoked with
          | error error => exact .raises _ (same.record invoked)
          | ok attached =>
              refine .returns _ ⟨rfl, fun other => ?_⟩
              unfold pendingWrite
              dsimp only
              rw [Dict.lookup_insert, Dict.lookup_insert, show c'.pendingWrites.lookup other =
                c.pendingWrites.lookup other from same.pendingWrite other]

theorem alike_completeWrite (id : String) (clientRequests : Dict (String × ℕ) KVOperation) :
    Alike (c.completeWrite id clientRequests) (c'.completeWrite id clientRequests) := by
  unfold completeWrite
  rw [same.history, same.pendingWrite]
  cases c.pendingWrite id with
  | none => exact .raises _ same
  | some request =>
      dsimp only
      cases clientRequests.lookup (request.clientId, request.requestId) with
      | none => exact .raises _ same
      | some applied =>
          dsimp only
          split
          · exact .raises _ same
          cases respond id none c.history with
          | error error => exact .raises _ same
          | ok responded =>
              dsimp only
              cases retireClientRequestId id responded with
              | error error => exact .raises _ (same.record responded)
              | ok retired =>
                  refine .returns _ ⟨rfl, fun other => ?_⟩
                  unfold pendingWrite
                  dsimp only
                  rw [Dict.lookup_erase, Dict.lookup_erase, show c'.pendingWrites.lookup other =
                    c.pendingWrites.lookup other from same.pendingWrite other]

theorem alike_invokeRead (id clientId key : String) :
    Alike (c.invokeRead id clientId key) (c'.invokeRead id clientId key) := by
  unfold invokeRead
  rw [same.history]
  split
  · exact .raises _ same
  cases invoke id clientId (.get key) c.history with
  | error error => exact .raises _ same
  | ok invoked => exact .returns _ (same.record invoked)

theorem alike_completeRead (id : String) (answer : Option (Option String)) :
    Alike (c.completeRead id answer) (c'.completeRead id answer) := by
  cases answer with
  | none => exact .raises _ same
  | some result =>
      unfold completeRead respondRead
      dsimp only
      rw [same.history]
      cases respond id result c.history with
      | error error => exact .raises _ same
      | ok responded => exact .returns _ (same.record responded)

theorem alike_abandonLinearizableRead (id clientId key : String) :
    Alike (c.abandonLinearizableRead id clientId key)
      (c'.abandonLinearizableRead id clientId key) := by
  unfold abandonLinearizableRead
  rw [same.history]
  split
  · exact .raises _ same
  cases c.history.pendingInvocation id with
  | none => exact .raises _ same
  | some pending =>
      dsimp only
      split
      · exact .raises _ same
      split
      · exact .raises _ same
      split
      · exact .raises _ same
      cases abandon id c.history with
      | error error => exact .raises _ same
      | ok abandoned => exact .returns _ (same.record abandoned)

/-- **Histories that are the same answer every call alike.** -/
theorem alike_perform (call : Call) : Alike (c.perform call) (c'.perform call) := by
  cases call with
  | invokeWrite id clientId requestId operation =>
      exact (alike_invokeWrite same _ _ _ _).bind fun _ _ _ => .returns _
  | retryWrite id =>
      refine Alike.bind ?_ fun _ _ _ => .returns _
      unfold retryWrite
      rw [same.pendingWrite]
      cases c.pendingWrite id with
      | none => exact .raises _ same
      | some request => exact .returns _ same
  | completeWrite id clientRequests =>
      exact (alike_completeWrite same _ _).bind fun _ _ _ => .returns _
  | read id clientId key state =>
      refine Alike.bind ?_ fun _ _ _ => .returns _
      exact (alike_invokeRead same id clientId key).bind fun _ _ _ kept =>
        alike_completeRead kept id (some (state.lookup key))
  | linearizableRead id clientId key answer =>
      exact (alike_invokeRead same id clientId key).bind fun _ _ _ kept =>
        (alike_completeRead kept id answer).bind fun _ _ _ => .returns _
  | retryLinearizableRead id clientId key answer =>
      have required : c'.requirePendingRead id clientId key =
          c.requirePendingRead id clientId key := by
        unfold requirePendingRead requireMatchingRead
        rw [same.history]
      unfold perform
      dsimp only
      rw [required]
      cases c.requirePendingRead id clientId key with
      | error error => exact .raises _ same
      | ok _ => exact (alike_completeRead same id answer).bind fun _ _ _ => .returns _
  | abandonLinearizableRead id clientId key =>
      exact (alike_abandonLinearizableRead same _ _ _).bind fun _ _ _ => .returns _

end Alike

/-! ## Recorded calls -/

/-- The history after calls, which may raise. -/
def after (c : KVClientHistory) (calls : List Call) : KVClientHistory :=
  calls.foldl (fun c call => (c.perform call).state) c

theorem exact_after (exact : c.Exact) (calls : List Call) : (c.after calls).Exact := by
  induction calls generalizing c with
  | nil => exact exact
  | cons call rest ih => exact ih (exact.perform call)

theorem same_after (same : Same c c') (calls : List Call) :
    Same (c.after calls) (c'.after calls) := by
  induction calls generalizing c c' with
  | nil => exact same
  | cons call rest ih => exact ih (alike_perform same call).state

theorem exact_empty : Exact {} := ⟨wellFormed_empty, fun _ => rfl⟩

/-- **A client history is rebuilt from what it recorded.** After any calls, the constructor
over the recorded history returns one that has the same pending writes, and that answers any
later calls in the same way. -/
theorem client_history_rebuilt (calls later : List Call) (call : Call) :
    ∃ rebuilt, ofHistory (after {} calls).history = .ok rebuilt ∧
      (∀ id, rebuilt.pendingWrite id = (after {} calls).pendingWrite id) ∧
      ((rebuilt.after later).perform call).value? =
        (((after {} calls).after later).perform call).value? ∧
      ((rebuilt.after later).perform call).error? =
        (((after {} calls).after later).perform call).error? ∧
      (rebuilt.after (later ++ [call])).history =
        ((after {} calls).after (later ++ [call])).history := by
  have exact := exact_after exact_empty calls
  obtain ⟨rebuilt, returned, history, exact'⟩ := exists_ofHistory exact.wellFormed
  have same := exact.same exact' history
  have answers := (alike_perform (same_after same later) call).outcome
  exact ⟨rebuilt, returned, same.pendingWrite, answers.1, answers.2,
    (same_after same (later ++ [call])).history⟩

/-- The call invokes a read, which may raise once the read has been recorded. -/
def Call.invokesRead : Call → Bool
  | .read .. | .linearizableRead .. => true
  | _ => false

/-- Where the call raises, it has changed nothing. -/
def Atomic {β : Type} (c : KVClientHistory) (op : ClientOp β) : Prop :=
  ∀ error c', op = .raises error c' → c' = c

theorem Atomic.bind {β γ : Type} {op : ClientOp β} (atomic : Atomic c op) (f : β → γ) :
    Atomic c (op.bind fun b c => .returns (f b) c) := by
  intro error c' raised
  cases op with
  | returns b c'' => cases raised
  | raises error' c'' =>
      cases raised
      exact atomic _ _ rfl

theorem atomic_raises {β : Type} (error : ClientError) :
    Atomic c (.raises error c : ClientOp β) := by
  intro error' c' raised
  cases raised
  rfl

theorem atomic_returns {β : Type} (b : β) : Atomic c (.returns b c' : ClientOp β) := by
  intro error c'' raised
  cases raised

theorem Exact.atomic_completeRead (exact : c.Exact) {id : String} (answer : Option (Option String))
    (read : c.history.openWrite id = none) : Atomic c (c.completeRead id answer) := by
  unfold KVClientHistory.completeRead
  split
  · exact atomic_raises _
  next result =>
  obtain ⟨error, raised⟩ | ⟨c', returned, -⟩ := exact.respondRead id result read
  · rw [raised]
    exact atomic_raises _
  · rw [returned]
    exact atomic_returns _

/-- **A call that invokes no read is recorded as a whole or not at all.** After any calls, one
that raises leaves the history and its pending writes as they were: what was invoked can be
given its request identity, and what was answered can give it back. -/
theorem client_call_atomic (calls : List Call) (call : Call) (writes : call.invokesRead = false)
    {error : ClientError} (raised : (after {} calls).perform call = .raises error c) :
    c = after {} calls := by
  have exact := exact_after exact_empty calls
  refine (?_ : Atomic (after {} calls) _) _ _ raised
  generalize after {} calls = before at exact
  cases call with
  | invokeWrite id clientId requestId operation =>
      refine Atomic.bind ?_ _
      obtain ⟨_, failed⟩ | ⟨_, returned, -⟩ := exact.invokeWrite id clientId requestId operation
      · rw [failed]
        exact atomic_raises _
      · rw [returned]
        exact atomic_returns _
  | retryWrite id =>
      refine Atomic.bind ?_ _
      unfold retryWrite
      split
      · exact atomic_raises _
      · exact atomic_returns _
  | completeWrite id clientRequests =>
      suffices atomic : Atomic before (before.completeWrite id clientRequests) from atomic.bind _
      obtain ⟨_, failed⟩ | ⟨_, _, returned, -⟩ := exact.completeWrite id clientRequests
      · rw [failed]
        exact atomic_raises _
      · rw [returned]
        exact atomic_returns _
  | retryLinearizableRead id clientId key answer =>
      unfold perform
      dsimp only
      split
      · exact atomic_raises _
      · next required =>
        exact (exact.atomic_completeRead answer (exact.openWrite_of_required required)).bind _
  | abandonLinearizableRead id clientId key =>
      suffices atomic : Atomic before (before.abandonLinearizableRead id clientId key) from
        atomic.bind _
      obtain ⟨_, failed⟩ | ⟨_, returned, -⟩ := exact.abandonLinearizableRead id clientId key
      · rw [failed]
        exact atomic_raises _
      · rw [returned]
        exact atomic_returns _
  | read | linearizableRead => cases writes

/-- A write that was completed, and another one whose client waits for an answer. -/
def oneOpen : List Call :=
  [.invokeWrite "a" "alice" 1 (.put "x" "1"), .invokeWrite "b" "bob" 1 (.put "x" "2"),
    .completeWrite "a" (Dict.ofItems [(("alice", 1), .put "x" "1")])]

/-- The open write cannot be completed before a node has applied it. -/
theorem early_completion_refused : ∃ error,
    (after {} oneOpen).perform (.completeWrite "b" ∅) = .raises error (after {} oneOpen) := by
  have raised : ((after {} oneOpen).perform (.completeWrite "b" ∅)).error? = some .notApplied := by
    decide +kernel
  have failed := Outcome.eq_raises_of_error? raised
  exact ⟨_, failed.trans
    (congrArg _ (client_call_atomic oneOpen (.completeWrite "b" ∅) rfl failed))⟩

/-- The new history retries the open write only. -/
example : (ofHistory (after {} oneOpen).history).toOption.map
    (fun c => (c.pendingWrite "a", c.pendingWrite "b")) =
      some (none, some ⟨"bob", 1, .put "x" "2"⟩) := by decide +kernel

end KVClientHistory

end Distlab.Clients
