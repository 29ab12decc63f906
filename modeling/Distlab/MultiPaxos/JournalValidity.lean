import Distlab.Clients.Projections
import Distlab.MultiPaxos.ClientCalls
import Distlab.MultiPaxos.JournalCheckpoint

/-!
# Valid journals

In the journal that a client keeps, each invocation of the history is that of a
registered request, the invocations come in the order of the requests, and an attached
request id is the id of the request. A checkpoint that is read has such a journal too.
-/

set_option autoImplicit false

namespace Distlab.MultiPaxos

open Foundations Clients

/-! ## Invocations in order -/

section Invocations

variable {h h' : OperationHistory}

theorem orderedInsert_of_last {items : List Invocation} {last : Invocation}
    (later : ∀ item ∈ items, item.sequence < last.sequence) :
    items.orderedInsert (·.sequence ≤ ·.sequence) last = items ++ [last] := by
  induction items with
  | nil => rfl
  | cons item items ih =>
      obtain ⟨here, rest⟩ := List.forall_mem_cons.mp later
      rw [List.orderedInsert_cons, if_neg (by omega), ih rest]
      rfl

/-- A new invocation comes last. -/
theorem invocations_invoke (wellFormed : h.WellFormed) {id clientId : String}
    {operation : HistoryOperation} (returned : h.invoke id clientId operation = .ok h') :
    h'.invocations = h.invocations ++ [⟨id, clientId, operation, h.sequence⟩] := by
  obtain ⟨_, _, fresh, rfl⟩ := OperationHistory.invoke_eq_ok.mp returned
  have values : Dict.values
      (h.invocationsById.insert id (⟨id, clientId, operation, h.sequence⟩ : Invocation)) =
      ⟨id, clientId, operation, h.sequence⟩ :: h.invocationsById.values := by
    rw [Dict.values, AList.entries_insert_of_notMem fresh]
    rfl
  rw [OperationHistory.invocations, values, List.insertionSort_cons]
  refine orderedInsert_of_last fun item member => ?_
  have listed : item ∈ h.invocations := member
  rw [OperationHistory.mem_invocations wellFormed] at listed
  exact wellFormed.early (.invoked item) listed

end Invocations

namespace ClientJournal

/-- A journal as its client keeps it. -/
structure Valid (journal : ClientJournal) : Prop where
  wellFormed : journal.history.WellFormed
  keyed : ∀ id r, journal.requests.lookup id = some r → r.operationId = id
  distinct : Distinct journal.registered
  invoked : ∀ id invocation, journal.history.invocationsById.lookup id = some invocation →
    ∃ r, journal.requests.lookup id = some r ∧ r.clientId = invocation.clientId ∧
      r.operation.history? = some invocation.operation
  ordered : journal.history.invocations.map (·.operationId) =
    expectedInvocations journal.requests
  attached : ∀ id requestId, journal.history.clientRequestIds.lookup id = some requestId →
    ∃ r, journal.requests.lookup id = some r ∧ r.requestId = requestId

/-- A call of the client on its journal. -/
inductive JournalCall where
  | register (request : MultiPaxosRequest)
  | respond (operationId : String) (result : HistoryResult)
  | abandon (operationId : String)
  /-- The request's own id is attached to its invocation. -/
  | attachClientRequestId (request : MultiPaxosRequest)

/-- The journal with another history, unless a call on the history raises. -/
def onHistory (result : Except HistoryError OperationHistory) (journal : ClientJournal) :
    Except (ApplicationError String) ClientJournal :=
  (result.mapError .history).map fun history => { journal with history := history }

/-- The call on a journal. -/
def performCall (journal : ClientJournal) :
    JournalCall → Except (ApplicationError String) ClientJournal
  | .register request => journal.register request
  | .respond id result => journal.onHistory (journal.history.respond id result)
  | .abandon id => journal.onHistory (journal.history.abandon id)
  | .attachClientRequestId request =>
      if journal.requests.lookup request.operationId = some request then
        journal.onHistory
          (journal.history.attachClientRequestId request.operationId request.requestId)
      else .error .notRegistered

/-- The journal after a call. A call that raises changes nothing. -/
def afterCall (journal : ClientJournal) (call : JournalCall) : ClientJournal :=
  match journal.performCall call with
  | .ok after => after
  | .error _ => journal

/-- The journal that a list of calls keeps. -/
def kept (calls : List JournalCall) : ClientJournal := calls.foldl afterCall {}

variable {journal after : ClientJournal}

theorem valid_empty : Valid {} where
  wellFormed := OperationHistory.wellFormed_empty
  keyed := fun id r found => by cases found
  distinct := ⟨fun r member => (nomatch member), fun r member => (nomatch member)⟩
  invoked := fun id invocation found => by cases found
  ordered := rfl
  attached := fun id requestId found => by cases found

theorem onHistory_eq_ok {result : Except HistoryError OperationHistory} :
    onHistory result journal = .ok after ↔
      ∃ h, result = .ok h ∧ after = { journal with history := h } := by
  cases result with
  | error raised =>
      constructor
      · intro returned
        cases returned
      · rintro ⟨_, ⟨⟩, _⟩
  | ok h =>
      constructor
      · intro returned
        cases returned
        exact ⟨h, rfl, rfl⟩
      · rintro ⟨_, ⟨⟩, rfl⟩
        rfl

theorem Valid.mem_registered (valid : journal.Valid) {id : String} {r : MultiPaxosRequest}
    (listed : journal.requests.lookup id = some r) : r ∈ journal.registered := by
  show journal.requests.lookup r.operationId = some r
  rw [valid.keyed id r listed]
  exact listed

/-- A history with the same invocations, and the request ids of requests. -/
theorem Valid.withHistory (valid : journal.Valid) {h : OperationHistory}
    (wellFormed : h.WellFormed) (invocations : h.invocationsById = journal.history.invocationsById)
    (attached : ∀ id requestId, h.clientRequestIds.lookup id = some requestId →
      ∃ r, journal.requests.lookup id = some r ∧ r.requestId = requestId) :
    Valid { journal with history := h } where
  wellFormed := wellFormed
  keyed := valid.keyed
  distinct := valid.distinct
  invoked := by
    dsimp only
    rw [invocations]
    exact valid.invoked
  ordered := by
    dsimp only
    rw [OperationHistory.invocations, invocations]
    exact valid.ordered
  attached := attached

theorem expectedInvocations_insert {requests : Dict String MultiPaxosRequest}
    {request : MultiPaxosRequest} (fresh : request.operationId ∉ requests) :
    expectedInvocations (requests.insert request.operationId request) =
      expectedInvocations requests ++
        if request.operation.history?.isSome then [request.operationId] else [] := by
  unfold expectedInvocations
  rw [AList.entries_insert_of_notMem fresh, List.reverse_cons, List.filter_append,
    List.map_append]
  congr 1
  rw [List.filter_singleton]
  cases request.operation.history? <;> rfl

/-- A registration that passes changes nothing, or adds a request that is new. -/
theorem register_eq_ok {request : MultiPaxosRequest}
    (returned : (journal.register request : Except (ApplicationError String) ClientJournal) =
      .ok after) :
    after = journal ∨ (∀ id r, journal.requests.lookup id = some r →
        r.identity ≠ request.identity ∧ r.operationId ≠ request.operationId) ∧
      after.requests = journal.requests.insert request.operationId request ∧
      (∀ operation, request.operation.history? = some operation →
        journal.history.invoke request.operationId request.clientId operation =
          .ok after.history) ∧
      (request.operation.history? = none → after.history = journal.history) := by
  unfold register at returned
  cases found : journal.requests.values.reverse.find? fun previous =>
      previous.identity = request.identity ∨ previous.operationId = request.operationId with
  | some previous =>
      rw [found] at returned
      dsimp only at returned
      split at returned
      next => cases returned
      next => exact .inl (Except.ok.inj returned).symm
  | none =>
      rw [found] at returned
      dsimp only at returned
      refine .inr ⟨fun id r listed => ?_, ?_⟩
      · have differs := List.find?_eq_none.mp found r
          (List.mem_reverse.mpr (Dict.mem_values.mpr ⟨id, listed⟩))
        simpa only [decide_eq_true_eq, not_or] using differs
      · cases operation : request.operation.history? with
      | none =>
          rw [operation] at returned
          cases returned
          refine ⟨rfl, fun operation same => ?_, fun _ => rfl⟩
          cases same
      | some op =>
          rw [operation] at returned
          dsimp only at returned
          cases invoked : journal.history.invoke request.operationId request.clientId op with
          | error raised =>
              rw [invoked] at returned
              cases returned
          | ok history =>
              rw [invoked] at returned
              cases returned
              refine ⟨rfl, fun operation same => ?_, fun same => nomatch same⟩
              cases same
              exact invoked

theorem Valid.register (valid : journal.Valid) {request : MultiPaxosRequest}
    (returned : (journal.register request : Except (ApplicationError String) ClientJournal) =
      .ok after) : after.Valid := by
  have distinct := (register_registered valid.distinct returned).2
  rcases register_eq_ok returned with rfl | ⟨other, requests, history, unchanged⟩
  · exact valid
  have fresh : request.operationId ∉ journal.requests := by
    intro present
    obtain ⟨r, found⟩ := Option.isSome_iff_exists.mp (AList.lookup_isSome.mpr present)
    exact (other _ r found).2 (valid.keyed _ r found)
  have more : ∀ id r, journal.requests.lookup id = some r → after.requests.lookup id = some r := by
    intro id r found
    rw [requests, Dict.lookup_insert, if_neg, found]
    rintro rfl
    exact fresh (AList.lookup_isSome.mp (Option.isSome_of_mem found))
  have here : after.requests.lookup request.operationId = some request := by
    rw [requests, AList.lookup_insert]
  have keyed : ∀ id r, after.requests.lookup id = some r → r.operationId = id := by
    intro id r found
    rw [requests] at found
    rcases Dict.of_lookup_insert found with ⟨rfl, rfl⟩ | ⟨_, old⟩
    · rfl
    · exact valid.keyed id r old
  have expected := expectedInvocations_insert fresh
  rw [← requests] at expected
  cases operation : request.operation.history? with
  | none =>
      rw [operation] at expected
      have invoked := unchanged operation
      refine ⟨by rw [invoked]; exact valid.wellFormed, keyed, distinct, ?_, ?_, ?_⟩
      · rw [invoked]
        intro id invocation found
        obtain ⟨r, listed, same⟩ := valid.invoked id invocation found
        exact ⟨r, more id r listed, same⟩
      · rw [invoked, expected, valid.ordered]
        exact (List.append_nil _).symm
      · rw [invoked]
        intro id requestId found
        obtain ⟨r, listed, same⟩ := valid.attached id requestId found
        exact ⟨r, more id r listed, same⟩
  | some op =>
      rw [operation] at expected
      have invoked := history op operation
      refine ⟨valid.wellFormed.invoke invoked, keyed, distinct, ?_, ?_, ?_⟩
      · intro id invocation found
        obtain ⟨_, _, _, same⟩ := OperationHistory.invoke_eq_ok.mp invoked
        rw [same] at found
        rcases Dict.of_lookup_insert found with ⟨rfl, rfl⟩ | ⟨_, old⟩
        · exact ⟨request, here, rfl, operation⟩
        · obtain ⟨r, listed, same⟩ := valid.invoked id invocation old
          exact ⟨r, more id r listed, same⟩
      · rw [invocations_invoke valid.wellFormed invoked, List.map_append, valid.ordered, expected]
        rfl
      · intro id requestId found
        obtain ⟨_, _, _, same⟩ := OperationHistory.invoke_eq_ok.mp invoked
        rw [same] at found
        obtain ⟨r, listed, same⟩ := valid.attached id requestId found
        exact ⟨r, more id r listed, same⟩

theorem Valid.performCall (valid : journal.Valid) {call : JournalCall}
    (returned : journal.performCall call = .ok after) : after.Valid := by
  cases call with
  | register request => exact valid.register returned
  | respond id result =>
      obtain ⟨h, responded, rfl⟩ := onHistory_eq_ok.mp returned
      have wellFormed := valid.wellFormed.respond responded
      obtain ⟨_, _, _, _, _, rfl⟩ := OperationHistory.respond_eq_ok.mp responded
      exact valid.withHistory wellFormed rfl valid.attached
  | abandon id =>
      obtain ⟨h, left, rfl⟩ := onHistory_eq_ok.mp returned
      have wellFormed := valid.wellFormed.abandon left
      obtain ⟨_, _, _, _, _, rfl⟩ := OperationHistory.abandon_eq_ok.mp left
      exact valid.withHistory wellFormed rfl valid.attached
  | attachClientRequestId request =>
      rw [ClientJournal.performCall] at returned
      split at returned
      next listed =>
        obtain ⟨h, attached, rfl⟩ := onHistory_eq_ok.mp returned
        have wellFormed := valid.wellFormed.attachClientRequestId attached
        obtain ⟨_, _, _, _, _, _, rfl⟩ :=
          OperationHistory.attachClientRequestId_eq_ok.mp attached
        refine valid.withHistory wellFormed rfl fun id requestId found => ?_
        rcases Dict.of_lookup_insert found with ⟨rfl, rfl⟩ | ⟨_, old⟩
        · exact ⟨request, listed, rfl⟩
        · exact valid.attached id requestId old
      next => cases returned

/-- **Every journal that calls keep is valid.** -/
theorem kept_valid (calls : List JournalCall) : (kept calls).Valid := by
  suffices keeps : ∀ journal : ClientJournal, journal.Valid →
      (calls.foldl afterCall journal).Valid from keeps {} valid_empty
  induction calls with
  | nil => exact fun journal valid => valid
  | cons call calls ih =>
      intro journal valid
      refine ih _ ?_
      unfold afterCall
      cases performed : journal.performCall call with
      | error raised => exact valid
      | ok after => exact valid.performCall performed

end ClientJournal

/-! ## The journals that are read -/

section Reading

variable {α : Type} {requests : Dict String MultiPaxosRequest}

theorem called_eq_ok {result : Except HistoryError α} {a : α} :
    called result = .ok a ↔ result = .ok a := by
  cases result with
  | error raised =>
      constructor <;> intro passed <;> cases passed
  | ok b =>
      constructor <;> intro passed <;> cases passed <;> rfl

/-- The requests stand at their operation ids, and have distinct identities. -/
structure RequestTable.Sound (table : RequestTable) : Prop where
  keyed : ∀ id r, table.requests.lookup id = some r → r.operationId = id
  identities : ∀ id r, table.requests.lookup id = some r → r.identity ∈ table.identities
  distinct : ∀ id r id' r', table.requests.lookup id = some r →
    table.requests.lookup id' = some r' → r.identity = r'.identity → r = r'

theorem RequestTable.sound_empty : RequestTable.Sound {} where
  keyed := fun _ _ found => nomatch found
  identities := fun _ _ found => nomatch found
  distinct := fun _ _ _ _ found => nomatch found

theorem addRequest_eq_ok {table after : RequestTable} {item : Json} :
    addRequest table item = .ok after ↔ ∃ request, decodeRequest item = .ok request ∧
      request.operationId ∉ table.requests ∧ request.identity ∉ table.identities ∧
      after = ⟨table.requests.insert request.operationId request,
        insert request.identity table.identities⟩ := by
  rw [addRequest, bind_eq_ok]
  refine exists_congr fun request => and_congr_right fun _ => ?_
  split
  next known =>
    constructor
    · intro passed
      cases passed
    · rintro ⟨first, second, _⟩
      exact absurd known (not_or.mpr ⟨first, second⟩)
  next fresh =>
    obtain ⟨first, second⟩ := not_or.mp fresh
    constructor
    · intro passed
      exact ⟨first, second, (Except.ok.inj passed).symm⟩
    · rintro ⟨_, _, rfl⟩
      rfl

theorem addRequest_sound {table after : RequestTable} {item : Json} (sound : table.Sound)
    (added : addRequest table item = .ok after) : after.Sound := by
  obtain ⟨request, _, fresh, single, rfl⟩ := addRequest_eq_ok.mp added
  constructor
  · intro id r found
    rcases Dict.of_lookup_insert found with ⟨rfl, rfl⟩ | ⟨_, old⟩
    · rfl
    · exact sound.keyed id r old
  · intro id r found
    rcases Dict.of_lookup_insert found with ⟨_, rfl⟩ | ⟨_, old⟩
    · exact Finset.mem_insert_self _ _
    · exact Finset.mem_insert_of_mem (sound.identities id r old)
  · intro id r id' r' first second same
    rcases Dict.of_lookup_insert first with ⟨_, rfl⟩ | ⟨_, old⟩ <;>
      rcases Dict.of_lookup_insert second with ⟨_, rfl⟩ | ⟨_, old'⟩
    · rfl
    · exact absurd (same ▸ sound.identities id' r' old') single
    · exact absurd (same ▸ sound.identities id r old) single
    · exact sound.distinct id r id' r' old old' same

/-- The attached ids are the ids of the requests. -/
def OwnIds (requests : Dict String MultiPaxosRequest) (attachments : Dict String ℕ) : Prop :=
  ∀ id requestId, attachments.lookup id = some requestId →
    ∃ r, requests.lookup id = some r ∧ r.requestId = requestId

theorem addAttachment_own {attachments after : Dict String ℕ} {item : Json}
    (own : OwnIds requests attachments)
    (added : addAttachment requests attachments item = .ok after) : OwnIds requests after := by
  unfold addAttachment at added
  obtain ⟨data, _, added⟩ := bind_eq_ok.mp added
  obtain ⟨_, _, added⟩ := bind_eq_ok.mp added
  obtain ⟨operationId, _, added⟩ := bind_eq_ok.mp added
  obtain ⟨_, _, added⟩ := bind_eq_ok.mp added
  obtain ⟨requestId, _, added⟩ := bind_eq_ok.mp added
  cases found : requests.lookup operationId.val with
  | none =>
      rw [found] at added
      cases added
  | some request =>
      rw [found] at added
      dsimp only at added
      split at added
      next => cases added
      next fits =>
        cases added
        intro id requestId' listed
        rcases Dict.of_lookup_insert listed with ⟨rfl, rfl⟩ | ⟨_, old⟩
        · refine ⟨request, found, ?_⟩
          by_contra other
          exact fits (.inr (.inr (Ne.symm other)))
        · exact own id requestId' old

theorem ownIds_empty (requests : Dict String MultiPaxosRequest) : OwnIds requests ∅ :=
  fun _ _ found => nomatch found

/-- A history of invocations of requests, with the ids of the requests attached. -/
structure Replays (requests : Dict String MultiPaxosRequest) (h : OperationHistory) : Prop where
  wellFormed : h.WellFormed
  invoked : ∀ id invocation, h.invocationsById.lookup id = some invocation →
    ∃ r, requests.lookup id = some r ∧ r.clientId = invocation.clientId ∧
      r.operation.history? = some invocation.operation
  attached : OwnIds requests h.clientRequestIds

variable {h h' : OperationHistory}

theorem Replays.respond (replays : Replays requests h) {id : String} {result : HistoryResult}
    (returned : h.respond id result = .ok h') : Replays requests h' := by
  have wellFormed := replays.wellFormed.respond returned
  obtain ⟨_, _, _, _, _, rfl⟩ := OperationHistory.respond_eq_ok.mp returned
  exact ⟨wellFormed, replays.invoked, replays.attached⟩

theorem Replays.abandon (replays : Replays requests h) {id : String}
    (returned : h.abandon id = .ok h') : Replays requests h' := by
  have wellFormed := replays.wellFormed.abandon returned
  obtain ⟨_, _, _, _, _, rfl⟩ := OperationHistory.abandon_eq_ok.mp returned
  exact ⟨wellFormed, replays.invoked, replays.attached⟩

theorem Replays.invoke (replays : Replays requests h) {id : String} {r : MultiPaxosRequest}
    {operation : HistoryOperation} (listed : requests.lookup id = some r)
    (same : r.operation.history? = some operation)
    (returned : h.invoke id r.clientId operation = .ok h') : Replays requests h' := by
  have wellFormed := replays.wellFormed.invoke returned
  obtain ⟨_, _, _, rfl⟩ := OperationHistory.invoke_eq_ok.mp returned
  refine ⟨wellFormed, fun id' invocation found => ?_, replays.attached⟩
  rcases Dict.of_lookup_insert found with ⟨rfl, rfl⟩ | ⟨_, old⟩
  · exact ⟨r, listed, rfl, same⟩
  · exact replays.invoked id' invocation old

theorem Replays.attach (replays : Replays requests h) {id : String} {r : MultiPaxosRequest}
    (listed : requests.lookup id = some r)
    (returned : h.attachClientRequestId id r.requestId = .ok h') : Replays requests h' := by
  have wellFormed := replays.wellFormed.attachClientRequestId returned
  obtain ⟨_, _, _, _, _, _, rfl⟩ := OperationHistory.attachClientRequestId_eq_ok.mp returned
  refine ⟨wellFormed, replays.invoked, fun id' requestId found => ?_⟩
  rcases Dict.of_lookup_insert found with ⟨rfl, rfl⟩ | ⟨_, old⟩
  · exact ⟨r, listed, rfl⟩
  · exact replays.attached id' requestId old

theorem Replays.invokeAttached (replays : Replays requests h) {attachments : Dict String ℕ}
    (own : OwnIds requests attachments) {id : String} {r : MultiPaxosRequest}
    {operation : HistoryOperation} (listed : requests.lookup id = some r)
    (same : r.operation.history? = some operation)
    (returned : MultiPaxos.invokeAttached attachments id r.clientId operation h = .ok h') :
    Replays requests h' := by
  obtain ⟨next, invoked, rest⟩ := bind_eq_ok.mp returned
  have replays' := replays.invoke listed same (called_eq_ok.mp invoked)
  cases attached : attachments.lookup id with
  | none =>
      rw [attached] at rest
      cases rest
      exact replays'
  | some requestId =>
      rw [attached] at rest
      obtain ⟨r', listed', rfl⟩ := own id requestId attached
      rw [listed] at listed'
      cases listed'
      exact replays'.attach listed (called_eq_ok.mp rest)

theorem Replays.respondDecoded (replays : Replays requests h) {id : String} {result : Json}
    (returned : MultiPaxos.respondDecoded id result h = .ok h') : Replays requests h' := by
  unfold MultiPaxos.respondDecoded at returned
  split at returned
  next => exact replays.respond (called_eq_ok.mp returned)
  next => exact replays.respond (called_eq_ok.mp returned)
  next =>
    obtain ⟨_, _, failed⟩ := bind_eq_ok.mp returned
    cases failed

theorem Replays.decodeEvent (replays : Replays requests h) {attachments : Dict String ℕ}
    (own : OwnIds requests attachments) {event : Json × ℕ}
    (returned : MultiPaxos.decodeEvent requests attachments h event = .ok h') :
    Replays requests h' := by
  unfold MultiPaxos.decodeEvent at returned
  split at returned
  next => cases returned
  obtain ⟨_, _, returned⟩ := bind_eq_ok.mp returned
  split at returned
  next => cases returned
  obtain ⟨_, _, returned⟩ := bind_eq_ok.mp returned
  obtain ⟨_, _, returned⟩ := bind_eq_ok.mp returned
  obtain ⟨_, _, returned⟩ := bind_eq_ok.mp returned
  obtain ⟨_, _, returned⟩ := bind_eq_ok.mp returned
  split at returned
  next => cases returned
  obtain ⟨_, _, returned⟩ := bind_eq_ok.mp returned
  obtain ⟨operationId, _, returned⟩ := bind_eq_ok.mp returned
  split at returned
  next => cases returned
  next request listed =>
    split at returned
    next => cases returned
    next operation same =>
      split at returned
      next => exact replays.invokeAttached own listed same returned
      next =>
        obtain ⟨_, _, returned⟩ := bind_eq_ok.mp returned
        exact replays.respondDecoded returned

theorem replays_empty (requests : Dict String MultiPaxosRequest) : Replays requests {} where
  wellFormed := OperationHistory.wellFormed_empty
  invoked := fun _ _ found => nomatch found
  attached := fun _ _ found => nomatch found

/-- The history that is read invokes the requests, in their order. -/
theorem decodeHistory_replays {raw : Json} (read : decodeHistory raw requests = .ok h) :
    Replays requests h ∧ h.invocations.map (·.operationId) = expectedInvocations requests := by
  unfold decodeHistory at read
  obtain ⟨_, _, read⟩ := bind_eq_ok.mp read
  obtain ⟨attachments, attached, read⟩ := bind_eq_ok.mp read
  obtain ⟨_, _, read⟩ := bind_eq_ok.mp read
  obtain ⟨replayed, events, read⟩ := bind_eq_ok.mp read
  have own : OwnIds requests attachments :=
    foldlM_eq_ok_keeps (fun _ _ _ own added => addAttachment_own own added)
      (ownIds_empty requests) attached
  have replays : Replays requests replayed :=
    foldlM_eq_ok_keeps (fun _ _ _ replays returned => replays.decodeEvent own returned)
      (replays_empty requests) events
  split at read
  next => cases read
  next ordered =>
    obtain ⟨_, _, read⟩ := bind_eq_ok.mp read
    obtain ⟨state, left, read⟩ := bind_eq_ok.mp read
    cases read
    -- an abandonment changes no invocation
    refine foldlM_eq_ok_keeps
      (P := fun state => Replays requests state.1 ∧
        state.1.invocations.map (·.operationId) = expectedInvocations requests)
      ?_ ⟨replays, not_not.mp ordered⟩ left
    rintro ⟨before, gone⟩ item after ⟨replays, ordered⟩ returned
    unfold decodeAbandonment at returned
    obtain ⟨operationId, _, returned⟩ := bind_eq_ok.mp returned
    split at returned
    next => cases returned
    next =>
      obtain ⟨next, left, returned⟩ := bind_eq_ok.mp returned
      cases returned
      rw [called_eq_ok] at left
      refine ⟨replays.abandon left, ?_⟩
      obtain ⟨_, _, _, _, _, rfl⟩ := OperationHistory.abandon_eq_ok.mp left
      exact ordered

/-- **Every journal that is read is valid.** -/
theorem decodeValue_valid {limits : Option CheckpointLimits} {value : Json}
    {journal : ClientJournal} (read : decodeValue limits value = .ok journal) : journal.Valid := by
  unfold decodeValue at read
  obtain ⟨_, _, read⟩ := bind_eq_ok.mp read
  obtain ⟨_, _, read⟩ := bind_eq_ok.mp read
  obtain ⟨table, added, read⟩ := bind_eq_ok.mp read
  obtain ⟨history, replayed, read⟩ := bind_eq_ok.mp read
  cases read
  have sound : table.Sound :=
    foldlM_eq_ok_keeps (fun _ _ _ sound added => addRequest_sound sound added)
      RequestTable.sound_empty added
  obtain ⟨replays, ordered⟩ := decodeHistory_replays replayed
  exact {
    wellFormed := replays.wellFormed
    keyed := sound.keyed
    distinct := ⟨fun r first r' second same => sound.distinct _ r _ r' first second same,
      fun r first r' second same => by
        have first : table.requests.lookup r.operationId = some r := first
        rw [same, show table.requests.lookup r'.operationId = some r' from second] at first
        exact (Option.some.inj first).symm⟩
    invoked := replays.invoked
    ordered := ordered
    attached := replays.attached }

theorem wrapped_eq_ok {result : Checkpoint α} {a : α} :
    wrapped result = .ok a ↔ result = .ok a := by
  unfold wrapped
  cases result with
  | ok b => exact Iff.rfl
  | error raised =>
      dsimp only
      constructor
      · split <;> intro passed <;> cases passed
      · intro passed
        cases passed

theorem decodeJournal_valid {library : JsonLibrary} {limits : Option CheckpointLimits}
    {encoded : String} {journal : ClientJournal}
    (read : decodeJournal library limits encoded = .ok journal) : journal.Valid := by
  rw [decodeJournal, wrapped_eq_ok] at read
  obtain ⟨_, _, read⟩ := bind_eq_ok.mp read
  obtain ⟨_, _, read⟩ := bind_eq_ok.mp read
  obtain ⟨_, _, read⟩ := bind_eq_ok.mp read
  exact decodeValue_valid read

end Reading

/-! ## What reading raises -/

section Raising

variable {α β : Type}

/-- What is raised, the `except` clauses catch. -/
def Caught (result : Checkpoint α) : Prop :=
  ∀ error, result = .error error → error.exceptionClass ≠ .attributeError

theorem caught_ok (a : α) : Caught (.ok a) := fun _ raised => nomatch raised

theorem caught_error {error : CheckpointError} (other : error.exceptionClass ≠ .attributeError) :
    Caught (.error error : Checkpoint α) := by
  rintro _ ⟨⟩
  exact other

theorem Caught.bind {first : Checkpoint α} {next : α → Checkpoint β} (caught : Caught first)
    (later : ∀ a, first = .ok a → Caught (next a)) : Caught (first >>= next) := by
  cases returned : first with
  | error error =>
      rintro _ ⟨⟩
      exact caught error returned
  | ok a => exact later a returned

theorem Caught.ite {condition : Prop} [Decidable condition] {first second : Checkpoint α}
    (yes : condition → Caught first) (no : ¬ condition → Caught second) :
    Caught (if condition then first else second) := by
  split
  next holds => exact yes holds
  next fails => exact no fails

theorem caught_foldlM {body : β → α → Checkpoint β} (caught : ∀ b a, Caught (body b a))
    (items : List α) (b : β) : Caught (items.foldlM body b) :=
  fun _ failed => foldlM_error (fun b a _ => caught b a _) failed

theorem caught_called (result : Except HistoryError α) : Caught (called result) := by
  cases result with
  | error raised =>
      rintro _ ⟨⟩
      nofun
  | ok a => exact caught_ok a

theorem caught_item (value : Json) (key : String) : Caught (access (value.item key)) := by
  unfold Json.item
  split
  · split
    · exact caught_ok _
    · exact caught_error nofun
  · exact caught_error nofun

theorem caught_elements (value : Json) : Caught (access value.elements) := by
  unfold Json.elements
  split
  · exact caught_ok _
  · exact caught_ok _
  · exact caught_ok _
  · exact caught_error nofun

theorem caught_get {value : Json} (object : value.isObject) (key : String) :
    Caught (access (value.get key)) := by
  cases value with
  | object entries => exact caught_ok _
  | _ => cases object

theorem caught_fields (value : Json) (expected : Finset String) :
    Caught (fields value expected) := by
  unfold fields
  split
  · exact .ite (fun _ => caught_ok _) fun _ => caught_error nofun
  · exact caught_error nofun

theorem caught_text (value : Json) : Caught (text value) := by
  unfold text
  split
  · split
    · exact caught_error nofun
    · exact caught_ok _
  · exact caught_error nofun

theorem caught_number (value : Json) : Caught (number value) := by
  unfold number
  split
  · exact .ite (fun _ => caught_error nofun) fun _ => caught_ok _
  · exact caught_error nofun

theorem caught_collection (raw : Json) (field : String) : Caught (collection raw field) :=
  (caught_item raw field).bind fun value _ => caught_elements value

theorem caught_keyed (operation : DecodedOperation) : Caught operation.keyed :=
  .ite (fun _ => caught_error nofun) fun _ => caught_ok _

theorem caught_decodeOperation (raw : Json) : Caught (decodeOperation raw) := by
  refine .ite (fun _ => caught_error nofun) fun object => ?_
  refine (caught_get (not_not.mp object) _).bind fun kind _ => ?_
  refine .ite (fun _ => ?_) fun _ => .ite (fun _ => ?_) fun _ => .ite (fun _ => ?_)
    fun _ => caught_error nofun
  · exact (caught_fields _ _).bind fun data _ => (caught_item _ _).bind fun _ _ =>
      (caught_item _ _).bind fun _ _ => caught_keyed _
  · exact (caught_fields _ _).bind fun data _ => (caught_item _ _).bind fun _ _ =>
      (caught_item _ _).bind fun _ _ => caught_keyed _
  · exact (caught_fields _ _).bind fun data _ => (caught_item _ _).bind fun _ _ =>
      .ite (fun _ => caught_keyed _) fun _ => caught_keyed _

theorem caught_checked (operation : DecodedOperation) : Caught operation.checked := by
  unfold DecodedOperation.checked
  split
  · split
    · exact caught_error nofun
    · split
      · exact caught_ok _
      · exact caught_error nofun
      · exact caught_ok _
      · exact caught_error nofun
      · exact caught_ok _
      · exact caught_ok _
  · exact caught_error nofun

theorem caught_decodeRequest (item : Json) : Caught (decodeRequest item) :=
  (caught_fields _ _).bind fun _ _ => (caught_item _ _).bind fun _ _ =>
  (caught_text _).bind fun _ _ =>
    (caught_item _ _).bind fun _ _ => (caught_number _).bind fun _ _ => (caught_item _ _).bind
      fun _ _ => (caught_text _).bind fun _ _ => (caught_item _ _).bind fun _ _ =>
        (caught_decodeOperation _).bind fun _ _ => (caught_checked _).bind fun _ _ => caught_ok _

theorem caught_addRequest (table : RequestTable) (item : Json) : Caught (addRequest table item) :=
  (caught_decodeRequest item).bind fun _ _ =>
    .ite (fun _ => caught_error nofun) fun _ => caught_ok _

theorem caught_addAttachment (requests : Dict String MultiPaxosRequest)
    (attachments : Dict String ℕ) (item : Json) :
    Caught (addAttachment requests attachments item) := by
  refine (caught_fields _ _).bind fun data _ => (caught_item _ _).bind fun _ _ =>
    (caught_text _).bind fun operationId _ => (caught_item _ _).bind fun _ _ =>
      (caught_number _).bind fun _ _ => ?_
  split
  · exact caught_error nofun
  · exact .ite (fun _ => caught_error nofun) fun _ => caught_ok _

theorem caught_respondDecoded (operationId : String) (result : Json) (history : OperationHistory) :
    Caught (respondDecoded operationId result history) := by
  unfold respondDecoded
  split
  · exact caught_called _
  · exact caught_called _
  · exact (caught_called _).bind fun _ _ => caught_error nofun

theorem caught_invokeAttached (attachments : Dict String ℕ) (operationId clientId : String)
    (operation : HistoryOperation) (history : OperationHistory) :
    Caught (invokeAttached attachments operationId clientId operation history) := by
  refine (caught_called _).bind fun _ _ => ?_
  split
  · exact caught_called _
  · exact caught_ok _

theorem caught_decodeEvent (requests : Dict String MultiPaxosRequest)
    (attachments : Dict String ℕ) (history : OperationHistory) (event : Json × ℕ) :
    Caught (decodeEvent requests attachments history event) := by
  refine .ite (fun _ => caught_error nofun) fun object => ?_
  refine (caught_get (not_not.mp object) _).bind fun kind _ => ?_
  refine .ite (fun _ => caught_error nofun) fun _ => (caught_item _ _).bind fun kind _ =>
    (caught_fields _ _).bind fun data _ => (caught_item _ _).bind fun _ _ =>
      (caught_number _).bind fun _ _ => .ite (fun _ => caught_error nofun) fun _ =>
        (caught_item _ _).bind fun _ _ => (caught_text _).bind fun _ _ => ?_
  split
  · exact caught_error nofun
  · split
    · exact caught_error nofun
    · exact .ite (fun _ => caught_invokeAttached _ _ _ _ _) fun _ =>
        (caught_item _ _).bind fun _ _ => caught_respondDecoded _ _ _

theorem caught_decodeAbandonment (state : OperationHistory × Finset String) (item : Json) :
    Caught (decodeAbandonment state item) :=
  (caught_text item).bind fun _ _ => .ite (fun _ => caught_error nofun) fun _ =>
    (caught_called _).bind fun _ _ => caught_ok _

theorem caught_decodeHistory (raw : Json) (requests : Dict String MultiPaxosRequest) :
    Caught (decodeHistory raw requests) := by
  refine (caught_collection _ _).bind fun _ _ => (caught_foldlM (caught_addAttachment _) _ _).bind
    fun _ _ => (caught_collection _ _).bind fun _ _ =>
      (caught_foldlM (caught_decodeEvent _ _) _ _).bind
      fun _ _ => .ite (fun _ => caught_error nofun) fun _ => (caught_collection _ _).bind fun _ _ =>
        (caught_foldlM caught_decodeAbandonment _ _).bind fun _ _ => caught_ok _

theorem caught_forM {body : α → Checkpoint Unit} (caught : ∀ a, Caught (body a)) (items : List α) :
    Caught (items.forM body) := by
  induction items with
  | nil => exact caught_ok ()
  | cons item items ih => exact (caught item).bind fun _ _ => ih

theorem caught_limited {limits : Option CheckpointLimits}
    {check : CheckpointLimits → Checkpoint Unit}
    (caught : ∀ limits, Caught (check limits)) : Caught (limited limits check) := by
  cases limits with
  | none => exact caught_ok ()
  | some limits => exact caught limits

theorem caught_length (value : Json) : Caught (access value.length) := by
  have elements := caught_elements value
  unfold Json.length
  cases returned : value.elements with
  | error raised =>
      rw [returned] at elements
      rintro _ ⟨⟩
      exact elements _ rfl
  | ok items => exact caught_ok _

theorem caught_enforceCollectionLimits (raw : Json) (limits : CheckpointLimits) :
    Caught (enforceCollectionLimits raw limits) := by
  refine caught_forM (fun check => ?_) _
  exact (caught_item _ _).bind fun _ _ => (caught_length _).bind fun _ _ =>
    .ite (fun _ => caught_error nofun) fun _ => caught_ok _

theorem caught_checkShape (limits : Option CheckpointLimits) (value : Json) :
    Caught (checkShape limits value) := by
  refine (caught_fields _ _).bind fun raw _ => (caught_item _ _).bind fun version _ => ?_
  split
  · refine (caught_forM (fun field => ?_) _).bind fun _ _ =>
      (caught_limited (caught_enforceCollectionLimits raw)).bind fun _ _ => caught_ok _
    exact (caught_item _ _).bind fun _ _ => .ite (fun _ => caught_error nofun) fun _ => caught_ok _
  · exact caught_error nofun

theorem caught_decodeValue (limits : Option CheckpointLimits) (value : Json) :
    Caught (decodeValue limits value) :=
  (caught_checkShape limits value).bind fun _ _ => (caught_collection _ _).bind fun _ _ =>
    (caught_foldlM caught_addRequest _ _).bind fun _ _ => (caught_decodeHistory _ _).bind
      fun _ _ => caught_ok _

theorem caught_step (limits : CheckpointLimits) (scan : DepthScan) (ch : Char) :
    Caught (scan.step limits ch) := by
  refine .ite (fun _ => .ite (fun _ => caught_ok _) fun _ => .ite (fun _ => caught_ok _) fun _ =>
    .ite (fun _ => caught_ok _) fun _ => caught_ok _) fun _ =>
      .ite (fun _ => caught_ok _) fun _ => ?_
  exact .ite (fun _ => .ite (fun _ => caught_error nofun) fun _ => caught_ok _) fun _ =>
    .ite (fun _ => caught_ok _) fun _ => caught_ok _

theorem caught_enforceInputLimits (encoded : String) (limits : CheckpointLimits) :
    Caught (enforceInputLimits encoded limits) :=
  .ite (fun _ => caught_error nofun) fun _ => .ite (fun _ => caught_error nofun) fun _ =>
    (caught_foldlM (caught_step limits) _ _).bind fun _ _ => caught_ok _

theorem caught_hooked (value : Json) : Caught (value.hooked uniqueObject constantHook) := by
  refine Json.hooked_error ⟨fun fields => ?_, fun name => ?_⟩ value
  · exact Caught.ite (fun _ => caught_ok _) fun _ => caught_error nofun
  · rintro _ ⟨⟩
    nofun

theorem caught_load (result : Except LoadError Json) :
    Caught (result.mapError CheckpointError.load) := by
  cases result with
  | error raised =>
      rintro _ ⟨⟩
      cases raised <;> nofun
  | ok value => exact caught_ok value

/-- The `except` clauses leave `ValueError`s only. -/
theorem Caught.wrapped {result : Checkpoint α} (caught : Caught result) :
    (∃ a, MultiPaxos.wrapped result = .ok a) ∨
      ∃ error, MultiPaxos.wrapped result = .error error ∧ error.IsValueError := by
  cases returned : result with
  | ok a => exact .inl ⟨a, rfl⟩
  | error error =>
      have other := caught error returned
      unfold MultiPaxos.wrapped CheckpointError.IsValueError
      dsimp only
      cases raised : error.exceptionClass with
      | resourceLimit => exact .inr ⟨_, rfl, .inr raised⟩
      | attributeError => exact absurd raised other
      | _ => exact .inr ⟨_, rfl, .inl rfl⟩

/-- **A text is read, or a `ValueError` is raised.** -/
theorem decodeJournal_total (library : JsonLibrary) (limits : Option CheckpointLimits)
    (encoded : String) : (∃ journal, decodeJournal library limits encoded = .ok journal) ∨
      ∃ error, decodeJournal library limits encoded = .error error ∧ error.IsValueError :=
  Caught.wrapped <| (caught_limited (caught_enforceInputLimits encoded)).bind fun _ _ =>
    (caught_load _).bind fun loaded _ => (caught_hooked loaded).bind fun value _ =>
      caught_decodeValue limits value

end Raising

end Distlab.MultiPaxos
