import Distlab.MultiPaxos.JournalValidity

/-!
# The fields of a checkpoint

What is written under sorted keys is read back: an operation, a request, an attached
request id, an event.
-/

set_option autoImplicit false

namespace Distlab.MultiPaxos

open Foundations Clients

/-! ## Fields that were written -/

section Fields

variable {entries : List (String × Json)}

theorem isObject_sortKeys : (Json.object entries).sortKeys.isObject = true := by
  rw [Json.sortKeys]
  rfl

theorem fields_sortKeys {expected : Finset String}
    (keys : (entries.map Prod.fst).toFinset = expected) :
    fields (Json.object entries).sortKeys expected = .ok (Json.object entries).sortKeys := by
  have same : ((Json.sortByKey (Json.sortFields entries)).map Prod.fst).toFinset = expected := by
    rw [← keys, ← Json.map_fst_sortFields entries]
    exact List.toFinset_eq_of_perm _ _ ((Json.perm_sortByKey _).map Prod.fst)
  rw [Json.sortKeys, fields, if_pos same]

variable (distinct : (entries.map Prod.fst).Nodup) (key : String) {value : Json}
  (found : entries.lookup key = some value)

include distinct found

theorem access_item_sortKeys :
    access ((Json.object entries).sortKeys.item key) = .ok value.sortKeys := by
  rw [Json.item_sortKeys distinct found]
  rfl

theorem access_get_sortKeys :
    access ((Json.object entries).sortKeys.get key) = .ok value.sortKeys := by
  have keys : ((Json.sortFields entries).map Prod.fst).Nodup := by rwa [Json.map_fst_sortFields]
  rw [Json.sortKeys, Json.get, Json.lookup_sortByKey keys, Json.lookup_sortFields, found]
  rfl

end Fields

theorem collection_sortKeys {entries : List (String × Json)}
    (distinct : (entries.map Prod.fst).Nodup) {field : String} {items : List Json}
    (found : entries.lookup field = some (.array items)) :
    collection (Json.object entries).sortKeys field = .ok (items.map Json.sortKeys) := by
  rw [collection, access_item_sortKeys distinct field found, Json.sortKeys, Json.sortItems_eq]
  rfl

theorem ok_bind {α β : Type} (a : α) (next : α → Checkpoint β) :
    ((Except.ok a : Checkpoint α) >>= next) = next a := rfl

theorem text_string {value : String} (named : value ≠ "") :
    text (.string value) = .ok ⟨value, named⟩ := dif_neg named

theorem number_int (value : ℕ) : number (.int value) = .ok value := by
  rw [number, if_neg (Int.not_lt.mpr (Int.natCast_nonneg value)), Int.toNat_natCast]

/-! ## Requests -/

theorem decodeOperation_encodeOperation (operation : ClientOperation)
    (keyed : operation.key ≠ "") :
    ∃ decoded, decodeOperation (encodeOperation operation).sortKeys = .ok decoded ∧
      decoded.checked = .ok ⟨operation, keyed⟩ := by
  cases operation with
  | put key value =>
      have named : key ≠ "" := keyed
      have distinct : ([("type", Json.string "put"), ("key", .string key),
          ("value", .string value)].map Prod.fst).Nodup := by simp
      have kind := access_get_sortKeys distinct "type" rfl
      have atKey := access_item_sortKeys distinct "key" rfl
      have atValue := access_item_sortKeys distinct "value" rfl
      refine ⟨.put (.string key) (.string value), ?_, dif_neg keyed⟩
      simp [decodeOperation, encodeOperation, isObject_sortKeys, kind, atKey, atValue, isString,
        fields_sortKeys, ok_bind, DecodedOperation.keyed, DecodedOperation.key, Json.isFalsy, named]
  | append key suffix =>
      have named : key ≠ "" := keyed
      have distinct : ([("type", Json.string "append"), ("key", .string key),
          ("suffix", .string suffix)].map Prod.fst).Nodup := by simp
      have kind := access_get_sortKeys distinct "type" rfl
      have atKey := access_item_sortKeys distinct "key" rfl
      have atSuffix := access_item_sortKeys distinct "suffix" rfl
      refine ⟨.append (.string key) (.string suffix), ?_, dif_neg keyed⟩
      simp [decodeOperation, encodeOperation, isObject_sortKeys, kind, atKey, atSuffix, isString,
        fields_sortKeys, ok_bind, DecodedOperation.keyed, DecodedOperation.key, Json.isFalsy, named]
  | get key =>
      have named : key ≠ "" := keyed
      have distinct : ([("type", Json.string "get"), ("key", .string key)].map
          Prod.fst).Nodup := by simp
      have kind := access_get_sortKeys distinct "type" rfl
      have atKey := access_item_sortKeys distinct "key" rfl
      refine ⟨.get (.string key), ?_, dif_neg keyed⟩
      simp [decodeOperation, encodeOperation, isObject_sortKeys, kind, atKey, isString,
        fields_sortKeys, ok_bind, DecodedOperation.keyed, DecodedOperation.key, Json.isFalsy, named]
  | delete key =>
      have named : key ≠ "" := keyed
      have distinct : ([("type", Json.string "delete"), ("key", .string key)].map
          Prod.fst).Nodup := by simp
      have kind := access_get_sortKeys distinct "type" rfl
      have atKey := access_item_sortKeys distinct "key" rfl
      refine ⟨.delete (.string key), ?_, dif_neg keyed⟩
      simp [decodeOperation, encodeOperation, isObject_sortKeys, kind, atKey, isString,
        fields_sortKeys, ok_bind, DecodedOperation.keyed, DecodedOperation.key, Json.isFalsy, named]

theorem decodeRequest_encodeRequest (request : MultiPaxosRequest) :
    decodeRequest (encodeRequest request).sortKeys = .ok request := by
  have distinct : ([("client_id", Json.string request.clientId),
      ("request_id", .int request.requestId), ("operation_id", .string request.operationId),
      ("operation", encodeOperation request.operation)].map Prod.fst).Nodup := by simp
  have clientId := access_item_sortKeys distinct "client_id" rfl
  have requestId := access_item_sortKeys distinct "request_id" rfl
  have operationId := access_item_sortKeys distinct "operation_id" rfl
  have operation := access_item_sortKeys distinct "operation" rfl
  obtain ⟨decoded, read, checked⟩ :=
    decodeOperation_encodeOperation request.operation request.keyed
  rw [decodeRequest, encodeRequest, fields_sortKeys (by simp), ok_bind, clientId, ok_bind,
    Json.sortKeys_string, text_string request.client, ok_bind, requestId, ok_bind,
    Json.sortKeys_int, number_int, ok_bind, operationId, ok_bind, Json.sortKeys_string,
    text_string request.named, ok_bind, operation, ok_bind, read, ok_bind, checked, ok_bind]
  rfl

/-- The requests are read in their order, into a table with the same entries. -/
theorem foldlM_addRequest {entries : List (Sigma fun _ : String => MultiPaxosRequest)}
    (nodup : entries.NodupKeys) (keyed : ∀ entry ∈ entries, entry.2.operationId = entry.1)
    (distinct : entries.Pairwise fun e f => e.2.identity ≠ f.2.identity) :
    (entries.reverse.map fun entry => (encodeRequest entry.2).sortKeys).foldlM addRequest {} =
      .ok ⟨⟨entries, nodup⟩, (entries.map (·.2.identity)).toFinset⟩ := by
  induction entries with
  | nil => rfl
  | cons entry entries ih =>
      obtain ⟨here, keyedRest⟩ := List.forall_mem_cons.mp keyed
      obtain ⟨single, distinctRest⟩ := List.pairwise_cons.mp distinct
      obtain ⟨fresh, nodupRest⟩ := List.nodupKeys_cons.mp nodup
      rw [List.reverse_cons, List.map_append, List.foldlM_append,
        ih nodupRest keyedRest distinctRest]
      show addRequest _ _ >>= pure = _
      rw [bind_pure, addRequest_eq_ok]
      refine ⟨entry.2, decodeRequest_encodeRequest entry.2, ?_, ?_, ?_⟩
      · rw [here]
        exact fresh
      · rw [List.mem_toFinset, List.mem_map]
        rintro ⟨other, member, same⟩
        exact single other member same.symm
      · congr 1
        · refine AList.ext ?_
          rw [here, AList.entries_insert_of_notMem fresh]
        · rw [List.map_cons, List.toFinset_cons]

/-! ## Attached request ids -/

/-- The attached request ids, in the order of the invocations. -/
def attachedPairs (h : OperationHistory) : List (String × ℕ) :=
  h.invocations.filterMap fun invocation =>
    (h.clientRequestId invocation.operationId).map (invocation.operationId, ·)

/-- An attached request id as it is written. -/
def encodePair (pair : String × ℕ) : Json :=
  .object [("operation_id", .string pair.1), ("request_id", .int pair.2)]

theorem filterMap_encodeAttachment (h : OperationHistory) :
    h.invocations.filterMap (encodeAttachment h) = (attachedPairs h).map encodePair := by
  rw [attachedPairs, List.map_filterMap]
  refine List.filterMap_congr fun invocation _ => ?_
  rw [encodeAttachment, Option.map_map]
  rfl

section Attachments

variable {requests : Dict String MultiPaxosRequest} {h : OperationHistory}

/-- A request id that may be attached. -/
structure Attachable (requests : Dict String MultiPaxosRequest) (pair : String × ℕ) : Prop where
  named : pair.1 ≠ ""
  listed : ∃ r, requests.lookup pair.1 = some r ∧ r.operation.isWrite ∧ r.requestId = pair.2

theorem addAttachment_encodePair {attachments : Dict String ℕ} {pair : String × ℕ}
    (attachable : Attachable requests pair) (fresh : pair.1 ∉ attachments) :
    addAttachment requests attachments (encodePair pair).sortKeys =
      .ok (attachments.insert pair.1 pair.2) := by
  obtain ⟨named, r, listed, write, own⟩ := attachable
  have distinct : ([("operation_id", Json.string pair.1),
      ("request_id", .int pair.2)].map Prod.fst).Nodup := by simp
  have operationId := access_item_sortKeys distinct "operation_id" rfl
  have requestId := access_item_sortKeys distinct "request_id" rfl
  rw [addAttachment, encodePair, fields_sortKeys (by simp), ok_bind, operationId, ok_bind,
    Json.sortKeys_string, text_string named, ok_bind, requestId, ok_bind, Json.sortKeys_int,
    number_int, ok_bind]
  dsimp only
  rw [listed]
  dsimp only
  rw [if_neg (by simp [fresh, write, own])]
  rfl

/-- The attached request ids are read in their order. -/
theorem foldlM_addAttachment {pairs : List (String × ℕ)} {start : Dict String ℕ}
    (nodup : (pairs.map Prod.fst).Nodup) (fresh : ∀ pair ∈ pairs, pair.1 ∉ start)
    (attachable : ∀ pair ∈ pairs, Attachable requests pair) :
    (pairs.map fun pair => (encodePair pair).sortKeys).foldlM (addAttachment requests) start =
      .ok (pairs.foldl (fun d pair => d.insert pair.1 pair.2) start) := by
  induction pairs generalizing start with
  | nil => rfl
  | cons pair pairs ih =>
      obtain ⟨single, nodupRest⟩ := List.nodup_cons.mp nodup
      obtain ⟨freshHere, freshRest⟩ := List.forall_mem_cons.mp fresh
      obtain ⟨here, rest⟩ := List.forall_mem_cons.mp attachable
      rw [List.map_cons, List.foldlM_cons, addAttachment_encodePair here freshHere, ok_bind]
      refine ih nodupRest (fun other member => ?_) rest
      rw [AList.mem_insert _, not_or]
      refine ⟨fun same => single ?_, freshRest other member⟩
      rw [← same]
      exact List.mem_map.mpr ⟨other, member, rfl⟩

theorem mem_attachedPairs (wellFormed : h.WellFormed) {id : String} {requestId : ℕ} :
    (id, requestId) ∈ attachedPairs h ↔ h.clientRequestIds.lookup id = some requestId := by
  rw [attachedPairs, List.mem_filterMap]
  constructor
  · rintro ⟨invocation, _, same⟩
    obtain ⟨_, found, same⟩ := Option.map_eq_some_iff.mp same
    obtain ⟨rfl, rfl⟩ := Prod.mk.inj same
    exact found
  · intro found
    obtain ⟨invocation, invoked, _⟩ := wellFormed.attached id requestId found
    obtain rfl := wellFormed.invocationKey id invocation invoked
    refine ⟨invocation, (OperationHistory.mem_invocations wellFormed).mpr invoked, ?_⟩
    rw [OperationHistory.clientRequestId, found]
    rfl

theorem nodup_attachedPairs (wellFormed : h.WellFormed) :
    ((attachedPairs h).map Prod.fst).Nodup := by
  refine List.Sublist.nodup ?_ (OperationHistory.nodup_invocations wellFormed)
  refine OperationHistory.map_filterMap_sublist (fun invocation pair selected => ?_) _
  obtain ⟨_, _, rfl⟩ := Option.map_eq_some_iff.mp selected
  rfl

/-- The dictionary of the attached request ids has what the history has. -/
theorem lookup_attachments (wellFormed : h.WellFormed) (id : String) :
    (Dict.ofItems (attachedPairs h)).lookup id = h.clientRequestIds.lookup id := by
  refine Option.ext fun requestId => ?_
  rw [Dict.lookup_ofItems, mem_attachedPairs wellFormed]
  intro k b c first second
  rw [mem_attachedPairs wellFormed] at first second
  exact Option.some.inj (first.symm.trans second)

end Attachments

/-! ## Events -/

section Events

variable {requests : Dict String MultiPaxosRequest} {attachments : Dict String ℕ}
  {p p' : OperationHistory} {r : MultiPaxosRequest} {operation : HistoryOperation}

theorem decodeEvent_invoked {invocation : Invocation} (named : invocation.operationId ≠ "")
    (listed : requests.lookup invocation.operationId = some r)
    (same : r.operation.history? = some operation) :
    decodeEvent requests attachments p
        ((encodeEvent (.invoked invocation)).sortKeys, invocation.sequence) =
      invokeAttached attachments invocation.operationId r.clientId operation p := by
  have distinct : ([("sequence", Json.int invocation.sequence), ("type", .string "invoke"),
      ("operation_id", .string invocation.operationId)].map Prod.fst).Nodup := by simp
  have kind := access_get_sortKeys distinct "type" rfl
  have kind' := access_item_sortKeys distinct "type" rfl
  have sequence := access_item_sortKeys distinct "sequence" rfl
  have operationId := access_item_sortKeys distinct "operation_id" rfl
  simp [decodeEvent, encodeEvent, isObject_sortKeys, kind, kind', sequence, operationId, isString,
    fields_sortKeys, ok_bind, number_int, text_string named, listed, same]

theorem decodeEvent_completed {completion : Completion} (named : completion.operationId ≠ "")
    (listed : requests.lookup completion.operationId = some r)
    (same : r.operation.history? = some operation) :
    decodeEvent requests attachments p
        ((encodeEvent (.completed completion)).sortKeys, completion.sequence) =
      called (p.respond completion.operationId completion.result) := by
  have distinct : ([("sequence", Json.int completion.sequence), ("type", .string "complete"),
      ("operation_id", .string completion.operationId),
      ("result", encodeResult completion.result)].map Prod.fst).Nodup := by simp
  have kind := access_get_sortKeys distinct "type" rfl
  have kind' := access_item_sortKeys distinct "type" rfl
  have sequence := access_item_sortKeys distinct "sequence" rfl
  have operationId := access_item_sortKeys distinct "operation_id" rfl
  have result := access_item_sortKeys distinct "result" rfl
  simp [decodeEvent, encodeEvent, isObject_sortKeys, kind, kind', sequence, operationId, isString,
    fields_sortKeys, ok_bind, number_int, text_string named, listed, same, result]
  cases completion.result <;> simp [encodeResult, respondDecoded]

end Events

end Distlab.MultiPaxos
