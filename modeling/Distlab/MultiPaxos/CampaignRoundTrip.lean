import Distlab.MultiPaxos.CampaignCodecs

/-!
# Round trips of campaign schedules

What the codec of a schedule writes is read as the schedule again. For a fault schedule
this is so exactly when each rule has a source, a destination and an ordinal.
-/

set_option autoImplicit false

namespace Distlab.MultiPaxos.Campaign

open Foundations Scenarios

/-! ## Fields that were written -/

section Fields

variable {entries : List (String × Json)} (distinct : (entries.map Prod.fst).Nodup) (key : String)
  {value : Json} (found : entries.lookup key = some value)

include distinct found

theorem field_sortKeys : field (Json.object entries).sortKeys key = .ok value.sortKeys := by
  rw [field, Json.item_sortKeys distinct found]
  rfl

theorem optionalField_sortKeys :
    optionalField (Json.object entries).sortKeys key = .ok value.sortKeys := by
  rw [optionalField, Json.get_sortKeys distinct found]
  rfl

end Fields

theorem objectOf_sortKeys (message : String) (entries : List (String × Json)) :
    objectOf message (Json.object entries).sortKeys = .ok () :=
  if_pos (Json.isObject_sortKeys entries)

theorem integerFrom_int {bound : ℤ} {message below : String} {number : ℕ}
    (large : bound ≤ (number : ℤ)) :
    integerFrom bound message below (.int number) = .ok number := by
  rw [integerFrom, integer, except_ok_bind, if_neg (not_lt.mpr large)]
  rfl

@[simp] theorem sortKeys_writtenInt (number : Option ℕ) :
    (written (fun number : ℕ => .int number) number).sortKeys =
      written (fun number : ℕ => .int number) number := by
  cases number <;> simp [written]

@[simp] theorem sortKeys_writtenString (text : Option String) :
    (written Json.string text).sortKeys = written Json.string text := by
  cases text <;> simp [written]

theorem nullable_writtenString (message : String) (text : Option String) :
    nullable (stringOf message) (written .string text) = .ok text := by
  cases text <;> rfl

/-! ## Actions -/

/-- What an operation writes, its checks return. -/
theorem makeOperation_written (operation : ActionOperation) (positive : operation.Positive) :
    makeOperation operation.kind
      (written (fun number : ℕ => .int number) operation.roundNumber)
      (written (fun number : ℕ => .int number) operation.slot)
      (written .string operation.value) = .ok ⟨operation, positive⟩ := by
  cases operation with
  | prepare roundNumber =>
      cases roundNumber with
      | none => rfl
      | some number =>
          have large : (1 : ℤ) ≤ (number : ℤ) := by
            have := positive.1
            simp [ActionOperation.roundNumber] at this
            omega
          simp only [ActionOperation.kind, ActionOperation.roundNumber, ActionOperation.slot,
            ActionOperation.value, written, makeOperation, nullable, integerFrom_int large]
          exact dif_pos positive
  | propose slot value =>
      have large : (1 : ℤ) ≤ (slot : ℤ) := by
        have := positive.2
        simp [ActionOperation.slot] at this
        omega
      simp only [ActionOperation.kind, ActionOperation.roundNumber, ActionOperation.slot,
        ActionOperation.value, written, makeOperation, integerFrom_int large, stringOf,
        except_ok_bind]
      exact dif_pos positive

theorem memberOf_kind (kind : MultiPaxosActionKind) :
    memberOf "MultiPaxosActionKind" [.prepare, .propose] MultiPaxosActionKind.value
      (.string kind.value) = .ok kind := by
  cases kind <;> rfl

theorem decodeAction_encodeAction {action : MultiPaxosAction}
    (id : action.actionId.sortKeys = action.actionId)
    (node : action.nodeId.sortKeys = action.nodeId) :
    decodeAction (encodeAction action).sortKeys = .ok action := by
  have distinct : ([("action_id", action.actionId),
      ("kind", Json.string action.operation.kind.value), ("node_id", action.nodeId),
      ("events_after", .int action.eventsAfter),
      ("round_number", written (fun number : ℕ => .int number) action.operation.roundNumber),
      ("slot", written (fun number : ℕ => .int number) action.operation.slot),
      ("value", written .string action.operation.value)].map Prod.fst).Nodup := by simp
  have actionId := field_sortKeys distinct "action_id" rfl
  have kind := field_sortKeys distinct "kind" rfl
  have nodeId := field_sortKeys distinct "node_id" rfl
  have eventsAfter := field_sortKeys distinct "events_after" rfl
  have roundNumber := optionalField_sortKeys distinct "round_number" rfl
  have slot := optionalField_sortKeys distinct "slot" rfl
  have value := optionalField_sortKeys distinct "value" rfl
  have made : makeAction action.actionId action.operation.kind action.nodeId
      (.int action.eventsAfter)
      (written (fun number : ℕ => .int number) action.operation.roundNumber)
      (written (fun number : ℕ => .int number) action.operation.slot)
      (written .string action.operation.value) = .ok action := by
    rw [makeAction, dif_pos action.named, dif_pos action.placed,
      integerFrom_int (Int.natCast_nonneg _), except_ok_bind,
      makeOperation_written _ action.positive]
    rfl
  rw [decodeAction, encodeAction, objectOf_sortKeys, except_ok_bind, actionId, kind, nodeId,
    eventsAfter, roundNumber, slot, value]
  simp only [except_ok_bind, id, node, Json.sortKeys_string, Json.sortKeys_int, memberOf_kind,
    sortKeys_writtenInt, sortKeys_writtenString, made, reraised]

/-! ## Faults -/

/-- The rule has a source, a destination and an ordinal. -/
def Concrete (rule : FaultRule) : Prop :=
  rule.src.isSome ∧ rule.dst.isSome ∧ rule.ordinal.isSome

instance (rule : FaultRule) : Decidable (Concrete rule) := inferInstanceAs (Decidable (_ ∧ _))

theorem memberOf_faultAction (action : FaultAction) :
    memberOf "FaultAction" [.deliver, .drop, .delay, .duplicate] faultActionValue
      (.string (faultActionValue action)) = .ok action := by
  cases action <;> rfl

/-- The fields of a rule are read as they were written. -/
theorem rawRule_encodeRule (rule : AdmittedRule) (payloadType : Json → Codec Json)
    (reads : payloadType (encodeRule rule).sortKeys = field (encodeRule rule).sortKeys
      "payload_type") :
    rawRule payloadType (encodeRule rule).sortKeys = .ok ⟨rule.val.action,
      written .string rule.val.src, written .string rule.val.dst,
      written (fun number : ℕ => .int number) rule.val.ordinal,
      written .string rule.val.payloadType, .int rule.val.extraDelay⟩ := by
  have distinct : ([("action", Json.string (faultActionValue rule.val.action)),
      ("src", written .string rule.val.src), ("dst", written .string rule.val.dst),
      ("ordinal", written (fun number : ℕ => .int number) rule.val.ordinal),
      ("payload_type", written .string rule.val.payloadType),
      ("extra_delay", .int rule.val.extraDelay)].map Prod.fst).Nodup := by simp
  have action := field_sortKeys distinct "action" rfl
  have src := field_sortKeys distinct "src" rfl
  have dst := field_sortKeys distinct "dst" rfl
  have ordinal := field_sortKeys distinct "ordinal" rfl
  have payload := field_sortKeys distinct "payload_type" rfl
  have extraDelay := field_sortKeys distinct "extra_delay" rfl
  rw [encodeRule] at reads
  rw [rawRule, encodeRule, reads, action, src, dst, ordinal, payload, extraDelay]
  simp only [except_ok_bind, Json.sortKeys_string, Json.sortKeys_int, memberOf_faultAction,
    sortKeys_writtenInt, sortKeys_writtenString]
  rfl

theorem optionalField_payloadType (rule : AdmittedRule) :
    optionalField (encodeRule rule).sortKeys "payload_type" =
      field (encodeRule rule).sortKeys "payload_type" := by
  have distinct : ([("action", Json.string (faultActionValue rule.val.action)),
      ("src", written .string rule.val.src), ("dst", written .string rule.val.dst),
      ("ordinal", written (fun number : ℕ => .int number) rule.val.ordinal),
      ("payload_type", written .string rule.val.payloadType),
      ("extra_delay", .int rule.val.extraDelay)].map Prod.fst).Nodup := by simp
  rw [encodeRule, optionalField_sortKeys distinct "payload_type" rfl,
    field_sortKeys distinct "payload_type" rfl]

/-- The fields of a rule make the rule. -/
theorem makeRule_fields (rule : AdmittedRule) :
    makeRule rule.val.action rule.val.src rule.val.dst (rule.val.ordinal.map Int.ofNat)
      rule.val.payloadType rule.val.extraDelay = .ok rule := by
  obtain ⟨⟨action, src, dst, ordinal, payloadType, extraDelay⟩, admitted⟩ := rule
  have delay : ¬ ((extraDelay : ℤ) < 0) := not_lt.mpr (Int.natCast_nonneg _)
  have positive : ((ordinal.map Int.ofNat).any fun number => decide (number ≤ 0)) = false := by
    cases ordinal with
    | none => rfl
    | some number =>
        have := admitted.1
        simp at this ⊢
        omega
  have same : (ordinal.map Int.ofNat).map Int.toNat = ordinal := by
    cases ordinal <;> rfl
  simp only [makeRule, delay, positive, same, if_false, Int.toNat_natCast]
  exact dif_pos admitted

/-- **A rule is read again** exactly when it has a source, a destination and an ordinal. -/
theorem decodeRule_encodeRule_iff (rule result : AdmittedRule) :
    decodeRule (encodeRule rule).sortKeys = .ok result ↔ Concrete rule.val ∧ result = rule := by
  have raw := rawRule_encodeRule rule (fun item => optionalField item "payload_type")
    (optionalField_payloadType rule)
  have object : objectOf "each rule must be an object" (encodeRule rule).sortKeys = .ok () :=
    objectOf_sortKeys _ _
  have made := makeRule_fields rule
  rw [decodeRule, object, except_ok_bind, raw]
  simp only [reraised, except_ok_bind, nullable_writtenString]
  unfold Concrete
  cases src : rule.val.src with
  | none => simp [written, stringOf, except_error_bind]
  | some source =>
      cases dst : rule.val.dst with
      | none => simp [written, stringOf, except_ok_bind, except_error_bind]
      | some destination =>
          cases ordinal : rule.val.ordinal with
          | none => simp [written, stringOf, integer, except_ok_bind, except_error_bind]
          | some number =>
              rw [src, dst, ordinal] at made
              simp only [written, stringOf, integer, except_ok_bind]
              rw [show (some (number : ℤ)) = (some number).map Int.ofNat from rfl, made]
              simp [eq_comm]

/-! ## Lifecycle -/

theorem memberOf_lifecycleKind (kind : NodeLifecycleKind) :
    memberOf "NodeLifecycleKind" [.crash, .restart] lifecycleKindValue
      (.string (lifecycleKindValue kind)) = .ok kind := by
  cases kind <;> rfl

theorem decodeLifecycleAction_encodeLifecycleAction {action : NodeLifecycleAction}
    (id : action.actionId.sortKeys = action.actionId)
    (node : action.nodeId.sortKeys = action.nodeId) :
    decodeLifecycleAction (encodeLifecycleAction action).sortKeys = .ok action := by
  have distinct : ([("action_id", action.actionId), ("node_id", action.nodeId),
      ("kind", Json.string (lifecycleKindValue action.kind)),
      ("before_action_index", .int action.beforeActionIndex)].map Prod.fst).Nodup := by simp
  have actionId := field_sortKeys distinct "action_id" rfl
  have nodeId := field_sortKeys distinct "node_id" rfl
  have kind := field_sortKeys distinct "kind" rfl
  have before := field_sortKeys distinct "before_action_index" rfl
  have made : makeLifecycleAction action.actionId action.nodeId action.kind
      (.int action.beforeActionIndex) = .ok action := by
    rw [makeLifecycleAction, dif_pos action.named, dif_pos action.placed,
      integerFrom_int (Int.natCast_nonneg _)]
    rfl
  rw [decodeLifecycleAction, encodeLifecycleAction, objectOf_sortKeys, except_ok_bind, actionId,
    nodeId, kind, before]
  simp only [except_ok_bind, id, node, Json.sortKeys_string, Json.sortKeys_int,
    memberOf_lifecycleKind, made, reraised]

/-! ## Schedules -/

section Schedules

variable {runtime : JsonRuntime}

theorem scheduleFields_payload {name : String} (version : name ≠ "version") (seeded : name ≠ "seed")
    (unsupported seedMessage message : String) (seed : ℤ) (entries : List Json) :
    scheduleFields runtime name unsupported seedMessage message
        (schedulePayload seed name entries).sortKeys = .ok (seed, entries.map Json.sortKeys) := by
  have distinct : ([("version", Json.int 1), ("seed", .int seed),
      (name, .array entries)].map Prod.fst).Nodup := by
    simp [version.symm, seeded.symm]
  have atVersion := optionalField_sortKeys distinct "version" rfl
  have atSeed := optionalField_sortKeys distinct "seed" rfl
  have atName := @optionalField_sortKeys _ distinct name (.array entries)
    (by simp [List.lookup_cons, beq_false_of_ne version, beq_false_of_ne seeded])
  rw [scheduleFields, schedulePayload, objectOf_sortKeys, except_ok_bind, atVersion]
  simp [except_ok_bind, atSeed, atName, integer, listOf]

theorem canonical_eq_ok {value : Json} (writes : runtime.Writes value.sortKeys) :
    canonical runtime value = .ok (runtime.text value.sortKeys) := by
  rw [canonical, canonicalJson, writes]
  rfl

theorem writes_of_canonical {value : Json} {encoded : String}
    (written : canonical runtime value = .ok encoded) :
    runtime.Writes value.sortKeys ∧ encoded = runtime.text value.sortKeys := by
  cases dumped : runtime.dumps value.sortKeys with
  | error error =>
      rw [canonical, canonicalJson, dumped] at written
      cases written
  | ok text =>
      rw [canonical, canonicalJson, dumped] at written
      cases written
      exact ⟨JsonLibrary.writes_of_dumps dumped, (JsonLibrary.text_eq dumped).symm⟩

theorem canonical_of_deep {value : Json} (deep : ¬ runtime.Writes value.sortKeys) :
    canonical runtime value = .error (.dump .recursion) := by
  rw [canonical, canonicalJson, JsonLibrary.dumps_of_not_writes deep]
  rfl

/-- What is written is loaded. -/
theorem loads_text {value : Json} (inverts : runtime.Inverts value) :
    loads runtime (runtime.text value) = .ok value := by
  rw [loads, inverts.2]
  rfl

theorem canonical_sortKeys (value : Json) :
    canonical runtime value.sortKeys = canonical runtime value := by
  rw [canonical, canonicalJson, Json.sortKeys_sortKeys]
  rfl

/-- Ids that are unique are hashable, so they have no fields to sort. -/
theorem sortKeys_of_uniqueIds {message : String} {ids : List Json}
    (unique : uniqueIds runtime message ids = .ok ()) {id : Json} (member : id ∈ ids) :
    id.sortKeys = id := by
  obtain ⟨same, counted, _⟩ := bind_eq_ok.mp unique
  cases returned : Json.allDistinct runtime.integral ids with
  | error error =>
      rw [returned] at counted
      cases counted
  | ok _ =>
      obtain ⟨_, hashed⟩ := Json.hashable_of_allDistinct returned member
      exact Json.sortKeys_of_key hashed

theorem decodeActionSchedule_toJson {schedule : SeededMultiPaxosActionSchedule runtime}
    (inverts : runtime.Inverts schedule.payload.sortKeys)
    (nodes : ∀ action ∈ schedule.actions, action.nodeId.sortKeys = action.nodeId) :
    decodeActionSchedule runtime (runtime.text schedule.payload.sortKeys) = .ok schedule := by
  have entries : (schedule.actions.map fun action => (encodeAction action).sortKeys).mapM
      decodeAction = .ok schedule.actions := by
    rw [List.mapM_map, mapM_eq_ok_map id, List.map_id]
    intro action member
    exact decodeAction_encodeAction
      (sortKeys_of_uniqueIds schedule.distinct (List.mem_map_of_mem member)) (nodes action member)
  rw [decodeActionSchedule, loads_text inverts, except_ok_bind,
    SeededMultiPaxosActionSchedule.payload, scheduleFields_payload (by decide) (by decide),
    except_ok_bind]
  dsimp only
  rw [List.map_map]
  rw [show (Json.sortKeys ∘ encodeAction) = fun action => (encodeAction action).sortKeys from rfl,
    entries, except_ok_bind, makeActionSchedule]
  split
  next => rfl
  next error raised =>
    rw [schedule.distinct] at raised
    cases raised

theorem decodeLifecycleSchedule_toJson {schedule : SeededLifecycleSchedule runtime}
    (inverts : runtime.Inverts schedule.payload.sortKeys)
    (nodes : ∀ action ∈ schedule.actions, action.nodeId.sortKeys = action.nodeId) :
    decodeLifecycleSchedule runtime (runtime.text schedule.payload.sortKeys) = .ok schedule := by
  have entries : (schedule.actions.map fun action => (encodeLifecycleAction action).sortKeys).mapM
      decodeLifecycleAction = .ok schedule.actions := by
    rw [List.mapM_map, mapM_eq_ok_map id, List.map_id]
    intro action member
    exact decodeLifecycleAction_encodeLifecycleAction
      (sortKeys_of_uniqueIds schedule.distinct (List.mem_map_of_mem member)) (nodes action member)
  rw [decodeLifecycleSchedule, loads_text inverts, except_ok_bind,
    SeededLifecycleSchedule.payload, scheduleFields_payload (by decide) (by decide),
    except_ok_bind]
  dsimp only
  rw [List.map_map]
  rw [show (Json.sortKeys ∘ encodeLifecycleAction) =
    fun action => (encodeLifecycleAction action).sortKeys from rfl, entries, except_ok_bind,
    makeLifecycleSchedule]
  split
  next error raised =>
    rw [schedule.distinct] at raised
    cases raised
  next => exact dif_pos schedule.ordered

/-- The rules are read again exactly when all are concrete. -/
theorem mapM_decodeRule_iff (rules results : List AdmittedRule) :
    (rules.map fun rule => (encodeRule rule).sortKeys).mapM decodeRule = .ok results ↔
      (∀ rule ∈ rules, Concrete rule.val) ∧ results = rules := by
  induction rules generalizing results with
  | nil =>
      refine ⟨fun read => ⟨fun _ member => absurd member List.not_mem_nil, ?_⟩, ?_⟩
      · cases read
        rfl
      · rintro ⟨_, rfl⟩
        rfl
  | cons rule rules ih =>
      rw [List.map_cons, List.mapM_cons, bind_eq_ok, List.forall_mem_cons]
      constructor
      · rintro ⟨first, here, rest⟩
        obtain ⟨later, read, same⟩ := bind_eq_ok.mp rest
        obtain ⟨concrete, rfl⟩ := (decodeRule_encodeRule_iff rule first).mp here
        obtain ⟨all, rfl⟩ := (ih later).mp read
        cases same
        exact ⟨⟨concrete, all⟩, rfl⟩
      · rintro ⟨⟨concrete, all⟩, rfl⟩
        refine ⟨rule, (decodeRule_encodeRule_iff rule rule).mpr ⟨concrete, rfl⟩, ?_⟩
        rw [(ih rules).mpr ⟨all, rfl⟩]
        rfl

/-- **A fault schedule is read again** exactly when its rules are concrete. -/
theorem decodeFaultSchedule_toJson_iff {schedule result : SeededFaultSchedule}
    (inverts : runtime.Inverts schedule.payload.sortKeys) :
    decodeFaultSchedule runtime (runtime.text schedule.payload.sortKeys) = .ok result ↔
      (∀ rule ∈ schedule.rules, Concrete rule.val) ∧ result = schedule := by
  rw [decodeFaultSchedule, loads_text inverts, except_ok_bind, SeededFaultSchedule.payload,
    scheduleFields_payload (by decide) (by decide), except_ok_bind]
  dsimp only
  rw [List.map_map, bind_eq_ok]
  rw [show (Json.sortKeys ∘ encodeRule) = fun rule => (encodeRule rule).sortKeys from rfl]
  constructor
  · rintro ⟨rules, read, made⟩
    obtain ⟨all, rfl⟩ := (mapM_decodeRule_iff _ _).mp read
    cases made
    exact ⟨all, rfl⟩
  · rintro ⟨all, rfl⟩
    exact ⟨_, (mapM_decodeRule_iff _ _).mpr ⟨all, rfl⟩, rfl⟩

/-! ## Equality -/

/-- A unique id equals itself unless it is a `NaN` and fields are compared one by one. -/
theorem sameField_self_iff {message : String} {ids : List Json}
    (unique : uniqueIds runtime message ids = .ok ()) {id : Json} (member : id ∈ ids) :
    SameField runtime id id ↔ (runtime.comparesTuples = false → id.isNan = false) := by
  obtain ⟨same, counted, _⟩ := bind_eq_ok.mp unique
  cases returned : Json.allDistinct runtime.integral ids with
  | error error =>
      rw [returned] at counted
      cases counted
  | ok _ =>
      obtain ⟨_, hashed⟩ := Json.hashable_of_allDistinct returned member
      rw [SameField, Json.equals_self hashed]
      cases runtime.comparesTuples <;> cases id.isNan <;> simp

theorem comparable_append (ids more : List Json) :
    Comparable runtime (ids ++ more) ↔ Comparable runtime ids ∧ Comparable runtime more := by
  simp only [Comparable, List.forall_mem_append, imp_and]

/-- A schedule equals itself exactly when its ids can be compared. -/
theorem SeededMultiPaxosActionSchedule.equals_self_iff
    (schedule : SeededMultiPaxosActionSchedule runtime) :
    schedule.Equals schedule ↔ Comparable runtime (schedule.actions.map (·.actionId)) := by
  have each {action : MultiPaxosAction} (member : action ∈ schedule.actions) :=
    sameField_self_iff schedule.distinct (List.mem_map_of_mem member)
  rw [SeededMultiPaxosActionSchedule.Equals, List.forall₂_same]
  constructor
  · rintro ⟨_, same⟩ fields id member
    obtain ⟨action, listed, rfl⟩ := List.mem_map.mp member
    exact (each listed).mp (same action listed).1 fields
  · exact fun comparable => ⟨rfl, fun action member =>
      ⟨(each member).mpr fun fields => comparable fields _ (List.mem_map_of_mem member),
        rfl, rfl, rfl⟩⟩

theorem SeededLifecycleSchedule.equals_self_iff (schedule : SeededLifecycleSchedule runtime) :
    schedule.Equals schedule ↔ Comparable runtime (schedule.actions.map (·.actionId)) := by
  have each {action : NodeLifecycleAction} (member : action ∈ schedule.actions) :=
    sameField_self_iff schedule.distinct (List.mem_map_of_mem member)
  rw [SeededLifecycleSchedule.Equals, List.forall₂_same]
  constructor
  · rintro ⟨_, same⟩ fields id member
    obtain ⟨action, listed, rfl⟩ := List.mem_map.mp member
    exact (each listed).mp (same action listed).1 fields
  · exact fun comparable => ⟨rfl, fun action member =>
      ⟨(each member).mpr fun fields => comparable fields _ (List.mem_map_of_mem member),
        rfl, rfl, rfl⟩⟩

end Schedules

end Distlab.MultiPaxos.Campaign
