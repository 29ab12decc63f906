import Distlab.Foundations.Raising
import Distlab.MultiPaxos.ApplicationRoundTrip

/-!
# Texts of application artifacts

Every text is refused with a `ValueError` or read as an artifact of a runner and a
report, which is read again; but for two kinds of texts. A text that is nested too deep
for the library raises its `RecursionError`, where it is read or where parts of it are
written, and nothing catches it. And an action id that is `NaN` is accepted, though it
equals nothing.
-/

set_option autoImplicit false

namespace Distlab.MultiPaxos.Campaign

open Foundations Scenarios

/-! ## What reading raises -/

/-- Only errors that the decoder catches. -/
abbrev Caught {α : Type} (result : Codec α) : Prop :=
  Raises (fun error => error.caught = true) result

theorem caught_value {α : Type} (message : String) : Caught (.error (.value message) : Codec α) :=
  raises_error rfl

theorem caught_field (value : Json) (key : String) : Caught (field value key) := by
  unfold field Json.item
  split
  · split
    · exact raises_ok _
    · exact raises_error rfl
  · exact raises_error rfl

theorem caught_optionalField {value : Json} (object : value.isObject = true) (key : String) :
    Caught (optionalField value key) := by
  cases value with
  | object fields => exact raises_ok _
  | _ => cases object

theorem caught_integer (message : String) (value : Json) : Caught (integer message value) := by
  unfold integer
  split
  · exact raises_ok _
  · exact caught_value _

theorem caught_integerFrom (bound : ℤ) (message below : String) (value : Json) :
    Caught (integerFrom bound message below value) :=
  (caught_integer message value).bind fun _ _ =>
    .ite (fun _ => caught_value _) fun _ => raises_ok _

theorem caught_listOf (message : String) (value : Json) : Caught (listOf message value) := by
  unfold listOf
  split
  · exact raises_ok _
  · exact caught_value _

theorem caught_objectOf (message : String) (value : Json) : Caught (objectOf message value) :=
  .ite (fun _ => raises_ok _) fun _ => caught_value _

theorem isObject_of_objectOf {message : String} {value : Json} {u : Unit}
    (passed : objectOf message value = .ok u) : value.isObject = true := by
  by_contra other
  rw [objectOf, if_neg other] at passed
  cases passed

theorem caught_stringOf (message : String) (value : Json) : Caught (stringOf message value) := by
  unfold stringOf
  split
  · exact raises_ok _
  · exact caught_value _

theorem caught_nullable {α : Type} {check : Json → Codec α} (caught : ∀ value, Caught (check value))
    (value : Json) : Caught (nullable check value) := by
  unfold nullable
  split
  · exact raises_ok _
  · exact (caught value).map _

theorem caught_memberOf {α : Type} (name : String) (members : List α) (valueOf : α → String)
    (value : Json) : Caught (memberOf name members valueOf value) := by
  unfold memberOf
  split
  · split
    · exact raises_ok _
    · exact caught_value _
  · exact caught_value _

theorem caught_reraised {α : Type} {clause : CodecError → Bool} {message : String}
    {result : Codec α} (caught : Caught result) : Caught (reraised clause message result) := by
  cases result with
  | ok a => exact raises_ok a
  | error error => exact .ite (fun _ => caught_value _) fun _ => raises_error (caught error rfl)

/-- Only an unhashable value is refused as a key. -/
theorem raises_key (integral : String → Option ℤ) (value : Json) :
    Raises (fun error => error = .type) (Json.key integral value) := by
  cases value with
  | array items => exact raises_error rfl
  | object fields => exact raises_error rfl
  | float literal zero =>
      rw [Json.key]
      split <;> exact raises_ok _
  | _ => exact raises_ok _

theorem caught_keys (integral : String → Option ℤ) (values : List Json) :
    Caught (accessed (values.mapM (Json.key integral))) := by
  cases hashed : values.mapM (Json.key integral) with
  | ok keys => exact raises_ok _
  | error error =>
      obtain rfl := raises_mapM (raises_key integral) values error hashed
      exact raises_error rfl

theorem caught_makeOperation (kind : MultiPaxosActionKind) (roundNumber slot value : Json) :
    Caught (makeOperation kind roundNumber slot value) := by
  unfold makeOperation
  split
  · split
    · exact (caught_nullable (caught_integerFrom _ _ _) _).bind fun _ _ =>
        .dite (fun _ => raises_ok _) fun _ => caught_value _
    · exact caught_value _
  · split
    · exact (caught_integerFrom _ _ _ _).bind fun _ _ => (caught_stringOf _ _).bind fun _ _ =>
        .dite (fun _ => raises_ok _) fun _ => caught_value _
    · exact caught_value _

theorem caught_makeAction (actionId : Json) (kind : MultiPaxosActionKind)
    (nodeId eventsAfter roundNumber slot value : Json) :
    Caught (makeAction actionId kind nodeId eventsAfter roundNumber slot value) :=
  .dite (fun _ => .dite (fun _ => (caught_integerFrom _ _ _ _).bind fun _ _ =>
    (caught_makeOperation _ _ _ _).bind fun _ _ => raises_ok _) fun _ => caught_value _)
    fun _ => caught_value _

theorem caught_decodeAction (item : Json) : Caught (decodeAction item) := by
  refine (caught_objectOf _ item).bind fun _ passed => caught_reraised ?_
  have object := isObject_of_objectOf passed
  exact (caught_field _ _).bind fun _ _ => (caught_field _ _).bind fun _ _ =>
    (caught_memberOf _ _ _ _).bind fun _ _ => (caught_field _ _).bind fun _ _ =>
    (caught_field _ _).bind fun _ _ => (caught_optionalField object _).bind fun _ _ =>
    (caught_optionalField object _).bind fun _ _ => (caught_optionalField object _).bind fun _ _ =>
    caught_makeAction _ _ _ _ _ _ _

theorem caught_makeLifecycleAction (actionId nodeId : Json) (kind : NodeLifecycleKind)
    (before : Json) : Caught (makeLifecycleAction actionId nodeId kind before) :=
  .dite (fun _ => .dite (fun _ => (caught_integerFrom _ _ _ _).bind fun _ _ => raises_ok _)
    fun _ => caught_value _) fun _ => caught_value _

theorem caught_decodeLifecycleAction (item : Json) : Caught (decodeLifecycleAction item) :=
  (caught_objectOf _ item).bind fun _ _ => caught_reraised <|
    (caught_field _ _).bind fun _ _ => (caught_field _ _).bind fun _ _ =>
    (caught_field _ _).bind fun _ _ => (caught_memberOf _ _ _ _).bind fun _ _ =>
    (caught_field _ _).bind fun _ _ => caught_makeLifecycleAction _ _ _ _

theorem caught_makeRule (action : FaultAction) (src dst : Option String) (ordinal : Option ℤ)
    (payloadType : Option String) (extraDelay : ℤ) :
    Caught (makeRule action src dst ordinal payloadType extraDelay) :=
  .ite (fun _ => caught_value _) fun _ => .ite (fun _ => caught_value _) fun _ =>
    .dite (fun _ => raises_ok _) fun _ => caught_value _

theorem caught_decodeApplicationRule (item : Json) : Caught (decodeApplicationRule item) := by
  refine (caught_objectOf _ item).bind fun _ _ => ?_
  have raw : Caught (rawRule (fun item => field item "payload_type") item) :=
    (caught_field _ _).bind fun _ _ => (caught_memberOf _ _ _ _).bind fun _ _ =>
    (caught_field _ _).bind fun _ _ => (caught_field _ _).bind fun _ _ =>
    (caught_field _ _).bind fun _ _ => (caught_field _ _).bind fun _ _ =>
    (caught_field _ _).bind fun _ _ => raises_ok _
  have selected (value : Json) : Caught (selector value) :=
    caught_nullable (caught_stringOf _) value
  exact (caught_reraised raw).bind fun _ _ => (selected _).bind fun _ _ =>
    (selected _).bind fun _ _ => (selected _).bind fun _ _ =>
      .ite (fun _ => caught_value _) fun _ =>
    (caught_nullable (caught_integerFrom _ _ _) _).bind fun _ _ =>
    (caught_integerFrom _ _ _ _).bind fun _ _ => caught_makeRule _ _ _ _ _ _

theorem caught_decodeLimits (value : Json) : Caught (decodeLimits value) := by
  unfold decodeLimits
  split
  · exact .ite (fun _ => (caught_field _ _).bind fun _ _ => (caught_integerFrom _ _ _ _).bind
      fun _ _ => (caught_field _ _).bind fun _ _ => (caught_integerFrom _ _ _ _).bind fun _ _ =>
      (caught_field _ _).bind fun _ _ => (caught_integerFrom _ _ _ _).bind fun _ _ =>
      (caught_field _ _).bind fun _ _ => (caught_integerFrom _ _ _ _).bind fun _ _ =>
      .dite (fun _ => raises_ok _) fun _ => caught_value _) fun _ => caught_value _
  · exact caught_value _

theorem caught_stringList (message : String) (value : Json) : Caught (stringList message value) :=
  (caught_listOf message value).bind fun _ _ => raises_mapM (caught_stringOf message) _

theorem caught_keyedOperation (operation : ClientOperation) : Caught (keyedOperation operation) :=
  .dite (fun _ => raises_ok _) fun _ => caught_value _

theorem caught_applicationOperation (encoded : String) : Caught (applicationOperation encoded) := by
  unfold applicationOperation
  split
  · exact caught_value _
  · refine .ite (fun _ => ?_) fun _ => .ite (fun _ => caught_keyedOperation _) fun _ =>
      .ite (fun _ => caught_keyedOperation _) fun _ => caught_value _
    split
    · exact .ite (fun _ => caught_keyedOperation _) fun _ => caught_keyedOperation _
    · exact caught_value _

theorem caught_applicationRequest (action : MultiPaxosAction) (index : ℕ) :
    Caught (applicationRequest action index) := by
  unfold applicationRequest
  split
  · exact raises_ok _
  · refine (caught_applicationOperation _).bind fun _ _ => ?_
    split
    · exact .dite (fun _ => .dite (fun _ => raises_ok _) fun _ => caught_value _)
        fun _ => caught_value _
    · exact caught_value _
    · exact caught_value _

theorem item_of_field {value part : Json} {key : String} (found : field value key = .ok part) :
    value.item key = .ok part := by
  unfold field at found
  cases listed : value.item key with
  | error error =>
      rw [listed] at found
      cases found
  | ok other =>
      rw [listed] at found
      cases found
      rfl

theorem field_of_item {value part : Json} {key : String} (found : value.item key = .ok part) :
    field value key = .ok part := by
  rw [field, found]
  rfl

theorem get_of_optionalField {value part : Json} {key : String}
    (found : optionalField value key = .ok part) : value.get key = .ok part := by
  unfold optionalField at found
  cases listed : value.get key with
  | error error =>
      rw [listed] at found
      cases found
  | ok other =>
      rw [listed] at found
      cases found
      rfl

section Runtime

variable (runtime : JsonRuntime)

theorem caught_uniqueIds (message : String) (ids : List Json) :
    Caught (uniqueIds runtime message ids) := by
  have counted : Caught (accessed (Json.allDistinct runtime.integral ids)) := by
    have keys := caught_keys runtime.integral ids
    unfold Json.allDistinct
    cases hashed : ids.mapM (Json.key runtime.integral) with
    | ok _ => exact raises_ok _
    | error error =>
        rw [hashed] at keys
        exact raises_error (keys _ rfl)
  exact counted.bind fun _ _ => .ite (fun _ => raises_ok _) fun _ => caught_value _

theorem caught_scheduleFields (name unsupported seeded entries : String) (raw : Json) :
    Caught (scheduleFields runtime name unsupported seeded entries raw) := by
  refine (caught_objectOf _ raw).bind fun _ passed => ?_
  have object := isObject_of_objectOf passed
  exact (caught_optionalField object _).bind fun _ _ => .ite (fun _ =>
    (caught_optionalField object _).bind fun _ _ => (caught_optionalField object _).bind fun _ _ =>
    (caught_integer _ _).bind fun _ _ => (caught_listOf _ _).bind fun _ _ => raises_ok _)
    fun _ => caught_value _

theorem caught_makeActionSchedule (seed : ℤ) (actions : List MultiPaxosAction) :
    Caught (makeActionSchedule runtime seed actions) := by
  unfold makeActionSchedule
  split
  · exact raises_ok _
  next error raised => exact raises_error (caught_uniqueIds runtime _ _ error raised)

theorem caught_makeLifecycleSchedule (seed : ℤ) (actions : List NodeLifecycleAction) :
    Caught (makeLifecycleSchedule runtime seed actions) := by
  unfold makeLifecycleSchedule
  split
  next error raised => exact raises_error (caught_uniqueIds runtime _ _ error raised)
  · exact .dite (fun _ => raises_ok _) fun _ => caught_value _

/-- A schedule is read from a text that the library wrote. -/
theorem caught_decodeActions {raw : Json}
    (inverts : ∀ value, raw.item "actions" = .ok value → runtime.Inverts value.sortKeys) :
    Caught (decodeActions runtime raw) := by
  refine (caught_field _ _).bind fun value found => ?_
  have inverts := inverts value (item_of_field found)
  rw [canonical_eq_ok inverts.1, except_ok_bind, decodeActionSchedule, loads_text inverts,
    except_ok_bind]
  exact (caught_scheduleFields _ _ _ _ _ _).bind fun _ _ =>
    (raises_mapM caught_decodeAction _).bind fun _ _ => caught_makeActionSchedule _ _ _

theorem caught_decodeLifecycle {raw : Json}
    (inverts : ∀ value, raw.item "lifecycle" = .ok value → runtime.Inverts value.sortKeys) :
    Caught (decodeLifecycle runtime raw) := by
  refine (caught_field _ _).bind fun value found => ?_
  have inverts := inverts value (item_of_field found)
  rw [canonical_eq_ok inverts.1, except_ok_bind, decodeLifecycleSchedule, loads_text inverts,
    except_ok_bind]
  exact (caught_scheduleFields _ _ _ _ _ _).bind fun _ _ =>
    (raises_mapM caught_decodeLifecycleAction _).bind fun _ _ => caught_makeLifecycleSchedule _ _ _

theorem caught_decodeApplicationFaults (raw : Json) :
    Caught (decodeApplicationFaults runtime raw) :=
  (caught_scheduleFields _ _ _ _ _ _).bind fun _ _ =>
    (raises_mapM caught_decodeApplicationRule _).bind fun _ _ => raises_ok _

theorem caught_checkNodes (unknown : String) (nodeIds : List String) (names : List Json) :
    Caught (checkNodes runtime unknown nodeIds names) :=
  (caught_keys _ _).bind fun _ _ => .dite (fun _ => raises_ok _) fun _ =>
    .ite (fun _ => raises_error rfl) fun _ => caught_value _

theorem caught_makeScenarioRunner (actions : SeededMultiPaxosActionSchedule runtime)
    (faults : SeededFaultSchedule) (lifecycle : SeededLifecycleSchedule runtime)
    (nodeIds : List String) (budget : Json) :
    Caught (makeScenarioRunner runtime actions faults lifecycle nodeIds budget) :=
  .dite (fun _ => (caught_checkNodes _ _ _ _).bind fun _ _ => .dite (fun _ => .dite (fun _ =>
    (caught_checkNodes _ _ _ _).bind fun _ _ => .dite (fun _ =>
    (caught_integerFrom _ _ _ _).bind fun _ _ => raises_ok _) fun _ => caught_value _)
    fun _ => caught_value _) fun _ => caught_value _) fun _ => caught_value _

theorem caught_boundaryWithin (count : ℕ) (value : Json) : Caught (boundaryWithin count value) :=
  (caught_nullable (caught_integerFrom _ _ _) _).bind fun _ _ =>
    .dite (fun _ => raises_ok _) fun _ => caught_value _

theorem caught_boolean (message : String) (value : Json) : Caught (boolean message value) := by
  unfold boolean
  split
  · exact raises_ok _
  · exact caught_value _

theorem caught_makeApplicationRunner (actions : SeededMultiPaxosActionSchedule runtime)
    (faults : SeededFaultSchedule) (lifecycle : SeededLifecycleSchedule runtime)
    (nodeIds : List String) (budget : Json) (withheld : List String)
    (rounds events boundary checkpoint : Json) (limits : Option CheckpointLimits) :
    Caught (makeApplicationRunner runtime actions faults lifecycle nodeIds budget withheld rounds
      events boundary checkpoint limits) := by
  refine (caught_makeScenarioRunner _ _ _ _ _ _).bind fun _ _ =>
    (caught_integerFrom _ _ _ _).bind fun _ _ => (caught_integerFrom _ _ _ _).bind fun _ _ =>
    (caught_boundaryWithin _ _).bind fun _ _ => (caught_boolean _ _).bind fun _ _ =>
    .dite (fun _ => .dite (fun _ => .dite (fun _ => ?_) fun _ => caught_value _)
      fun _ => caught_value _) fun _ => caught_value _
  split
  next error raised =>
    exact raises_error (raises_mapM (fun entry => caught_applicationRequest _ _) _ error raised)
  · exact .dite (fun _ => raises_ok _) fun _ => caught_value _

/-! ## What reading writes -/

/-- The parts of a value that `from_json` writes before it reads them, and the report that it
keeps as a text. -/
inductive Written (raw : Json) : Json → Prop
  /-- The actions come first. -/
  | actions {value : Json} (found : raw.item "actions" = .ok value) : Written raw value
  /-- The lifecycle comes after the actions and the faults. -/
  | lifecycle {value : Json} {actions : SeededMultiPaxosActionSchedule runtime}
      {faults : SeededFaultSchedule} (first : decodeActions runtime raw = .ok actions)
      (second : (field raw "faults" >>= decodeApplicationFaults runtime) = .ok faults)
      (found : raw.item "lifecycle" = .ok value) : Written raw value
  /-- The report comes last. -/
  | report {value version : Json} {runner : MultiPaxosApplicationScenarioRunner runtime}
      (made : decodeApplicationRunner runtime raw = .ok runner)
      (found : raw.item "report" = .ok value) (atVersion : value.get "version" = .ok version)
      (one : Json.equalsInt runtime.integral version 1 = true) : Written raw value

variable {runtime} {raw : Json}

/-- **What the body raises is caught**, if everything that it writes can be written and the
schedules are read as they were written. -/
theorem caught_decodeApplicationBody
    (written : ∀ value, Written runtime raw value → runtime.Writes value.sortKeys)
    (actions : ∀ value, raw.item "actions" = .ok value → runtime.Reads value.sortKeys)
    (lifecycle : ∀ value, raw.item "lifecycle" = .ok value → runtime.Reads value.sortKeys) :
    Caught (decodeApplicationBody runtime raw) := by
  have schedules : Caught (decodeActions runtime raw) := caught_decodeActions runtime
    fun value found => (written value (.actions found)).inverts (actions value found)
  have runner : Caught (decodeApplicationRunner runtime raw) :=
    schedules.bind fun _ first => (caught_field _ _).bind fun _ found =>
    (caught_decodeApplicationFaults _ _).bind fun _ second =>
    (caught_decodeLifecycle runtime fun value there =>
      (written value (.lifecycle first (by rw [found]; exact second) there)).inverts
        (lifecycle value there)).bind fun _ _ =>
    (caught_field _ _).bind fun _ _ => (caught_field _ _).bind fun _ _ =>
    ((caught_stringList _ _).bind fun _ _ => .ite (fun _ => caught_value _)
      fun _ => raises_ok _).bind fun _ _ =>
    (caught_stringList _ _).bind fun _ _ => (caught_field _ _).bind fun _ _ =>
    (caught_field _ _).bind fun _ _ => (caught_field _ _).bind fun _ _ =>
    (show Caught (optionalLimits _) by
      unfold optionalLimits
      split
      · exact raises_ok _
      · exact (caught_decodeLimits _).map _).bind fun _ _ =>
    caught_makeApplicationRunner _ _ _ _ _ _ _ _ _ _ _ _
  refine runner.bind fun _ made => (caught_field _ _).bind fun value found =>
    (caught_objectOf _ _).bind fun _ passed => ?_
  refine (caught_optionalField (isObject_of_objectOf passed) _).bind fun version there =>
    .ite (fun one => ?_) fun _ => caught_value _
  rw [canonical_eq_ok (written value (.report made (item_of_field found)
    (get_of_optionalField there) one)), except_ok_bind]
  exact raises_ok _

/-- A value that is nested too deep to be written is not caught. -/
theorem decodeApplicationBody_of_deep {value : Json} (written : Written runtime raw value)
    (deep : ¬ runtime.Writes value.sortKeys) :
    decodeApplicationBody runtime raw = .error (.dump .recursion) := by
  have overflow := canonical_of_deep deep
  cases written with
  | actions found =>
      rw [decodeApplicationBody, decodeApplicationRunner, decodeActions, field_of_item found,
        except_ok_bind, overflow]
      rfl
  | lifecycle first second found =>
      obtain ⟨value, there, second⟩ := bind_eq_ok.mp second
      rw [decodeApplicationBody, decodeApplicationRunner, first, except_ok_bind, there,
        except_ok_bind, second, except_ok_bind, decodeLifecycle, field_of_item found,
        except_ok_bind, overflow]
      rfl
  | report made found atVersion one =>
      have object : objectOf "invalid application evidence report" value = .ok () := by
        cases value with
        | object fields => rfl
        | _ => cases atVersion
      rw [decodeApplicationBody, made, except_ok_bind, field_of_item found, except_ok_bind,
        object, except_ok_bind, optionalField, atVersion]
      show (if _ then _ else _) = _
      rw [if_pos one, overflow]
      rfl

end Runtime

end Distlab.MultiPaxos.Campaign
