import Distlab.Foundations.JsonText
import Distlab.MultiPaxos.JournalCheckpoint
import Distlab.Scenarios.Schedules

/-!
# Codecs of campaign schedules

The action, fault and lifecycle schedules of a Multi-Paxos campaign are written as
canonical JSON and read with checks of every field. Nothing checks that an action id or
a node id is a string: an id is any value that is not falsy, and the constructor of a
schedule hashes the ids. A fault schedule is read strictly: source, destination and
ordinal of a rule have to be given.
-/

set_option autoImplicit false

namespace Distlab.MultiPaxos.Campaign

open Foundations Scenarios

/-! ## Errors -/

/-- What a codec raises. -/
inductive CodecError where
  /-- `ValueError` with its text. -/
  | value (message : String)
  /-- What an access to a value raises. -/
  | access (error : Json.AccessError)
  /-- What reading a text raises. -/
  | load (error : LoadError)
  /-- What writing a value raises. -/
  | dump (error : DumpError)
  deriving DecidableEq

/-- A computation of a codec. -/
abbrev Codec (α : Type) := Except CodecError α

namespace CodecError

/-- `isinstance(error, ValueError)`. -/
def IsValueError : CodecError → Bool
  | .value _ | .load .decode => true
  | .access _ | .load .recursion | .dump .recursion => false

/-- `except (KeyError, TypeError, ValueError)`. -/
def caught : CodecError → Bool
  | .access (.key _) | .access .type => true
  | error => error.IsValueError

/-- `except (KeyError, ValueError)`. -/
def caughtKey : CodecError → Bool
  | .access (.key _) => true
  | error => error.IsValueError

end CodecError

/-- `raise ValueError(message) from exc` for the errors of an `except` clause. -/
def reraised {α : Type} (clause : CodecError → Bool) (message : String) (result : Codec α) :
    Codec α :=
  match result with
  | .ok a => .ok a
  | .error error => if clause error then .error (.value message) else .error error

/-! ## Fields -/

/-- An access to a value. -/
def accessed {α : Type} (result : Except Json.AccessError α) : Codec α := result.mapError .access

/-- `value[key]`. -/
def field (value : Json) (key : String) : Codec Json := accessed (value.item key)

/-- `value.get(key)`. -/
def optionalField (value : Json) (key : String) : Codec Json := accessed (value.get key)

/-- An integer that is not a boolean. -/
def integer (message : String) : Json → Codec ℤ
  | .int value => .ok value
  | _ => .error (.value message)

/-- An integer from a bound on. -/
def integerFrom (bound : ℤ) (message below : String) (value : Json) : Codec ℕ := do
  let number ← integer message value
  if number < bound then .error (.value below) else return number.toNat

/-- A list. -/
def listOf (message : String) : Json → Codec (List Json)
  | .array items => .ok items
  | _ => .error (.value message)

/-- A dictionary. -/
def objectOf (message : String) (value : Json) : Codec Unit :=
  if value.isObject then .ok () else .error (.value message)

/-- A string. -/
def stringOf (message : String) : Json → Codec String
  | .string value => .ok value
  | _ => .error (.value message)

/-- `None`, or what a check returns. -/
def nullable {α : Type} (check : Json → Codec α) : Json → Codec (Option α)
  | .null => .ok none
  | value => some <$> check value

/-- `None`, or a value as it is written. -/
def written {α : Type} (write : α → Json) : Option α → Json
  | none => .null
  | some a => write a

/-- The member of an enumeration with a value. -/
def memberOf {α : Type} (name : String) (members : List α) (valueOf : α → String) (raw : Json) :
    Codec α :=
  match raw with
  | .string value =>
      match members.find? fun member => valueOf member = value with
      | some member => .ok member
      | none => .error (.value ("not a valid " ++ name))
  | _ => .error (.value ("not a valid " ++ name))

/-- The constructor's check that ids are unique. -/
def uniqueIds (runtime : JsonRuntime) (message : String) (ids : List Json) : Codec Unit := do
  if ← accessed (Json.allDistinct runtime.integral ids) then return ()
  else .error (.value message)

/-! ## Actions -/

/-- `MultiPaxosActionKind`. -/
inductive MultiPaxosActionKind where
  | prepare
  | propose
  deriving DecidableEq

def MultiPaxosActionKind.value : MultiPaxosActionKind → String
  | .prepare => "prepare"
  | .propose => "propose"

/-- What an action does, by its kind. -/
inductive ActionOperation where
  | prepare (roundNumber : Option ℕ)
  | propose (slot : ℕ) (value : String)
  deriving DecidableEq

namespace ActionOperation

def kind : ActionOperation → MultiPaxosActionKind
  | .prepare _ => .prepare
  | .propose .. => .propose

def roundNumber : ActionOperation → Option ℕ
  | .prepare roundNumber => roundNumber
  | .propose .. => none

def slot : ActionOperation → Option ℕ
  | .prepare _ => none
  | .propose slot _ => some slot

def value : ActionOperation → Option String
  | .prepare _ => none
  | .propose _ value => some value

/-- A round number and a slot are positive. -/
def Positive (operation : ActionOperation) : Prop :=
  operation.roundNumber ≠ some 0 ∧ operation.slot ≠ some 0

instance (operation : ActionOperation) : Decidable operation.Positive :=
  inferInstanceAs (Decidable (_ ∧ _))

end ActionOperation

/-- `MultiPaxosAction`. -/
structure MultiPaxosAction where
  actionId : Json
  nodeId : Json
  eventsAfter : ℕ
  operation : ActionOperation
  named : actionId.isFalsy = false
  placed : nodeId.isFalsy = false
  positive : operation.Positive

/-- The checks of `round_number`, `slot` and `value`. -/
def makeOperation (kind : MultiPaxosActionKind) (roundNumber slot value : Json) :
    Codec { operation : ActionOperation // operation.Positive } :=
  match kind with
  | .prepare =>
      match slot, value with
      | .null, .null => do
          let roundNumber ← nullable (integerFrom 1 "round_number must be an integer or None"
            "round_number must be positive when specified") roundNumber
          if positive : (ActionOperation.prepare roundNumber).Positive then
            return ⟨.prepare roundNumber, positive⟩
          else .error (.value "round_number must be positive when specified")
      | _, _ => .error (.value "prepare action cannot include slot/value")
  | .propose =>
      match roundNumber with
      | .null => do
          let slot ← integerFrom 1 "propose action slot must be a positive integer"
            "propose action slot must be a positive integer" slot
          let value ← stringOf "propose action value must be a string" value
          if positive : (ActionOperation.propose slot value).Positive then
            return ⟨.propose slot value, positive⟩
          else .error (.value "propose action slot must be a positive integer")
      | _ => .error (.value "propose action cannot include round_number")

/-- `MultiPaxosAction(...)`. -/
def makeAction (actionId : Json) (kind : MultiPaxosActionKind)
    (nodeId eventsAfter roundNumber slot value : Json) : Codec MultiPaxosAction :=
  if named : actionId.isFalsy = false then
    if placed : nodeId.isFalsy = false then do
      let eventsAfter ← integerFrom 0 "events_after must be an integer"
        "events_after must be non-negative" eventsAfter
      let operation ← makeOperation kind roundNumber slot value
      return ⟨actionId, nodeId, eventsAfter, operation.val, named, placed, operation.property⟩
    else .error (.value "node_id must be non-empty")
  else .error (.value "action_id must be non-empty")

/-- An action as it is written. -/
def encodeAction (action : MultiPaxosAction) : Json :=
  .object [("action_id", action.actionId), ("kind", .string action.operation.kind.value),
    ("node_id", action.nodeId), ("events_after", .int action.eventsAfter),
    ("round_number", written (fun number : ℕ => .int number) action.operation.roundNumber),
    ("slot", written (fun number : ℕ => .int number) action.operation.slot),
    ("value", written .string action.operation.value)]

/-- An action as it is read. -/
def decodeAction (item : Json) : Codec MultiPaxosAction := do
  objectOf "each Multi-Paxos action must be an object" item
  reraised CodecError.caught "invalid Multi-Paxos action" do
    let actionId ← field item "action_id"
    let kind ← memberOf "MultiPaxosActionKind" [.prepare, .propose] MultiPaxosActionKind.value
      (← field item "kind")
    let nodeId ← field item "node_id"
    let eventsAfter ← field item "events_after"
    let roundNumber ← optionalField item "round_number"
    let slot ← optionalField item "slot"
    let value ← optionalField item "value"
    makeAction actionId kind nodeId eventsAfter roundNumber slot value

/-- `SeededMultiPaxosActionSchedule`. -/
structure SeededMultiPaxosActionSchedule (runtime : JsonRuntime) where
  seed : ℤ
  actions : List MultiPaxosAction
  distinct : uniqueIds runtime "Multi-Paxos action ids must be unique"
    (actions.map (·.actionId)) = .ok ()

/-- The payload of a schedule: its version, its seed and its entries. -/
def schedulePayload (seed : ℤ) (name : String) (entries : List Json) : Json :=
  .object [("version", .int 1), ("seed", .int seed), (name, .array entries)]

/-- The seed and the entries of a schedule. -/
def scheduleFields (runtime : JsonRuntime) (name unsupported seeded entries : String)
    (raw : Json) : Codec (ℤ × List Json) := do
  objectOf unsupported raw
  if Json.equalsInt runtime.integral (← optionalField raw "version") 1 then
    let seed ← optionalField raw "seed"
    let items ← optionalField raw name
    let seed ← integer seeded seed
    let items ← listOf entries items
    return (seed, items)
  else .error (.value unsupported)

section Runtime

variable (runtime : JsonRuntime)

/-- `json.loads`. -/
def loads (encoded : String) : Codec Json := (runtime.loads encoded).mapError .load

/-- `canonical_json`. -/
def canonical (value : Json) : Codec String :=
  (canonicalJson runtime.toJsonLibrary value).mapError .dump

/-- What `SeededMultiPaxosActionSchedule.to_json` writes. -/
def SeededMultiPaxosActionSchedule.payload {runtime : JsonRuntime}
    (schedule : SeededMultiPaxosActionSchedule runtime) : Json :=
  schedulePayload schedule.seed "actions" (schedule.actions.map encodeAction)

/-- `SeededMultiPaxosActionSchedule.to_json`. -/
def SeededMultiPaxosActionSchedule.toJson (schedule : SeededMultiPaxosActionSchedule runtime) :
    Codec String :=
  canonical runtime schedule.payload

/-- `SeededMultiPaxosActionSchedule(...)`. -/
def makeActionSchedule (seed : ℤ) (actions : List MultiPaxosAction) :
    Codec (SeededMultiPaxosActionSchedule runtime) :=
  match distinct : uniqueIds runtime "Multi-Paxos action ids must be unique"
      (actions.map (·.actionId)) with
  | .ok _ => .ok ⟨seed, actions, distinct⟩
  | .error error => .error error

/-- `SeededMultiPaxosActionSchedule.from_json`. -/
def decodeActionSchedule (encoded : String) : Codec (SeededMultiPaxosActionSchedule runtime) := do
  let (seed, items) ← scheduleFields runtime "actions"
    "unsupported seeded Multi-Paxos action schedule format" "seed must be an integer"
    "actions must be a list"
    (← loads runtime encoded)
  let actions ← items.mapM decodeAction
  makeActionSchedule runtime seed actions

end Runtime

/-! ## Faults -/

def faultActionValue : FaultAction → String
  | .deliver => "deliver"
  | .drop => "drop"
  | .delay => "delay"
  | .duplicate => "duplicate"

/-- The checks of a `FaultRule`. -/
def Admitted (rule : FaultRule) : Prop := rule.ordinal ≠ some 0 ∧ rule.payloadType ≠ some ""

instance (rule : FaultRule) : Decidable (Admitted rule) := inferInstanceAs (Decidable (_ ∧ _))

/-- A rule that passed the checks of its constructor. -/
abbrev AdmittedRule := { rule : FaultRule // Admitted rule }

/-- A rule as it is written. -/
def encodeRule (rule : AdmittedRule) : Json :=
  .object [("action", .string (faultActionValue rule.val.action)),
    ("src", written .string rule.val.src), ("dst", written .string rule.val.dst),
    ("ordinal", written (fun number : ℕ => .int number) rule.val.ordinal),
    ("payload_type", written .string rule.val.payloadType),
    ("extra_delay", .int rule.val.extraDelay)]

/-- `FaultRule(...)`, with its fields in their types. -/
def makeRule (action : FaultAction) (src dst : Option String) (ordinal : Option ℤ)
    (payloadType : Option String) (extraDelay : ℤ) : Codec AdmittedRule :=
  if extraDelay < 0 then .error (.value "extra_delay must be non-negative")
  else if (ordinal.any fun number => decide (number ≤ 0)) then
    .error (.value "ordinal must be positive when specified")
  else
    let rule : FaultRule := ⟨action, src, dst, ordinal.map Int.toNat, payloadType, extraDelay.toNat⟩
    if admitted : Admitted rule then .ok ⟨rule, admitted⟩
    else .error (.value "payload_type must be non-empty when specified")

/-- The fields of a rule before their checks. -/
structure RawRule where
  action : FaultAction
  src : Json
  dst : Json
  ordinal : Json
  payloadType : Json
  extraDelay : Json

/-- The fields of a rule of an artifact, where `payload_type` may be missing or not. -/
def rawRule (payloadType : Json → Codec Json) (item : Json) : Codec RawRule := do
  let action ← memberOf "FaultAction" [.deliver, .drop, .delay, .duplicate] faultActionValue
    (← field item "action")
  let src ← field item "src"
  let dst ← field item "dst"
  let ordinal ← field item "ordinal"
  let payloadType ← payloadType item
  let extraDelay ← field item "extra_delay"
  return ⟨action, src, dst, ordinal, payloadType, extraDelay⟩

/-- A rule as `SeededFaultSchedule.from_json` reads it. -/
def decodeRule (item : Json) : Codec AdmittedRule := do
  objectOf "each rule must be an object" item
  let raw ← reraised CodecError.caughtKey "invalid fault rule"
    (rawRule (fun item => optionalField item "payload_type") item)
  let src ← stringOf "fault rule endpoints must be strings" raw.src
  let dst ← stringOf "fault rule endpoints must be strings" raw.dst
  let ordinal ← integer "fault rule ordinal must be an integer" raw.ordinal
  let payloadType ← nullable (stringOf "fault rule payload_type must be a string or null")
    raw.payloadType
  let extraDelay ← integer "fault rule extra_delay must be an integer" raw.extraDelay
  makeRule raw.action (some src) (some dst) (some ordinal) payloadType extraDelay

/-- `SeededFaultSchedule`. -/
structure SeededFaultSchedule where
  seed : ℤ
  rules : List AdmittedRule

/-- What `SeededFaultSchedule.to_json` writes. -/
def SeededFaultSchedule.payload (schedule : SeededFaultSchedule) : Json :=
  schedulePayload schedule.seed "rules" (schedule.rules.map encodeRule)

section Runtime

variable (runtime : JsonRuntime)

/-- `SeededFaultSchedule.to_json`. -/
def SeededFaultSchedule.toJson (schedule : SeededFaultSchedule) : Codec String :=
  canonical runtime schedule.payload

/-- `SeededFaultSchedule.from_json`. -/
def decodeFaultSchedule (encoded : String) : Codec SeededFaultSchedule := do
  let (seed, items) ← scheduleFields runtime "rules" "unsupported seeded fault schedule format"
    "seed must be an integer" "rules must be a list" (← loads runtime encoded)
  let rules ← items.mapM decodeRule
  return ⟨seed, rules⟩

end Runtime

/-! ## Lifecycle -/

def lifecycleKindValue : NodeLifecycleKind → String
  | .crash => "crash"
  | .restart => "restart"

/-- `NodeLifecycleAction`. -/
structure NodeLifecycleAction where
  actionId : Json
  nodeId : Json
  kind : NodeLifecycleKind
  beforeActionIndex : ℕ
  named : actionId.isFalsy = false
  placed : nodeId.isFalsy = false

/-- `NodeLifecycleAction(...)`. -/
def makeLifecycleAction (actionId nodeId : Json) (kind : NodeLifecycleKind)
    (beforeActionIndex : Json) : Codec NodeLifecycleAction :=
  if named : actionId.isFalsy = false then
    if placed : nodeId.isFalsy = false then do
      let before ← integerFrom 0 "before_action_index must be a non-negative integer"
        "before_action_index must be a non-negative integer" beforeActionIndex
      return ⟨actionId, nodeId, kind, before, named, placed⟩
    else .error (.value "node_id must be non-empty")
  else .error (.value "action_id must be non-empty")

/-- A lifecycle action as it is written. -/
def encodeLifecycleAction (action : NodeLifecycleAction) : Json :=
  .object [("action_id", action.actionId), ("node_id", action.nodeId),
    ("kind", .string (lifecycleKindValue action.kind)),
    ("before_action_index", .int action.beforeActionIndex)]

/-- A lifecycle action as it is read. -/
def decodeLifecycleAction (item : Json) : Codec NodeLifecycleAction := do
  objectOf "each lifecycle action must be an object" item
  reraised CodecError.caught "invalid lifecycle action" do
    let actionId ← field item "action_id"
    let nodeId ← field item "node_id"
    let kind ← memberOf "NodeLifecycleKind" [.crash, .restart] lifecycleKindValue
      (← field item "kind")
    let before ← field item "before_action_index"
    makeLifecycleAction actionId nodeId kind before

/-- `boundaries == sorted(boundaries)`. -/
def BoundaryOrdered (actions : List NodeLifecycleAction) : Prop :=
  (actions.map (·.beforeActionIndex)).Pairwise (· ≤ ·)

instance (actions : List NodeLifecycleAction) : Decidable (BoundaryOrdered actions) :=
  inferInstanceAs (Decidable (List.Pairwise _ _))

/-- `SeededLifecycleSchedule`. -/
structure SeededLifecycleSchedule (runtime : JsonRuntime) where
  seed : ℤ
  actions : List NodeLifecycleAction
  distinct : uniqueIds runtime "lifecycle action ids must be unique"
    (actions.map (·.actionId)) = .ok ()
  ordered : BoundaryOrdered actions

section Runtime

variable (runtime : JsonRuntime)

/-- `SeededLifecycleSchedule(...)`. -/
def makeLifecycleSchedule (seed : ℤ) (actions : List NodeLifecycleAction) :
    Codec (SeededLifecycleSchedule runtime) :=
  match distinct : uniqueIds runtime "lifecycle action ids must be unique"
      (actions.map (·.actionId)) with
  | .error error => .error error
  | .ok _ =>
      if ordered : BoundaryOrdered actions then .ok ⟨seed, actions, distinct, ordered⟩
      else .error (.value "lifecycle actions must be ordered by workload boundary")

/-- `SeededLifecycleSchedule.empty`. -/
def SeededLifecycleSchedule.empty (seed : ℤ) : SeededLifecycleSchedule runtime :=
  ⟨seed, [], rfl, List.Pairwise.nil⟩

/-- What `SeededLifecycleSchedule.to_json` writes. -/
def SeededLifecycleSchedule.payload {runtime : JsonRuntime}
    (schedule : SeededLifecycleSchedule runtime) : Json :=
  schedulePayload schedule.seed "actions" (schedule.actions.map encodeLifecycleAction)

/-- `SeededLifecycleSchedule.to_json`. -/
def SeededLifecycleSchedule.toJson (schedule : SeededLifecycleSchedule runtime) :
    Codec String :=
  canonical runtime schedule.payload

/-- `SeededLifecycleSchedule.from_json`. -/
def decodeLifecycleSchedule (encoded : String) : Codec (SeededLifecycleSchedule runtime) := do
  let (seed, items) ← scheduleFields runtime "actions"
    "unsupported seeded lifecycle schedule format" "seed must be an integer"
    "actions must be a list"
    (← loads runtime encoded)
  let actions ← items.mapM decodeLifecycleAction
  makeLifecycleSchedule runtime seed actions

end Runtime

/-! ## Equality -/

/-- The equality of two ids that were read, as fields of dataclasses. Every `NaN` that was read
is one object, and tuples find identical items equal. -/
def SameField (runtime : JsonRuntime) (first second : Json) : Prop :=
  Json.equals runtime.integral first second = true ∨
    runtime.comparesTuples = true ∧ first.isNan = true ∧ second.isNan = true

/-- `first == second`, for actions. -/
def MultiPaxosAction.Equals (runtime : JsonRuntime) (first second : MultiPaxosAction) : Prop :=
  SameField runtime first.actionId second.actionId ∧ first.nodeId = second.nodeId ∧
    first.eventsAfter = second.eventsAfter ∧ first.operation = second.operation

/-- `first == second`, for lifecycle actions. -/
def NodeLifecycleAction.Equals (runtime : JsonRuntime) (first second : NodeLifecycleAction) :
    Prop :=
  SameField runtime first.actionId second.actionId ∧ first.nodeId = second.nodeId ∧
    first.kind = second.kind ∧ first.beforeActionIndex = second.beforeActionIndex

/-- `first == second`, for action schedules. -/
def SeededMultiPaxosActionSchedule.Equals {runtime : JsonRuntime}
    (first second : SeededMultiPaxosActionSchedule runtime) : Prop :=
  first.seed = second.seed ∧
    List.Forall₂ (MultiPaxosAction.Equals runtime) first.actions second.actions

/-- `first == second`, for lifecycle schedules. -/
def SeededLifecycleSchedule.Equals {runtime : JsonRuntime}
    (first second : SeededLifecycleSchedule runtime) : Prop :=
  first.seed = second.seed ∧
    List.Forall₂ (NodeLifecycleAction.Equals runtime) first.actions second.actions

/-- No id is `NaN`, where dataclasses are compared field by field. -/
def Comparable (runtime : JsonRuntime) (ids : List Json) : Prop :=
  runtime.comparesTuples = false → ∀ id ∈ ids, id.isNan = false

end Distlab.MultiPaxos.Campaign
