import Mathlib.Data.Finset.Sort
import Distlab.MultiPaxos.Requests
import Distlab.MultiPaxos.TrialArtifact

/-!
# Artifacts of application campaigns

The runner of an application campaign adds to the runner of a trial which
acknowledgements it withholds, how long it applies decisions, and whether it
reconstructs the cluster at an action, through a checkpoint of the client's journal.
The artifact keeps all of it beside the report of the run; what is in its default state
is not written. Reading decodes the schedules, then calls the constructor of the runner.
-/

set_option autoImplicit false

namespace Distlab.MultiPaxos.Campaign

open Foundations Scenarios

/-! ## Commands -/

/-- `text.partition(":")`, where there is a separator. -/
def partitionColon (text : List Char) : Option (List Char × List Char) :=
  match text.span (· ≠ ':') with
  | (_, []) => none
  | (before, _ :: after) => some (before, after)

theorem KeyedOperation.keyed (operation : KeyedOperation) : operation.val.key ≠ "" :=
  operation.property

/-- A key that is not empty. -/
def keyedOperation (operation : ClientOperation) : Codec KeyedOperation :=
  if keyed : operation.key ≠ "" then .ok ⟨operation, keyed⟩
  else .error (.value "unsupported application command")

/-- `_operation`. -/
def applicationOperation (encoded : String) : Codec KeyedOperation :=
  match partitionColon encoded.toList with
  | none => .error (.value
      "application action must be put:key:value, delete:key, get:key, or append:key:suffix")
  | some (kind, rest) =>
      if String.ofList kind = "put" ∨ String.ofList kind = "append" then
        match partitionColon rest with
        | some (c :: key, value) =>
            if String.ofList kind = "put" then
              keyedOperation (.put (String.ofList (c :: key)) (String.ofList value))
            else keyedOperation (.append (String.ofList (c :: key)) (String.ofList value))
        | _ => .error (.value "put/append requires a nonempty key and a value")
      else if String.ofList kind = "get" then keyedOperation (.get (String.ofList rest))
      else if String.ofList kind = "delete" then keyedOperation (.delete (String.ofList rest))
      else .error (.value "unsupported application command")

/-- The request of an action, as the constructor of the runner makes it. -/
def applicationRequest (action : MultiPaxosAction) (index : ℕ) : Codec (Option MultiPaxosRequest) :=
  match action.operation with
  | .prepare _ => .ok none
  | .propose _ value => do
      let operation ← applicationOperation value
      match action.nodeId, action.actionId with
      | .string clientId, .string operationId =>
          if client : clientId ≠ "" then
            if named : operationId ≠ "" then
              return some ⟨clientId, index, operationId, operation.val, client, named,
                KeyedOperation.keyed operation⟩
            else .error (.value "operation_id must be a non-empty string")
          else .error (.value "client_id must be a non-empty string")
      | .string _, _ => .error (.value "operation_id must be a non-empty string")
      | _, _ => .error (.value "client_id must be a non-empty string")

/-- `enumerate(actions, start=1)`. -/
def applicationRequests (actions : List MultiPaxosAction) :
    Codec (List (Option MultiPaxosRequest)) :=
  (actions.zipIdx 1).mapM fun entry => applicationRequest entry.1 entry.2

/-! ## Runners -/

/-- The ids of the proposals. -/
def proposalIds (actions : List MultiPaxosAction) : List Json :=
  (actions.filter (·.operation.kind = .propose)).map (·.actionId)

/-- `acknowledgement in ids`. -/
def isProposal (actions : List MultiPaxosAction) (acknowledgement : String) : Bool :=
  (proposalIds actions).any fun id => isString acknowledgement id

/-- `MultiPaxosApplicationScenarioRunner`, with what its constructor checks. -/
structure MultiPaxosApplicationScenarioRunner (runtime : JsonRuntime) extends
    MultiPaxosScenarioRunner runtime where
  withheldAcks : Finset String
  applicationRounds : ℕ
  eventsPerRound : ℕ
  reconstructionBoundary : Option ℕ
  journalCheckpoint : Bool
  journalLimits : Option CheckpointLimits
  busy : 0 < eventsPerRound
  within : ∀ boundary ∈ reconstructionBoundary, boundary ≤ actions.actions.length
  limited : journalLimits.isSome → journalCheckpoint = true ∧ reconstructionBoundary.isSome
  checkpointed : journalCheckpoint = true → reconstructionBoundary.isSome
  withheldKnown : ∀ acknowledgement ∈ withheldAcks,
    isProposal actions.actions acknowledgement = true
  requested : ∃ requests, applicationRequests actions.actions = .ok requests

section Runtime

variable (runtime : JsonRuntime)

/-- The nodes that actions name are nodes of the runner. The names are hashed, and the
unknown ones are sorted for the text of the error. -/
def checkNodes (unknown : String) (nodeIds : List String) (names : List Json) :
    Codec { _known : Unit // ∀ name ∈ names, isNode nodeIds name = true } := do
  let _ ← accessed (names.mapM (Json.key runtime.integral))
  if known : ∀ name ∈ names, isNode nodeIds name = true then return ⟨(), known⟩
  else
    let others := names.filter fun name => !isNode nodeIds name
    if (others.any fun name => name matches .string _) &&
        (others.any fun name => !(name matches .string _)) then
      .error (.access .type)
    else .error (.value unknown)

/-- `MultiPaxosScenarioRunner(...)`. -/
def makeScenarioRunner (actions : SeededMultiPaxosActionSchedule runtime)
    (faults : SeededFaultSchedule) (lifecycle : SeededLifecycleSchedule runtime)
    (nodeIds : List String) (finalEventBudget : Json) : Codec (MultiPaxosScenarioRunner runtime) :=
  if shaped : nodeIds ≠ [] ∧ nodeIds.Nodup then do
    let known ← checkNodes runtime "Multi-Paxos action schedule references unknown nodes" nodeIds
      (actions.actions.map (·.nodeId))
    if seeded : actions.seed = faults.seed then
      if lifecycleSeeded : lifecycle.seed = actions.seed then do
        let lifecycleKnown ← checkNodes runtime
          "Multi-Paxos lifecycle schedule references unknown nodes" nodeIds
          (lifecycle.actions.map (·.nodeId))
        if bounded : ∀ action ∈ lifecycle.actions,
            action.beforeActionIndex ≤ actions.actions.length then do
          let budget ← integerFrom 0 "final_event_budget must be an integer"
            "final_event_budget must be non-negative" finalEventBudget
          return {
            actions := actions
            faults := faults
            lifecycle := lifecycle
            nodeIds := nodeIds
            finalEventBudget := budget
            nonempty := shaped.1
            nodup := shaped.2
            known := fun _ member => known.property _ (List.mem_map_of_mem member)
            seeded := seeded
            lifecycleSeeded := lifecycleSeeded
            lifecycleKnown := fun _ member =>
              lifecycleKnown.property _ (List.mem_map_of_mem member)
            bounded := bounded }
        else .error (.value
          "Multi-Paxos lifecycle action references an action boundary out of range")
      else .error (.value "action and lifecycle schedules must use the same seed")
    else .error (.value "action and fault schedules must use the same seed")
  else .error (.value "node_ids must be non-empty and unique")

/-- `type(value) is bool`. -/
def boolean (message : String) : Json → Codec Bool
  | .bool value => .ok value
  | _ => .error (.value message)

/-- The check of `reconstruction_boundary`. -/
def boundaryWithin (count : ℕ) (value : Json) :
    Codec { boundary : Option ℕ // ∀ b ∈ boundary, b ≤ count } := do
  let boundary ← nullable
    (integerFrom 0 "reconstruction_boundary must be an action boundary or None"
    "reconstruction_boundary must be an action boundary or None") value
  if within : ∀ b ∈ boundary, b ≤ count then return ⟨boundary, within⟩
  else .error (.value "reconstruction_boundary must be an action boundary or None")

/-- `MultiPaxosApplicationScenarioRunner(...)`, with what the decoder passes on unchecked as it
was read. -/
def makeApplicationRunner (actions : SeededMultiPaxosActionSchedule runtime)
    (faults : SeededFaultSchedule) (lifecycle : SeededLifecycleSchedule runtime)
    (nodeIds : List String) (finalEventBudget : Json) (withheldAcks : List String)
    (applicationRounds eventsPerRound reconstructionBoundary journalCheckpoint : Json)
    (journalLimits : Option CheckpointLimits) :
    Codec (MultiPaxosApplicationScenarioRunner runtime) := do
  let runner ← makeScenarioRunner runtime actions faults lifecycle nodeIds finalEventBudget
  let rounds ← integerFrom 0 "application_rounds must be non-negative integer"
    "application_rounds must be non-negative integer" applicationRounds
  let events ← integerFrom 1 "events_per_round must be a positive integer"
    "events_per_round must be a positive integer" eventsPerRound
  let boundary ← boundaryWithin runner.actions.actions.length reconstructionBoundary
  let checkpoint ← boolean "journal_checkpoint must be a boolean" journalCheckpoint
  if limited : journalLimits.isSome → checkpoint = true ∧ boundary.val.isSome then
    if checkpointed : checkpoint = true → boundary.val.isSome then
      if withheldKnown : withheldAcks.Nodup ∧
          ∀ acknowledgement ∈ withheldAcks.toFinset,
            isProposal runner.actions.actions acknowledgement = true then
        match requested : applicationRequests runner.actions.actions with
        | .error error => .error error
        | .ok requests =>
            if busy : 0 < events then
              return {
                runner with
                withheldAcks := withheldAcks.toFinset
                applicationRounds := rounds
                eventsPerRound := events
                reconstructionBoundary := boundary.val
                journalCheckpoint := checkpoint
                journalLimits := journalLimits
                busy := busy
                within := boundary.property
                limited := limited
                checkpointed := checkpointed
                withheldKnown := withheldKnown.2
                requested := ⟨requests, requested⟩ }
            else .error (.value "events_per_round must be a positive integer")
      else .error (.value "withheld_acks must be unique proposal action IDs")
    else .error (.value "journal_checkpoint requires a reconstruction_boundary")
  else .error (.value "journal_limits requires active JSON reconstruction")

end Runtime

/-! ## Reports -/

/-- `MultiPaxosApplicationResult`. -/
structure MultiPaxosApplicationResult where
  outcome : MultiPaxosScenarioOutcome
  violation : Option String
  appliedSlots : List (String × List ℕ)
  kv : List (String × List (String × String))
  completed : List (String × Option String)
  pending : List String
  linearizable : Option Bool
  trace : List TraceRecord

/-- What `MultiPaxosApplicationResult.to_json` writes, with the trace that it loads. -/
def MultiPaxosApplicationResult.payload (result : MultiPaxosApplicationResult) (trace : Json) :
    Json :=
  .object [("version", .int 1), ("outcome", .string result.outcome.value),
    ("violation", written .string result.violation),
    ("applied_slots", .array (result.appliedSlots.map fun entry =>
      .array [.string entry.1, .array (entry.2.map fun slot => .int slot)])),
    ("kv", .array (result.kv.map fun entry => .array [.string entry.1,
      .array (entry.2.map fun item => .array [.string item.1, .string item.2])])),
    ("completed", .array (result.completed.map fun entry =>
      .array [.string entry.1, written .string entry.2])),
    ("pending", .array (result.pending.map .string)),
    ("linearizable", written .bool result.linearizable), ("trace", trace)]

/-! ## Faults -/

/-- A selector: a string or `None`. -/
def selector (value : Json) : Codec (Option String) :=
  nullable (stringOf "application fault selectors must be strings or null") value

/-- A rule as `_decode_application_faults` reads it. -/
def decodeApplicationRule (item : Json) : Codec AdmittedRule := do
  objectOf "invalid application fault rule" item
  let raw ← reraised CodecError.caught "invalid application fault rule"
    (rawRule (fun item => field item "payload_type") item)
  let src ← selector raw.src
  let dst ← selector raw.dst
  let payloadType ← selector raw.payloadType
  if payloadType = some "" then .error (.value "application fault payload_type cannot be empty")
  else do
    let ordinal ← nullable (integerFrom 1
      "application fault ordinal must be positive integer or null"
      "application fault ordinal must be positive integer or null") raw.ordinal
    let extraDelay ← integerFrom 0 "application fault extra_delay must be nonnegative integer"
      "application fault extra_delay must be nonnegative integer" raw.extraDelay
    makeRule raw.action src dst (ordinal.map Int.ofNat) payloadType extraDelay

section Runtime

variable (runtime : JsonRuntime)

/-- `_decode_application_faults`. -/
def decodeApplicationFaults (raw : Json) : Codec SeededFaultSchedule := do
  let (seed, items) ← scheduleFields runtime "rules" "unsupported application fault schedule"
    "invalid application fault schedule" "invalid application fault schedule" raw
  let rules ← items.mapM decodeApplicationRule
  return ⟨seed, rules⟩

/-! ## Artifacts -/

/-- `CheckpointLimits.as_dict`. -/
def encodeLimits (limits : CheckpointLimits) : Json :=
  .object [("max_bytes", .int limits.maxBytes), ("max_requests", .int limits.maxRequests),
    ("max_events", .int limits.maxEvents), ("max_depth", .int limits.maxDepth)]

/-- `CheckpointLimits.from_dict`. -/
def decodeLimits (value : Json) : Codec CheckpointLimits :=
  match value with
  | .object entries =>
      if (entries.map Prod.fst).toFinset = {"max_bytes", "max_requests", "max_events", "max_depth"}
      then do
        let maxBytes ← integerFrom 1 "max_bytes must be a positive integer"
          "max_bytes must be a positive integer" (← field value "max_bytes")
        let maxRequests ← integerFrom 1 "max_requests must be a positive integer"
          "max_requests must be a positive integer" (← field value "max_requests")
        let maxEvents ← integerFrom 1 "max_events must be a positive integer"
          "max_events must be a positive integer" (← field value "max_events")
        let maxDepth ← integerFrom 1 "max_depth must be a positive integer"
          "max_depth must be a positive integer" (← field value "max_depth")
        if positive : 0 < maxBytes ∧ 0 < maxRequests ∧ 0 < maxEvents ∧ 0 < maxDepth then
          return ⟨maxBytes, maxRequests, maxEvents, maxDepth, positive⟩
        else .error (.value "max_bytes must be a positive integer")
      else .error (.value "invalid client journal resource-limit fields")
  | _ => .error (.value "invalid client journal resource-limit fields")

/-- `MultiPaxosApplicationArtifact`. -/
structure MultiPaxosApplicationArtifact (runtime : JsonRuntime) where
  actions : SeededMultiPaxosActionSchedule runtime
  faults : SeededFaultSchedule
  lifecycle : SeededLifecycleSchedule runtime
  nodeIds : List String
  finalEventBudget : ℕ
  withheldAcks : List String
  applicationRounds : ℕ
  eventsPerRound : ℕ
  reportJson : String
  reconstructionBoundary : Option ℕ
  journalCheckpoint : Bool
  journalLimits : Option CheckpointLimits

/-- `sorted(withheld_acks)`. -/
def MultiPaxosApplicationScenarioRunner.sortedAcks {runtime : JsonRuntime}
    (runner : MultiPaxosApplicationScenarioRunner runtime) : List String :=
  runner.withheldAcks.sort (· ≤ ·)

/-- The artifact of a runner and the text of a report. -/
def MultiPaxosApplicationScenarioRunner.artifact {runtime : JsonRuntime}
    (runner : MultiPaxosApplicationScenarioRunner runtime) (reportJson : String) :
    MultiPaxosApplicationArtifact runtime where
  actions := runner.actions
  faults := runner.faults
  lifecycle := runner.lifecycle
  nodeIds := runner.nodeIds
  finalEventBudget := runner.finalEventBudget
  withheldAcks := runner.sortedAcks
  applicationRounds := runner.applicationRounds
  eventsPerRound := runner.eventsPerRound
  reportJson := reportJson
  reconstructionBoundary := runner.reconstructionBoundary
  journalCheckpoint := runner.journalCheckpoint
  journalLimits := runner.journalLimits

/-- `MultiPaxosApplicationResult.to_json`. -/
def MultiPaxosApplicationResult.toJson (result : MultiPaxosApplicationResult) : Codec String := do
  let trace ← loads runtime (← canonical runtime (tracePayload result.trace))
  canonical runtime (result.payload trace)

/-- `MultiPaxosApplicationArtifact.capture`. -/
def MultiPaxosApplicationArtifact.capture (runner : MultiPaxosApplicationScenarioRunner runtime)
    (result : MultiPaxosApplicationResult) : Codec (MultiPaxosApplicationArtifact runtime) := do
  return runner.artifact (← result.toJson runtime)

/-- What `to_json` writes, with the values that it loads. -/
def MultiPaxosApplicationArtifact.payload {runtime : JsonRuntime}
    (artifact : MultiPaxosApplicationArtifact runtime) (actions faults lifecycle report : Json) :
    Json :=
  .object ([("version", .int 1), ("actions", actions), ("faults", faults),
      ("lifecycle", lifecycle), ("node_ids", .array (artifact.nodeIds.map .string)),
      ("final_event_budget", .int artifact.finalEventBudget),
      ("withheld_acks", .array (artifact.withheldAcks.map .string)),
      ("application_rounds", .int artifact.applicationRounds),
      ("events_per_round", .int artifact.eventsPerRound), ("report", report)] ++
    artifact.reconstructionBoundary.toList.map
      (fun boundary : ℕ => ("reconstruction_boundary", .int boundary)) ++
    (if artifact.journalCheckpoint then [("journal_checkpoint", .bool true)] else []) ++
    artifact.journalLimits.toList.map (fun limits => ("journal_limits", encodeLimits limits)))

/-- `MultiPaxosApplicationArtifact.to_json`. -/
def MultiPaxosApplicationArtifact.toJson (artifact : MultiPaxosApplicationArtifact runtime) :
    Codec String := do
  let actions ← loads runtime (← artifact.actions.toJson runtime)
  let faults ← loads runtime (← artifact.faults.toJson runtime)
  let lifecycle ← loads runtime (← artifact.lifecycle.toJson runtime)
  let report ← loads runtime artifact.reportJson
  canonical runtime (artifact.payload actions faults lifecycle report)

/-- `raw.get(key, default)` and `key in raw`. -/
def presentField (raw : Json) (key : String) : Option Json :=
  match raw with
  | .object fields => fields.lookup key
  | _ => none

/-- The limits, if there are any. -/
def optionalLimits (raw : Option Json) : Codec (Option CheckpointLimits) :=
  match raw with
  | none => .ok none
  | some value => some <$> decodeLimits value

/-- A list of strings. -/
def stringList (message : String) (raw : Json) : Codec (List String) := do
  (← listOf message raw).mapM (stringOf message)

/-- A list of strings that are not empty. -/
def namedList (message : String) (raw : Json) : Codec (List String) := do
  let names ← stringList message raw
  if names.any (· = "") then .error (.value message) else return names

/-- `SeededMultiPaxosActionSchedule.from_json` of the text of the `actions`. -/
def decodeActions (raw : Json) : Codec (SeededMultiPaxosActionSchedule runtime) := do
  decodeActionSchedule runtime (← canonical runtime (← field raw "actions"))

/-- `SeededLifecycleSchedule.from_json` of the text of the `lifecycle`. -/
def decodeLifecycle (raw : Json) : Codec (SeededLifecycleSchedule runtime) := do
  decodeLifecycleSchedule runtime (← canonical runtime (← field raw "lifecycle"))

/-- The runner that an artifact describes. -/
def decodeApplicationRunner (raw : Json) :
    Codec (MultiPaxosApplicationScenarioRunner runtime) := do
  let actions ← decodeActions runtime raw
  let faults ← decodeApplicationFaults runtime (← field raw "faults")
  let lifecycle ← decodeLifecycle runtime raw
  let nodeIds ← field raw "node_ids"
  let withheld ← field raw "withheld_acks"
  let nodeIds ← namedList "invalid artifact nodes" nodeIds
  let withheld ← stringList "invalid withheld acknowledgement identities" withheld
  let finalEventBudget ← field raw "final_event_budget"
  let applicationRounds ← field raw "application_rounds"
  let eventsPerRound ← field raw "events_per_round"
  let limits ← optionalLimits (presentField raw "journal_limits")
  makeApplicationRunner runtime actions faults lifecycle nodeIds finalEventBudget withheld
    applicationRounds eventsPerRound ((presentField raw "reconstruction_boundary").getD .null)
    ((presentField raw "journal_checkpoint").getD (.bool false)) limits

/-- The body of `from_json`, whose errors it raises again. -/
def decodeApplicationBody (raw : Json) : Codec (MultiPaxosApplicationArtifact runtime) := do
  let runner ← decodeApplicationRunner runtime raw
  let report ← field raw "report"
  objectOf "invalid application evidence report" report
  if Json.equalsInt runtime.integral (← optionalField report "version") 1 then
    return runner.artifact (← canonical runtime report)
  else .error (.value "invalid application evidence report")

/-- `MultiPaxosApplicationArtifact.from_json`. -/
def decodeApplicationArtifact (encoded : String) :
    Codec (MultiPaxosApplicationArtifact runtime) := do
  let raw ← loads runtime encoded
  objectOf "unsupported Multi-Paxos application artifact" raw
  if Json.equalsInt runtime.integral (← optionalField raw "version") 1 then
    reraised CodecError.caught "invalid Multi-Paxos application artifact"
      (decodeApplicationBody runtime raw)
  else .error (.value "unsupported Multi-Paxos application artifact")

end Runtime

end Distlab.MultiPaxos.Campaign
