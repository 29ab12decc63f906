import Mathlib.Data.List.Sort
import Distlab.MultiPaxos.CampaignRoundTrip
import Distlab.MultiPaxos.Runner

/-!
# Artifacts of campaign trials

An artifact keeps the schedules of a trial, its nodes and its budget, and what its run
found: the outcome, the chosen decisions, a violation, the trace. The decisions that a
run has chosen stand at increasing slots, under proposals of members.

The codec of an artifact loads what the codecs of its schedules wrote, and their texts
are canonical, so each is written and loaded twice.
-/

set_option autoImplicit false

namespace Distlab.MultiPaxos.Campaign

open Foundations Paxos Scenarios

/-! ## Runs -/

/-- The value names one of the nodes. -/
def isNode (nodeIds : List String) : Json → Bool
  | .string name => name ∈ nodeIds
  | _ => false

/-- `MultiPaxosScenarioRunner`, with what its constructor checks. -/
structure MultiPaxosScenarioRunner (runtime : JsonRuntime) where
  actions : SeededMultiPaxosActionSchedule runtime
  faults : SeededFaultSchedule
  lifecycle : SeededLifecycleSchedule runtime
  nodeIds : List String
  finalEventBudget : ℕ
  nonempty : nodeIds ≠ []
  nodup : nodeIds.Nodup
  known : ∀ action ∈ actions.actions, isNode nodeIds action.nodeId = true
  seeded : actions.seed = faults.seed
  lifecycleSeeded : lifecycle.seed = actions.seed
  lifecycleKnown : ∀ action ∈ lifecycle.actions, isNode nodeIds action.nodeId = true
  bounded : ∀ action ∈ lifecycle.actions, action.beforeActionIndex ≤ actions.actions.length

/-- `MultiPaxosScenarioOutcome`. -/
inductive MultiPaxosScenarioOutcome where
  | progress
  | incomplete
  | safetyViolation
  deriving DecidableEq

def MultiPaxosScenarioOutcome.value : MultiPaxosScenarioOutcome → String
  | .progress => "progress"
  | .incomplete => "incomplete"
  | .safetyViolation => "safety_violation"

/-- `TraceRecord`, with its details as `json_value` gives them. -/
structure TraceRecord where
  time : ℕ
  kind : String
  details : Json

/-- `MultiPaxosScenarioResult`. -/
structure MultiPaxosScenarioResult where
  outcome : MultiPaxosScenarioOutcome
  chosen : List (SlotLearnedDecision String String)
  violation : Option String
  trace : List TraceRecord

/-- `chosen_slots`. -/
def chosenSlots {ν α : Type} (s : Cluster ν α) : List (SlotLearnedDecision ν α) :=
  (s.chosen.keys.insertionSort (· ≤ ·)).filterMap s.chosen.lookup

section Ends

variable {ν α : Type} [LinearOrder ν] [DecidableEq α] (M : Membership ν)

/-- The state in which a scenario ends: after its violation, if it has one. -/
def scenarioEnd : List (Event ν α) → Cluster ν α → Cluster ν α
  | [], s => s
  | event :: events, s =>
      if skips s event then scenarioEnd events s
      else
        match (step M event s).error? with
        | some (.safety _) => (step M event s).state
        | _ => scenarioEnd events (step M event s).state

/-- A scenario ends in a state that some of its events lead to. -/
theorem exists_scenarioEnd_eq {M : Membership ν} (events : List (Event ν α)) (s : Cluster ν α) :
    ∃ done, scenarioEnd M events s = runEvents (step M) done s := by
  induction events generalizing s with
  | nil => exact ⟨[], rfl⟩
  | cons event events ih =>
      unfold scenarioEnd
      split
      next => exact ih s
      next =>
        split
        next => exact ⟨[event], rfl⟩
        next =>
          obtain ⟨done, same⟩ := ih (step M event s).state
          exact ⟨event :: done, same⟩

end Ends

/-- The name of a node. -/
def nodeName : Json → String
  | .string name => name
  | _ => ""

/-- An action as the cluster performs it. -/
def MultiPaxosAction.perform (action : MultiPaxosAction) :
    MultiPaxos.MultiPaxosAction String String :=
  match action.operation with
  | .prepare roundNumber => .prepare (nodeName action.nodeId) roundNumber
  | .propose slot value => .propose (nodeName action.nodeId) slot value

/-- A lifecycle action as the cluster performs it. -/
def NodeLifecycleAction.perform (action : NodeLifecycleAction) : LifecycleAction String :=
  match action.kind with
  | .crash => .crash (nodeName action.nodeId)
  | .restart => .restart (nodeName action.nodeId)

namespace MultiPaxosScenarioRunner

variable {runtime : JsonRuntime} (runner : MultiPaxosScenarioRunner runtime)

def members : Membership String := ⟨runner.nodeIds, runner.nonempty, runner.nodup⟩

/-- The lifecycle actions before an action. -/
def boundary (index : ℕ) : List (LifecycleAction String) :=
  (runner.lifecycle.actions.filter (·.beforeActionIndex = index)).map (·.perform)

/-- The schedules as a scenario, with the deliveries that the faults lead to after each
action. -/
def scenario (delivered : ℕ → List ℕ) : Scenario String String where
  steps := runner.actions.actions.zipIdx.map fun entry =>
    { lifecycle := runner.boundary entry.2
      action := entry.1.perform
      deliveries := delivered entry.2 }
  finalLifecycle := runner.boundary runner.actions.actions.length
  finalDeliveries := delivered runner.actions.actions.length

/-- `run`, where `describe` is the text of a violation and `trace` the trace of the
simulator. -/
def run (delivered : ℕ → List ℕ) (describe : SafetyViolation String → String)
    (trace : List TraceRecord) : MultiPaxosScenarioResult :=
  let events := (runner.scenario delivered).events
  let violation := runScenario runner.members events (Cluster.fresh false)
  let chosen := chosenSlots (scenarioEnd runner.members events (Cluster.fresh false))
  { outcome :=
      if violation.isSome then .safetyViolation
      else if chosen ≠ [] then .progress
      else .incomplete
    chosen := chosen
    violation := violation.map describe
    trace := trace }

end MultiPaxosScenarioRunner

/-! ## Chosen decisions -/

/-- A decision as an artifact keeps it: nothing checks that the round is an integer and the
proposer a string. -/
structure ChosenDecision where
  slot : ℕ
  round : Json
  proposerId : Json
  value : String

/-- A decision of a cluster in an artifact. -/
def ChosenDecision.of (decision : SlotLearnedDecision String String) : ChosenDecision :=
  ⟨decision.slot, .int decision.proposal.round, .string decision.proposal.proposerId,
    decision.value⟩

/-- `value <= 0`. -/
def notPositive : Json → Codec Bool
  | .int value => .ok (decide (value ≤ 0))
  | .bool value => .ok !value
  | .float literal zero => .ok (zero || literal.startsWith "-")
  | .constant name => .ok (decide (name = "-Infinity"))
  | _ => .error (.access .type)

/-- The checks of `ProposalNumber`. -/
def checkProposal (round proposerId : Json) : Codec Unit := do
  if ← notPositive round then .error (.value "Paxos proposal round must be positive")
  else if proposerId.isFalsy then .error (.value "Paxos proposer_id must be non-empty")
  else return ()

/-- A decision as it is written. -/
def encodeDecision (decision : ChosenDecision) : Json :=
  .object [("slot", .int decision.slot),
    ("proposal", .object [("round", decision.round), ("proposer_id", decision.proposerId)]),
    ("value", .string decision.value)]

/-- A decision as it is read. -/
def decodeDecision (item : Json) : Codec ChosenDecision := do
  objectOf "chosen entries must be objects" item
  let proposal ← optionalField item "proposal"
  objectOf "chosen proposal must be an object" proposal
  let (slot, round, proposerId, value) ← reraised CodecError.caught
    "invalid chosen Multi-Paxos decision" do
      let slot ← field item "slot"
      let round ← field proposal "round"
      let proposerId ← field proposal "proposer_id"
      checkProposal round proposerId
      let value ← field item "value"
      return (slot, round, proposerId, value)
  let slot ← integerFrom 1 "chosen slot must be a positive integer"
    "chosen slot must be a positive integer" slot
  let value ← stringOf "chosen campaign value must be a string" value
  return ⟨slot, round, proposerId, value⟩

/-! ## Artifacts -/

/-- `MultiPaxosTrialArtifact`. -/
structure MultiPaxosTrialArtifact (runtime : JsonRuntime) where
  seed : ℤ
  actions : SeededMultiPaxosActionSchedule runtime
  faults : SeededFaultSchedule
  lifecycle : SeededLifecycleSchedule runtime
  nodeIds : List String
  finalEventBudget : ℕ
  outcome : MultiPaxosScenarioOutcome
  chosen : List ChosenDecision
  violation : Option String
  traceJson : String

/-- A trace record as it is written. -/
def encodeRecord (record : TraceRecord) : Json :=
  .object [("time", .int record.time), ("kind", .string record.kind), ("details", record.details)]

/-- What `encode_trace` writes. -/
def tracePayload (trace : List TraceRecord) : Json := .array (trace.map encodeRecord)

/-- A list of names, with at least one and none empty. -/
def nodeList (message : String) (raw : Json) : Codec (List String) := do
  let items ← listOf message raw
  if items.isEmpty then .error (.value message)
  else do
    let names ← items.mapM (stringOf message)
    if names.any (· = "") then .error (.value message) else return names

section Runtime

variable (runtime : JsonRuntime)

/-- `MultiPaxosTrialArtifact.capture`. -/
def MultiPaxosTrialArtifact.capture (actions : SeededMultiPaxosActionSchedule runtime)
    (faults : SeededFaultSchedule) (result : MultiPaxosScenarioResult)
    (lifecycle : Option (SeededLifecycleSchedule runtime)) (nodeIds : List String)
    (finalEventBudget : ℕ) : Codec (MultiPaxosTrialArtifact runtime) :=
  let lifecycle := lifecycle.getD (SeededLifecycleSchedule.empty runtime actions.seed)
  if actions.seed ≠ faults.seed ∨ actions.seed ≠ lifecycle.seed then
    .error (.value "Multi-Paxos trial schedules must use the same seed")
  else do
    let traceJson ← canonical runtime (tracePayload result.trace)
    return {
      seed := actions.seed
      actions := actions
      faults := faults
      lifecycle := lifecycle
      nodeIds := nodeIds
      finalEventBudget := finalEventBudget
      outcome := result.outcome
      chosen := result.chosen.map ChosenDecision.of
      violation := result.violation
      traceJson := traceJson }

/-- What `to_json` writes, with the values that it loads. -/
def MultiPaxosTrialArtifact.payload {runtime : JsonRuntime}
    (artifact : MultiPaxosTrialArtifact runtime) (actions faults lifecycle trace : Json) : Json :=
  .object [("version", .int 1), ("seed", .int artifact.seed), ("actions", actions),
    ("faults", faults), ("lifecycle", lifecycle),
    ("node_ids", .array (artifact.nodeIds.map .string)),
    ("final_event_budget", .int artifact.finalEventBudget),
    ("outcome", .string artifact.outcome.value),
    ("chosen", .array (artifact.chosen.map encodeDecision)),
    ("violation", written .string artifact.violation), ("trace", trace)]

/-- `MultiPaxosTrialArtifact.to_json`. -/
def MultiPaxosTrialArtifact.toJson (artifact : MultiPaxosTrialArtifact runtime) :
    Codec String := do
  let actions ← loads runtime (← artifact.actions.toJson runtime)
  let faults ← loads runtime (← artifact.faults.toJson runtime)
  let lifecycle ← loads runtime (← artifact.lifecycle.toJson runtime)
  let trace ← loads runtime artifact.traceJson
  canonical runtime (artifact.payload actions faults lifecycle trace)

/-- The outcome and the schedules of an artifact. -/
def decodeSchedules (raw : Json) : Codec (MultiPaxosScenarioOutcome ×
    SeededMultiPaxosActionSchedule runtime × SeededFaultSchedule ×
    SeededLifecycleSchedule runtime) := do
  let outcome ← memberOf "MultiPaxosScenarioOutcome" [.progress, .incomplete, .safetyViolation]
    MultiPaxosScenarioOutcome.value (← field raw "outcome")
  let actions ← decodeActionSchedule runtime (← canonical runtime (← field raw "actions"))
  let faults ← decodeFaultSchedule runtime (← canonical runtime (← field raw "faults"))
  let lifecycle ← decodeLifecycleSchedule runtime (← canonical runtime (← field raw "lifecycle"))
  return (outcome, actions, faults, lifecycle)

/-- The chosen decisions of an artifact, at increasing slots. -/
def decodeChosen (items : List Json) : Codec (List ChosenDecision) := do
  let chosen ← items.mapM decodeDecision
  if ¬ (chosen.map (·.slot)).Pairwise (· ≤ ·) then .error (.value "chosen slots must be sorted")
  else if ¬ (chosen.map (·.slot)).Nodup then .error (.value "chosen slots must be unique")
  else return chosen

/-- `MultiPaxosTrialArtifact.from_json`. -/
def decodeTrialArtifact (encoded : String) : Codec (MultiPaxosTrialArtifact runtime) := do
  let raw ← loads runtime encoded
  objectOf "unsupported Multi-Paxos trial artifact format" raw
  if Json.equalsInt runtime.integral (← optionalField raw "version") 1 then
    let seed ← integer "seed must be an integer" (← optionalField raw "seed")
    let nodeIds ← nodeList "node_ids must contain non-empty strings"
      (← optionalField raw "node_ids")
    if ¬ nodeIds.Nodup then .error (.value "node_ids must be unique")
    else do
      let budget ← integerFrom 0 "final_event_budget must be an integer"
        "final_event_budget must be non-negative" (← optionalField raw "final_event_budget")
      let chosenRaw ← listOf "chosen must be a list" (← optionalField raw "chosen")
      let trace ← optionalField raw "trace"
      let _ ← listOf "trace must be a list" trace
      let violation ← nullable (stringOf "violation must be a string or null")
        (← optionalField raw "violation")
      let (outcome, actions, faults, lifecycle) ← reraised CodecError.caught
        "invalid Multi-Paxos trial artifact" (decodeSchedules runtime raw)
      if actions.seed ≠ seed ∨ faults.seed ≠ seed ∨ lifecycle.seed ≠ seed then
        .error (.value "artifact seed must match all Multi-Paxos schedules")
      else do
        let chosen ← decodeChosen chosenRaw
        let traceJson ← canonical runtime trace
        return {
          seed := seed
          actions := actions
          faults := faults
          lifecycle := lifecycle
          nodeIds := nodeIds
          finalEventBudget := budget
          outcome := outcome
          chosen := chosen
          violation := violation
          traceJson := traceJson }
  else .error (.value "unsupported Multi-Paxos trial artifact format")

end Runtime

end Distlab.MultiPaxos.Campaign
