import Distlab.MultiPaxos.ApplicationArtifact
import Distlab.MultiPaxos.TrialRoundTrip

/-!
# Round trips of application artifacts

The artifact of a runner and a report is read again, whatever is written or left out:
the constructor accepts once more what it accepted.
-/

set_option autoImplicit false

namespace Distlab.MultiPaxos.Campaign

open Foundations Scenarios

/-! ## Parts -/

theorem selector_written (text : Option String) : selector (written .string text) = .ok text :=
  nullable_writtenString _ text

/-- A selector is read whether it is given or not. -/
theorem decodeApplicationRule_encodeRule (rule : AdmittedRule) :
    decodeApplicationRule (encodeRule rule).sortKeys = .ok rule := by
  have raw := rawRule_encodeRule rule (fun item => field item "payload_type") rfl
  have object : objectOf "invalid application fault rule" (encodeRule rule).sortKeys = .ok () :=
    objectOf_sortKeys _ _
  have ordinal : nullable (integerFrom 1
      "application fault ordinal must be positive integer or null"
      "application fault ordinal must be positive integer or null")
      (written (fun number : ℕ => .int number) rule.val.ordinal) = .ok rule.val.ordinal := by
    cases given : rule.val.ordinal with
    | none => rfl
    | some number =>
        have positive : (1 : ℤ) ≤ (number : ℤ) := by
          have := rule.property.1
          rw [given] at this
          have : number ≠ 0 := fun zero => this (congrArg some zero)
          omega
        rw [written, nullable, integerFrom_int positive]
        · rfl
        · exact fun null => by cases null
  rw [decodeApplicationRule, object, except_ok_bind, raw]
  simp only [reraised, except_ok_bind, selector_written]
  rw [if_neg rule.property.2, ordinal, except_ok_bind, integerFrom_int (Int.natCast_nonneg _),
    except_ok_bind, makeRule_fields]

/-- An object with sorted keys has the keys that it had. -/
theorem exists_sortKeys_eq (entries : List (String × Json)) :
    ∃ sorted, (Json.object entries).sortKeys = .object sorted ∧
      (sorted.map Prod.fst).toFinset = (entries.map Prod.fst).toFinset := by
  refine ⟨_, by rw [Json.sortKeys], ?_⟩
  rw [← Json.map_fst_sortFields entries]
  exact List.toFinset_eq_of_perm _ _ ((Json.perm_sortByKey _).map Prod.fst)

theorem decodeLimits_encodeLimits (limits : CheckpointLimits) :
    decodeLimits (encodeLimits limits).sortKeys = .ok limits := by
  have distinct : ([("max_bytes", Json.int limits.maxBytes),
      ("max_requests", .int limits.maxRequests), ("max_events", .int limits.maxEvents),
      ("max_depth", .int limits.maxDepth)].map Prod.fst).Nodup := by simp
  have bytes := field_sortKeys distinct "max_bytes" rfl
  have requests := field_sortKeys distinct "max_requests" rfl
  have events := field_sortKeys distinct "max_events" rfl
  have depth := field_sortKeys distinct "max_depth" rfl
  obtain ⟨positiveBytes, positiveRequests, positiveEvents, positiveDepth⟩ := limits.positive
  have above {number : ℕ} (positive : 0 < number) : (1 : ℤ) ≤ (number : ℤ) := by omega
  obtain ⟨sorted, same, keys⟩ := exists_sortKeys_eq [("max_bytes", Json.int limits.maxBytes),
    ("max_requests", .int limits.maxRequests), ("max_events", .int limits.maxEvents),
    ("max_depth", .int limits.maxDepth)]
  rw [same] at bytes requests events depth
  rw [encodeLimits, same, decodeLimits, if_pos (by rw [keys]; rfl), bytes, requests, events, depth]
  simp only [except_ok_bind, Json.sortKeys_int, integerFrom_int (above positiveBytes),
    integerFrom_int (above positiveRequests), integerFrom_int (above positiveEvents),
    integerFrom_int (above positiveDepth)]
  exact dif_pos limits.positive

section Runtime

variable {runtime : JsonRuntime}

theorem decodeApplicationFaults_payload (schedule : SeededFaultSchedule) :
    decodeApplicationFaults runtime schedule.payload.sortKeys = .ok schedule := by
  have entries : (schedule.rules.map fun rule => (encodeRule rule).sortKeys).mapM
      decodeApplicationRule = .ok schedule.rules := by
    rw [List.mapM_map, mapM_eq_ok_map id, List.map_id]
    exact fun rule _ => decodeApplicationRule_encodeRule rule
  rw [decodeApplicationFaults, SeededFaultSchedule.payload,
    scheduleFields_payload (by decide) (by decide), except_ok_bind]
  dsimp only
  rw [List.map_map]
  rw [show (Json.sortKeys ∘ encodeRule) = fun rule => (encodeRule rule).sortKeys from rfl, entries]
  rfl

/-! ## Constructors -/

theorem checkNodes_eq_ok {unknown : String} {nodeIds : List String} {names : List Json}
    (known : ∀ name ∈ names, isNode nodeIds name = true) :
    checkNodes runtime unknown nodeIds names = .ok ⟨(), known⟩ := by
  have hashed : ∃ keys, names.mapM (Json.key runtime.integral) = .ok keys := by
    have each : ∀ name ∈ names, Json.key runtime.integral name =
        .ok (Json.Key.string (nodeName name)) := by
      intro name member
      have isName := known name member
      cases name with
      | string name => rfl
      | _ => cases isName
    exact ⟨_, mapM_eq_ok_map _ each⟩
  obtain ⟨keys, hashed⟩ := hashed
  rw [checkNodes, hashed, accessed, Except.mapError, except_ok_bind, dif_pos known]
  rfl

/-- The constructor accepts what it accepted. -/
theorem makeScenarioRunner_eq_ok (runner : MultiPaxosScenarioRunner runtime) :
    makeScenarioRunner runtime runner.actions runner.faults runner.lifecycle runner.nodeIds
      (.int runner.finalEventBudget) = .ok runner := by
  have known : ∀ name ∈ runner.actions.actions.map (·.nodeId),
      isNode runner.nodeIds name = true := by
    intro name member
    obtain ⟨action, listed, rfl⟩ := List.mem_map.mp member
    exact runner.known action listed
  have lifecycleKnown : ∀ name ∈ runner.lifecycle.actions.map (·.nodeId),
      isNode runner.nodeIds name = true := by
    intro name member
    obtain ⟨action, listed, rfl⟩ := List.mem_map.mp member
    exact runner.lifecycleKnown action listed
  rw [makeScenarioRunner, dif_pos ⟨runner.nonempty, runner.nodup⟩, checkNodes_eq_ok known,
    except_ok_bind, dif_pos runner.seeded, dif_pos runner.lifecycleSeeded,
    checkNodes_eq_ok lifecycleKnown, except_ok_bind, dif_pos runner.bounded,
    integerFrom_int (Int.natCast_nonneg _)]
  rfl

theorem boundaryWithin_eq_ok {count : ℕ} {boundary : Option ℕ}
    (within : ∀ b ∈ boundary, b ≤ count) :
    boundaryWithin count (written (fun number : ℕ => .int number) boundary) =
      .ok ⟨boundary, within⟩ := by
  cases boundary with
  | none =>
      rw [boundaryWithin, written, nullable, except_ok_bind]
      exact dif_pos within
  | some b =>
      rw [boundaryWithin, written, nullable, integerFrom_int (Int.natCast_nonneg _)]
      · exact dif_pos within
      · exact fun null => by cases null

/-- The constructor of the application runner accepts what it accepted. -/
theorem makeApplicationRunner_eq_ok (runner : MultiPaxosApplicationScenarioRunner runtime) :
    makeApplicationRunner runtime runner.actions runner.faults runner.lifecycle runner.nodeIds
      (.int runner.finalEventBudget) runner.sortedAcks
      (.int runner.applicationRounds) (.int runner.eventsPerRound)
      (written (fun number : ℕ => .int number) runner.reconstructionBoundary)
      (.bool runner.journalCheckpoint) runner.journalLimits = .ok runner := by
  obtain ⟨base, withheld, rounds, events, boundary, checkpoint, limits, busy, within, limited,
    checkpointed, withheldKnown, requested⟩ := runner
  have events_large : (1 : ℤ) ≤ (events : ℤ) := by omega
  have same : (withheld.sort (· ≤ ·)).toFinset = withheld := Finset.sort_toFinset _ _
  have known : (withheld.sort (· ≤ ·)).Nodup ∧
      ∀ acknowledgement ∈ (withheld.sort (· ≤ ·)).toFinset,
        isProposal base.actions.actions acknowledgement = true :=
    ⟨withheld.sort_nodup _, by rwa [same]⟩
  rw [makeApplicationRunner, MultiPaxosApplicationScenarioRunner.sortedAcks,
    makeScenarioRunner_eq_ok base, except_ok_bind, integerFrom_int (Int.natCast_nonneg _),
      except_ok_bind, integerFrom_int events_large,
    except_ok_bind, boundaryWithin_eq_ok within, except_ok_bind, boolean, except_ok_bind,
    dif_pos limited, dif_pos checkpointed, dif_pos known]
  obtain ⟨requests, read⟩ := requested
  split
  next error refused =>
    rw [read] at refused
    cases refused
  next =>
    rw [dif_pos busy]
    simp only [same]
    rfl

/-! ## Artifacts -/

/-- A report that the codec of an artifact accepts. -/
structure Report (runtime : JsonRuntime) where
  fields : List (String × Json)
  distinct : (fields.map Prod.fst).Nodup
  version : Json.equalsInt runtime.integral ((fields.lookup "version").getD .null) 1 = true

/-- The report as a value. -/
def Report.value (report : Report runtime) : Json := .object report.fields

variable (runner : MultiPaxosApplicationScenarioRunner runtime) (report : Report runtime)

/-- The artifact of a runner and a report. -/
def reportArtifact : MultiPaxosApplicationArtifact runtime :=
  runner.artifact (runtime.text report.value.sortKeys)

/-- What the artifact writes. -/
def reportDocument : Json :=
  (reportArtifact runner report).payload runner.actions.payload.sortKeys
    runner.faults.payload.sortKeys runner.lifecycle.payload.sortKeys report.value.sortKeys

/-- The values whose texts the codec writes and loads. -/
def reportTexts : List Json :=
  [runner.actions.payload.sortKeys, runner.faults.payload.sortKeys,
    runner.lifecycle.payload.sortKeys, report.value.sortKeys,
    (reportDocument runner report).sortKeys]

/-- The fields that are always written. -/
def reportFields : List (String × Json) :=
  [("version", .int 1), ("actions", runner.actions.payload.sortKeys),
    ("faults", runner.faults.payload.sortKeys), ("lifecycle", runner.lifecycle.payload.sortKeys),
    ("node_ids", .array (runner.nodeIds.map .string)),
    ("final_event_budget", .int runner.finalEventBudget),
    ("withheld_acks", .array (runner.sortedAcks.map .string)),
    ("application_rounds", .int runner.applicationRounds),
    ("events_per_round", .int runner.eventsPerRound), ("report", report.value.sortKeys)]

/-- The fields that are written where they are not in their default state. -/
def optionalFields : List (String × Json) :=
  runner.reconstructionBoundary.toList.map
      (fun boundary : ℕ => ("reconstruction_boundary", Json.int boundary)) ++
    (if runner.journalCheckpoint then [("journal_checkpoint", .bool true)] else []) ++
    runner.journalLimits.toList.map (fun limits => ("journal_limits", encodeLimits limits))

theorem reportDocument_eq : reportDocument runner report =
    .object (reportFields runner report ++ optionalFields runner) := by
  rw [reportFields, optionalFields, ← List.append_assoc, ← List.append_assoc]
  rfl

theorem optionalFields_keys : ((optionalFields runner).map Prod.fst).Sublist
    ["reconstruction_boundary", "journal_checkpoint", "journal_limits"] := by
  rw [optionalFields, List.map_append, List.map_append]
  have boundary : ((runner.reconstructionBoundary.toList.map
      (fun boundary : ℕ => ("reconstruction_boundary", Json.int boundary))).map Prod.fst).Sublist
        ["reconstruction_boundary"] := by
    cases runner.reconstructionBoundary <;> simp
  have checkpoint : ((if runner.journalCheckpoint then [("journal_checkpoint", Json.bool true)]
      else []).map Prod.fst).Sublist ["journal_checkpoint"] := by
    cases runner.journalCheckpoint <;> simp
  have limits : ((runner.journalLimits.toList.map
      (fun limits => ("journal_limits", encodeLimits limits))).map Prod.fst).Sublist
        ["journal_limits"] := by
    cases runner.journalLimits <;> simp
  exact (boundary.append checkpoint).append limits

theorem distinct_reportDocument :
    ((reportFields runner report ++ optionalFields runner).map Prod.fst).Nodup := by
  have all : ((reportFields runner report).map Prod.fst ++
      ["reconstruction_boundary", "journal_checkpoint", "journal_limits"]).Nodup := by
    simp [reportFields]
  rw [List.map_append]
  exact all.sublist ((List.Sublist.refl _).append (optionalFields_keys runner))

variable {runner report}

/-- A field that is always written. -/
theorem field_reportDocument {key : String} {value : Json}
    (found : (reportFields runner report).lookup key = some value) :
    field (reportDocument runner report).sortKeys key = .ok value.sortKeys := by
  rw [reportDocument_eq]
  refine field_sortKeys (distinct_reportDocument runner report) key ?_
  rw [List.lookup_append, found]
  rfl

/-- A field that may be left out. -/
theorem presentField_reportDocument {key : String}
    (absent : (reportFields runner report).lookup key = none) :
    presentField (reportDocument runner report).sortKeys key =
      ((optionalFields runner).lookup key).map Json.sortKeys := by
  have distinct := distinct_reportDocument runner report
  rw [← Json.map_fst_sortFields] at distinct
  rw [reportDocument_eq, Json.sortKeys, presentField, Json.lookup_sortByKey distinct,
    Json.lookup_sortFields, List.lookup_append, absent]
  rfl

theorem lookup_boundary : (optionalFields runner).lookup "reconstruction_boundary" =
    runner.reconstructionBoundary.map fun boundary : ℕ => .int boundary := by
  rw [optionalFields]
  cases runner.reconstructionBoundary <;> cases runner.journalCheckpoint <;>
    cases runner.journalLimits <;> rfl

theorem lookup_checkpoint : (optionalFields runner).lookup "journal_checkpoint" =
    if runner.journalCheckpoint then some (.bool true) else none := by
  rw [optionalFields]
  cases runner.reconstructionBoundary <;> cases runner.journalCheckpoint <;>
    cases runner.journalLimits <;> rfl

theorem lookup_limits : (optionalFields runner).lookup "journal_limits" =
    runner.journalLimits.map encodeLimits := by
  rw [optionalFields]
  cases runner.reconstructionBoundary <;> cases runner.journalCheckpoint <;>
    cases runner.journalLimits <;> rfl

theorem optionalLimits_encodeLimits (limits : Option CheckpointLimits) :
    optionalLimits ((limits.map encodeLimits).map Json.sortKeys) = .ok limits := by
  cases limits with
  | none => rfl
  | some limits =>
      rw [Option.map_some, Option.map_some, optionalLimits, decodeLimits_encodeLimits]
      rfl

theorem stringList_eq_ok (message : String) (names : List String) :
    stringList message (Json.array (names.map .string)).sortKeys = .ok names := by
  rw [Json.sortKeys_array, map_sortKeys_string, stringList, listOf_array, except_ok_bind,
    List.mapM_map, mapM_eq_ok_map id, List.map_id]
  exact fun _ _ => rfl

theorem namedList_eq_ok {message : String} {names : List String} (named : ∀ n ∈ names, n ≠ "") :
    namedList message (Json.array (names.map .string)).sortKeys = .ok names := by
  rw [namedList, stringList_eq_ok, except_ok_bind,
    if_neg (by simpa using fun empty => named "" empty rfl)]
  rfl

/-- **The runner of an artifact is made again.** -/
theorem decodeApplicationRunner_reportDocument (named : ∀ n ∈ runner.nodeIds, n ≠ "")
    (invertsActions : runtime.Inverts runner.actions.payload.sortKeys)
    (invertsLifecycle : runtime.Inverts runner.lifecycle.payload.sortKeys) :
    decodeApplicationRunner runtime (reportDocument runner report).sortKeys = .ok runner := by
  have atActions := @field_reportDocument _ runner report "actions" _ rfl
  have atFaults := @field_reportDocument _ runner report "faults" _ rfl
  have atLifecycle := @field_reportDocument _ runner report "lifecycle" _ rfl
  have atNodes := @field_reportDocument _ runner report "node_ids" _ rfl
  have atWithheld := @field_reportDocument _ runner report "withheld_acks" _ rfl
  have atBudget := @field_reportDocument _ runner report "final_event_budget" _ rfl
  have atRounds := @field_reportDocument _ runner report "application_rounds" _ rfl
  have atEvents := @field_reportDocument _ runner report "events_per_round" _ rfl
  have actions : decodeActions runtime (reportDocument runner report).sortKeys =
      .ok runner.actions := by
    rw [decodeActions, atActions, except_ok_bind, Json.sortKeys_sortKeys, canonical_sortKeys,
      canonical_eq_ok invertsActions.1, except_ok_bind]
    exact decodeActionSchedule_toJson invertsActions fun action member =>
      sortKeys_of_isNode (runner.known action member)
  have lifecycle : decodeLifecycle runtime (reportDocument runner report).sortKeys =
      .ok runner.lifecycle := by
    rw [decodeLifecycle, atLifecycle, except_ok_bind, Json.sortKeys_sortKeys, canonical_sortKeys,
      canonical_eq_ok invertsLifecycle.1, except_ok_bind]
    exact decodeLifecycleSchedule_toJson invertsLifecycle fun action member =>
      sortKeys_of_isNode (runner.lifecycleKnown action member)
  have boundary : (((optionalFields runner).lookup "reconstruction_boundary").map
      Json.sortKeys).getD .null =
        written (fun number : ℕ => .int number) runner.reconstructionBoundary := by
    rw [lookup_boundary]
    cases runner.reconstructionBoundary with
    | none => rfl
    | some number => exact Json.sortKeys_int _
  have checkpoint : (((optionalFields runner).lookup "journal_checkpoint").map
      Json.sortKeys).getD (.bool false) = .bool runner.journalCheckpoint := by
    rw [lookup_checkpoint]
    cases runner.journalCheckpoint with
    | false => rfl
    | true => exact Json.sortKeys_bool _
  rw [decodeApplicationRunner, actions, atFaults, lifecycle, atNodes, atWithheld, atBudget,
    atRounds, atEvents, presentField_reportDocument rfl, presentField_reportDocument rfl,
    presentField_reportDocument rfl, boundary, checkpoint, lookup_limits]
  simp only [except_ok_bind, Json.sortKeys_sortKeys, decodeApplicationFaults_payload,
    namedList_eq_ok named, stringList_eq_ok, Json.sortKeys_int,
    optionalLimits_encodeLimits]
  exact makeApplicationRunner_eq_ok runner

/-- The text of an artifact. -/
theorem toJson_reportArtifact
    (inverts : ∀ value ∈ reportTexts runner report, runtime.Inverts value) :
    (reportArtifact runner report).toJson runtime =
      .ok (runtime.text (reportDocument runner report).sortKeys) := by
  simp only [reportTexts, List.forall_mem_cons] at inverts
  obtain ⟨actions, faults, lifecycle, value, document, _⟩ := inverts
  rw [MultiPaxosApplicationArtifact.toJson, SeededMultiPaxosActionSchedule.toJson,
    SeededFaultSchedule.toJson, SeededLifecycleSchedule.toJson,
    show (reportArtifact runner report).actions = runner.actions from rfl,
    show (reportArtifact runner report).faults = runner.faults from rfl,
    show (reportArtifact runner report).lifecycle = runner.lifecycle from rfl,
    show (reportArtifact runner report).reportJson = runtime.text report.value.sortKeys from rfl]
  simp only [canonical_eq_ok actions.1, canonical_eq_ok faults.1, canonical_eq_ok lifecycle.1,
    except_ok_bind, loads_text actions, loads_text faults, loads_text lifecycle, loads_text value]
  exact canonical_eq_ok document.1

/-- **The artifact of a runner and a report is read again.** -/
theorem reportArtifact_round_trips (named : ∀ n ∈ runner.nodeIds, n ≠ "")
    (inverts : ∀ value ∈ reportTexts runner report, runtime.Inverts value) :
    ((reportArtifact runner report).toJson runtime >>= decodeApplicationArtifact runtime) =
      .ok (reportArtifact runner report) := by
  have text := toJson_reportArtifact inverts
  simp only [reportTexts, List.forall_mem_cons] at inverts
  obtain ⟨actions, _, lifecycle, value, document, _⟩ := inverts
  have isObject (message : String) :
      objectOf message (reportDocument runner report).sortKeys = .ok () := by
    rw [reportDocument_eq]
    exact objectOf_sortKeys _ _
  have atVersion : optionalField (reportDocument runner report).sortKeys "version" =
      .ok (Json.int 1).sortKeys := by
    rw [reportDocument_eq]
    exact optionalField_sortKeys (distinct_reportDocument runner report) "version" rfl
  have atReport := @field_reportDocument _ runner report "report" _ rfl
  have isReport (message : String) : objectOf message report.value.sortKeys = .ok () :=
    objectOf_sortKeys _ _
  have reportVersion : optionalField report.value.sortKeys "version" =
      .ok ((report.fields.lookup "version").getD .null).sortKeys := by
    rw [optionalField, Report.value, Json.get_sortKeys_eq report.distinct]
    rfl
  have one : Json.equalsInt runtime.integral
      ((report.fields.lookup "version").getD .null).sortKeys 1 = true := by
    rw [Json.equalsInt_sortKeys]
    exact report.version
  have body : decodeApplicationBody runtime (reportDocument runner report).sortKeys =
      .ok (reportArtifact runner report) := by
    rw [decodeApplicationBody, decodeApplicationRunner_reportDocument named actions lifecycle,
      except_ok_bind, atReport, except_ok_bind, Json.sortKeys_sortKeys, isReport, except_ok_bind,
      reportVersion, except_ok_bind, if_pos one, canonical_sortKeys, canonical_eq_ok value.1]
    rfl
  rw [text, except_ok_bind, decodeApplicationArtifact, loads_text document,
    except_ok_bind, isObject, except_ok_bind, atVersion, except_ok_bind, Json.sortKeys_int,
    if_pos (by simp), body, reraised]

end Runtime

end Distlab.MultiPaxos.Campaign
