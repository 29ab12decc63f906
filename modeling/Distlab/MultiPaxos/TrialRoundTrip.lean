import Distlab.MultiPaxos.Agreement
import Distlab.MultiPaxos.TrialArtifact

/-!
# Round trips of trial artifacts

The artifact of a run is read again exactly when the nodes have names and the rules of
the fault schedule are concrete. Everything else that a runner accepts is read: the
decisions that a run has chosen stand at increasing slots, under proposals of members.

The readers of fault schedules and nodes are strict, the constructors of rules and
runners are not.
-/

set_option autoImplicit false

namespace Distlab.MultiPaxos.Campaign

open Foundations Paxos Scenarios

/-! ## Chosen decisions -/

section Chosen

variable {ν α : Type} [LinearOrder ν] {M : Membership ν} {X : Set (SlotAcceptedValue ν α)}
  {s : Cluster ν α}

/-- The chosen decisions stand at the recorded slots in order. -/
theorem map_slot_chosenSlots (sound : SoundDecisions M s.voting s.chosen) :
    (chosenSlots s).map (·.slot) = s.chosen.keys.insertionSort (· ≤ ·) := by
  have each : ∀ slot ∈ s.chosen.keys.insertionSort (· ≤ ·),
      (s.chosen.lookup slot).map (·.slot) = some slot := by
    intro slot member
    have known : slot ∈ s.chosen := AList.mem_keys.mp ((List.mem_insertionSort _).mp member)
    obtain ⟨d, found⟩ := Option.isSome_iff_exists.mp (AList.lookup_isSome.mpr known)
    rw [found, Option.map_some, (sound slot d found).1]
  rw [chosenSlots, List.map_filterMap]
  calc (s.chosen.keys.insertionSort (· ≤ ·)).filterMap
        (fun slot => (s.chosen.lookup slot).map (·.slot)) =
      (s.chosen.keys.insertionSort (· ≤ ·)).filterMap some :=
        List.filterMap_congr each
    _ = s.chosen.keys.insertionSort (· ≤ ·) := List.filterMap_some

/-- A chosen decision has a positive slot and a proposal of a member. -/
theorem chosenSlots_valid (inv : Inv M X s) {d : SlotLearnedDecision ν α}
    (member : d ∈ chosenSlots s) : d.slot ≠ 0 ∧ ValidBallot M d.proposal := by
  obtain ⟨slot, _, found⟩ := List.mem_filterMap.mp member
  obtain ⟨_, evidence⟩ := inv.chosen slot d found
  obtain ⟨Q, isQuorum, votes⟩ := evidence
  obtain ⟨n, inside, _⟩ := (majorities M).meet Q isQuorum Q isQuorum
  have safe := inv.voted n ⟨d.slot, d.proposal, d.value⟩ (votes n inside)
  exact ⟨safe.slot, safe.ballot⟩

end Chosen

theorem decodeDecision_of {d : SlotLearnedDecision String String} (slot : d.slot ≠ 0)
    (round : d.proposal.round ≠ 0) (named : d.proposal.proposerId ≠ "") :
    decodeDecision (encodeDecision (.of d)).sortKeys = .ok (.of d) := by
  have inner : ([("round", Json.int d.proposal.round),
      ("proposer_id", .string d.proposal.proposerId)].map Prod.fst).Nodup := by simp
  have distinct : ([("slot", Json.int d.slot), ("proposal", .object [
      ("round", .int d.proposal.round), ("proposer_id", .string d.proposal.proposerId)]),
      ("value", .string d.value)].map Prod.fst).Nodup := by simp
  have atSlot := field_sortKeys distinct "slot" rfl
  have atProposal := optionalField_sortKeys distinct "proposal" rfl
  have atValue := field_sortKeys distinct "value" rfl
  have atRound := field_sortKeys inner "round" rfl
  have atProposer := field_sortKeys inner "proposer_id" rfl
  have positive : (1 : ℤ) ≤ (d.slot : ℤ) := by omega
  have checked : checkProposal (.int d.proposal.round) (.string d.proposal.proposerId) =
      .ok () := by
    simp [checkProposal, notPositive, round, except_ok_bind, Json.isFalsy, named]
    rfl
  rw [decodeDecision, encodeDecision, ChosenDecision.of, objectOf_sortKeys, except_ok_bind,
    atProposal, except_ok_bind, objectOf_sortKeys, except_ok_bind, atSlot, atRound, atProposer,
    atValue]
  simp only [except_ok_bind, Json.sortKeys_int, Json.sortKeys_string, checked]
  simp only [reraised, pure, Except.pure, except_ok_bind, integerFrom_int positive, stringOf]

/-! ## Artifacts -/

section Artifacts

variable {runtime : JsonRuntime} {artifact : MultiPaxosTrialArtifact runtime}

/-- What an artifact writes, with the trace that it has as a text. -/
def MultiPaxosTrialArtifact.document (artifact : MultiPaxosTrialArtifact runtime)
    (trace : List TraceRecord) : Json :=
  artifact.payload artifact.actions.payload.sortKeys artifact.faults.payload.sortKeys
    artifact.lifecycle.payload.sortKeys (tracePayload trace).sortKeys

/-- The values whose texts the codec of an artifact writes and loads. -/
def MultiPaxosTrialArtifact.texts (artifact : MultiPaxosTrialArtifact runtime)
    (trace : List TraceRecord) : List Json :=
  [artifact.actions.payload.sortKeys, artifact.faults.payload.sortKeys,
    artifact.lifecycle.payload.sortKeys, (tracePayload trace).sortKeys,
    (artifact.document trace).sortKeys]

/-- `first == second`: the fields are equal, and the ids equal as Python compares them. -/
structure MultiPaxosTrialArtifact.Equals (first second : MultiPaxosTrialArtifact runtime) :
    Prop where
  seed : first.seed = second.seed
  actions : first.actions.Equals second.actions
  faults : first.faults = second.faults
  lifecycle : first.lifecycle.Equals second.lifecycle
  nodeIds : first.nodeIds = second.nodeIds
  finalEventBudget : first.finalEventBudget = second.finalEventBudget
  outcome : first.outcome = second.outcome
  chosen : first.chosen = second.chosen
  violation : first.violation = second.violation
  traceJson : first.traceJson = second.traceJson

/-- An artifact as a run leaves it. -/
structure Captured (artifact : MultiPaxosTrialArtifact runtime) (trace : List TraceRecord) :
    Prop where
  inverts : ∀ value ∈ artifact.texts trace, runtime.Inverts value
  nonempty : artifact.nodeIds ≠ []
  nodup : artifact.nodeIds.Nodup
  seeds : artifact.actions.seed = artifact.seed ∧ artifact.faults.seed = artifact.seed ∧
    artifact.lifecycle.seed = artifact.seed
  actionNodes : ∀ action ∈ artifact.actions.actions, action.nodeId.sortKeys = action.nodeId
  lifecycleNodes : ∀ action ∈ artifact.lifecycle.actions, action.nodeId.sortKeys = action.nodeId
  slots : (artifact.chosen.map (·.slot)).Pairwise (· < ·)
  decisions : (∀ n ∈ artifact.nodeIds, n ≠ "") →
    ∀ decision ∈ artifact.chosen, decodeDecision (encodeDecision decision).sortKeys = .ok decision
  traceJson : artifact.traceJson = runtime.text (tracePayload trace).sortKeys

variable {trace : List TraceRecord} (captured : Captured artifact trace)

include captured

/-- The text of an artifact. -/
theorem Captured.toJson_eq : artifact.toJson runtime =
    .ok (runtime.text (artifact.document trace).sortKeys) := by
  have inverts := captured.inverts
  simp only [MultiPaxosTrialArtifact.texts, List.forall_mem_cons] at inverts
  obtain ⟨actions, faults, lifecycle, records, document, _⟩ := inverts
  rw [MultiPaxosTrialArtifact.toJson, captured.traceJson, SeededMultiPaxosActionSchedule.toJson,
    SeededFaultSchedule.toJson, SeededLifecycleSchedule.toJson]
  simp only [canonical_eq_ok actions.1, canonical_eq_ok faults.1, canonical_eq_ok lifecycle.1,
    except_ok_bind, loads_text actions, loads_text faults, loads_text lifecycle,
    loads_text records]
  exact canonical_eq_ok document.1

omit captured in
theorem memberOf_outcome (outcome : MultiPaxosScenarioOutcome) :
    memberOf "MultiPaxosScenarioOutcome" [.progress, .incomplete, .safetyViolation]
      MultiPaxosScenarioOutcome.value (.string outcome.value) = .ok outcome := by
  cases outcome <;> rfl

omit captured in
theorem distinct_document (artifact : MultiPaxosTrialArtifact runtime)
    (trace : List TraceRecord) : ([("version", Json.int 1), ("seed", .int artifact.seed),
    ("actions", artifact.actions.payload.sortKeys), ("faults", artifact.faults.payload.sortKeys),
    ("lifecycle", artifact.lifecycle.payload.sortKeys),
    ("node_ids", .array (artifact.nodeIds.map .string)),
    ("final_event_budget", .int artifact.finalEventBudget),
    ("outcome", .string artifact.outcome.value),
    ("chosen", .array (artifact.chosen.map encodeDecision)),
    ("violation", written .string artifact.violation),
    ("trace", (tracePayload trace).sortKeys)].map Prod.fst).Nodup := by
  simp

/-- The schedules of an artifact are read again exactly when the rules are concrete. -/
theorem Captured.decodeSchedules_iff {outcome : MultiPaxosScenarioOutcome}
    {actions : SeededMultiPaxosActionSchedule runtime} {faults : SeededFaultSchedule}
    {lifecycle : SeededLifecycleSchedule runtime} :
    decodeSchedules runtime (artifact.document trace).sortKeys =
        .ok (outcome, actions, faults, lifecycle) ↔
      (∀ rule ∈ artifact.faults.rules, Concrete rule.val) ∧ outcome = artifact.outcome ∧
        actions = artifact.actions ∧ faults = artifact.faults ∧ lifecycle = artifact.lifecycle := by
  have inverts := captured.inverts
  simp only [MultiPaxosTrialArtifact.texts, List.forall_mem_cons] at inverts
  obtain ⟨invertsActions, invertsFaults, invertsLifecycle, _, _⟩ := inverts
  have distinct := distinct_document artifact trace
  have atOutcome := field_sortKeys distinct "outcome" rfl
  have atActions := field_sortKeys distinct "actions" rfl
  have atFaults := field_sortKeys distinct "faults" rfl
  have atLifecycle := field_sortKeys distinct "lifecycle" rfl
  rw [decodeSchedules, MultiPaxosTrialArtifact.document, MultiPaxosTrialArtifact.payload, atOutcome,
    atActions, atFaults, atLifecycle]
  simp only [except_ok_bind, Json.sortKeys_string, memberOf_outcome, Json.sortKeys_sortKeys,
    canonical_sortKeys, canonical_eq_ok invertsActions.1, canonical_eq_ok invertsFaults.1,
    canonical_eq_ok invertsLifecycle.1, decodeLifecycleSchedule_toJson invertsLifecycle
      captured.lifecycleNodes, decodeActionSchedule_toJson invertsActions captured.actionNodes]
  rw [bind_eq_ok]
  constructor
  · rintro ⟨read, decoded, same⟩
    obtain ⟨concrete, rfl⟩ := (decodeFaultSchedule_toJson_iff invertsFaults).mp decoded
    cases same
    exact ⟨concrete, rfl, rfl, rfl, rfl⟩
  · rintro ⟨concrete, rfl, rfl, rfl, rfl⟩
    exact ⟨_, (decodeFaultSchedule_toJson_iff invertsFaults).mpr ⟨concrete, rfl⟩, rfl⟩

omit captured in
theorem nodeList_eq_ok_iff {message : String} {names result : List String} (nonempty : names ≠ []) :
    nodeList message (.array (names.map .string)) = .ok result ↔
      (∀ n ∈ names, n ≠ "") ∧ result = names := by
  have each : (names.map Json.string).mapM (stringOf message) = .ok names := by
    rw [List.mapM_map, mapM_eq_ok_map id, List.map_id]
    exact fun _ _ => rfl
  rw [nodeList, listOf, except_ok_bind, if_neg (by simpa using nonempty), each, except_ok_bind]
  by_cases named : ∀ n ∈ names, n ≠ ""
  · rw [if_neg (by simpa using fun empty => named "" empty rfl)]
    constructor
    · intro same
      cases same
      exact ⟨named, rfl⟩
    · rintro ⟨_, rfl⟩
      rfl
  · have empty : "" ∈ names := by
      by_contra absent
      exact named fun n member same => absent (same ▸ member)
    rw [if_pos (by simpa using empty)]
    constructor
    · intro same
      cases same
    · exact fun all => absurd all.1 named

omit captured in
theorem map_sortKeys_string (names : List String) :
    (names.map Json.string).map Json.sortKeys = names.map .string := by
  rw [List.map_map]
  exact List.map_congr_left fun _ _ => Json.sortKeys_string _

omit captured in
theorem eq_ok_of_reraised {α : Type} {clause : CodecError → Bool} {message : String}
    {result : Codec α} {a : α} (returned : reraised clause message result = .ok a) :
    result = .ok a := by
  cases result with
  | ok _ => exact returned
  | error error =>
      rw [reraised] at returned
      split at returned <;> cases returned

/-- The chosen decisions are read again where the nodes have names. -/
theorem Captured.decodeChosen_eq (named : ∀ n ∈ artifact.nodeIds, n ≠ "") :
    decodeChosen (artifact.chosen.map fun decision => (encodeDecision decision).sortKeys) =
      .ok artifact.chosen := by
  have each : (artifact.chosen.map fun decision => (encodeDecision decision).sortKeys).mapM
      decodeDecision = .ok artifact.chosen := by
    rw [List.mapM_map, mapM_eq_ok_map id, List.map_id]
    exact captured.decisions named
  have sorted : (artifact.chosen.map (·.slot)).Pairwise (· ≤ ·) :=
    captured.slots.imp fun less => le_of_lt less
  have unique : (artifact.chosen.map (·.slot)).Nodup := captured.slots.imp fun less => ne_of_lt less
  rw [decodeChosen, each, except_ok_bind, if_neg (not_not.mpr sorted), if_neg (not_not.mpr unique)]
  rfl

omit captured in
theorem listOf_array (message : String) (items : List Json) :
    listOf message (.array items) = .ok items := rfl

omit captured in
theorem listOf_tracePayload (message : String) (trace : List TraceRecord) :
    ∃ items, listOf message (tracePayload trace).sortKeys = .ok items := by
  rw [tracePayload, Json.sortKeys_array]
  exact ⟨_, rfl⟩

/-- **An artifact is read again** exactly when its nodes have names and its rules are
concrete. -/
theorem Captured.round_trips_iff :
    (artifact.toJson runtime >>= decodeTrialArtifact runtime) = .ok artifact ↔
      (∀ n ∈ artifact.nodeIds, n ≠ "") ∧ ∀ rule ∈ artifact.faults.rules, Concrete rule.val := by
  have inverts : runtime.Inverts (artifact.document trace).sortKeys :=
    captured.inverts _ (by simp [MultiPaxosTrialArtifact.texts])
  have distinct := distinct_document artifact trace
  have isObject (message : String) :
      objectOf message (artifact.document trace).sortKeys = .ok () := objectOf_sortKeys _ _
  have atVersion : optionalField (artifact.document trace).sortKeys "version" = _ :=
    optionalField_sortKeys distinct "version" rfl
  have atSeed : optionalField (artifact.document trace).sortKeys "seed" = _ :=
    optionalField_sortKeys distinct "seed" rfl
  have atNodes : optionalField (artifact.document trace).sortKeys "node_ids" = _ :=
    optionalField_sortKeys distinct "node_ids" rfl
  have atBudget : optionalField (artifact.document trace).sortKeys "final_event_budget" = _ :=
    optionalField_sortKeys distinct "final_event_budget" rfl
  have atChosen : optionalField (artifact.document trace).sortKeys "chosen" = _ :=
    optionalField_sortKeys distinct "chosen" rfl
  have atTrace : optionalField (artifact.document trace).sortKeys "trace" = _ :=
    optionalField_sortKeys distinct "trace" rfl
  have atViolation : optionalField (artifact.document trace).sortKeys "violation" = _ :=
    optionalField_sortKeys distinct "violation" rfl
  obtain ⟨items, isList⟩ := listOf_tracePayload "trace must be a list" trace
  rw [captured.toJson_eq, except_ok_bind, decodeTrialArtifact, loads_text inverts,
    except_ok_bind, isObject, except_ok_bind, atVersion, except_ok_bind, Json.sortKeys_int,
    if_pos (by simp), atSeed, except_ok_bind, Json.sortKeys_int, integer, except_ok_bind, atNodes,
    except_ok_bind, Json.sortKeys_array, map_sortKeys_string, atBudget, atChosen, atTrace,
    atViolation]
  -- the nodes come first, then nothing is refused before the schedules
  simp only [except_ok_bind, Json.sortKeys_int, integerFrom_int (Int.natCast_nonneg _),
    Json.sortKeys_array, listOf_array, Json.sortKeys_sortKeys, isList, sortKeys_writtenString,
    nullable_writtenString]
  have unique : ¬ ¬ artifact.nodeIds.Nodup := not_not.mpr captured.nodup
  constructor
  · intro read
    obtain ⟨_, names, read⟩ := bind_eq_ok.mp read
    obtain ⟨named, rfl⟩ := (nodeList_eq_ok_iff captured.nonempty).mp names
    rw [if_neg unique] at read
    obtain ⟨_, decoded, _⟩ := bind_eq_ok.mp read
    exact ⟨named, (captured.decodeSchedules_iff.mp (eq_ok_of_reraised decoded)).1⟩
  · rintro ⟨named, concrete⟩
    have schedules := captured.decodeSchedules_iff.mpr ⟨concrete, rfl, rfl, rfl, rfl⟩
    rw [(nodeList_eq_ok_iff captured.nonempty).mpr ⟨named, rfl⟩, except_ok_bind,
      if_neg unique, schedules, reraised, except_ok_bind]
    have seeds : ¬ (artifact.actions.seed ≠ artifact.seed ∨ artifact.faults.seed ≠ artifact.seed ∨
        artifact.lifecycle.seed ≠ artifact.seed) := by
      obtain ⟨actions, faults, lifecycle⟩ := captured.seeds
      simp [actions, faults, lifecycle]
    have chosen := captured.decodeChosen_eq named
    have writes : runtime.Writes (tracePayload trace).sortKeys :=
      (captured.inverts _ (by simp [MultiPaxosTrialArtifact.texts])).1
    have same : canonical runtime (tracePayload trace).sortKeys = .ok artifact.traceJson := by
      rw [canonical_sortKeys, canonical_eq_ok writes, captured.traceJson]
    dsimp only
    rw [if_neg seeds, List.map_map]
    rw [show (Json.sortKeys ∘ encodeDecision) = fun d => (encodeDecision d).sortKeys from rfl,
      chosen, except_ok_bind, same]
    rfl

end Artifacts

/-! ## Runs -/

section Runs

variable {runtime : JsonRuntime} (runner : MultiPaxosScenarioRunner runtime)
  (delivered : ℕ → List ℕ) (describe : SafetyViolation String → String) (trace : List TraceRecord)

/-- The artifact of a run. -/
def MultiPaxosScenarioRunner.artifact : MultiPaxosTrialArtifact runtime where
  seed := runner.actions.seed
  actions := runner.actions
  faults := runner.faults
  lifecycle := runner.lifecycle
  nodeIds := runner.nodeIds
  finalEventBudget := runner.finalEventBudget
  outcome := (runner.run delivered describe trace).outcome
  chosen := (runner.run delivered describe trace).chosen.map ChosenDecision.of
  violation := (runner.run delivered describe trace).violation
  traceJson := runtime.text (tracePayload trace).sortKeys

theorem capture_run (writes : runtime.Writes (tracePayload trace).sortKeys) :
    MultiPaxosTrialArtifact.capture runtime runner.actions runner.faults
      (runner.run delivered describe trace) (some runner.lifecycle) runner.nodeIds
      runner.finalEventBudget = .ok (runner.artifact delivered describe trace) := by
  have recorded : canonical runtime (tracePayload (runner.run delivered describe trace).trace) =
      .ok (runtime.text (tracePayload trace).sortKeys) := canonical_eq_ok writes
  rw [MultiPaxosTrialArtifact.capture, recorded]
  exact if_neg (by simp [runner.lifecycleSeeded, runner.seeded])

/-- What a run chose stands at increasing slots and has proposals of members. -/
theorem chosen_run : ((runner.run delivered describe trace).chosen.map (·.slot)).Pairwise (· < ·) ∧
    ∀ d ∈ (runner.run delivered describe trace).chosen,
      d.slot ≠ 0 ∧ ValidBallot runner.members d.proposal := by
  obtain ⟨done, same⟩ := @exists_scenarioEnd_eq _ _ _ _ runner.members
    (runner.scenario delivered).events (Cluster.fresh false)
  have chosen : (runner.run delivered describe trace).chosen =
      chosenSlots (MultiPaxos.run runner.members false done) := congrArg chosenSlots same
  have inv := run_inv runner.members false done
  rw [chosen, map_slot_chosenSlots inv.chosen]
  refine ⟨?_, fun d member => chosenSlots_valid inv member⟩
  have sorted := List.pairwise_insertionSort (· ≤ ·)
    (MultiPaxos.run runner.members false done).chosen.keys
  have nodup := (List.perm_insertionSort (· ≤ ·) _).nodup_iff.mpr
    (MultiPaxos.run runner.members false done).chosen.keys_nodup
  exact (sorted.and nodup).imp fun both => lt_of_le_of_ne both.1 both.2

/-- The values whose texts the codec writes and loads for the artifact of a run. -/
def MultiPaxosScenarioRunner.texts : List Json :=
  (runner.artifact delivered describe trace).texts trace

omit runner in
theorem sortKeys_of_isNode {nodeIds : List String} {value : Json}
    (known : isNode nodeIds value = true) : value.sortKeys = value := by
  cases value with
  | string name => exact Json.sortKeys_string name
  | _ => cases known

/-- The artifact of a run is as a run leaves it, with a library that reads its texts. -/
theorem captured_run
    (inverts : ∀ value ∈ runner.texts delivered describe trace, runtime.Inverts value) :
    Captured (runner.artifact delivered describe trace) trace := by
  obtain ⟨slots, valid⟩ := chosen_run runner delivered describe trace
  refine ⟨inverts, runner.nonempty, runner.nodup, ⟨rfl, runner.seeded.symm, runner.lifecycleSeeded⟩,
    fun action member => ?_, fun action member => ?_, ?_, fun named d member => ?_, rfl⟩
  · exact sortKeys_of_isNode (runner.known action member)
  · exact sortKeys_of_isNode (runner.lifecycleKnown action member)
  · have same : (runner.artifact delivered describe trace).chosen.map (·.slot) =
        (runner.run delivered describe trace).chosen.map (·.slot) := List.map_map ..
    rw [same]
    exact slots
  · obtain ⟨decision, chosen, rfl⟩ := List.mem_map.mp member
    obtain ⟨slot, round, proposer⟩ := valid decision chosen
    exact decodeDecision_of slot round (named _ proposer)

end Runs

/-! ## Concrete artifacts -/

section Samples

variable (runtime : JsonRuntime)

/-- Node n1 prepares and proposes a value at slot 1. -/
def sampleActions (value : String) : SeededMultiPaxosActionSchedule runtime where
  seed := 7
  actions := [
    ⟨.string "action-1", .string "n1", 4, .prepare none, by decide, by decide, by decide⟩,
    ⟨.string "action-2", .string "n1", 4, .propose 1 value, by decide, by decide,
      ⟨nofun, nofun⟩⟩]
  distinct := by
    show uniqueIds runtime _ (["action-1", "action-2"].map Json.string) = _
    rw [uniqueIds, Json.allDistinct_string]
    rfl

/-- The rules and the nodes of a trial of these actions. -/
def sampleRunner (value : String) (rule : AdmittedRule) (nodeIds : List String)
    (nodup : nodeIds.Nodup) (leader : "n1" ∈ nodeIds) : MultiPaxosScenarioRunner runtime where
  actions := sampleActions runtime value
  faults := ⟨7, [rule]⟩
  lifecycle := SeededLifecycleSchedule.empty runtime 7
  nodeIds := nodeIds
  finalEventBudget := 8
  nonempty := List.ne_nil_of_mem leader
  nodup := nodup
  known := by
    intro action member
    have same : action.nodeId = .string "n1" := by
      rcases List.mem_cons.mp member with rfl | member
      · rfl
      · rw [List.mem_singleton.mp member]
    rw [same]
    exact decide_eq_true leader
  seeded := rfl
  lifecycleSeeded := rfl
  lifecycleKnown := fun _ member => absurd member List.not_mem_nil
  bounded := fun _ member => absurd member List.not_mem_nil

/-- All messages are delivered. -/
def sampleDeliveries : ℕ → List ℕ
  | 0 => [0, 1, 2, 3]
  | 1 => [4, 5, 6, 7]
  | _ => []

def sampleTrace : List TraceRecord := [⟨0, "crash", .object [("node", .string "n1")]⟩]

end Samples

/-- A message from n1 to n2 is dropped. -/
def concreteRule : AdmittedRule :=
  ⟨⟨.drop, some "n1", some "n2", some 9, none, 0⟩, by decide⟩

/-- Every message of a kind is dropped. -/
def wildcardRule : AdmittedRule :=
  ⟨⟨.drop, none, none, none, some "LeaderAccepted", 0⟩, by decide⟩

/-- A runtime that writes as Python does and reads the values. -/
def readingRuntime (values : List Json) (keyed : values.all Json.keyed = true) : JsonRuntime where
  toJsonLibrary := .reading values
  integral _ := none
  comparesTuples := false
  keyed _ value read := List.all_eq_true.mp keyed value (JsonLibrary.mem_of_reading read)

/-- A runtime that reads no text. -/
def silentRuntime : JsonRuntime :=
  readingRuntime [] rfl

/-- The texts of a trial do not depend on the runtime. -/
def sampleTexts (rule : AdmittedRule) (nodeIds : List String) (nodup : nodeIds.Nodup)
    (leader : "n1" ∈ nodeIds) : List Json :=
  (sampleRunner silentRuntime "alpha" rule nodeIds nodup leader).texts sampleDeliveries
    (fun _ => "") sampleTrace

/-- A runtime that reads the texts of a trial. -/
def sampleRuntime (rule : AdmittedRule) (nodeIds : List String) (nodup : nodeIds.Nodup)
    (leader : "n1" ∈ nodeIds)
    (keyed : (sampleTexts rule nodeIds nodup leader).all Json.keyed = true) : JsonRuntime :=
  readingRuntime (sampleTexts rule nodeIds nodup leader) keyed

theorem nodup_sampleNodes : ["n1", "n2", "n3"].Nodup := by decide

theorem mem_sampleNodes : "n1" ∈ ["n1", "n2", "n3"] := by decide

/-- A trial with a concrete rule. -/
def concreteTrial :
    MultiPaxosScenarioRunner (sampleRuntime concreteRule ["n1", "n2", "n3"] nodup_sampleNodes
      mem_sampleNodes (by decide +kernel)) :=
  sampleRunner _ "alpha" concreteRule ["n1", "n2", "n3"] nodup_sampleNodes mem_sampleNodes

/-- A trial with a wildcard. -/
def wildcardTrial :
    MultiPaxosScenarioRunner (sampleRuntime wildcardRule ["n1", "n2", "n3"] nodup_sampleNodes
      mem_sampleNodes (by decide +kernel)) :=
  sampleRunner _ "alpha" wildcardRule ["n1", "n2", "n3"] nodup_sampleNodes mem_sampleNodes

/-- A trial with a nameless node. -/
def namelessTrial :
    MultiPaxosScenarioRunner (sampleRuntime concreteRule ["n1", "n2", ""] (by decide) (by decide)
      (by decide +kernel)) :=
  sampleRunner _ "alpha" concreteRule ["n1", "n2", ""] (by decide) (by decide)

theorem sampleTexts_inverts {rule : AdmittedRule} {nodeIds : List String} {nodup : nodeIds.Nodup}
    {leader : "n1" ∈ nodeIds}
    {keyed : (sampleTexts rule nodeIds nodup leader).all Json.keyed = true}
    (distinct : ((sampleTexts rule nodeIds nodup leader).map Json.write).Nodup) :
    ∀ value ∈ (sampleRunner (sampleRuntime rule nodeIds nodup leader keyed) "alpha" rule nodeIds
      nodup leader).texts sampleDeliveries (fun _ => "") sampleTrace,
      (sampleRuntime rule nodeIds nodup leader keyed).Inverts value :=
  fun _ member => JsonLibrary.reading_inverts distinct member

/-- The artifact is not read again, though the library reads every text. -/
def Refused {runtime : JsonRuntime} (runner : MultiPaxosScenarioRunner runtime) : Prop :=
  (∀ value ∈ runner.texts sampleDeliveries (fun _ => "") sampleTrace, runtime.Inverts value) ∧
    ((runner.artifact sampleDeliveries (fun _ => "") sampleTrace).toJson runtime >>=
      decodeTrialArtifact runtime) ≠
        .ok (runner.artifact sampleDeliveries (fun _ => "") sampleTrace)

end Distlab.MultiPaxos.Campaign
