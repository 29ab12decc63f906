import Distlab.MultiPaxos.ApplicationTexts

/-!
# The codec of application artifacts

The artifact of a runner and its report is read again. Every text is refused with a
`ValueError` or read as such an artifact, up to two kinds of texts: a text nested too deep
raises the library's `RecursionError`, when it is read or when parts of it are written, and
an artifact with an action id that is `NaN` equals no artifact where dataclasses are compared
field by field.
-/

set_option autoImplicit false

namespace Distlab.MultiPaxos.Campaign

open Foundations Scenarios

variable {runtime : JsonRuntime}

/-! ## Equality -/

namespace MultiPaxosApplicationArtifact

/-- `first == second`: the fields are equal, and the ids equal as Python compares them. -/
structure Equals (first second : MultiPaxosApplicationArtifact runtime) : Prop where
  actions : first.actions.Equals second.actions
  faults : first.faults = second.faults
  lifecycle : first.lifecycle.Equals second.lifecycle
  nodeIds : first.nodeIds = second.nodeIds
  finalEventBudget : first.finalEventBudget = second.finalEventBudget
  withheldAcks : first.withheldAcks = second.withheldAcks
  applicationRounds : first.applicationRounds = second.applicationRounds
  eventsPerRound : first.eventsPerRound = second.eventsPerRound
  reportJson : first.reportJson = second.reportJson
  reconstructionBoundary : first.reconstructionBoundary = second.reconstructionBoundary
  journalCheckpoint : first.journalCheckpoint = second.journalCheckpoint
  journalLimits : first.journalLimits = second.journalLimits

/-- The ids of the actions of an artifact. -/
def ids (artifact : MultiPaxosApplicationArtifact runtime) : List Json :=
  artifact.actions.actions.map (·.actionId) ++ artifact.lifecycle.actions.map (·.actionId)

/-- **An artifact equals itself** unless fields are compared one by one and one of its ids is
`NaN`. -/
theorem equals_self_iff (artifact : MultiPaxosApplicationArtifact runtime) :
    artifact.Equals artifact ↔ Comparable runtime artifact.ids := by
  rw [ids, comparable_append]
  constructor
  · exact fun same => ⟨artifact.actions.equals_self_iff.mp same.actions,
      artifact.lifecycle.equals_self_iff.mp same.lifecycle⟩
  · rintro ⟨actions, lifecycle⟩
    exact ⟨artifact.actions.equals_self_iff.mpr actions, rfl,
      artifact.lifecycle.equals_self_iff.mpr lifecycle, rfl, rfl, rfl, rfl, rfl, rfl, rfl, rfl, rfl⟩

/-- The artifact is written and read as an artifact that equals it. -/
def RoundTrips (artifact : MultiPaxosApplicationArtifact runtime) : Prop :=
  ∃ again, (artifact.toJson runtime >>= decodeApplicationArtifact runtime) = .ok again ∧
    artifact.Equals again

end MultiPaxosApplicationArtifact

/-- The values whose texts the codec of an artifact with a report writes and loads. -/
def artifactTexts (artifact : MultiPaxosApplicationArtifact runtime) (report : Json) : List Json :=
  [artifact.actions.payload.sortKeys, artifact.faults.payload.sortKeys,
    artifact.lifecycle.payload.sortKeys, report.sortKeys,
    (artifact.payload artifact.actions.payload.sortKeys artifact.faults.payload.sortKeys
      artifact.lifecycle.payload.sortKeys report.sortKeys).sortKeys]

/-- What `to_json` has written. -/
theorem writes_of_toJson {runner : MultiPaxosApplicationScenarioRunner runtime}
    {report : Report runtime} (kept : runtime.Writes report.value.sortKeys)
    (reads : ∀ value ∈ artifactTexts (reportArtifact runner report) report.value,
      runtime.Reads value) {encoded : String}
    (written : (reportArtifact runner report).toJson runtime = .ok encoded) :
    ∀ value ∈ artifactTexts (reportArtifact runner report) report.value, runtime.Writes value := by
  simp only [artifactTexts, List.forall_mem_cons] at reads
  obtain ⟨readsActions, readsFaults, readsLifecycle, readsReport, _⟩ := reads
  obtain ⟨_, dumped, written⟩ := bind_eq_ok.mp written
  obtain ⟨actions, rfl⟩ := writes_of_canonical dumped
  rw [loads_text (actions.inverts readsActions), except_ok_bind] at written
  obtain ⟨_, dumped, written⟩ := bind_eq_ok.mp written
  obtain ⟨faults, rfl⟩ := writes_of_canonical dumped
  rw [loads_text (faults.inverts readsFaults), except_ok_bind] at written
  obtain ⟨_, dumped, written⟩ := bind_eq_ok.mp written
  obtain ⟨lifecycle, rfl⟩ := writes_of_canonical dumped
  rw [loads_text (lifecycle.inverts readsLifecycle), except_ok_bind,
    show (reportArtifact runner report).reportJson = runtime.text report.value.sortKeys from rfl,
    loads_text (kept.inverts readsReport), except_ok_bind] at written
  have document := (writes_of_canonical written).1
  simp only [artifactTexts, List.forall_mem_cons]
  exact ⟨actions, faults, lifecycle, kept, document, fun _ member => absurd member List.not_mem_nil⟩

/-- An artifact of a runner and a report round trips exactly when nothing in it is nested too
deep to be written, and it equals itself. -/
theorem roundTrips_reportArtifact_iff {runner : MultiPaxosApplicationScenarioRunner runtime}
    {report : Report runtime} (named : ∀ n ∈ runner.nodeIds, n ≠ "")
    (kept : runtime.Writes report.value.sortKeys)
    (reads : ∀ value ∈ artifactTexts (reportArtifact runner report) report.value,
      runtime.Reads value) :
    (reportArtifact runner report).RoundTrips ↔
      (∀ value ∈ artifactTexts (reportArtifact runner report) report.value,
        runtime.Writes value) ∧ Comparable runtime (reportArtifact runner report).ids := by
  rw [← MultiPaxosApplicationArtifact.equals_self_iff]
  have again (writes : ∀ value ∈ artifactTexts (reportArtifact runner report) report.value,
      runtime.Writes value) := reportArtifact_round_trips named
    fun value member => (writes value member).inverts (reads value member)
  constructor
  · rintro ⟨other, read, same⟩
    obtain ⟨encoded, written, _⟩ := bind_eq_ok.mp read
    have writes := writes_of_toJson kept reads written
    rw [again writes] at read
    cases read
    exact ⟨writes, same⟩
  · exact fun both => ⟨_, again both.1, both.2⟩

/-! ## Ids in a text -/

/-- The ids of the actions of a schedule, as they stand in a text. -/
def scheduleIds (schedule : Json) : List Json :=
  match schedule.item "actions" with
  | .ok (.array items) => items.filterMap fun item => (item.item "action_id").toOption
  | _ => []

/-- The ids of the actions of an artifact, as they stand in a text. -/
def idsOf (raw : Json) : List Json :=
  ["actions", "lifecycle"].flatMap fun name =>
    match raw.item name with
    | .ok schedule => scheduleIds schedule
    | _ => []

theorem decodeAction_id {item : Json} {action : MultiPaxosAction}
    (read : decodeAction item = .ok action) : item.item "action_id" = .ok action.actionId := by
  obtain ⟨_, _, read⟩ := bind_eq_ok.mp read
  obtain ⟨actionId, found, read⟩ := bind_eq_ok.mp (eq_ok_of_reraised read)
  obtain ⟨_, _, read⟩ := bind_eq_ok.mp read
  obtain ⟨_, _, read⟩ := bind_eq_ok.mp read
  obtain ⟨_, _, read⟩ := bind_eq_ok.mp read
  obtain ⟨_, _, read⟩ := bind_eq_ok.mp read
  obtain ⟨_, _, read⟩ := bind_eq_ok.mp read
  obtain ⟨_, _, read⟩ := bind_eq_ok.mp read
  obtain ⟨_, _, read⟩ := bind_eq_ok.mp read
  unfold makeAction at read
  split at read
  · split at read
    · obtain ⟨_, _, read⟩ := bind_eq_ok.mp read
      obtain ⟨_, _, read⟩ := bind_eq_ok.mp read
      cases read
      exact item_of_field found
    · cases read
  · cases read

theorem decodeLifecycleAction_id {item : Json} {action : NodeLifecycleAction}
    (read : decodeLifecycleAction item = .ok action) :
    item.item "action_id" = .ok action.actionId := by
  obtain ⟨_, _, read⟩ := bind_eq_ok.mp read
  obtain ⟨actionId, found, read⟩ := bind_eq_ok.mp (eq_ok_of_reraised read)
  obtain ⟨_, _, read⟩ := bind_eq_ok.mp read
  obtain ⟨_, _, read⟩ := bind_eq_ok.mp read
  obtain ⟨_, _, read⟩ := bind_eq_ok.mp read
  obtain ⟨_, _, read⟩ := bind_eq_ok.mp read
  unfold makeLifecycleAction at read
  split at read
  · split at read
    · obtain ⟨_, _, read⟩ := bind_eq_ok.mp read
      cases read
      exact item_of_field found
    · cases read
  · cases read

/-- Entries that are read from sorted items have the ids of the items. -/
theorem isNan_ids_iff {α : Type} {decode : Json → Codec α} {idOf : α → Json} {items : List Json}
    {entries : List α} (keyed : ∀ item ∈ items, item.keyed = true)
    (own : ∀ item entry, decode item = .ok entry → item.item "action_id" = .ok (idOf entry))
    (read : (items.map Json.sortKeys).mapM decode = .ok entries) :
    (∀ id ∈ entries.map idOf, id.isNan = false) ↔
      ∀ id ∈ items.filterMap (fun item => (item.item "action_id").toOption), id.isNan = false := by
  obtain ⟨forth, back⟩ := mem_of_mapM_eq_ok read
  constructor
  · intro numbers id member
    obtain ⟨item, listed, found⟩ := List.mem_filterMap.mp member
    obtain ⟨entry, among, decoded⟩ := forth _ (List.mem_map_of_mem listed)
    obtain ⟨original, here, same⟩ := Json.item_of_item_sortKeys (keyed item listed)
      (own _ _ decoded)
    rw [here] at found
    cases found
    have number := numbers _ (List.mem_map_of_mem among)
    rwa [same, Json.isNan_sortKeys] at number
  · intro numbers id member
    obtain ⟨entry, among, rfl⟩ := List.mem_map.mp member
    obtain ⟨sorted, listed, decoded⟩ := back entry among
    obtain ⟨item, there, rfl⟩ := List.mem_map.mp listed
    obtain ⟨original, here, same⟩ := Json.item_of_item_sortKeys (keyed item there)
      (own _ _ decoded)
    rw [same, Json.isNan_sortKeys]
    exact numbers original (List.mem_filterMap.mpr ⟨item, there, by rw [here]; rfl⟩)

/-! ## Accepted texts -/

/-- The entries of a schedule that is read from sorted fields. -/
theorem scheduleFields_eq_ok {raw : Json} (keyed : raw.keyed = true)
    {name unsupported seeded message : String} {seed : ℤ} {entries : List Json}
    (read : scheduleFields runtime name unsupported seeded message raw.sortKeys =
      .ok (seed, entries)) :
    ∃ items, raw.item name = .ok (.array items) ∧ entries = items.map Json.sortKeys := by
  obtain ⟨_, passed, read⟩ := bind_eq_ok.mp read
  have object := isObject_of_objectOf passed
  cases raw with
  | object fields =>
      obtain ⟨_, _, read⟩ := bind_eq_ok.mp read
      split at read
      · obtain ⟨_, _, read⟩ := bind_eq_ok.mp read
        obtain ⟨value, found, read⟩ := bind_eq_ok.mp read
        obtain ⟨_, _, read⟩ := bind_eq_ok.mp read
        obtain ⟨_, listed, read⟩ := bind_eq_ok.mp read
        cases read
        rw [optionalField, Json.get_sortKeys_eq (Json.nodup_of_keyed keyed)] at found
        cases found
        cases there : fields.lookup name with
        | none =>
            rw [there, Option.getD_none, Json.sortKeys_null] at listed
            cases listed
        | some part =>
            rw [there, Option.getD_some] at listed
            cases part with
            | array items =>
                rw [Json.sortKeys_array] at listed
                cases listed
                exact ⟨items, by rw [Json.item, there], rfl⟩
            | _ =>
                rw [Json.sortKeys] at listed
                cases listed
      · cases read
  | _ =>
      rw [Json.sortKeys] at object
      cases object

theorem keyed_of_mem_array {items : List Json} (keyed : (Json.array items).keyed = true) :
    ∀ item ∈ items, item.keyed = true := by
  rw [Json.keyed] at keyed
  induction items with
  | nil => exact fun _ member => absurd member List.not_mem_nil
  | cons first items ih =>
      rw [Json.keyedItems, Bool.and_eq_true] at keyed
      exact List.forall_mem_cons.mpr ⟨keyed.1, ih keyed.2⟩

section Schedules

variable {raw : Json} (keyed : raw.keyed = true) (inverts : runtime.Inverts raw.sortKeys)

include keyed inverts

theorem isNan_actionIds_iff {schedule : SeededMultiPaxosActionSchedule runtime}
    (read : decodeActionSchedule runtime (runtime.text raw.sortKeys) = .ok schedule) :
    (∀ id ∈ schedule.actions.map (·.actionId), id.isNan = false) ↔
      ∀ id ∈ scheduleIds raw, id.isNan = false := by
  rw [decodeActionSchedule, loads_text inverts, except_ok_bind] at read
  obtain ⟨⟨seed, entries⟩, shaped, read⟩ := bind_eq_ok.mp read
  obtain ⟨actions, decoded, made⟩ := bind_eq_ok.mp read
  obtain ⟨items, there, rfl⟩ := scheduleFields_eq_ok keyed shaped
  have same : schedule.actions = actions := by
    unfold makeActionSchedule at made
    split at made <;> cases made
    rfl
  have each := keyed_of_mem_array (Json.keyed_of_item keyed there)
  rw [scheduleIds, there, same]
  exact isNan_ids_iff each (fun _ _ => decodeAction_id) decoded

theorem isNan_lifecycleIds_iff {schedule : SeededLifecycleSchedule runtime}
    (read : decodeLifecycleSchedule runtime (runtime.text raw.sortKeys) = .ok schedule) :
    (∀ id ∈ schedule.actions.map (·.actionId), id.isNan = false) ↔
      ∀ id ∈ scheduleIds raw, id.isNan = false := by
  rw [decodeLifecycleSchedule, loads_text inverts, except_ok_bind] at read
  obtain ⟨⟨seed, entries⟩, shaped, read⟩ := bind_eq_ok.mp read
  obtain ⟨actions, decoded, made⟩ := bind_eq_ok.mp read
  obtain ⟨items, there, rfl⟩ := scheduleFields_eq_ok keyed shaped
  have same : schedule.actions = actions := by
    unfold makeLifecycleSchedule at made
    split at made
    · cases made
    · split at made <;> cases made
      rfl
  have each := keyed_of_mem_array (Json.keyed_of_item keyed there)
  rw [scheduleIds, there, same]
  exact isNan_ids_iff each (fun _ _ => decodeLifecycleAction_id) decoded

end Schedules

/-- The constructor keeps the schedules and the nodes. -/
theorem makeApplicationRunner_fields {actions : SeededMultiPaxosActionSchedule runtime}
    {faults : SeededFaultSchedule} {lifecycle : SeededLifecycleSchedule runtime}
    {nodeIds : List String} {budget : Json} {withheld : List String}
    {rounds events boundary checkpoint : Json} {limits : Option CheckpointLimits}
    {runner : MultiPaxosApplicationScenarioRunner runtime}
    (made : makeApplicationRunner runtime actions faults lifecycle nodeIds budget withheld rounds
      events boundary checkpoint limits = .ok runner) :
    runner.actions = actions ∧ runner.lifecycle = lifecycle ∧ runner.nodeIds = nodeIds := by
  obtain ⟨base, first, made⟩ := bind_eq_ok.mp made
  have kept : base.actions = actions ∧ base.lifecycle = lifecycle ∧ base.nodeIds = nodeIds := by
    unfold makeScenarioRunner at first
    split at first
    · obtain ⟨_, _, first⟩ := bind_eq_ok.mp first
      split at first
      · split at first
        · obtain ⟨_, _, first⟩ := bind_eq_ok.mp first
          split at first
          · obtain ⟨_, _, first⟩ := bind_eq_ok.mp first
            cases first
            exact ⟨rfl, rfl, rfl⟩
          · cases first
        · cases first
      · cases first
    · cases first
  obtain ⟨_, _, made⟩ := bind_eq_ok.mp made
  obtain ⟨_, _, made⟩ := bind_eq_ok.mp made
  obtain ⟨_, _, made⟩ := bind_eq_ok.mp made
  obtain ⟨_, _, made⟩ := bind_eq_ok.mp made
  split at made
  · split at made
    · split at made
      · split at made
        · cases made
        · split at made
          · cases made
            exact kept
          · cases made
      · cases made
    · cases made
  · cases made

/-- What is read from a text that was written, was written. -/
theorem decodeActions_eq_ok {raw : Json} {schedule : SeededMultiPaxosActionSchedule runtime}
    (read : decodeActions runtime raw = .ok schedule) : ∃ value,
      raw.item "actions" = .ok value ∧ runtime.Writes value.sortKeys ∧
        decodeActionSchedule runtime (runtime.text value.sortKeys) = .ok schedule := by
  obtain ⟨value, found, read⟩ := bind_eq_ok.mp read
  obtain ⟨encoded, written, read⟩ := bind_eq_ok.mp read
  obtain ⟨writes, rfl⟩ := writes_of_canonical written
  exact ⟨value, item_of_field found, writes, read⟩

theorem decodeLifecycle_eq_ok {raw : Json} {schedule : SeededLifecycleSchedule runtime}
    (read : decodeLifecycle runtime raw = .ok schedule) : ∃ value,
      raw.item "lifecycle" = .ok value ∧ runtime.Writes value.sortKeys ∧
        decodeLifecycleSchedule runtime (runtime.text value.sortKeys) = .ok schedule := by
  obtain ⟨value, found, read⟩ := bind_eq_ok.mp read
  obtain ⟨encoded, written, read⟩ := bind_eq_ok.mp read
  obtain ⟨writes, rfl⟩ := writes_of_canonical written
  exact ⟨value, item_of_field found, writes, read⟩

/-- What the body of the reader accepts. -/
structure Accepted (raw : Json) (artifact : MultiPaxosApplicationArtifact runtime) : Prop where
  made : ∃ (runner : MultiPaxosApplicationScenarioRunner runtime) (report : Report runtime),
    artifact = reportArtifact runner report ∧ (∀ n ∈ runner.nodeIds, n ≠ "") ∧
      raw.item "report" = .ok report.value ∧ runtime.Writes report.value.sortKeys
  numbers : (∀ id ∈ artifact.ids, id.isNan = false) ↔ ∀ id ∈ idsOf raw, id.isNan = false

/-- What is accepted is the artifact of a runner and a report. -/
theorem accepted_of_body {raw : Json} (keyed : raw.keyed = true)
    (actions : ∀ value, raw.item "actions" = .ok value → runtime.Reads value.sortKeys)
    (lifecycle : ∀ value, raw.item "lifecycle" = .ok value → runtime.Reads value.sortKeys)
    {artifact : MultiPaxosApplicationArtifact runtime}
    (read : decodeApplicationBody runtime raw = .ok artifact) : Accepted raw artifact := by
  obtain ⟨runner, decoded, read⟩ := bind_eq_ok.mp read
  obtain ⟨value, there, read⟩ := bind_eq_ok.mp read
  obtain ⟨_, passed, read⟩ := bind_eq_ok.mp read
  obtain ⟨version, atVersion, read⟩ := bind_eq_ok.mp read
  have there := item_of_field there
  have object := isObject_of_objectOf passed
  split at read
  next one =>
    obtain ⟨encoded, written, read⟩ := bind_eq_ok.mp read
    obtain ⟨writes, rfl⟩ := writes_of_canonical written
    cases read
    obtain ⟨actionSchedule, readActions, decoded⟩ := bind_eq_ok.mp decoded
    obtain ⟨_, _, decoded⟩ := bind_eq_ok.mp decoded
    obtain ⟨_, _, decoded⟩ := bind_eq_ok.mp decoded
    obtain ⟨lifecycleSchedule, readLifecycle, decoded⟩ := bind_eq_ok.mp decoded
    obtain ⟨_, _, decoded⟩ := bind_eq_ok.mp decoded
    obtain ⟨_, _, decoded⟩ := bind_eq_ok.mp decoded
    obtain ⟨nodeIds, nodes, decoded⟩ := bind_eq_ok.mp decoded
    obtain ⟨_, _, decoded⟩ := bind_eq_ok.mp decoded
    obtain ⟨_, _, decoded⟩ := bind_eq_ok.mp decoded
    obtain ⟨_, _, decoded⟩ := bind_eq_ok.mp decoded
    obtain ⟨_, _, decoded⟩ := bind_eq_ok.mp decoded
    obtain ⟨_, _, decoded⟩ := bind_eq_ok.mp decoded
    obtain ⟨sameActions, sameLifecycle, sameNodes⟩ := makeApplicationRunner_fields decoded
    obtain ⟨rawActions, atActions, writesActions, readActions⟩ := decodeActions_eq_ok readActions
    obtain ⟨rawLifecycle, atLifecycle, writesLifecycle, readLifecycle⟩ :=
      decodeLifecycle_eq_ok readLifecycle
    have named : ∀ n ∈ runner.nodeIds, n ≠ "" := by
      rw [sameNodes]
      obtain ⟨_, _, nodes⟩ := bind_eq_ok.mp nodes
      split at nodes
      · cases nodes
      next none =>
        cases nodes
        intro n member empty
        exact none (List.any_eq_true.mpr ⟨n, member, decide_eq_true empty⟩)
    constructor
    · cases value with
      | object fields =>
          cases atVersion
          exact ⟨runner, ⟨fields, Json.nodup_of_keyed (Json.keyed_of_item keyed there), one⟩, rfl,
            named, there, writes⟩
      | _ => cases object
    · have first := isNan_actionIds_iff (Json.keyed_of_item keyed atActions)
        (writesActions.inverts (actions _ atActions)) readActions
      have second := isNan_lifecycleIds_iff (Json.keyed_of_item keyed atLifecycle)
        (writesLifecycle.inverts (lifecycle _ atLifecycle)) readLifecycle
      have ids : (runner.artifact (runtime.text value.sortKeys)).ids =
          actionSchedule.actions.map (·.actionId) ++
            lifecycleSchedule.actions.map (·.actionId) := by
        rw [← sameActions, ← sameLifecycle]
        rfl
      have raws : idsOf raw = scheduleIds rawActions ++ scheduleIds rawLifecycle := by
        simp [idsOf, atActions, atLifecycle]
      rw [ids, raws, List.forall_mem_append, List.forall_mem_append, first, second]
  next => cases read

/-! ## Every text -/

/-- The values whose texts the reading of a text writes and loads, and those of the artifact
that is read. -/
def textsFor (runtime : JsonRuntime) (encoded : String) : List Json :=
  match runtime.loads encoded with
  | .error _ => []
  | .ok raw =>
      (["actions", "lifecycle"].filterMap fun key => (raw.item key).toOption).map Json.sortKeys ++
        match decodeApplicationArtifact runtime encoded, raw.item "report" with
        | .ok artifact, .ok report => artifactTexts artifact report
        | _, _ => []

/-- The text is refused with a `ValueError`, or it is read as an artifact that round trips. -/
def Settled (runtime : JsonRuntime) (encoded : String) : Prop :=
  (∀ error, decodeApplicationArtifact runtime encoded = .error error →
      error.IsValueError = true) ∧
    ∀ artifact, decodeApplicationArtifact runtime encoded = .ok artifact → artifact.RoundTrips

/-- The value is a dictionary of version 1. -/
def Versioned (runtime : JsonRuntime) (raw : Json) : Prop :=
  ∃ version, raw.get "version" = .ok version ∧ Json.equalsInt runtime.integral version 1 = true

/-- The value that the library read is nested no deeper than it can be written, and where
dataclasses are compared field by field, no action id in it is `NaN`. -/
structure Shallow (runtime : JsonRuntime) (encoded : String) (raw : Json) : Prop where
  /-- Nothing that `from_json` writes is nested too deep. -/
  written : Versioned runtime raw → ∀ value, Written runtime raw value →
    runtime.Writes value.sortKeys
  /-- Nothing that `to_json` writes of the artifact is. -/
  again : ∀ artifact report, decodeApplicationArtifact runtime encoded = .ok artifact →
    raw.item "report" = .ok report →
      ∀ value ∈ artifactTexts artifact report, runtime.Writes value
  comparable : (∃ artifact, decodeApplicationArtifact runtime encoded = .ok artifact) →
    Comparable runtime (idsOf raw)

/-- The library reads the text or refuses it with a `ValueError`, and what it reads can be
written and compared. -/
def Readable (runtime : JsonRuntime) (encoded : String) : Prop :=
  runtime.loads encoded ≠ .error .recursion ∧
    ∀ raw, runtime.loads encoded = .ok raw → Shallow runtime encoded raw

theorem refused_of_caught {α : Type} {message : String} {result : Codec α}
    (caught : Caught result) :
    Raises (fun error => error.IsValueError = true)
      (reraised CodecError.caught message result) := by
  cases result with
  | ok a => exact raises_ok a
  | error error =>
      rw [reraised, if_pos (caught error rfl)]
      exact raises_error rfl

/-- A text that the library does not read. -/
theorem settled_iff_of_error {encoded : String} {error : LoadError}
    (loaded : runtime.loads encoded = .error error) :
    Settled runtime encoded ↔ Readable runtime encoded := by
  have raised : decodeApplicationArtifact runtime encoded = .error (.load error) := by
    rw [decodeApplicationArtifact, loads, loaded]
    rfl
  constructor
  · intro settled
    refine ⟨fun deep => ?_, fun raw read => absurd (loaded.symm.trans read) (by simp)⟩
    rw [loaded] at deep
    cases deep
    exact absurd (settled.1 _ raised) (by decide)
  · intro readable
    refine ⟨fun other failed => ?_, fun artifact read => absurd (raised.symm.trans read) (by simp)⟩
    rw [raised] at failed
    cases failed
    cases error with
    | decode => rfl
    | recursion => exact absurd loaded readable.1

section Loaded

variable {encoded : String} {raw : Json} (loaded : runtime.loads encoded = .ok raw)

include loaded

/-- A dictionary of version 1 is left to the body. -/
theorem decodeApplicationArtifact_of_versioned (versioned : Versioned runtime raw) :
    decodeApplicationArtifact runtime encoded =
      reraised CodecError.caught "invalid Multi-Paxos application artifact"
        (decodeApplicationBody runtime raw) := by
  obtain ⟨version, found, one⟩ := versioned
  have object : objectOf "unsupported Multi-Paxos application artifact" raw = .ok () := by
    cases raw with
    | object fields => rfl
    | _ => cases found
  rw [decodeApplicationArtifact, loads, loaded]
  show (objectOf _ raw >>= _) = _
  rw [object, except_ok_bind, optionalField, found]
  exact if_pos one

/-- Any other value is refused. -/
theorem decodeApplicationArtifact_of_not_versioned (other : ¬ Versioned runtime raw) :
    decodeApplicationArtifact runtime encoded =
      .error (.value "unsupported Multi-Paxos application artifact") := by
  rw [decodeApplicationArtifact, loads, loaded]
  show (objectOf _ raw >>= _) = _
  cases raw with
  | object fields => exact if_neg fun one => other ⟨_, rfl, one⟩
  | _ => rfl

end Loaded

/-- **A text is settled exactly when it is readable.** -/
theorem settled_iff_readable {encoded : String}
    (reads : ∀ value ∈ textsFor runtime encoded, runtime.Reads value) :
    Settled runtime encoded ↔ Readable runtime encoded := by
  cases loaded : runtime.loads encoded with
  | error error => exact settled_iff_of_error loaded
  | ok raw =>
      have keyed := runtime.keyed encoded raw loaded
      rw [textsFor, loaded] at reads
      have parts {key : String} (scheduled : key ∈ ["actions", "lifecycle"]) (value : Json)
          (there : raw.item key = .ok value) : runtime.Reads value.sortKeys := by
        refine reads _ (List.mem_append_left _ (List.mem_map_of_mem ?_))
        exact List.mem_filterMap.mpr ⟨key, scheduled, by rw [there]; rfl⟩
      have actions := @parts "actions" (by simp)
      have lifecycle := @parts "lifecycle" (by simp)
      have accepted {artifact : MultiPaxosApplicationArtifact runtime}
          (read : decodeApplicationArtifact runtime encoded = .ok artifact) :
          Accepted raw artifact := by
        by_cases versioned : Versioned runtime raw
        · rw [decodeApplicationArtifact_of_versioned loaded versioned] at read
          exact accepted_of_body keyed actions lifecycle (eq_ok_of_reraised read)
        · rw [decodeApplicationArtifact_of_not_versioned loaded versioned] at read
          cases read
      have round {artifact : MultiPaxosApplicationArtifact runtime} {report : Json}
          (read : decodeApplicationArtifact runtime encoded = .ok artifact)
          (there : raw.item "report" = .ok report) : artifact.RoundTrips ↔
            (∀ value ∈ artifactTexts artifact report, runtime.Writes value) ∧
              Comparable runtime (idsOf raw) := by
        obtain ⟨⟨runner, kept, rfl, named, found, writes⟩, numbers⟩ := accepted read
        cases there.symm.trans found
        rw [Comparable, ← numbers]
        refine roundTrips_reportArtifact_iff named writes fun value member => reads value ?_
        refine List.mem_append_right _ ?_
        simp only [read, there]
        exact member
      constructor
      · rintro ⟨refused, trips⟩
        refine ⟨fun deep => absurd (loaded.symm.trans deep) (by simp), fun raw' same => ?_⟩
        cases loaded.symm.trans same
        refine ⟨fun versioned value written => ?_, fun artifact report read there => ?_, ?_⟩
        · by_contra deep
          refine absurd (refused (.dump .recursion) ?_) (by decide)
          rw [decodeApplicationArtifact_of_versioned loaded versioned,
            decodeApplicationBody_of_deep written deep]
          rfl
        · exact ((round read there).mp (trips artifact read)).1
        · rintro ⟨artifact, read⟩
          obtain ⟨⟨_, _, _, _, there, _⟩, _⟩ := accepted read
          exact ((round read there).mp (trips artifact read)).2
      · rintro ⟨_, shallow⟩
        obtain ⟨written, again, comparable⟩ := shallow raw loaded
        refine ⟨?_, fun artifact read => ?_⟩
        · by_cases versioned : Versioned runtime raw
          · rw [decodeApplicationArtifact_of_versioned loaded versioned]
            exact refused_of_caught
              (caught_decodeApplicationBody (written versioned) actions lifecycle)
          · rw [decodeApplicationArtifact_of_not_versioned loaded versioned]
            exact raises_error rfl
        · obtain ⟨⟨_, report, _, _, there, _⟩, _⟩ := accepted read
          exact (round read there).mpr ⟨again artifact _ read there, comparable ⟨artifact, read⟩⟩

/-! ## Captured artifacts -/

/-- The report of a result. -/
def resultReport (runtime : JsonRuntime) (result : MultiPaxosApplicationResult) :
    Report runtime where
  fields := [("version", .int 1), ("outcome", .string result.outcome.value),
    ("violation", written .string result.violation),
    ("applied_slots", .array (result.appliedSlots.map fun entry =>
      .array [.string entry.1, .array (entry.2.map fun slot => .int slot)])),
    ("kv", .array (result.kv.map fun entry => .array [.string entry.1,
      .array (entry.2.map fun item => .array [.string item.1, .string item.2])])),
    ("completed", .array (result.completed.map fun entry =>
      .array [.string entry.1, written .string entry.2])),
    ("pending", .array (result.pending.map .string)),
    ("linearizable", written .bool result.linearizable),
    ("trace", (tracePayload result.trace).sortKeys)]
  distinct := by simp
  version := Json.equalsInt_int _ _ _

/-- The values whose texts capturing, writing and reading pass through the library. -/
def captureTexts (runner : MultiPaxosApplicationScenarioRunner runtime)
    (result : MultiPaxosApplicationResult) : List Json :=
  (tracePayload result.trace).sortKeys ::
    artifactTexts (reportArtifact runner (resultReport runtime result))
      (resultReport runtime result).value

theorem capture_eq_ok {runner : MultiPaxosApplicationScenarioRunner runtime}
    {result : MultiPaxosApplicationResult}
    (trace : runtime.Inverts (tracePayload result.trace).sortKeys)
    (report : runtime.Writes (resultReport runtime result).value.sortKeys) :
    MultiPaxosApplicationArtifact.capture runtime runner result =
      .ok (reportArtifact runner (resultReport runtime result)) := by
  have payload : result.payload (tracePayload result.trace).sortKeys =
      (resultReport runtime result).value := rfl
  rw [MultiPaxosApplicationArtifact.capture, MultiPaxosApplicationResult.toJson,
    canonical_eq_ok trace.1, except_ok_bind, loads_text trace, except_ok_bind, payload,
    canonical_eq_ok report]
  rfl

/-- A runner with a wildcard rule that withholds an acknowledgement and reconstructs the
cluster through a checkpoint. -/
def sampleApplication (runtime : JsonRuntime) : MultiPaxosApplicationScenarioRunner runtime where
  toMultiPaxosScenarioRunner :=
    sampleRunner runtime "put:key:value" wildcardRule ["n1", "n2", "n3"] nodup_sampleNodes
      mem_sampleNodes
  withheldAcks := {"action-2"}
  applicationRounds := 8
  eventsPerRound := 128
  reconstructionBoundary := some 1
  journalCheckpoint := true
  journalLimits := some {}
  busy := by decide
  within := by
    rintro _ ⟨⟩
    exact Nat.le_succ 1
  limited _ := ⟨rfl, rfl⟩
  checkpointed _ := rfl
  withheldKnown := by
    intro acknowledgement member
    obtain rfl := Finset.mem_singleton.mp member
    rfl
  requested := ⟨_, rfl⟩

/-- The result of a run. -/
def sampleResult : MultiPaxosApplicationResult where
  outcome := .progress
  violation := none
  appliedSlots := [("n1", [1])]
  kv := [("n1", [("key", "value")])]
  completed := []
  pending := ["action-2"]
  linearizable := some true
  trace := sampleTrace

/-- A runtime that writes as Python does and reads the texts of the first runner. -/
def sampleApplicationRuntime : JsonRuntime :=
  readingRuntime (captureTexts (sampleApplication silentRuntime) sampleResult)
    (by decide +kernel)

/-- A text of nested lists. -/
def nestedText (depth : ℕ) : String := String.ofList (List.replicate depth '[')

theorem length_nestedText (depth : ℕ) : (nestedText depth).length = depth := by
  rw [nestedText, String.length_ofList, List.length_replicate]

/-- A runtime that refuses texts that are nested too deep. -/
def nestedRuntime : JsonRuntime where
  dumps value := .ok value.write
  loads encoded := if encoded.length < 1000 then .error .decode else .error .recursion
  integral _ := none
  comparesTuples := false
  keyed _ _ read := by
    split at read <;> cases read

theorem nestedRuntime_raises {encoded : String} (long : ¬ encoded.length < 1000) :
    decodeApplicationArtifact nestedRuntime encoded = .error (.load .recursion) := by
  have deep : nestedRuntime.loads encoded = .error .recursion := if_neg long
  rw [decodeApplicationArtifact, loads, deep]
  rfl

theorem not_settled_of_recursion {encoded : String}
    (raised : decodeApplicationArtifact runtime encoded = .error (.load .recursion)) :
    ¬ Settled runtime encoded :=
  fun settled => absurd (settled.1 _ raised) (by decide)

end Distlab.MultiPaxos.Campaign
