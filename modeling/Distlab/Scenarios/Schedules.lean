import Mathlib.Data.Nat.Notation
import Mathlib.Data.Int.Notation
import Mathlib.Data.List.Pairwise
import Mathlib.Data.List.Nodup

/-!
# Explicit schedules

The four schedules of a replayed scenario: client actions, message faults, crashes and
restarts, and link faults. The constructor of a schedule checks its entries; a deletion
passes the check again.
-/

set_option autoImplicit false

namespace Distlab.Scenarios

/-! ## Entries -/

/-- What a `ClientWorkloadAction` does, by its `ClientOperationKind`. -/
inductive ClientOperation where
  | put (value : String) (requestId : ℕ)
  | get
  | delete (requestId : ℕ)
  | retry (retryOf : String)
  deriving DecidableEq

/-- `ClientWorkloadAction`. -/
structure ClientWorkloadAction where
  operationId : String
  clientId : String
  nodeId : String
  kind : ClientOperation
  key : String
  deriving DecidableEq

/-- `FaultAction`. -/
inductive FaultAction where
  | deliver
  | drop
  | delay
  | duplicate
  deriving DecidableEq

/-- `FaultRule`. -/
structure FaultRule where
  action : FaultAction
  src : Option String := none
  dst : Option String := none
  ordinal : Option ℕ := none
  payloadType : Option String := none
  extraDelay : ℕ := 0
  deriving DecidableEq

/-- `NodeLifecycleKind`. -/
inductive NodeLifecycleKind where
  | crash
  | restart
  deriving DecidableEq

/-- `NodeLifecycleAction`. -/
structure NodeLifecycleAction where
  actionId : String
  nodeId : String
  kind : NodeLifecycleKind
  beforeActionIndex : ℕ
  deriving DecidableEq

/-- What a `LinkFaultAction` does, by its `LinkFaultKind`. -/
inductive LinkFault where
  | block
  | heal
  | setDelay (extraDelay : ℕ)
  | clearDelay
  deriving DecidableEq

/-- `LinkFaultAction`. -/
structure LinkFaultAction where
  actionId : String
  kind : LinkFault
  src : String
  dst : String
  beforeActionIndex : ℕ
  deriving DecidableEq

/-! ## Schedules -/

/-- What a run of a scenario raises. -/
inductive RunnerError where
  /-- `ScenarioExecutionError`. -/
  | scenarioExecution
  /-- `ValueError`. -/
  | value
  /-- Any other exception. -/
  | other (name : String)
  deriving DecidableEq

/-- A seed and entries that passed the check of the constructor. -/
structure Schedule {α : Type} (valid : List α → Bool) where
  seed : ℤ
  entries : List α
  passed : valid entries = true

variable {α : Type} {valid : List α → Bool}

/-- The constructor. -/
def Schedule.make (valid : List α → Bool) (seed : ℤ) (entries : List α) :
    Except RunnerError (Schedule valid) :=
  if passed : valid entries = true then .ok ⟨seed, entries, passed⟩ else .error .value

/-- The ids are unique and the boundaries in order. -/
def boundaryOrdered (entries : List α) (actionId : α → String) (before : α → ℕ) : Bool :=
  decide ((entries.map actionId).Nodup) && decide ((entries.map before).Pairwise (· ≤ ·))

/-- The check of `SeededClientWorkloadSchedule`. -/
def validWorkload (actions : List ClientWorkloadAction) : Bool :=
  decide ((actions.map (·.operationId)).Nodup)

/-- `SeededClientWorkloadSchedule`. -/
abbrev SeededClientWorkloadSchedule := Schedule validWorkload

/-- `SeededFaultSchedule`: its constructor checks nothing. -/
abbrev SeededFaultSchedule := Schedule fun _ : List FaultRule => true

/-- The check of `SeededLifecycleSchedule`. -/
def validLifecycle (actions : List NodeLifecycleAction) : Bool :=
  boundaryOrdered actions (·.actionId) (·.beforeActionIndex)

/-- `SeededLifecycleSchedule`. -/
abbrev SeededLifecycleSchedule := Schedule validLifecycle

/-- The check of `SeededLinkFaultSchedule`. -/
def validLinkFaults (actions : List LinkFaultAction) : Bool :=
  boundaryOrdered actions (·.actionId) (·.beforeActionIndex)

/-- `SeededLinkFaultSchedule`. -/
abbrev SeededLinkFaultSchedule := Schedule validLinkFaults

/-- `ReplicatedKVScenarioRunner(...).run()`: the verdict of the checker, or what it raises. -/
abbrev Runner := SeededClientWorkloadSchedule → SeededFaultSchedule → SeededLifecycleSchedule →
  SeededLinkFaultSchedule → Except RunnerError Bool

/-! ## Deletions -/

/-- A part of valid entries is valid. -/
def Hereditary (valid : List α → Bool) : Prop :=
  ∀ entries part : List α, part.Sublist entries → valid entries = true → valid part = true

theorem hereditary_boundaryOrdered (actionId : α → String) (before : α → ℕ) :
    Hereditary fun entries => boundaryOrdered entries actionId before := by
  intro entries part within passed
  unfold boundaryOrdered at passed ⊢
  rw [Bool.and_eq_true, decide_eq_true_eq, decide_eq_true_eq] at passed ⊢
  exact ⟨passed.1.sublist (within.map actionId), passed.2.sublist (within.map before)⟩

theorem hereditary_workload : Hereditary validWorkload := by
  intro entries part within passed
  unfold validWorkload at passed ⊢
  rw [decide_eq_true_eq] at passed ⊢
  exact passed.sublist (within.map _)

theorem hereditary_faults : Hereditary fun _ : List FaultRule => true := fun _ _ _ _ => rfl

theorem hereditary_lifecycle : Hereditary validLifecycle := hereditary_boundaryOrdered _ _

theorem hereditary_linkFaults : Hereditary validLinkFaults := hereditary_boundaryOrdered _ _

/-- Schedules of one seed with the same entries are equal. -/
theorem Schedule.ext_entries {first second : Schedule valid} (seed : first.seed = second.seed)
    (entries : first.entries = second.entries) : first = second := by
  cases first
  cases second
  cases seed
  cases entries
  rfl

theorem Schedule.make_of_valid {seed : ℤ} {entries : List α} (passed : valid entries = true) :
    Schedule.make valid seed entries = .ok ⟨seed, entries, passed⟩ := dif_pos passed

end Distlab.Scenarios
