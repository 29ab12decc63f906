import Distlab.Foundations.Looping
import Distlab.Foundations.Selection
import Distlab.Scenarios.Schedules

/-!
# The minimizers of non-linearizable scenarios

Each minimizer deletes entries of one schedule while a replay of the scenario stays
non-linearizable. The combined minimizer repeats the three fault minimizers until none
of them deletes; the joint minimizer repeats it with the workload minimizer.
-/

set_option autoImplicit false

namespace Distlab.Scenarios

open Foundations

/-! ## One sequence -/

section Sequence

variable {ε τ : Type} (preserves : List τ → Except ε Bool)

/-- `list(enumerate(entries))` -/
def enumerate (entries : List τ) : List (ℕ × τ) := entries.zipIdx.map Prod.swap

/-- The `for` loop of `minimize_indexed_sequence`, with the entries before the position
and from it on: the original index of the first deletion that preserves the failure, and
what remains. -/
def firstDeletion : List (ℕ × τ) → List (ℕ × τ) → Except ε (Option (ℕ × List (ℕ × τ)))
  | _, [] => .ok none
  | before, item :: after => do
      if ← preserves ((before ++ after).map Prod.snd) then .ok (some (item.1, before ++ after))
      else firstDeletion (before ++ [item]) after

/-- The `while` loop of `minimize_indexed_sequence`. -/
def deletionLoop : ℕ → List (ℕ × τ) → List ℕ → Looped ε (List (ℕ × τ) × List ℕ)
  | 0, _, _ => .running
  | fuel + 1, current, removed => do
      match ← Looped.ofExcept (firstDeletion preserves [] current) with
      | none => pure (current, removed)
      | some (originalIndex, candidateEntries) =>
          deletionLoop fuel candidateEntries (removed ++ [originalIndex])

/-- `minimize_indexed_sequence`. -/
def minimizeIndexedSequence (entries : List τ) : Looped ε (List (ℕ × τ) × List ℕ) := do
  let (current, removed) ← deletionLoop preserves (entries.length + 1) (enumerate entries) []
  pure (current, removed.insertionSort (· ≤ ·))

end Sequence

/-! ## One schedule -/

/-- What a minimizer raises. -/
inductive MinimizerError where
  /-- "... must share one seed" -/
  | seeds
  /-- "... minimization requires a non-linearizable scenario" -/
  | linearizable
  /-- `IndexError`, of a projection. -/
  | indexError
  /-- What a constructor or a run of a candidate raises. -/
  | runner (error : RunnerError)
  deriving DecidableEq

/-- The result of a minimizer of one schedule. -/
structure MinimizationResult {α : Type} (valid : List α → Bool) where
  schedule : Schedule valid
  keptOriginalIndices : List ℕ
  removedOriginalIndices : List ℕ

section OneSchedule

variable {α : Type} {valid : List α → Bool}

/-- An error of the runner, or of a constructor, leaves the minimizer. -/
def raising {β : Type} (result : Except RunnerError β) : Except MinimizerError β :=
  match result with
  | .error error => .error (.runner error)
  | .ok value => .ok value

/-- `preserves_failure`, of a minimizer that takes the caught errors for no failure. -/
def preservesFailure (caught : RunnerError → Bool) (run : Schedule valid → Except RunnerError Bool)
    (seed : ℤ) (actions : List α) : Except MinimizerError Bool := do
  let candidate ← raising (Schedule.make valid seed actions)
  match run candidate with
  | .error error => if caught error then .ok false else .error (.runner error)
  | .ok linearizable => .ok (!linearizable)

/-- The `minimize` of one schedule, with the others fixed. -/
def minimizeSchedule (caught : RunnerError → Bool) (run : Schedule valid → Except RunnerError Bool)
    (schedule : Schedule valid) : Looped MinimizerError (MinimizationResult valid) := do
  let linearizable ← .ofExcept (raising (run schedule))
  if linearizable then .raised .linearizable
  else
    let (current, removed) ←
      minimizeIndexedSequence (preservesFailure caught run schedule.seed) schedule.entries
    let minimized ← .ofExcept (raising (Schedule.make valid schedule.seed (current.map Prod.snd)))
    pure ⟨minimized, current.map Prod.fst, removed⟩

end OneSchedule

variable (runner : Runner)

/-- `NonLinearizableFaultScheduleMinimizer.minimize`. -/
def minimizeFaults (workload : SeededClientWorkloadSchedule) (faults : SeededFaultSchedule)
    (lifecycle : SeededLifecycleSchedule) (linkFaults : SeededLinkFaultSchedule) :=
  minimizeSchedule (fun _ => false)
    (fun candidate => runner workload candidate lifecycle linkFaults)
    faults

/-- `NonLinearizableLifecycleScheduleMinimizer.minimize`. -/
def minimizeLifecycle (workload : SeededClientWorkloadSchedule) (faults : SeededFaultSchedule)
    (lifecycle : SeededLifecycleSchedule) (linkFaults : SeededLinkFaultSchedule) :=
  minimizeSchedule (· = .scenarioExecution)
    (fun candidate => runner workload faults candidate linkFaults) lifecycle

/-- `NonLinearizableLinkFaultScheduleMinimizer.minimize`. -/
def minimizeLinkFaults (workload : SeededClientWorkloadSchedule) (faults : SeededFaultSchedule)
    (lifecycle : SeededLifecycleSchedule) (linkFaults : SeededLinkFaultSchedule) :=
  minimizeSchedule (fun error => error = .scenarioExecution ∨ error = .value)
    (fun candidate => runner workload faults lifecycle candidate) linkFaults

/-- The schedules share one seed. -/
def oneSeed (workload : SeededClientWorkloadSchedule) (faults : SeededFaultSchedule)
    (lifecycle : SeededLifecycleSchedule) (linkFaults : SeededLinkFaultSchedule) : Bool :=
  faults.seed = workload.seed ∧ lifecycle.seed = workload.seed ∧ linkFaults.seed = workload.seed

/-- `NonLinearizableClientWorkloadMinimizer.minimize`. -/
def minimizeWorkload (workload : SeededClientWorkloadSchedule) (faults : SeededFaultSchedule)
    (lifecycle : SeededLifecycleSchedule) (linkFaults : SeededLinkFaultSchedule) :
    Looped MinimizerError (MinimizationResult validWorkload) :=
  if oneSeed workload faults lifecycle linkFaults then
    minimizeSchedule (fun _ => false)
      (fun candidate => runner candidate faults lifecycle linkFaults) workload
  else .raised .seeds

/-! ## The faults -/

/-- `tuple(projection[index] for index in kept)` -/
def project (projection kept : List ℕ) : Except MinimizerError (List ℕ) :=
  kept.mapM fun index =>
    match projection[index]? with
    | none => .error .indexError
    | some original => .ok original

/-- The variables of the combined loop. -/
structure CombinedLoop where
  faults : SeededFaultSchedule
  lifecycle : SeededLifecycleSchedule
  linkFaults : SeededLinkFaultSchedule
  faultProjection : List ℕ
  lifecycleProjection : List ℕ
  linkProjection : List ℕ

def CombinedLoop.sizes (s : CombinedLoop) : ℕ × ℕ × ℕ :=
  (s.faults.entries.length, s.lifecycle.entries.length, s.linkFaults.entries.length)

/-- The body of the combined loop. -/
def combinedPass (workload : SeededClientWorkloadSchedule) (s : CombinedLoop) :
    Looped MinimizerError CombinedLoop := do
  let faultReduction ← minimizeFaults runner workload s.faults s.lifecycle s.linkFaults
  let faultProjection ← .ofExcept (project s.faultProjection faultReduction.keptOriginalIndices)
  let faults := faultReduction.schedule
  let lifecycleReduction ← minimizeLifecycle runner workload faults s.lifecycle s.linkFaults
  let lifecycleProjection ←
    .ofExcept (project s.lifecycleProjection lifecycleReduction.keptOriginalIndices)
  let lifecycle := lifecycleReduction.schedule
  let linkReduction ← minimizeLinkFaults runner workload faults lifecycle s.linkFaults
  let linkProjection ← .ofExcept (project s.linkProjection linkReduction.keptOriginalIndices)
  pure ⟨faults, lifecycle, linkReduction.schedule, faultProjection, lifecycleProjection,
    linkProjection⟩

/-- `CombinedFaultScheduleMinimizationResult`. -/
structure CombinedFaultScheduleMinimizationResult where
  faults : SeededFaultSchedule
  lifecycle : SeededLifecycleSchedule
  linkFaults : SeededLinkFaultSchedule
  keptFaultOriginalIndices : List ℕ
  removedFaultOriginalIndices : List ℕ
  keptLifecycleOriginalIndices : List ℕ
  removedLifecycleOriginalIndices : List ℕ
  keptLinkFaultOriginalIndices : List ℕ
  removedLinkFaultOriginalIndices : List ℕ

/-- `NonLinearizableCombinedFaultScheduleMinimizer.minimize`. -/
def minimizeCombined (workload : SeededClientWorkloadSchedule) (faults : SeededFaultSchedule)
    (lifecycle : SeededLifecycleSchedule) (linkFaults : SeededLinkFaultSchedule) :
    Looped MinimizerError CombinedFaultScheduleMinimizationResult := do
  if ¬ oneSeed workload faults lifecycle linkFaults then .raised .seeds
  else
    let linearizable ← .ofExcept (raising (runner workload faults lifecycle linkFaults))
    if linearizable then .raised .linearizable
    else
      let size := faults.entries.length + lifecycle.entries.length + linkFaults.entries.length
      let final ← untilStable CombinedLoop.sizes (combinedPass runner workload) (size + 1)
        ⟨faults, lifecycle, linkFaults, List.range faults.entries.length,
          List.range lifecycle.entries.length, List.range linkFaults.entries.length⟩
      pure
        { faults := final.faults
          lifecycle := final.lifecycle
          linkFaults := final.linkFaults
          keptFaultOriginalIndices := final.faultProjection
          removedFaultOriginalIndices := unselected faults.entries.length final.faultProjection
          keptLifecycleOriginalIndices := final.lifecycleProjection
          removedLifecycleOriginalIndices :=
            unselected lifecycle.entries.length final.lifecycleProjection
          keptLinkFaultOriginalIndices := final.linkProjection
          removedLinkFaultOriginalIndices :=
            unselected linkFaults.entries.length final.linkProjection }

/-! ## The scenario -/

/-- The variables of the joint loop. -/
structure JointLoop where
  workload : SeededClientWorkloadSchedule
  workloadProjection : List ℕ
  rest : CombinedLoop

/-- `_sizes` -/
def JointLoop.sizes (s : JointLoop) : ℕ × ℕ × ℕ × ℕ := (s.workload.entries.length, s.rest.sizes)

/-- The body of the joint loop. -/
def jointPass (s : JointLoop) : Looped MinimizerError JointLoop := do
  let faultReduction ←
    minimizeCombined runner s.workload s.rest.faults s.rest.lifecycle s.rest.linkFaults
  let faultProjection ←
    .ofExcept (project s.rest.faultProjection faultReduction.keptFaultOriginalIndices)
  let lifecycleProjection ←
    .ofExcept (project s.rest.lifecycleProjection faultReduction.keptLifecycleOriginalIndices)
  let linkProjection ←
    .ofExcept (project s.rest.linkProjection faultReduction.keptLinkFaultOriginalIndices)
  let workloadReduction ← minimizeWorkload runner s.workload faultReduction.faults
    faultReduction.lifecycle faultReduction.linkFaults
  let workloadProjection ←
    .ofExcept (project s.workloadProjection workloadReduction.keptOriginalIndices)
  pure ⟨workloadReduction.schedule, workloadProjection, faultReduction.faults,
    faultReduction.lifecycle, faultReduction.linkFaults, faultProjection, lifecycleProjection,
    linkProjection⟩

/-- `JointScenarioMinimizationResult`. -/
structure JointScenarioMinimizationResult where
  workload : SeededClientWorkloadSchedule
  faults : SeededFaultSchedule
  lifecycle : SeededLifecycleSchedule
  linkFaults : SeededLinkFaultSchedule
  keptWorkloadOriginalIndices : List ℕ
  removedWorkloadOriginalIndices : List ℕ
  keptFaultOriginalIndices : List ℕ
  removedFaultOriginalIndices : List ℕ
  keptLifecycleOriginalIndices : List ℕ
  removedLifecycleOriginalIndices : List ℕ
  keptLinkFaultOriginalIndices : List ℕ
  removedLinkFaultOriginalIndices : List ℕ

/-- `NonLinearizableJointScenarioMinimizer.minimize`. -/
def minimizeJoint (workload : SeededClientWorkloadSchedule) (faults : SeededFaultSchedule)
    (lifecycle : SeededLifecycleSchedule) (linkFaults : SeededLinkFaultSchedule) :
    Looped MinimizerError JointScenarioMinimizationResult := do
  if ¬ oneSeed workload faults lifecycle linkFaults then .raised .seeds
  else
    let linearizable ← .ofExcept (raising (runner workload faults lifecycle linkFaults))
    if linearizable then .raised .linearizable
    else
      let size := workload.entries.length + (faults.entries.length + lifecycle.entries.length +
        linkFaults.entries.length)
      let final ← untilStable JointLoop.sizes (jointPass runner) (size + 1)
        ⟨workload, List.range workload.entries.length, faults, lifecycle, linkFaults,
          List.range faults.entries.length, List.range lifecycle.entries.length,
          List.range linkFaults.entries.length⟩
      pure
        { workload := final.workload
          faults := final.rest.faults
          lifecycle := final.rest.lifecycle
          linkFaults := final.rest.linkFaults
          keptWorkloadOriginalIndices := final.workloadProjection
          removedWorkloadOriginalIndices :=
            unselected workload.entries.length final.workloadProjection
          keptFaultOriginalIndices := final.rest.faultProjection
          removedFaultOriginalIndices := unselected faults.entries.length final.rest.faultProjection
          keptLifecycleOriginalIndices := final.rest.lifecycleProjection
          removedLifecycleOriginalIndices :=
            unselected lifecycle.entries.length final.rest.lifecycleProjection
          keptLinkFaultOriginalIndices := final.rest.linkProjection
          removedLinkFaultOriginalIndices :=
            unselected linkFaults.entries.length final.rest.linkProjection }

end Distlab.Scenarios
