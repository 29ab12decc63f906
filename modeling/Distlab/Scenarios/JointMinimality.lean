import Distlab.Scenarios.DeletionMinimality

/-!
# Coordinate-wise minimal scenarios

A loop of minimizers ends with a round in which none of them deleted anything. So each of
them saw the schedules that the loop returns, and the scenario is minimal in every
dimension at once.
-/

set_option autoImplicit false

namespace Distlab.Scenarios

open Foundations

/-! ## Projections -/

theorem project_eq_ok {projection kept through : List ℕ} :
    project projection kept = .ok through ↔
      through.map some = kept.map (projection[·]?) := by
  induction kept generalizing through with
  | nil =>
      rw [project, List.mapM_nil]
      cases through with
      | nil => exact iff_of_true rfl rfl
      | cons index rest =>
          constructor
          · intro same
            cases same
          · intro same
            cases same
  | cons index rest ih =>
      rw [project, List.mapM_cons, List.map_cons]
      cases found : projection[index]? with
      | none =>
          constructor
          · intro same
            cases same
          · intro same
            cases through <;> cases same
      | some original =>
          rw [bind_eq_ok]
          constructor
          · rintro ⟨_, ⟨⟩, later⟩
            obtain ⟨tail, projected, last⟩ := bind_eq_ok.mp later
            cases last
            rw [List.map_cons, ih.mp projected]
          · intro same
            cases through with
            | nil => cases same
            | cons head tail =>
                obtain ⟨⟨⟩, later⟩ := List.cons.inj same
                exact ⟨original, rfl, bind_eq_ok.mpr ⟨tail, ih.mpr later, rfl⟩⟩

/-- A restriction of a restriction, through the projection. -/
theorem Restricts.trans {α : Type} {valid : List α → Bool} {original part rest : Schedule valid}
    {kept positions through : List ℕ} (first : Restricts original part kept)
    (second : Restricts part rest positions) (projected : project kept positions = .ok through) :
    Restricts original rest through :=
  ⟨second.seed.trans first.seed, first.selects.trans second.selects (project_eq_ok.mp projected)⟩

/-! ## The faults -/

section Faults

variable (runner : Runner) (workload : SeededClientWorkloadSchedule)

/-- The scenario fails, and no single deletion of a fault keeps it failing. -/
structure MinimalFaults (faults : SeededFaultSchedule) (lifecycle : SeededLifecycleSchedule)
    (linkFaults : SeededLinkFaultSchedule) : Prop where
  fails : runner workload faults lifecycle linkFaults = .ok false
  faultsMinimal : ∀ position < faults.entries.length, HarmlessWithout
    (fun candidate => runner workload candidate lifecycle linkFaults) faults position
  lifecycleMinimal : ∀ position < lifecycle.entries.length, HarmlessWithout
    (fun candidate => runner workload faults candidate linkFaults) lifecycle position
  linkFaultsMinimal : ∀ position < linkFaults.entries.length, HarmlessWithout
    (fun candidate => runner workload faults lifecycle candidate) linkFaults position

/-- The schedules of the loop restrict the original ones. -/
structure CombinedLoop.Within (s : CombinedLoop) (faults : SeededFaultSchedule)
    (lifecycle : SeededLifecycleSchedule) (linkFaults : SeededLinkFaultSchedule) : Prop where
  faults : Restricts faults s.faults s.faultProjection
  lifecycle : Restricts lifecycle s.lifecycle s.lifecycleProjection
  linkFaults : Restricts linkFaults s.linkFaults s.linkProjection

/-- What one round of the fault minimizers does. -/
structure CombinedRound (s t : CombinedLoop) : Prop where
  within : ∀ {faults lifecycle linkFaults}, s.Within faults lifecycle linkFaults →
    t.Within faults lifecycle linkFaults
  faultsLe : t.faults.entries.length ≤ s.faults.entries.length
  lifecycleLe : t.lifecycle.entries.length ≤ s.lifecycle.entries.length
  linkFaultsLe : t.linkFaults.entries.length ≤ s.linkFaults.entries.length
  minimal : t.sizes = s.sizes → MinimalFaults runner workload t.faults t.lifecycle t.linkFaults

/-- **One round ends**, and a round that deletes nothing leaves minimal faults. -/
theorem combinedPass_spec (s : CombinedLoop) :
    combinedPass runner workload s ≠ .running ∧
      ∀ t, combinedPass runner workload s = .returned t → CombinedRound runner workload s t := by
  constructor
  · refine Looped.bind_ne_running (minimizeSchedule_spec hereditary_faults _).1 fun _ _ => ?_
    refine Looped.bind_ne_running (Looped.ofExcept_ne_running _) fun _ _ => ?_
    refine Looped.bind_ne_running (minimizeSchedule_spec hereditary_lifecycle _).1 fun _ _ => ?_
    refine Looped.bind_ne_running (Looped.ofExcept_ne_running _) fun _ _ => ?_
    refine Looped.bind_ne_running (minimizeSchedule_spec hereditary_linkFaults _).1 fun _ _ => ?_
    exact Looped.bind_ne_running (Looped.ofExcept_ne_running _) fun _ _ => by rintro ⟨⟩
  · intro t returned
    obtain ⟨faultReduction, minimized, rest⟩ := Looped.bind_eq_returned.mp returned
    obtain ⟨faultProjection, faultProjected, rest⟩ := Looped.bind_eq_returned.mp rest
    obtain ⟨lifecycleReduction, minimized', rest⟩ := Looped.bind_eq_returned.mp rest
    obtain ⟨lifecycleProjection, lifecycleProjected, rest⟩ := Looped.bind_eq_returned.mp rest
    obtain ⟨linkReduction, minimized'', rest⟩ := Looped.bind_eq_returned.mp rest
    obtain ⟨linkProjection, linkProjected, last⟩ := Looped.bind_eq_returned.mp rest
    cases last
    rw [Looped.ofExcept_eq_returned] at faultProjected lifecycleProjected linkProjected
    have faults := (minimizeSchedule_spec hereditary_faults s.faults).2 _ minimized
    have lifecycle := (minimizeSchedule_spec hereditary_lifecycle s.lifecycle).2 _ minimized'
    have linkFaults := (minimizeSchedule_spec hereditary_linkFaults s.linkFaults).2 _ minimized''
    refine ⟨fun within => ⟨within.faults.trans faults.restricts faultProjected,
      within.lifecycle.trans lifecycle.restricts lifecycleProjected,
      within.linkFaults.trans linkFaults.restricts linkProjected⟩,
      faults.restricts.length_le, lifecycle.restricts.length_le, linkFaults.restricts.length_le,
      fun stable => ?_⟩
    -- the round deleted nothing, so each minimizer saw the schedules that are returned
    obtain ⟨sameFaults, same⟩ := Prod.mk.inj stable
    obtain ⟨sameLifecycle, sameLinks⟩ := Prod.mk.inj same
    have lifecycleKept := lifecycle.restricts.eq_of_length sameLifecycle
    have linksKept := linkFaults.restricts.eq_of_length sameLinks
    refine ⟨linkFaults.fails, fun position below => ?_, fun position below => ?_,
      linkFaults.minimal⟩
    · have harmless := faults.minimal position below
      dsimp only at lifecycleKept linksKept ⊢
      rw [lifecycleKept, linksKept]
      exact harmless
    · have harmless := lifecycle.minimal position below
      dsimp only at linksKept ⊢
      rw [linksKept]
      exact harmless

/-- What the combined minimizer returns. -/
structure CombinedWitness (faults : SeededFaultSchedule) (lifecycle : SeededLifecycleSchedule)
    (linkFaults : SeededLinkFaultSchedule) (result : CombinedFaultScheduleMinimizationResult) :
    Prop where
  faults : Restricts faults result.faults result.keptFaultOriginalIndices
  lifecycle : Restricts lifecycle result.lifecycle result.keptLifecycleOriginalIndices
  linkFaults : Restricts linkFaults result.linkFaults result.keptLinkFaultOriginalIndices
  minimal : MinimalFaults runner workload result.faults result.lifecycle result.linkFaults

/-- **The combined minimizer ends**, and what it returns is minimal in every fault
dimension. -/
theorem minimizeCombined_spec (faults : SeededFaultSchedule) (lifecycle : SeededLifecycleSchedule)
    (linkFaults : SeededLinkFaultSchedule) :
    minimizeCombined runner workload faults lifecycle linkFaults ≠ .running ∧
      ∀ result, minimizeCombined runner workload faults lifecycle linkFaults = .returned result →
        CombinedWitness runner workload faults lifecycle linkFaults result := by
  set start : CombinedLoop := ⟨faults, lifecycle, linkFaults, List.range faults.entries.length,
    List.range lifecycle.entries.length, List.range linkFaults.entries.length⟩ with begins
  have loop := untilStable_ends CombinedLoop.sizes (combinedPass runner workload)
    (fun s => s.Within faults lifecycle linkFaults)
    (fun s => s.faults.entries.length + s.lifecycle.entries.length +
      s.linkFaults.entries.length)
    (fun s _ => (combinedPass_spec runner workload s).1)
    (fun s t within passed => ((combinedPass_spec runner workload s).2 t passed).within within)
    (fun s t _ passed => by
      obtain ⟨_, first, second, third, _⟩ := (combinedPass_spec runner workload s).2 t passed
      unfold CombinedLoop.sizes
      rw [Prod.mk.injEq, Prod.mk.injEq]
      omega)
    (Nat.lt_succ_self (start.faults.entries.length + start.lifecycle.entries.length +
      start.linkFaults.entries.length))
    ⟨restricts_self faults, restricts_self lifecycle, restricts_self linkFaults⟩
  obtain ⟨ends, spec⟩ := loop
  unfold minimizeCombined
  split
  · exact ⟨by rintro ⟨⟩, fun _ returned => by cases returned⟩
  constructor
  · refine Looped.bind_ne_running (Looped.ofExcept_ne_running _) fun linearizable _ => ?_
    cases linearizable with
    | true => rintro ⟨⟩
    | false => exact Looped.bind_ne_running ends fun _ _ => by rintro ⟨⟩
  · intro result returned
    obtain ⟨linearizable, _, rest⟩ := Looped.bind_eq_returned.mp returned
    cases linearizable with
    | true => cases rest
    | false =>
        obtain ⟨final, looped, last⟩ := Looped.bind_eq_returned.mp rest
        cases last
        obtain ⟨before, within, passed, stable⟩ := spec final looped
        have round := (combinedPass_spec runner workload before).2 final passed
        obtain ⟨ofFaults, ofLifecycle, ofLinks⟩ := round.within within
        exact ⟨ofFaults, ofLifecycle, ofLinks, round.minimal stable⟩

end Faults

/-! ## The scenario -/

section Scenario

variable (runner : Runner)

/-- The schedules of the joint loop restrict the original ones. -/
structure JointLoop.Within (s : JointLoop) (workload : SeededClientWorkloadSchedule)
    (faults : SeededFaultSchedule) (lifecycle : SeededLifecycleSchedule)
    (linkFaults : SeededLinkFaultSchedule) : Prop where
  workload : Restricts workload s.workload s.workloadProjection
  rest : s.rest.Within faults lifecycle linkFaults

/-- No single deletion of a client action keeps the scenario failing. -/
def MinimalWorkload (workload : SeededClientWorkloadSchedule) (faults : SeededFaultSchedule)
    (lifecycle : SeededLifecycleSchedule) (linkFaults : SeededLinkFaultSchedule) : Prop :=
  ∀ position < workload.entries.length, HarmlessWithout
    (fun candidate => runner candidate faults lifecycle linkFaults) workload position

theorem minimizeWorkload_spec (workload : SeededClientWorkloadSchedule)
    (faults : SeededFaultSchedule) (lifecycle : SeededLifecycleSchedule)
    (linkFaults : SeededLinkFaultSchedule) :
    minimizeWorkload runner workload faults lifecycle linkFaults ≠ .running ∧
      ∀ result, minimizeWorkload runner workload faults lifecycle linkFaults = .returned result →
        MinimalSchedule (fun candidate => runner candidate faults lifecycle linkFaults) workload
          result := by
  unfold minimizeWorkload
  split
  · exact minimizeSchedule_spec hereditary_workload workload
  · exact ⟨by rintro ⟨⟩, fun _ returned => by cases returned⟩

/-- What one round of the joint loop does. -/
structure JointRound (s t : JointLoop) : Prop where
  within : ∀ {workload faults lifecycle linkFaults},
    s.Within workload faults lifecycle linkFaults → t.Within workload faults lifecycle linkFaults
  workloadLe : t.workload.entries.length ≤ s.workload.entries.length
  faultsLe : t.rest.faults.entries.length ≤ s.rest.faults.entries.length
  lifecycleLe : t.rest.lifecycle.entries.length ≤ s.rest.lifecycle.entries.length
  linkFaultsLe : t.rest.linkFaults.entries.length ≤ s.rest.linkFaults.entries.length
  minimal : t.sizes = s.sizes →
    MinimalFaults runner t.workload t.rest.faults t.rest.lifecycle t.rest.linkFaults ∧
      MinimalWorkload runner t.workload t.rest.faults t.rest.lifecycle t.rest.linkFaults

/-- **One round of the joint loop ends**, and one that deletes nothing leaves a scenario
that is minimal in every dimension. -/
theorem jointPass_spec (s : JointLoop) :
    jointPass runner s ≠ .running ∧
      ∀ t, jointPass runner s = .returned t → JointRound runner s t := by
  constructor
  · refine Looped.bind_ne_running (minimizeCombined_spec ..).1 fun _ _ => ?_
    refine Looped.bind_ne_running (Looped.ofExcept_ne_running _) fun _ _ => ?_
    refine Looped.bind_ne_running (Looped.ofExcept_ne_running _) fun _ _ => ?_
    refine Looped.bind_ne_running (Looped.ofExcept_ne_running _) fun _ _ => ?_
    refine Looped.bind_ne_running (minimizeWorkload_spec ..).1 fun _ _ => ?_
    exact Looped.bind_ne_running (Looped.ofExcept_ne_running _) fun _ _ => by rintro ⟨⟩
  · intro t returned
    obtain ⟨faultReduction, minimized, rest⟩ := Looped.bind_eq_returned.mp returned
    obtain ⟨faultProjection, faultProjected, rest⟩ := Looped.bind_eq_returned.mp rest
    obtain ⟨lifecycleProjection, lifecycleProjected, rest⟩ := Looped.bind_eq_returned.mp rest
    obtain ⟨linkProjection, linkProjected, rest⟩ := Looped.bind_eq_returned.mp rest
    obtain ⟨workloadReduction, minimized', rest⟩ := Looped.bind_eq_returned.mp rest
    obtain ⟨workloadProjection, workloadProjected, last⟩ := Looped.bind_eq_returned.mp rest
    cases last
    rw [Looped.ofExcept_eq_returned] at faultProjected lifecycleProjected
    rw [Looped.ofExcept_eq_returned] at linkProjected workloadProjected
    have faults := (minimizeCombined_spec runner s.workload ..).2 _ minimized
    have workload := (minimizeWorkload_spec runner s.workload ..).2 _ minimized'
    refine ⟨fun within => ⟨within.workload.trans workload.restricts workloadProjected,
      within.rest.faults.trans faults.faults faultProjected,
      within.rest.lifecycle.trans faults.lifecycle lifecycleProjected,
      within.rest.linkFaults.trans faults.linkFaults linkProjected⟩,
      workload.restricts.length_le, faults.faults.length_le, faults.lifecycle.length_le,
      faults.linkFaults.length_le, fun stable => ⟨?_, workload.minimal⟩⟩
    -- the workload minimizer deleted nothing, so the faults are minimal for its workload
    have kept := workload.restricts.eq_of_length (Prod.mk.inj stable).1
    dsimp only at kept ⊢
    rw [kept]
    exact faults.minimal

/-- A schedule at the kept positions of the original one; the kept and the removed
positions are increasing and partition the positions of the original. -/
structure Splits {α : Type} {valid : List α → Bool} (original part : Schedule valid)
    (kept removed : List ℕ) : Prop where
  restricts : Restricts original part kept
  increasing : removed.Pairwise (· < ·)
  covers : ∀ index, index < original.entries.length ↔ index ∈ kept ∨ index ∈ removed
  disjoint : ∀ index ∈ kept, index ∉ removed

theorem Restricts.splits {α : Type} {valid : List α → Bool} {original part : Schedule valid}
    {kept : List ℕ} (restricts : Restricts original part kept) :
    Splits original part kept (unselected original.entries.length kept) where
  restricts := restricts
  increasing := increasing_unselected _ _
  covers index := by
    rw [mem_unselected]
    constructor
    · intro below
      by_cases listed : index ∈ kept
      · exact .inl listed
      · exact .inr ⟨below, listed⟩
    · rintro (listed | ⟨below, _⟩)
      · exact restricts.selects.lt_of_mem listed
      · exact below
  disjoint index listed removed := (mem_unselected.mp removed).2 listed

/-- A coordinate-wise minimal witness. -/
structure JointWitness (workload : SeededClientWorkloadSchedule) (faults : SeededFaultSchedule)
    (lifecycle : SeededLifecycleSchedule) (linkFaults : SeededLinkFaultSchedule)
    (result : JointScenarioMinimizationResult) : Prop where
  workload : Splits workload result.workload result.keptWorkloadOriginalIndices
    result.removedWorkloadOriginalIndices
  faults : Splits faults result.faults result.keptFaultOriginalIndices
    result.removedFaultOriginalIndices
  lifecycle : Splits lifecycle result.lifecycle result.keptLifecycleOriginalIndices
    result.removedLifecycleOriginalIndices
  linkFaults : Splits linkFaults result.linkFaults result.keptLinkFaultOriginalIndices
    result.removedLinkFaultOriginalIndices
  minimalFaults : MinimalFaults runner result.workload result.faults result.lifecycle
    result.linkFaults
  minimalWorkload : MinimalWorkload runner result.workload result.faults result.lifecycle
    result.linkFaults

/-- **The joint minimizer ends**, and whatever it returns is a coordinate-wise minimal
witness. -/
theorem joint_minimization (workload : SeededClientWorkloadSchedule)
    (faults : SeededFaultSchedule) (lifecycle : SeededLifecycleSchedule)
    (linkFaults : SeededLinkFaultSchedule) :
    minimizeJoint runner workload faults lifecycle linkFaults ≠ .running ∧
      ∀ result, minimizeJoint runner workload faults lifecycle linkFaults = .returned result →
        JointWitness runner workload faults lifecycle linkFaults result := by
  set start : JointLoop := ⟨workload, List.range workload.entries.length, faults, lifecycle,
    linkFaults, List.range faults.entries.length, List.range lifecycle.entries.length,
    List.range linkFaults.entries.length⟩ with begins
  have loop := untilStable_ends JointLoop.sizes (jointPass runner)
    (fun s => s.Within workload faults lifecycle linkFaults)
    (fun s => s.workload.entries.length + (s.rest.faults.entries.length +
      s.rest.lifecycle.entries.length + s.rest.linkFaults.entries.length))
    (fun s _ => (jointPass_spec runner s).1)
    (fun s t within passed => ((jointPass_spec runner s).2 t passed).within within)
    (fun s t _ passed => by
      obtain ⟨_, first, second, third, fourth, _⟩ := (jointPass_spec runner s).2 t passed
      unfold JointLoop.sizes CombinedLoop.sizes
      rw [Prod.mk.injEq, Prod.mk.injEq, Prod.mk.injEq]
      omega)
    (Nat.lt_succ_self (start.workload.entries.length + (start.rest.faults.entries.length +
      start.rest.lifecycle.entries.length + start.rest.linkFaults.entries.length)))
    ⟨restricts_self workload, restricts_self faults, restricts_self lifecycle,
      restricts_self linkFaults⟩
  obtain ⟨ends, spec⟩ := loop
  unfold minimizeJoint
  split
  · exact ⟨by rintro ⟨⟩, fun _ returned => by cases returned⟩
  constructor
  · refine Looped.bind_ne_running (Looped.ofExcept_ne_running _) fun linearizable _ => ?_
    cases linearizable with
    | true => rintro ⟨⟩
    | false => exact Looped.bind_ne_running ends fun _ _ => by rintro ⟨⟩
  · intro result returned
    obtain ⟨linearizable, _, rest⟩ := Looped.bind_eq_returned.mp returned
    cases linearizable with
    | true => cases rest
    | false =>
        obtain ⟨final, looped, last⟩ := Looped.bind_eq_returned.mp rest
        cases last
        obtain ⟨before, within, passed, stable⟩ := spec final looped
        have round := (jointPass_spec runner before).2 final passed
        obtain ⟨ofWorkload, ofFaults, ofLifecycle, ofLinks⟩ := round.within within
        obtain ⟨minimalFaults, minimalWorkload⟩ := round.minimal stable
        exact ⟨ofWorkload.splits, ofFaults.splits, ofLifecycle.splits, ofLinks.splits,
          minimalFaults, minimalWorkload⟩

end Scenario

/-! ## A guilty action -/

/-- Two client actions. -/
def twoActions : SeededClientWorkloadSchedule where
  seed := 7
  entries := [⟨"first", "client", "n1", .get, "key"⟩, ⟨"second", "client", "n2", .get, "key"⟩]
  passed := by decide

/-- A dropped message. -/
def oneDrop : SeededFaultSchedule where
  seed := 7
  entries := [{ action := .drop }]
  passed := rfl

/-- A scenario that fails whenever it has the second action. -/
def guiltySecond : Runner := fun workload _ _ _ =>
  .ok (workload.entries.all fun action => decide (action.operationId ≠ "second"))

/-- Only the second action remains. -/
theorem guilty_action_remains : ∃ result,
    minimizeJoint guiltySecond twoActions oneDrop ⟨7, [], rfl⟩ ⟨7, [], rfl⟩ = .returned result ∧
      result.keptWorkloadOriginalIndices = [1] ∧ result.keptFaultOriginalIndices = [] ∧
        JointWitness guiltySecond twoActions oneDrop ⟨7, [], rfl⟩ ⟨7, [], rfl⟩ result := by
  refine ⟨_, rfl, by decide +kernel, by decide +kernel, ?_⟩
  exact (joint_minimization guiltySecond twoActions oneDrop ⟨7, [], rfl⟩ ⟨7, [], rfl⟩).2 _ rfl

end Distlab.Scenarios
