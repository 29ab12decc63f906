import Distlab.MultiPaxos.Agreement

/-!
# Scenario runs

`MultiPaxosScenarioRunner` replays a schedule of actions. Before each action
come its lifecycle actions, each followed by `assert_safety`; after it the
simulator delivers messages and `assert_safety` runs again. An action of a
crashed node is skipped, a `PaxosError` or `ValueError` of an action is caught,
and a `PaxosSafetyViolation` ends the scenario.

The faults of a schedule decide which messages are delivered and when, so a
scenario here lists the deliveries that its faults lead to.

A schedule that proposes no second value under one ballot raises no false alarm
(`runScenario_eq_none`), as `no_false_alarm` says of every run.
-/

set_option autoImplicit false

namespace Distlab.MultiPaxos

open Foundations Paxos

variable {ν : Type} {α : Type}

/-- A lifecycle action: `CRASH` or `RESTART`. -/
inductive LifecycleAction (ν : Type) where
  | crash (node : ν)
  | restart (node : ν)

/-- `MultiPaxosAction`: `PREPARE` or `PROPOSE`. -/
inductive MultiPaxosAction (ν : Type) (α : Type) where
  | prepare (node : ν) (roundNumber : Option ℕ)
  | propose (node : ν) (slot : ℕ) (value : α)

/-- An action with the lifecycle actions before it and the deliveries after it. -/
structure ScenarioStep (ν : Type) (α : Type) where
  lifecycle : List (LifecycleAction ν) := []
  action : MultiPaxosAction ν α
  deliveries : List ℕ := []

/-- A schedule with its final lifecycle actions and deliveries. -/
structure Scenario (ν : Type) (α : Type) where
  steps : List (ScenarioStep ν α)
  finalLifecycle : List (LifecycleAction ν) := []
  finalDeliveries : List ℕ := []

def LifecycleAction.event : LifecycleAction ν → Event ν α
  | .crash n => .crash n
  | .restart n => .restart n

def MultiPaxosAction.event : MultiPaxosAction ν α → Event ν α
  | .prepare n roundNumber => .prepareLeadership n roundNumber
  | .propose n slot value => .propose n slot value

/-- `_apply_lifecycle_boundary`. -/
def lifecycleEvents (actions : List (LifecycleAction ν)) : List (Event ν α) :=
  actions.flatMap fun action => [action.event, .assertSafety]

/-- The events of a scenario, in order. -/
def Scenario.events (scenario : Scenario ν α) : List (Event ν α) :=
  (scenario.steps.flatMap fun s =>
    lifecycleEvents s.lifecycle ++ s.action.event :: s.deliveries.map .deliver ++
      [.assertSafety]) ++
  (lifecycleEvents scenario.finalLifecycle ++ scenario.finalDeliveries.map .deliver ++
    [.assertSafety])

/-- `_execute_action` skips the actions of a crashed node. -/
def skips (s : Cluster ν α) : Event ν α → Bool
  | .prepareLeadership n _ | .propose n _ _ => ¬ s.alive n
  | _ => false

variable [LinearOrder ν] [DecidableEq α] (M : Membership ν)

/-- `MultiPaxosScenarioRunner.run`: the violation that ends the scenario, if any. -/
def runScenario : List (Event ν α) → Cluster ν α → Option (SafetyViolation ν)
  | [], _ => none
  | event :: events, s =>
      if skips s event then runScenario events s
      else
        match (step M event s).error? with
        | some (.safety violation) => some violation
        | _ => runScenario events (step M event s).state

/-- The events that a scenario performs. -/
def performed : List (Event ν α) → Cluster ν α → List (Event ν α)
  | [], _ => []
  | event :: events, s =>
      if skips s event then performed events s
      else event :: performed events (step M event s).state

/-- A scenario ends in a violation only where one of its events raises it. -/
theorem runScenario_eq_some {M : Membership ν} {events : List (Event ν α)} {s : Cluster ν α}
    {violation : SafetyViolation ν} (ended : runScenario M events s = some violation) :
    ∃ before event after, performed M events s = before ++ event :: after ∧
      (step M event (runEvents (step M) before s)).error? = some (.safety violation) := by
  induction events generalizing s with
  | nil => cases ended
  | cons event events ih =>
      unfold runScenario at ended
      unfold performed
      split at ended
      next skipped =>
        rw [if_pos skipped]
        exact ih ended
      next done =>
        rw [if_neg done]
        split at ended
        next violation' raised =>
          obtain rfl := Option.some.inj ended
          exact ⟨[], event, _, rfl, raised⟩
        next =>
          obtain ⟨before, last, after, same, raised⟩ := ih ended
          exact ⟨event :: before, last, after, by rw [same]; rfl, raised⟩

/-- **The runner raises no false alarm**: a scenario that proposes no second value
under one ballot ends without a violation. -/
theorem runScenario_eq_none {M : Membership ν} {scenario : Scenario ν α}
    (once : EveryStep (step M) (ProposesOnce M)
      (performed M scenario.events (Cluster.fresh false)) (Cluster.fresh false)) :
    runScenario M scenario.events (Cluster.fresh false) = none := by
  by_contra ended
  obtain ⟨violation, ended⟩ := Option.ne_none_iff_exists'.mp ended
  obtain ⟨before, event, after, same, raised⟩ := runScenario_eq_some ended
  rw [same] at once
  have valued := run_oneValue M false before once.append_left
  have last : ProposesOnce M event (run M false before) := once.append_right.1
  exact (step_oneValue (run_inv M false before) valued last).error raised trivial

/-! ## Concrete runs -/

/-- Three nodes. -/
def threeNodes : Membership (Fin 3) := ⟨[0, 1, 2], by decide, by decide⟩

/-- Node 0 leads, has slot 1 decided with value 7, and proposes 8 at slot 1. -/
def reproposal : Scenario (Fin 3) ℕ where
  steps := [
    { action := .prepare 0 none, deliveries := [0, 1, 2, 3] },
    { action := .propose 0 1 7, deliveries := [4, 5, 6, 7] },
    { action := .propose 0 1 8 }]

/-- Slot 1 is decided by nodes 0 and 1, and node 0 has promised the ballot of
node 1 when it proposes again. Its own acceptor then refuses, but node 2 accepts. -/
def supersededReproposal : Scenario (Fin 3) ℕ where
  steps := [
    { action := .prepare 0 none, deliveries := [0, 1, 2, 3] },
    { action := .propose 0 1 7, deliveries := [4, 6] },
    { action := .prepare 1 none, deliveries := [7] },
    { action := .propose 0 1 8, deliveries := [11] }]

/-- Re-proposing a decided slot ends the first scenario in a violation. The
second leaves nodes 0 and 2 with different values at one slot and ballot. -/
theorem reproposal_violates :
    runScenario threeNodes reproposal.events (Cluster.fresh false) = some .acceptedConflict ∧
    (⟨1, ⟨1, 0⟩, 7⟩ ∈ ((runEvents (step threeNodes) supersededReproposal.events
      (Cluster.fresh false)).durable 0).acceptHistory ∧
    ⟨1, ⟨1, 0⟩, 8⟩ ∈ ((runEvents (step threeNodes) supersededReproposal.events
      (Cluster.fresh false)).durable 2).acceptHistory) := by
  decide +kernel

/-- A run in which slot 1 is decided and node 1 takes over with the same value. -/
def takeover : List (Event (Fin 3) ℕ) :=
  [.prepareLeadership 0 none, .deliver 0, .deliver 1, .deliver 2, .deliver 3, .propose 0 1 7,
    .deliver 4, .deliver 6, .prepareLeadership 1 none, .deliver 7, .deliver 8, .deliver 9,
    .propose 1 1 8]

theorem takeover_agrees :
    ¬ DurableMajority threeNodes (run threeNodes false takeover) ⟨1, ⟨2, 1⟩, 8⟩ := by
  intro large
  have same := (agreement threeNodes false takeover).1 1 ⟨2, 1⟩ ⟨1, 0⟩ 8 7 large
    (by decide +kernel)
  cases same

theorem takeover_raises_nothing :
    (∀ violation, (step threeNodes .assertSafety (run threeNodes false takeover)).error? ≠
      some (.safety violation)) ∧
    ∀ n n', ∀ e ∈ ((run threeNodes false (takeover ++ [.assertSafety])).durable n).acceptHistory,
      ∀ e' ∈ ((run threeNodes false (takeover ++ [.assertSafety])).durable n').acceptHistory,
        e.slot = e'.slot → e.proposal = e'.proposal → e.value = e'.value :=
  no_false_alarm threeNodes false takeover .assertSafety (by decide +kernel)

end Distlab.MultiPaxos
