import Distlab.Paxos.Node

/-!
# The safety harnesses and the recovery of decisions

`PaxosSafetyHarness` and `PaxosLogSafetyHarness` rebuild from the durable accept
histories which values majorities accepted. `RecoveringPaxosLogCluster` derives
its decisions in the same way.
-/

set_option autoImplicit false

namespace Distlab.Paxos

open Foundations

variable {σ ν α : Type} [DecidableEq σ] [LinearOrder ν] [DecidableEq α] [BEq α]
  (D : Decrees σ) (M : Members ν)

/-! ## Durable evidence -/

/-- The accepted values of the histories with their acceptors, and one value for
each slot and proposal. -/
structure Gathered (σ ν α : Type) where
  evidence : List (AcceptedValue σ ν α × Finset ν) := []
  proposalValues : List (AcceptedValue σ ν α) := []

/-- An acceptor of an accepted value. -/
def addEvidence (n : ν) (accepted : AcceptedValue σ ν α) :
    List (AcceptedValue σ ν α × Finset ν) → List (AcceptedValue σ ν α × Finset ν)
  | [] => [(accepted, {n})]
  | item :: rest =>
      if item.1.slot = accepted.slot ∧ item.1.proposal = accepted.proposal ∧
          item.1.value == accepted.value then
        (item.1, insert n item.2) :: rest
      else item :: addEvidence n accepted rest

/-- The value of a slot and proposal, which may have no other one. -/
def noteValue (values : List (AcceptedValue σ ν α)) (accepted : AcceptedValue σ ν α) :
    Check σ ν (List (AcceptedValue σ ν α)) :=
  match values.find? fun known =>
      known.slot = accepted.slot ∧ known.proposal = accepted.proposal with
  | some known =>
      if known.value != accepted.value then
        .error (.safety (.conflictingAccepted accepted.slot accepted.proposal))
      else .ok values
  | none => .ok (values ++ [accepted])

/-- The loop over one accepted value. -/
def gather (n : ν) (gathered : Gathered σ ν α) (accepted : AcceptedValue σ ν α) :
    Check σ ν (Gathered σ ν α) := do
  let values ← noteValue gathered.proposalValues accepted
  .ok ⟨addEvidence n accepted gathered.evidence, values⟩

/-- The loop over the history of one node. -/
def gatherNode (s : Cluster σ ν α) (gathered : Gathered σ ν α) (n : ν) :
    Check σ ν (Gathered σ ν α) :=
  (s.durable n).acceptHistory.foldlM (gather n) gathered

/-- The values that a quorum accepted at one proposal. -/
def chosenValues (evidence : List (AcceptedValue σ ν α × Finset ν)) :
    List (AcceptedValue σ ν α) :=
  (evidence.filter fun item => M.quorumSize ≤ item.2.card).map (·.1)

/-- The chosen values of a slot agree. -/
def assertOneChosen (chosen : List (AcceptedValue σ ν α)) (slot : σ) : Check σ ν Unit :=
  match chosen.filter (·.slot = slot) with
  | [] => .ok ()
  | first :: rest =>
      if rest.any (·.value != first.value) then .error (.safety (.multipleChosen slot)) else .ok ()

/-- The first chosen value of a slot, if there is one. -/
def firstChosen (chosen : List (AcceptedValue σ ν α)) (slot : σ) : Option α :=
  (chosen.find? (·.slot = slot)).map (·.value)

/-- The first chosen value of the slot is the decision's: there is one, and it does
not differ. -/
def hasEvidence (chosen : List (AcceptedValue σ ν α)) (slot : σ) (value : α) : Bool :=
  (firstChosen chosen slot).any fun first => !(first != value)

/-! ## The single decree -/

/-- The evidence of all nodes, each with a valid durable state. -/
def acceptorsByPair (s : Cluster Unit ν α) :
    Check Unit ν (List (AcceptedValue Unit ν α × Finset ν)) :=
  M.nodeIds.foldlM (fun evidence n => do
    validateDurableState singleDecree n s
    .ok ((s.durable n).acceptHistory.foldl (fun evidence accepted =>
      addEvidence n accepted evidence) evidence)) []

/-- `learned` of `PaxosSafetyHarness.checkpoint`. -/
def learnedDecisions (s : Cluster Unit ν α) : List (LearnedDecision Unit ν α) :=
  M.nodeIds.filterMap fun n => (s.durable n).learned.lookup ()

/-- The checks of the learned decisions. -/
def assertLearned (learned : List (LearnedDecision Unit ν α))
    (chosen : List (AcceptedValue Unit ν α)) : Check Unit ν Unit :=
  match learned with
  | [] => .ok ()
  | first :: rest =>
      if rest.any (·.value != first.value) then .error (.safety .learnersConflict)
      else if ¬ hasEvidence chosen () first.value then
        .error (.safety (.learnedWithoutEvidence ()))
      else .ok ()

/-- The checks of the objective decision. -/
def assertObjective (objective : Option (LearnedDecision Unit ν α))
    (learned : List (LearnedDecision Unit ν α)) (chosen : List (AcceptedValue Unit ν α)) :
    Check Unit ν Unit :=
  match objective with
  | none => .ok ()
  | some decision =>
      if ¬ hasEvidence chosen () decision.value then
        .error (.safety (.objectiveWithoutEvidence ()))
      else if (learned.head?).any (·.value != decision.value) then
        .error (.safety .objectiveDiverged)
      else .ok ()

/-- `PaxosSafetyHarness.checkpoint`. -/
def checkpoint (s : Cluster Unit ν α) : Check Unit ν Unit := do
  let evidence ← acceptorsByPair M s
  let _ ← (evidence.map (·.1)).foldlM noteValue []
  let chosen := chosenValues M evidence
  assertOneChosen chosen ()
  let learned := learnedDecisions M s
  assertLearned learned chosen
  assertObjective (s.chosen.lookup ()) learned chosen

/-! ## The log -/

/-- The decisions from a slot on, up to the first slot without one. -/
def prefixFrom (decisions : Dict ℕ (LearnedDecision ℕ ν α)) :
    ℕ → ℕ → List (LearnedDecision ℕ ν α)
  | 0, _ => []
  | fuel + 1, slot =>
      match decisions.lookup slot with
      | none => []
      | some decision => decision :: prefixFrom decisions fuel (slot + 1)

/-- `learned_prefix`. Each of its slots has an entry, so the loop ends by then. -/
def learnedPrefix (s : Cluster ℕ ν α) (n : ν) : List (LearnedDecision ℕ ν α) :=
  let learned := (s.durable n).learned
  prefixFrom learned learned.entries.length 1

/-- The decisions of a table have quorum evidence. -/
def assertEvidence (violation : ℕ → SafetyViolation ℕ ν) (chosen : List (AcceptedValue ℕ ν α))
    (decisions : Dict ℕ (LearnedDecision ℕ ν α)) : Check ℕ ν Unit :=
  decisions.entries.forM fun entry =>
    if ¬ hasEvidence chosen entry.1 entry.2.value then .error (.safety (violation entry.1))
    else .ok ()

/-- Two learned prefixes agree where both have decisions. -/
def assertComparable (s : Cluster ℕ ν α) (left right : ν) : Check ℕ ν Unit :=
  let leftValues : List α := (learnedPrefix s left).map (·.value)
  let rightValues : List α := (learnedPrefix s right).map (·.value)
  let common := min leftValues.length rightValues.length
  if ¬ (leftValues.take common).isEqv (rightValues.take common) itemEqual then
    .error (.safety (.prefixesDiverged left right))
  else .ok ()

/-- `PaxosLogSafetyHarness.checkpoint`. -/
def logCheckpoint (s : Cluster ℕ ν α) : Check ℕ ν Unit := do
  let gathered ← M.nodeIds.foldlM (fun gathered n => do
    validateDurableState slotDecrees n s
    gatherNode s gathered n) {}
  let chosen := chosenValues M gathered.evidence
  (chosen.map (·.slot)).forM (assertOneChosen chosen)
  M.nodeIds.forM fun n =>
    assertEvidence .learnedWithoutEvidence chosen (s.durable n).learned
  assertEvidence .objectiveWithoutEvidence chosen s.chosen
  M.nodeIds.forM fun left => M.nodeIds.forM fun right => assertComparable s left right

/-! ## Recovery -/

/-- The recovered decision of a slot: the first value that a quorum accepted and
the lowest proposal of those. -/
def recoverSlot (chosen : List (AcceptedValue ℕ ν α)) (slot : ℕ) :
    Check ℕ ν (Option (LearnedDecision ℕ ν α)) := do
  assertOneChosen chosen slot
  let candidates := chosen.filter (·.slot = slot)
  .ok (do
    let first ← candidates.head?
    let lowest ← candidates.argmin (·.proposal)
    some ⟨slot, lowest.proposal, first.value⟩)

/-- `_recover_chosen_from_durable_history`. -/
def recoverChosen (s : Cluster ℕ ν α) : Check ℕ ν (Dict ℕ (LearnedDecision ℕ ν α)) := do
  let gathered ← M.nodeIds.foldlM (gatherNode s) {}
  let chosen := chosenValues M gathered.evidence
  ((chosen.map (·.slot)).dedup.insertionSort (· ≤ ·)).foldlM (fun recovered slot => do
    match ← recoverSlot chosen slot with
    | none => .ok recovered
    | some decision => .ok (recovered.insert slot decision)) ∅

/-- The constructor of `RecoveringPaxosLogCluster` over a new simulator with the
durable state of the old one. -/
def reconstruct (s : Cluster ℕ ν α) : Op ℕ ν α Unit :=
  let fresh := Cluster.over s.durable
  match M.nodeIds.forM fun n => validateDurableState slotDecrees n fresh with
  | .error violation => .raises violation s
  | .ok _ =>
      match recoverChosen M fresh with
      | .error violation => .raises violation s
      | .ok chosen =>
          match logCheckpoint M { fresh with chosen := chosen } with
          | .error violation => .raises violation s
          | .ok _ => .returns () { fresh with chosen := chosen }

/-! ## Runs -/

/-- The state after a run of a `PaxosCluster`. -/
def run (M : Members ν) (events : List (Event Unit ν α)) : Cluster Unit ν α :=
  runEvents (step singleDecree M) events .fresh

/-- What can happen to a log: an event of the cluster, or its reconstruction. -/
inductive LogEvent (ν α : Type) where
  | event (event : Event ℕ ν α)
  | reconstruct
  deriving DecidableEq

/-- A value that the event proposes equals itself. -/
def LogEvent.ProposesSelfEqual : LogEvent ν α → Prop
  | .event proposal => proposal.ProposesSelfEqual
  | .reconstruct => True

instance (event : LogEvent ν α) : Decidable event.ProposesSelfEqual :=
  match event with
  | .event proposal => inferInstanceAs (Decidable proposal.ProposesSelfEqual)
  | .reconstruct => instDecidableTrue

/-- One event of a log. -/
def logStep (event : LogEvent ν α) (s : Cluster ℕ ν α) : Op ℕ ν α Unit :=
  match event with
  | .event event => step slotDecrees M event s
  | .reconstruct => reconstruct M s

/-- The state after a run of a `PaxosLogCluster`. -/
def logRun (M : Members ν) (events : List (LogEvent ν α)) : Cluster ℕ ν α :=
  runEvents (logStep M) events .fresh

end Distlab.Paxos
