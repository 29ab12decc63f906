import Distlab.Raft.DriverOperations
import Distlab.Raft.Events

/-!
# Every event is a sequence of moves

Transitions, checkpoints and the events of a run.
-/

set_option autoImplicit false

namespace Distlab.Raft

open Foundations

variable {ν : Type} [LinearOrder ν] {C : Config ν} {U : Licence ν}

/-! ## Transitions -/

theorem runs_requireTransitionLeader (t : MembershipTransition ν) (s : Cluster ν) :
    Runs C U s (requireTransitionLeader t s) := by
  unfold requireTransitionLeader
  split
  · exact .raises (.refl s) trivial
  · exact .returns (.refl s)

theorem requireTransitionLeader_returns {t : MembershipTransition ν} {s s' : Cluster ν}
    (returned : requireTransitionLeader t s = .returns () s') :
    s' = s ∧ s.role t.leader = .leader ∧ s.currentTerm t.leader = t.term := by
  unfold requireTransitionLeader at returned
  split at returned
  · cases returned
  · next current =>
    cases returned
    simp only [not_or, not_not] at current
    exact ⟨rfl, current.2.1, current.2.2.1⟩

theorem recoverPendingCommand_error {leader : ν} {s : Cluster ν} {violation : Error ν}
    (failed : recoverPendingCommand C leader s = .error violation) :
    violation = .membershipChange leader := by
  unfold recoverPendingCommand at failed
  split at failed
  · cases failed
  · split at failed <;> cases failed
    rfl
  · split at failed <;> cases failed
    rfl
  · cases failed
    rfl

theorem runs_newTransition {leader : ν} {s : Cluster ν} :
    Runs C U s (newTransition C leader s) := by
  unfold newTransition
  split
  · exact .raises (.refl s) trivial
  · exact .raises (.refl s) trivial
  split
  · exact .raises (.refl s) trivial
  split
  · exact .raises (.refl s) trivial
  refine (runs_requireTransitionLeader _ s).bind fun _ s₁ _ _ => ?_
  split
  · next violation failed =>
    obtain rfl := recoverPendingCommand_error failed
    exact .raises (.refl s₁) trivial
  · exact .returns (.one (.transitions _))

theorem moves_updateTransition (i : ℕ) (f : MembershipTransition ν → MembershipTransition ν)
    (s : Cluster ν) : Moves C U s (s.updateTransition i f) := .one (.transitions _)

theorem runs_appendPending {i : ℕ} {t : MembershipTransition ν} {command : Command ν}
    {s : Cluster ν} (leads : s.role t.leader = .leader) (current : s.currentTerm t.leader = t.term)
    (proposal : MayPropose C U s t.leader command) :
    Runs C U s (appendPending i t command s) := by
  unfold appendPending
  have append : Moves C U s (s.updatePersistent t.leader fun p =>
      { p with log := { p.log with entries := p.log.entries ++ [⟨t.term, command⟩] } }) := by
    have move : Move C U s _ := .append t.leader command leads proposal
    have same : (s.updatePersistent t.leader fun p =>
        { p with log := { p.log with entries := p.log.entries ++ [⟨p.currentTerm, command⟩] } }) =
        s.updatePersistent t.leader fun p =>
          { p with log := { p.log with entries := p.log.entries ++ [⟨t.term, command⟩] } } := by
      simp only [Cluster.updatePersistent]
      rw [← current]
      rfl
    exact same ▸ Moves.one move
  exact .returns (append.trans (moves_updateTransition i _ _))

theorem runs_proposeJoint {i : ℕ} {newVoters : Finset ν} {s : Cluster ν}
    (allowed : ∀ t, s.transitions[i]? = some t → U.proposes s t.leader) :
    Runs C U s (proposeJoint C i newVoters s) := by
  unfold proposeJoint
  split
  · exact .returns (.refl s)
  next t found =>
  refine (runs_requireTransitionLeader t s).bind fun _ s₁ returned _ => ?_
  obtain ⟨rfl, leads, current⟩ := requireTransitionLeader_returns returned
  split
  · exact .raises (.refl s₁) trivial
  next stable =>
  split
  · exact .raises (.refl s₁) trivial
  next known =>
    rw [not_or, not_not] at known
    rw [not_or] at stable
    refine runs_appendPending leads current ⟨.inr (.inr ⟨?_, known.1, known.2⟩),
      fun _ => allowed t found⟩
    simpa [VotingConfiguration.isJoint] using stable.2

theorem runs_proposeFinalize {i : ℕ} {s : Cluster ν}
    (allowed : ∀ t, s.transitions[i]? = some t → U.proposes s t.leader) :
    Runs C U s (proposeFinalize i s) := by
  unfold proposeFinalize
  split
  · exact .returns (.refl s)
  next t found =>
  refine (runs_requireTransitionLeader t s).bind fun _ s₁ returned _ => ?_
  obtain ⟨rfl, leads, current⟩ := requireTransitionLeader_returns returned
  split
  · exact .raises (.refl s₁) trivial
  next new active =>
  split
  · exact .raises (.refl s₁) trivial
  next free =>
    rw [not_or, not_not] at free
    exact runs_appendPending leads current ⟨.inr (.inr ⟨active, free.2⟩), fun _ => allowed t found⟩

theorem runs_committedPending (t : MembershipTransition ν) (r : LeaderReplicator ν)
    (s : Cluster ν) : Runs C U s (committedPending t r s) := by
  unfold committedPending
  refine (runs_requireTransitionLeader t s).bind fun _ s₁ _ _ => ?_
  split
  · exact .raises (.refl s₁) trivial
  split
  · exact .raises (.refl s₁) trivial
  split
  · exact .returns (.refl s₁)
  split
  · exact .raises (.refl s₁) trivial
  split
  · exact .raises (.refl s₁) trivial
  · exact .returns (.refl s₁)

/-- The pending command that a replicator of the leader has committed. -/
theorem committedPending_returns {t : MembershipTransition ν} {r : LeaderReplicator ν}
    {s s' : Cluster ν} {pending : Option (ℕ × Command ν)}
    (returned : committedPending t r s = .returns pending s') :
    s' = s ∧ s.role t.leader = .leader ∧ s.currentTerm t.leader = t.term ∧
      ∀ index command, pending = some (index, command) → r.leader = t.leader ∧
        index ≤ r.commitIndex ∧
        ((s.logView t.leader).entryAt index).map (·.command) = some command := by
  unfold committedPending at returned
  obtain ⟨_, s₁, required, rest⟩ := Outcome.bind_eq_returns.mp returned
  obtain ⟨rfl, leads, current⟩ := requireTransitionLeader_returns required
  split at rest
  · cases rest
  next own =>
  split at rest
  · cases rest
  split at rest
  · cases rest
    exact ⟨rfl, leads, current, fun _ _ none => by cases none⟩
  next reached =>
  split at rest
  · cases rest
  next entry found =>
  split at rest
  · cases rest
  next same =>
    cases rest
    refine ⟨rfl, leads, current, fun index command pending => ?_⟩
    cases pending
    rw [found, ← not_not.mp same]
    exact ⟨not_not.mp own, not_lt.mp reached, rfl⟩

theorem runs_applyPending {i : ℕ} {r : LeaderReplicator ν} {leader : ν} {index term : ℕ}
    {command : Command ν} {s : Cluster ν}
    (committed : CommittedMembership s leader index command) (served : Served s r term) :
    Runs C U s (applyPending C i leader index command s) := by
  unfold applyPending
  obtain ⟨persists, committed', served'⟩ :=
    moves_persistMembershipCommitWatermark (C := C) (U := U) committed served
  refine persists.after ?_
  refine Outcome.Ensures.bind (serves_installCommittedMembership committed' served')
    (fun _ s₁ _ kept => ?_) fun _ kept => kept.1
  exact kept.1.trans (moves_updateTransition i _ s₁)

/-- A transition applies its pending command with a replicator of its leader. -/
theorem runs_activateIfCommitted {i : ℕ} {r : LeaderReplicator ν} {s : Cluster ν}
    (member : r ∈ s.replicators) : Runs C U s (activateIfCommitted C i r s) := by
  unfold activateIfCommitted
  split
  · exact .returns (.refl s)
  next t _ =>
  refine (runs_committedPending t r s).bind fun pending s₁ returned _ => ?_
  obtain ⟨rfl, leads, current, facts⟩ := committedPending_returns returned
  split
  · exact .returns (.refl s₁)
  · next index newVoters =>
    obtain ⟨own, reached, found⟩ := facts index _ rfl
    exact runs_applyPending ⟨rfl, leads, found, r, member, own, reached⟩
      ⟨own ▸ leads, rfl, member⟩
  · exact .raises (.refl s₁) trivial

theorem runs_finalizeIfCommitted {i : ℕ} {r : LeaderReplicator ν} {s : Cluster ν}
    (member : r ∈ s.replicators) : Runs C U s (finalizeIfCommitted C i r s) := by
  unfold finalizeIfCommitted
  split
  · exact .returns (.refl s)
  next t _ =>
  refine (runs_committedPending t r s).bind fun pending s₁ returned _ => ?_
  obtain ⟨rfl, leads, current, facts⟩ := committedPending_returns returned
  split
  · exact .returns (.refl s₁)
  · next index voters =>
    obtain ⟨own, reached, found⟩ := facts index _ rfl
    split
    · exact .raises (.refl s₁) trivial
    · exact runs_applyPending ⟨rfl, leads, found, r, member, own, reached⟩
        ⟨own ▸ leads, rfl, member⟩
  · exact .raises (.refl s₁) trivial

theorem runs_ensureCurrentTermCommitTarget (t : MembershipTransition ν) (s : Cluster ν) :
    Runs C U s (ensureCurrentTermCommitTarget t s) := by
  unfold ensureCurrentTermCommitTarget
  split
  · exact .returns (.refl s)
  dsimp only
  split
  · exact .raises (.refl s) trivial
  split
  · exact .returns (.refl s)
  · exact (runs_appendCurrentTerm ⟨.inr (.inr trivial), fun proposed => by cases proposed⟩).bind
      fun _ s₁ _ _ => .returns (.refl s₁)

section Drive

variable {applyCommitted : ℕ → LeaderReplicator ν → Cluster ν → Op ν Bool}
  (applies : ∀ i r s, r ∈ s.replicators → Runs C U s (applyCommitted i r s))
include applies

theorem runs_replicateUntilApplied {i position maxAttempts : ℕ}
    (peers : List (ν × List (List Delivery))) (s : Cluster ν) :
    Runs C U s (replicateUntilApplied C i position applyCommitted maxAttempts peers s) := by
  induction peers generalizing s with
  | nil => exact .returns (.refl s)
  | cons item rest ih =>
      rw [replicateUntilApplied]
      split
      · exact ih s
      refine runs_replicate.bind fun _ s₁ _ _ => ?_
      split
      · exact .returns (.refl s₁)
      next r found =>
      refine (applies i r s₁ (List.mem_of_getElem? found)).bind fun done s₂ _ _ => ?_
      split
      · exact .returns (.refl s₂)
      · exact ih s₂

theorem runs_driveTransition {i : ℕ} {t : MembershipTransition ν} {command : Command ν}
    {maxAttempts : ℕ} {schedules : ν → List (List Delivery)} (s : Cluster ν) :
    Runs C U s (driveTransition C i t command applyCommitted maxAttempts schedules s) := by
  unfold driveTransition
  split
  · exact .raises (.refl s) trivial
  refine (runs_requireTransitionLeader t s).bind fun _ s₁ _ _ => ?_
  refine (runs_ensureCurrentTermCommitTarget t s₁).bind fun _ s₂ _ _ => ?_
  refine runs_newReplicator.bind fun _ s₃ _ _ => ?_
  refine (runs_advanceCommitIndex _ s₃).bind fun _ s₄ _ _ => ?_
  split
  · exact .returns (.refl s₄)
  next r found =>
  refine (applies i r s₄ (List.mem_of_getElem? found)).bind fun done s₅ _ _ => ?_
  split
  · exact .returns (.refl s₅)
  · exact runs_replicateUntilApplied applies _ s₅

end Drive

theorem runs_replicateAndActivate {i maxAttempts : ℕ} {schedules : ν → List (List Delivery)}
    (s : Cluster ν) : Runs C U s (replicateAndActivate C i maxAttempts schedules s) := by
  unfold replicateAndActivate
  split
  · exact .returns (.refl s)
  next t _ =>
  refine (runs_requireTransitionLeader t s).bind fun _ s₁ _ _ => ?_
  split
  · exact runs_driveTransition (fun i r s => runs_activateIfCommitted) s₁
  · exact .raises (.refl s₁) trivial

theorem runs_replicateAndFinalize {i maxAttempts : ℕ} {schedules : ν → List (List Delivery)}
    (s : Cluster ν) : Runs C U s (replicateAndFinalize C i maxAttempts schedules s) := by
  unfold replicateAndFinalize
  split
  · exact .returns (.refl s)
  next t _ =>
  refine (runs_requireTransitionLeader t s).bind fun _ s₁ _ _ => ?_
  split
  · split
    · exact .raises (.refl s₁) trivial
    · exact runs_driveTransition (fun i r s => runs_finalizeIfCommitted) s₁
  · exact .raises (.refl s₁) trivial

/-! ## Checkpoints -/

/-- A node that the cluster has recorded as a leader of a term, or that leads in it. -/
def LeadsIn (s : Cluster ν) (term : ℕ) (n : ν) : Prop :=
  s.leadersByTerm.lookup term = some n ∨
    n ∈ C.nodeIds ∧ s.role n = .leader ∧ s.currentTerm n = term

/-- What holds where a checkpoint raises. -/
def Observed (C : Config ν) (violation : Error ν) (s : Cluster ν) : Prop :=
  match violation with
  | .observedElectionSafety term existing n =>
      LeadsIn (C := C) s term n ∧ s.harness.leadersByTerm.lookup term = some existing ∧
        existing ≠ n
  | .leaderAppendOnly term n =>
      s.role n = .leader ∧ s.currentTerm n = term ∧
        ∃ previous, s.harness.logsByLeadership.lookup (term, n) = some previous ∧
          keepsObservedLog previous (s.logView n) = false
  | .indexError n index =>
      s.role n = .leader ∧ (s.logView n).baseIndex < index ∧ index ≤ s.commitIndex n ∧
        (s.logView n).entryAt index = none
  | .leaderCompleteness index n =>
      (s.role n = .leader ∧ index ≤ s.commitIndex n ∧ ∃ entry existing,
        (s.logView n).entryAt index = some entry ∧
        s.harness.committed.lookup index = some existing ∧ existing.entry ≠ entry) ∨
      ∃ term observation key, LeadsIn (C := C) s term n ∧
        s.harness.committed.lookup key = some observation ∧
        keepsCommitted term (s.logView n) observation = false
  | .logMatching left right index =>
      left ∈ C.nodeIds ∧ right ∈ C.nodeIds ∧
        logMismatch (s.logView left) (s.logView right) = some index
  | .stateMachineSafety _ => ∀ seen, C.nodeIds.foldlM (checkApplied s) {} ≠ .ok seen
  | _ => False

/-- What the checks of a checkpoint keep. -/
def Checks (C : Config ν) (U : Licence ν) (s : Cluster ν) {β : Type} (operation : Op ν β) : Prop :=
  operation.Ensures
    (fun s' => Moves C U s s' ∧ ∃ harness, s' = { s with harness := harness }) (Observed C)

/-- A check of the harness makes the moves of its observations. -/
theorem checks_observe {check : Check ν} {s : Cluster ν}
    (ensures : (check s.harness).Ensures
      (fun harness => Moves C U s { s with harness := harness })
      (fun violation harness => Observed C violation { s with harness := harness })) :
    Checks C U s (observe check s) := by
  unfold observe
  cases outcome : check s.harness with
  | returns _ harness =>
      rw [outcome] at ensures
      exact ⟨ensures, harness, rfl⟩
  | raises violation harness =>
      rw [outcome] at ensures
      exact ⟨⟨ensures.1, harness, rfl⟩, ensures.2⟩

/-- The checks of a list, each of them made in `s` up to its harness. -/
theorem checks_forEach {ι : Type} {items : List ι} {body : ι → Cluster ν → Op ν Unit}
    {s : Cluster ν}
    (checks : ∀ item ∈ items, ∀ harness, Checks C U { s with harness := harness }
      (body item { s with harness := harness })) :
    Checks C U s (Outcome.forEach items body s) := by
  refine Outcome.ensures_forEach (fun item member s' kept => ?_) s ⟨.refl s, s.harness, rfl⟩
  obtain ⟨moves, harness, rfl⟩ := kept
  refine (checks item member harness).mono (fun s'' after => ?_) fun _ _ => id
  obtain ⟨moves', harness', rfl⟩ := after
  exact ⟨moves.trans moves', harness', rfl⟩

theorem checks_assertElectionSafety (s : Cluster ν) : Checks C U s (assertElectionSafety C s) := by
  unfold assertElectionSafety
  refine checks_forEach fun item member harness => checks_observe ?_
  obtain ⟨term, n⟩ := item
  have leads : LeadsIn (C := C) s term n := by
    obtain recorded | role := List.mem_append.mp member
    · exact .inl (Dict.mem_sortedItems.mp recorded)
    · obtain ⟨m, known, same⟩ := List.mem_map.mp role
      obtain ⟨rfl, rfl⟩ := Prod.mk.inj same
      obtain ⟨inside, leads⟩ := List.mem_filter.mp known
      exact .inr ⟨inside, of_decide_eq_true leads, rfl⟩
  unfold observeElection
  dsimp only
  split
  · next existing found =>
    split
    · next other => exact ⟨.refl _, leads, found, other⟩
    · exact .refl _
  · refine .one (.observeElection (s := { s with harness := harness }) n term ?_)
    exact leads.imp id And.right

theorem checks_assertLeaderAppendOnly (s : Cluster ν) :
    Checks C U s (assertLeaderAppendOnly C s) := by
  unfold assertLeaderAppendOnly
  refine checks_forEach fun n member harness => checks_observe ?_
  have leads : s.role n = .leader := of_decide_eq_true (List.mem_filter.mp member).2
  unfold observeLog
  dsimp only
  split
  · next violated =>
    obtain ⟨previous, found, broken⟩ := (Option.any_eq_true _ _).mp violated
    exact ⟨.refl _, leads, rfl, previous, found, by simpa using broken⟩
  · exact .one (.observeLog (s := { s with harness := harness }) n leads)

theorem ensures_assertLeaderView {term : ℕ} {n : ν} {s : Cluster ν}
    (leads : LeadsIn (C := C) s term n)
    {harness : RaftSafetyHarness ν} :
    (assertLeaderView term n (s.logView n) harness).Ensures
      (fun harness' => Moves C U { s with harness := harness } { s with harness := harness' })
      (fun violation harness => Observed C violation { s with harness := harness }) := by
  unfold assertLeaderView
  split
  · next violated found =>
    obtain ⟨key, known⟩ := Dict.mem_sortedValues.mp (List.mem_of_find?_eq_some found)
    have broken : keepsCommitted term (s.logView n) violated = false := by
      simpa using List.find?_some found
    exact ⟨.refl _, .inr ⟨term, violated, key, leads, known, broken⟩⟩
  · exact .refl _

theorem ensures_observeEntry {n : ν} {index : ℕ} {s : Cluster ν} (leads : s.role n = .leader)
    (retained : (s.logView n).baseIndex < index) (committed : index ≤ s.commitIndex n)
    {harness : RaftSafetyHarness ν} :
    (observeEntry n (s.currentTerm n) (s.logView n) index harness).Ensures
      (fun harness' => Moves C U { s with harness := harness } { s with harness := harness' })
      (fun violation harness => Observed C violation { s with harness := harness }) := by
  unfold observeEntry
  split
  · next missing => exact ⟨.refl _, leads, retained, committed, missing⟩
  next entry found =>
  split
  · next existing known =>
    split
    · next other =>
      exact ⟨.refl _, .inl ⟨leads, committed, entry, existing, found, known, other⟩⟩
    · exact .refl _
  · exact .one (.observeEntry (s := { s with harness := harness }) n index entry leads committed
      found)

theorem checks_observeCommits (s : Cluster ν) : Checks C U s (observeCommits C s) := by
  unfold observeCommits
  refine checks_forEach fun n member harness => checks_observe ?_
  obtain ⟨inside, decided⟩ := List.mem_filter.mp member
  have leads : s.role n = .leader := of_decide_eq_true decided
  have entries : (Outcome.forEach (List.range' (firstObserved n s harness)
      (s.commitIndex n + 1 - firstObserved n s harness))
      (observeEntry n (s.currentTerm n) (s.logView n)) harness).Ensures
      (fun harness' => Moves C U { s with harness := harness } { s with harness := harness' })
      (fun violation harness => Observed C violation { s with harness := harness }) := by
    refine Outcome.ensures_forEach (fun index covered harness' moves => ?_) harness (.refl _)
    have range := List.mem_range'_1.mp covered
    have retained : (s.logView n).baseIndex < index := by
      have first := range.1
      unfold firstObserved RaftLogView.firstRetainedIndex at first
      dsimp only at first
      omega
    exact (ensures_observeEntry leads retained (by omega)).mono (fun _ => moves.trans) fun _ _ => id
  refine Outcome.Ensures.bind entries (fun _ harness₁ _ moves => ?_) fun _ => id
  refine Outcome.Ensures.bind ((ensures_assertLeaderView (.inr ⟨inside, leads, rfl⟩)).mono
    (fun _ => moves.trans) fun _ _ => id) (fun _ harness₂ _ moves' => ?_) fun _ => id
  exact moves'.trans (.one (.observeCommit (s := { s with harness := harness₂ }) n leads))

theorem checks_assertRecordedLeaders (s : Cluster ν) :
    Checks C U s (assertRecordedLeaders s) := by
  unfold assertRecordedLeaders
  refine checks_forEach fun item member harness => checks_observe ?_
  exact ensures_assertLeaderView (s := s) (.inl (Dict.mem_sortedItems.mp member))

theorem mem_of_mem_orderedPairs {β : Type} {items : List β} {pair : β × β}
    (member : pair ∈ orderedPairs items) : pair.1 ∈ items ∧ pair.2 ∈ items := by
  induction items with
  | nil => cases member
  | cons x rest ih =>
      obtain first | later := List.mem_append.mp member
      · obtain ⟨y, known, rfl⟩ := List.mem_map.mp first
        exact ⟨List.mem_cons_self, List.mem_cons_of_mem _ known⟩
      · exact ⟨List.mem_cons_of_mem _ (ih later).1, List.mem_cons_of_mem _ (ih later).2⟩

theorem checks_assertLogMatching (s : Cluster ν) : Checks C U s (assertLogMatching C s) := by
  unfold assertLogMatching
  split
  · exact ⟨.refl s, s.harness, rfl⟩
  · next violation found =>
    obtain ⟨pair, known, raised⟩ := List.exists_of_findSome?_eq_some found
    obtain ⟨index, mismatch, rfl⟩ := Option.map_eq_some_iff.mp raised
    obtain ⟨left, right⟩ := mem_of_mem_orderedPairs known
    exact ⟨⟨.refl s, s.harness, rfl⟩, left, right, mismatch⟩

theorem checks_assertStateMachineSafety (s : Cluster ν) :
    Checks C U s (assertStateMachineSafety C s) := by
  unfold assertStateMachineSafety
  split
  · exact ⟨.refl s, s.harness, rfl⟩
  · next violation failed =>
    have safety : IsSafetyViolation violation :=
      foldlM_error (fun seen n _ => checkApplied_error) failed
    refine ⟨⟨.refl s, s.harness, rfl⟩, ?_⟩
    cases violation with
    | stateMachineSafety n =>
        intro seen passed
        rw [failed] at passed
        cases passed
    | _ => exact safety.elim

/-- Checks that follow one another. -/
theorem Checks.andThen {s : Cluster ν} {first : Op ν Unit} {next : Cluster ν → Op ν Unit}
    (checks : Checks C U s first)
    (rest : ∀ harness, Checks C U { s with harness := harness }
      (next { s with harness := harness })) :
    Checks C U s (first.bind fun _ s => next s) := by
  refine Outcome.Ensures.bind checks (fun _ s' _ kept => ?_) fun _ => id
  obtain ⟨moves, harness, rfl⟩ := kept
  refine (rest harness).mono (fun s'' after => ?_) fun _ _ => id
  obtain ⟨moves', harness', rfl⟩ := after
  exact ⟨moves.trans moves', harness', rfl⟩

/-- **A checkpoint.** It changes the observations only, and raises only where one
of its assertions is violated. -/
theorem checks_checkpoint (s : Cluster ν) : Checks C U s (checkpoint C s) := by
  unfold checkpoint
  refine (checks_assertElectionSafety s).andThen fun h => ?_
  generalize ({ s with harness := h } : Cluster ν) = s
  refine (checks_assertLeaderAppendOnly s).andThen fun h => ?_
  generalize ({ s with harness := h } : Cluster ν) = s
  refine (checks_observeCommits s).andThen fun h => ?_
  generalize ({ s with harness := h } : Cluster ν) = s
  refine (checks_assertRecordedLeaders s).andThen fun h => ?_
  generalize ({ s with harness := h } : Cluster ν) = s
  refine (checks_assertLogMatching s).andThen fun h => ?_
  exact checks_assertStateMachineSafety _

theorem runs_checkpoint (s : Cluster ν) : Runs C U s (checkpoint C s) :=
  (checks_checkpoint s).mono (fun _ kept => kept.1) fun violation s' observed => by
    cases violation <;> trivial

/-! ## Events -/

/-- The event stays within the protocol's own operations: it sends no
`AppendEntries`, installs no snapshot and appends no configuration entry of the
driver's making. -/
def Event.Protocol : Event ν → Prop
  | .sendAppendEntries _ _ _ _ _ | .installSnapshot _ _ _ => False
  | .appendCurrentTerm _ command => C.kind = .fixed ∨ command.isMembership = false
  | _ => True

/-- The event may propose the membership commands that it proposes. -/
def Event.Allowed (U : Licence ν) (s : Cluster ν) : Event ν → Prop
  | .proposeJoint i _ | .proposeFinalize i => ∀ t, s.transitions[i]? = some t →
      U.proposes s t.leader
  | .appendCurrentTerm n command => command.isMembership = true → U.proposes s n
  | _ => True

/-- The event does not replace the cluster. -/
def Event.Continues : Event ν → Prop
  | .recreate => False
  | _ => True

theorem Runs.dropValue {β : Type} {s : Cluster ν} {operation : Op ν β}
    (runs : Runs C U s operation) : Runs C U s (dropValue operation) :=
  runs.bind fun _ s' _ _ => .returns (.refl s')

theorem runs_withReplicator {β : Type} {i : ℕ} {s : Cluster ν}
    {operation : LeaderReplicator ν → Cluster ν → Op ν β}
    (runs : ∀ r, s.replicators[i]? = some r → Runs C U s (operation r s)) :
    Runs C U s (withReplicator i operation s) := by
  unfold withReplicator
  split
  · exact .returns (.refl s)
  · next r found => exact (runs r found).dropValue

theorem runs_perform {event : Event ν} {s : Cluster ν} (continues : event.Continues)
    (protocol : U.own ∨ event.Protocol (C := C)) (allowed : event.Allowed U s)
    (members : ∀ n, event.node = some n → n ∈ C.nodeIds) : Runs C U s (perform C event s) := by
  cases event with
  | startElection n => exact runs_startElection (members n rfl)
  | startPreVote n => exact runs_startPreVote (members n rfl)
  | stepDown n => exact (runs_stepDown n s).dropValue
  | deliver delivery => exact runs_deliver delivery s
  | wait elapsed => exact .returns (.same rfl)
  | crash n => exact .returns (moves_crash n s)
  | restart n => exact .returns (moves_restart n s)
  | sendAppendEntries n peer prevLogIndex entries leaderCommit =>
      exact runs_sendAppendEntries fun _ _ => .inl (protocol.resolve_right id)
  | sendInstallSnapshot leader follower term snapshot requestId =>
      exact runs_sendInstallSnapshot
  | appendCurrentTerm n command =>
      refine (runs_appendCurrentTerm ⟨?_, allowed⟩).dropValue
      obtain own | fixed | ordinary := protocol
      · exact .inr (.inl own)
      · exact .inl fixed
      · refine .inr (.inr ?_)
        cases command with
        | jointConsensus | stableConsensus => cases ordinary
        | _ => trivial
  | newReplicator leader snapshotTransport membershipAware => exact runs_newReplicator
  | beginActivityProbe i peer =>
      exact runs_withReplicator fun r found => runs_beginActivityProbe found
  | replicate i peer maxAttempts schedules => exact runs_replicate.dropValue
  | recoverPeer i peer maxAttempts schedules => exact runs_recoverPeer.dropValue
  | advanceCommitIndex i => exact (runs_advanceCommitIndex i s).dropValue
  | applyCommitted n => exact (runs_applierApplyCommitted (members n rfl) s).dropValue
  | kvApplyCommitted n => exact (runs_kvApplyCommitted (members n rfl) s).dropValue
  | createSnapshot n => exact (runs_createSnapshot (members n rfl) s).dropValue
  | compactSnapshot n => exact (runs_compactSnapshot (members n rfl) s).dropValue
  | installSnapshot n snapshot preserve =>
      exact runs_installSnapshot fun suffix _ beyond _ _ _ _ =>
        .one (.installOwn n snapshot suffix (protocol.resolve_right id) beyond)
  | newTransition leader => exact runs_newTransition
  | proposeJoint i newVoters => exact (runs_proposeJoint allowed).dropValue
  | proposeFinalize i => exact (runs_proposeFinalize allowed).dropValue
  | activateIfCommitted i position =>
      exact runs_withReplicator fun r found =>
        runs_activateIfCommitted (List.mem_of_getElem? found)
  | finalizeIfCommitted i position =>
      exact runs_withReplicator fun r found =>
        runs_finalizeIfCommitted (List.mem_of_getElem? found)
  | replicateAndActivate i maxAttempts schedules => exact (runs_replicateAndActivate s).dropValue
  | replicateAndFinalize i maxAttempts schedules => exact (runs_replicateAndFinalize s).dropValue
  | recreate => exact continues.elim
  | checkpoint => exact runs_checkpoint s

/-- **Every event is a sequence of moves**, and raises a violation of the protocol
only where its guard holds. -/
theorem runs_step {event : Event ν} {s : Cluster ν} (continues : event.Continues)
    (protocol : U.own ∨ event.Protocol (C := C)) (allowed : event.Allowed U s) :
    Runs C U s (step C event s) := by
  unfold step
  split
  · exact .raises (.refl s) trivial
  · next known =>
    refine runs_perform continues protocol allowed fun n here => ?_
    rw [here] at known
    by_contra outside
    simp [Option.filter, outside] at known

/-- The events of a run are sequences of moves, where each proposes what it may. -/
theorem moves_runEvents_of_allowed {events : List (Event ν)} {s : Cluster ν}
    (continues : ∀ event ∈ events, event.Continues)
    (protocol : U.own ∨ ∀ event ∈ events, event.Protocol (C := C))
    (allowed : EveryStep (step C) (fun event s => event.Allowed U s) events s) :
    Moves C U s (runEvents (step C) events s) := by
  induction events generalizing s with
  | nil => exact .refl s
  | cons event rest ih =>
      have first : Runs C U s (step C event s) :=
        runs_step (continues event List.mem_cons_self)
          (protocol.imp id fun all => all event List.mem_cons_self) allowed.1
      refine first.state.trans
        (ih (fun e member => continues e (List.mem_cons_of_mem _ member)) ?_ allowed.2)
      exact protocol.imp id fun all e member => all e (List.mem_cons_of_mem _ member)

omit [LinearOrder ν] in
/-- Any event may propose where any proposal is allowed. -/
theorem Event.allowed_of_proposes {event : Event ν} {s : Cluster ν}
    (proposes : ∀ s n, U.proposes s n) : event.Allowed U s := by
  cases event with
  | proposeJoint | proposeFinalize => exact fun t _ => proposes s t.leader
  | appendCurrentTerm n command => exact fun _ => proposes s n
  | _ => trivial

/-- The events of a run are sequences of moves. -/
theorem moves_runEvents {events : List (Event ν)} {s : Cluster ν}
    (continues : ∀ event ∈ events, event.Continues)
    (protocol : U.own ∨ ∀ event ∈ events, event.Protocol (C := C))
    (proposes : ∀ s n, U.proposes s n) : Moves C U s (runEvents (step C) events s) := by
  refine moves_runEvents_of_allowed continues protocol ?_
  clear continues protocol
  induction events generalizing s with
  | nil => trivial
  | cons event rest ih => exact ⟨Event.allowed_of_proposes proposes, ih⟩

end Distlab.Raft
