import Distlab.Raft.LogInvariant

/-!
# Elections keep the logs

The moves that change terms, votes and roles. A node that votes puts its log into the
archive, and so does a node that is elected; each of these moves extends the archive, and
the invariant holds of what it leaves behind.
-/

set_option autoImplicit false

namespace Distlab.Raft

open Foundations LeaderLogs

variable {ν : Type} [LinearOrder ν] {C : Config ν} {s s' : Cluster ν} {A : Logs ν}

/-- The logs of a later state. -/
def Continues (C : Config ν) (A : Logs ν) (s' : Cluster ν) : Prop :=
  ∃ A' : Logs ν, A.Extends A' ∧ LogInv C s' A'

theorem LogInv.continues (inv : LogInv C s' A) : Continues C A s' := ⟨A, .refl A, inv⟩

namespace LogInv

variable (inv : LogInv C s A)
include inv

/-! ## Terms and votes -/

/-- A node without a vote in its term has none in the archive. -/
theorem voted_of_lt {n : ν} {term : ℕ} (higher : s.currentTerm n < term) :
    A.voted n term = none := by
  have current : A.currentTerm n = s.currentTerm n := (inv.nodes n).term
  cases voted : A.voted n term with
  | none => rfl
  | some log =>
      have below := (inv.sound.votes n term log voted).2
      omega

/-- A node enters a term. -/
theorem advanceTerm {n : ν} {term : ℕ} (higher : s.currentTerm n < term) :
    Continues C A (adoptTerm n term s) := by
  have node := inv.nodes n
  have extends' := A.extends_advance n term
  have current : A.currentTerm n = s.currentTerm n := node.term
  have sound' := inv.sound.advance (v := n) (current ▸ higher.le)
  refine ⟨A.advance n term, extends', inv.later extends' sound' (fun m => ?_) (fun _ => .inl) ?_
    (fun _ => .inl) inv.elected fun T m recorded => ?_⟩
  · by_cases same : m = n
    · subst same
      simp only [adoptTerm, retire, persistTermAndVote, Cluster.updatePersistent,
        Cluster.updateVolatile, Cluster.record, Function.update_self]
      exact
        { term := by simp [Archive.advance]
          view := node.view
          unvoted := fun _ => inv.voted_of_lt higher
          candidate := fun stands => by cases stands
          leader := fun leads => by cases leads
          committed := (node.committed.mono higher.le).later inv.sound extends'
          applied := (node.applied.mono higher.le).later inv.sound extends'
          snapshot := fun snapshot stored => by
            obtain ⟨decided, term⟩ := node.snapshot snapshot stored
            exact ⟨(decided.mono higher.le).later inv.sound extends', term⟩ }
    · simp only [adoptTerm, retire, persistTermAndVote, Cluster.updatePersistent,
        Cluster.updateVolatile, Cluster.record, Function.update_of_ne same]
      refine (inv.nodes m).later inv.sound extends' ?_ rfl rfl fun _ => rfl
      simp [Archive.advance, same]
  · intro entry recorded
    obtain old | new := List.mem_append.mp recorded
    · exact .inl old
    · rw [List.mem_singleton.mp new]
      exact .inr trivial
  · obtain ⟨entered, leads, matched⟩ := inv.started T m recorded
    by_cases same : m = n
    · subst same
      have reaches : (adoptTerm m term s).currentTerm m = term :=
        (persists_adoptTerm m term s).reaches
      refine ⟨by omega, fun here => by omega, matched⟩
    · obtain ⟨durable, volatile⟩ := (persists_adoptTerm n term s).others m same
      refine ⟨?_, ?_, matched⟩
      · rwa [Cluster.currentTerm, durable]
      · rwa [Cluster.currentTerm, durable, Cluster.role, volatile]

/-- A node stands for election. -/
theorem stand (n : ν) : Continues C A (becomeCandidate n s) := by
  have node := inv.nodes n
  have current : A.currentTerm n = s.currentTerm n := node.term
  have higher : s.currentTerm n < s.currentTerm n + 1 := Nat.lt_succ_self _
  have entered : (A.advance n (s.currentTerm n + 1)).currentTerm n = s.currentTerm n + 1 := by
    simp [Archive.advance]
  have free : (A.advance n (s.currentTerm n + 1)).voted n
      ((A.advance n (s.currentTerm n + 1)).currentTerm n) = none := by
    rw [entered]
    exact inv.voted_of_lt higher
  have extends' := (A.extends_advance n (s.currentTerm n + 1)).trans (Archive.extends_vote free)
  have advances : (A.advance n (s.currentTerm n + 1)).Sound (rules C) :=
    inv.sound.advance (by omega)
  have sound' := advances.vote (v := n) (by omega)
  have voted : ((A.advance n (s.currentTerm n + 1)).vote n).voted n (s.currentTerm n + 1) =
      some (A.log n) := by
    simp [Archive.vote, Archive.advance]
  refine ⟨_, extends', inv.later extends' sound' (fun m => ?_) (fun _ => .inl) ?_
    (fun _ => .inl) inv.elected fun T m recorded => ?_⟩
  · by_cases same : m = n
    · subst same
      simp only [becomeCandidate, persistTermAndVote, Cluster.updatePersistent,
        Cluster.updateVolatile, Cluster.record, Function.update_self]
      exact
        { term := entered
          view := node.view
          unvoted := fun none => by cases none
          candidate := fun _ => voted
          leader := fun leads => by cases leads
          committed := (node.committed.mono higher.le).later inv.sound extends'
          applied := (node.applied.mono higher.le).later inv.sound extends'
          snapshot := fun snapshot stored => by
            obtain ⟨decided, term⟩ := node.snapshot snapshot stored
            exact ⟨(decided.mono higher.le).later inv.sound extends', term⟩ }
    · simp only [becomeCandidate, persistTermAndVote, Cluster.updatePersistent,
        Cluster.updateVolatile, Cluster.record, Function.update_of_ne same]
      refine (inv.nodes m).later inv.sound extends' ?_ rfl ?_ fun _ => rfl
      · simp [Archive.vote, Archive.advance, same]
      · funext T
        simp [Archive.vote, Archive.advance, same]
  · intro entry recorded
    obtain old | new := List.mem_append.mp recorded
    · exact .inl old
    · rw [List.mem_singleton.mp new]
      exact .inr ⟨A.log n, A.log n, voted, voted, .refl _ _⟩
  · obtain ⟨reached, leads, matched⟩ := inv.started T m recorded
    by_cases same : m = n
    · subst same
      have reaches : (becomeCandidate m s).currentTerm m = s.currentTerm m + 1 :=
        (persists_becomeCandidate m s).reaches
      refine ⟨by omega, fun here => by omega, matched⟩
    · obtain ⟨durable, volatile⟩ := (persists_becomeCandidate n s).others m same
      refine ⟨?_, ?_, matched⟩
      · rwa [Cluster.currentTerm, durable]
      · rwa [Cluster.currentTerm, durable, Cluster.role, volatile]

/-- A node casts its vote, which the archive has. -/
theorem castVote {A' : Logs ν} {n candidate : ν} {term : ℕ} (extends' : A.Extends A')
    (sound' : A'.Sound (rules C)) (current : term = s.currentTerm n)
    (terms : A'.currentTerm = A.currentTerm) (logs : A'.log = A.log)
    (leaderLogs : A'.leaderLog = A.leaderLog) (elected : A'.elected = A.elected)
    (votes : ∀ m, m ≠ n → A'.voted m = A.voted m)
    (recorded : Recorded C A' (.persistTermVote n term (some candidate))) :
    Continues C A (castVote n term candidate s) := by
  have node := inv.nodes n
  refine ⟨A', extends', inv.later extends' sound' (fun m => ?_) (fun _ => .inl) ?_
    (fun _ => .inl) (fun T => elected ▸ inv.elected T) fun T m leads => ?_⟩
  · by_cases same : m = n
    · subst same
      simp only [Raft.castVote, persistTermAndVote, Cluster.updatePersistent,
        Cluster.updateVolatile, Cluster.record, Function.update_self]
      subst current
      exact
        { term := (congrFun terms m).trans node.term
          view := by
            rw [logs]
            exact node.view
          unvoted := fun none => by cases none
          candidate := fun stands => by cases stands
          leader := fun leads => by cases leads
          committed := by
            rw [logs]
            exact node.committed.later inv.sound extends'
          applied := by
            rw [logs]
            exact node.applied.later inv.sound extends'
          snapshot := fun snapshot stored => by
            rw [logs]
            obtain ⟨decided, term⟩ := node.snapshot snapshot stored
            exact ⟨decided.later inv.sound extends', term⟩ }
    · simp only [Raft.castVote, persistTermAndVote, Cluster.updatePersistent,
        Cluster.updateVolatile, Cluster.record, Function.update_of_ne same]
      exact (inv.nodes m).later inv.sound extends' (congrFun terms m) (congrFun logs m)
        (votes m same) fun _ => congrFun leaderLogs _
  · intro entry member
    obtain old | new := List.mem_append.mp member
    · exact .inl old
    · rw [List.mem_singleton.mp new]
      exact .inr recorded
  · obtain ⟨entered, leads, matched⟩ := inv.started T m leads
    refine ⟨?_, fun here stands => ?_, fun start led => ?_⟩
    · by_cases same : m = n
      · subst same
        rw [(persists_castVote m term candidate s).reaches, current]
        exact entered
      · rwa [Cluster.currentTerm, ((persists_castVote n term candidate s).others m same).1]
    · by_cases same : m = n
      · subst same
        simp [Raft.castVote, Cluster.updateVolatile, Cluster.role] at stands
      · obtain ⟨durable, volatile⟩ := (persists_castVote n term candidate s).others m same
        rw [Cluster.currentTerm, durable] at here
        rw [Cluster.role, volatile] at stands
        exact leads here stands
    · rw [elected] at led
      exact (matched start led).trans (extends'.matched m T)

/-- A voter finds the candidate's log as up to date as its own. -/
theorem upToDate_of_candidateLogIsUpToDate {n : ν} {request : RequestVote ν}
    {own : List (LogEntry (Command ν))} (index : request.lastLogIndex = own.length)
    (term : request.lastLogTerm = logTerm own)
    (upToDate : candidateLogIsUpToDate n request s = true) :
    (rules C).UpToDate own (A.log n) := by
  have view := (inv.nodes n).view
  unfold candidateLogIsUpToDate at upToDate
  dsimp only at upToDate
  rw [show (s.logView n).lastTerm = logTerm (A.log n) from view.lastTerm_eq,
    show (s.logView n).lastIndex = (A.log n).length from view.lastIndex_eq, index, term]
    at upToDate
  unfold Rules.UpToDate
  rw [lastTerm_rules, lastTerm_rules]
  split at upToDate
  next different => exact .inl (of_decide_eq_true upToDate)
  next same => exact .inr ⟨(not_not.mp same).symm, of_decide_eq_true upToDate⟩

/-- A node grants its vote. -/
theorem grant (votes : VoteInv C s) {message : Message ν} {request : RequestVote ν}
    (arrived : Arrived C s message) (payload : message.payload = .requestVote request)
    (term : request.term = s.currentTerm message.dst)
    (upToDate : candidateLogIsUpToDate message.dst request s = true)
    (free : s.votedFor message.dst = none ∨ s.votedFor message.dst = some request.candidateId) :
    Continues C A (Raft.castVote message.dst request.term request.candidateId s) := by
  have current : A.currentTerm message.dst = s.currentTerm message.dst :=
    (inv.nodes message.dst).term
  have sent := inv.network message arrived.1
  rw [payload] at sent
  obtain ⟨own, stands, index, lastTerm⟩ := sent
  cases voted : A.voted message.dst (s.currentTerm message.dst) with
  | none =>
      have extends' := Archive.extends_vote (A := A) (v := message.dst) (by rw [current, voted])
      have positive : 0 < A.currentTerm message.dst := by
        rw [current, ← term]
        exact (inv.sound.votes _ _ own stands).1
      refine inv.castVote extends' (inv.sound.vote positive) term rfl rfl rfl rfl
        (fun m other => ?_) ⟨A.log message.dst, own, ?_, extends'.voted _ _ own stands, ?_⟩
      · funext T
        simp [Archive.vote, other]
      · simp [Archive.vote, term, current]
      · exact inv.upToDate_of_candidateLogIsUpToDate index lastTerm upToDate
  | some log =>
      -- The node has voted in its term already, and for this candidate.
      have cast : s.votedFor message.dst = some request.candidateId := by
        refine free.resolve_left fun none => ?_
        have unvoted := (inv.nodes message.dst).unvoted none
        rw [show (s.persistent message.dst).currentTerm = s.currentTerm message.dst from rfl,
          voted] at unvoted
        cases unvoted
      have recorded := inv.trace _ (votes.voted message.dst request.candidateId cast)
      rw [← term] at recorded
      exact inv.castVote (.refl A) inv.sound term rfl rfl rfl rfl (fun _ _ => rfl) recorded

/-- A candidate is elected. -/
theorem lead (fixed : C.kind = .fixed) (votes : VoteInv C s) {n : ν}
    (candidate : s.role n = .candidate)
    (quorum : hasElectionQuorum C s (s.volatile n).votesReceived = true)
    (free : ∀ existing, s.leadersByTerm.lookup (s.currentTerm n) = some existing → existing = n) :
    Continues C A (promote n s) := by
  have node := inv.nodes n
  have current : A.currentTerm n = s.currentTerm n := node.term
  have own : A.voted n (s.currentTerm n) = some (A.log n) := node.candidate candidate
  have unled : s.leadersByTerm.lookup (s.currentTerm n) = none := by
    cases recorded : s.leadersByTerm.lookup (s.currentTerm n) with
    | none => rfl
    | some existing =>
        obtain rfl := free existing recorded
        exact absurd candidate ((inv.started _ _ recorded).leads rfl)
  have unelected : A.elected (s.currentTerm n) = none := by
    rw [← Option.not_isSome_iff_eq_none, inv.elected, unled]
    simp
  obtain ⟨majority, cast⟩ := votes.elects fixed candidate quorum
  have positive : 0 < s.currentTerm n := (inv.sound.votes n _ _ own).1
  have elects : (A.elect (s.currentTerm n) (A.log n)).Sound (rules C) := by
    refine inv.sound.elect unelected positive (inv.sound.rooted n)
      (fun entry member => current ▸ inv.sound.bounded n entry member) majority fun v vote => ?_
    obtain ⟨log, own', voted, voted', upToDate⟩ := inv.trace _ (cast v vote)
    rw [own] at voted'
    cases voted'
    exact ⟨log, voted, upToDate⟩
  have here : (A.elect (s.currentTerm n) (A.log n)).currentTerm n = s.currentTerm n := current
  have leads : (A.elect (s.currentTerm n) (A.log n)).leaderLog (s.currentTerm n) = A.log n := by
    simp [Archive.elect]
  have sound' : ((A.elect (s.currentTerm n) (A.log n)).acknowledge n (A.log n).length).Sound
      (rules C) := by
    refine elects.acknowledge ?_ ?_
    · rw [here, leads]
    · rw [here, leads]
      exact List.take_prefix _ _
  have extends' : A.Extends ((A.elect (s.currentTerm n) (A.log n)).acknowledge n
      (A.log n).length) :=
    (Archive.extends_elect inv.sound unelected).trans (Archive.extends_acknowledge _ n _)
  have matched : (A.log n).length ≤ ((A.elect (s.currentTerm n) (A.log n)).acknowledge n
      (A.log n).length).matched n (s.currentTerm n) := by
    simp [Archive.acknowledge, Archive.elect, current]
  have others : ∀ {t}, t ≠ s.currentTerm n →
      ((A.elect (s.currentTerm n) (A.log n)).acknowledge n (A.log n).length).leaderLog t =
        A.leaderLog t ∧
      ((A.elect (s.currentTerm n) (A.log n)).acknowledge n (A.log n).length).elected t =
        A.elected t := fun other =>
    ⟨Function.update_of_ne other .., Function.update_of_ne other ..⟩
  have elected : ((A.elect (s.currentTerm n) (A.log n)).acknowledge n
      (A.log n).length).elected (s.currentTerm n) = some (A.log n) := Function.update_self ..
  have volatile : ∀ m, m ≠ n → (promote n s).volatile m = s.volatile m := fun m other => by
    simp [promote, Cluster.updateVolatile, Cluster.record, other]
  have recorded : ∀ t, (promote n s).leadersByTerm.lookup t =
      if t = s.currentTerm n then some n else s.leadersByTerm.lookup t := by
    intro t
    change (s.leadersByTerm.setDefault (s.currentTerm n) n).lookup t = _
    rw [Dict.lookup_setDefault]
    by_cases same : t = s.currentTerm n
    · rw [if_pos ⟨same, AList.lookup_eq_none.mp unled⟩, if_pos same]
    · rw [if_neg fun both => same both.1, if_neg same]
  refine ⟨_, extends', inv.later extends' sound' (fun m => ?_) (fun _ => .inl) ?_
    (fun _ => .inl) (fun t => ?_) fun t m leader => ?_⟩
  · by_cases same : m = n
    · subst same
      simp only [promote, Cluster.updateVolatile, Cluster.record, Function.update_self]
      exact
        { term := current
          view := node.view
          unvoted := node.unvoted
          candidate := fun stands => by cases stands
          leader := fun _ => ⟨Option.isSome_iff_exists.mpr ⟨_, elected⟩, leads, matched⟩
          committed := node.committed.later inv.sound extends'
          applied := node.applied.later inv.sound extends'
          snapshot := fun snapshot stored => by
            obtain ⟨decided, term⟩ := node.snapshot snapshot stored
            exact ⟨decided.later inv.sound extends', term⟩ }
    · rw [volatile m same]
      refine (inv.nodes m).later inv.sound extends' rfl rfl rfl fun leader => (others ?_).1
      have recorded := votes.recorded m _ (votes.leads m leader).2
      rintro here
      rw [show (s.persistent m).currentTerm = s.currentTerm m from rfl] at here
      rw [here, unled] at recorded
      cases recorded
  · intro entry recorded
    obtain old | new := List.mem_append.mp recorded
    · exact .inl old
    · rw [List.mem_singleton.mp new]
      exact .inr trivial
  · rw [recorded]
    by_cases same : t = s.currentTerm n
    · rw [same, elected, if_pos rfl]
      simp
    · rw [(others same).2, if_neg same]
      exact inv.elected t
  · rw [recorded] at leader
    split at leader
    next same =>
      cases leader
      subst same
      refine ⟨le_rfl, fun _ stands => ?_, fun start led => ?_⟩
      · simp [promote, Cluster.updateVolatile, Cluster.record, Cluster.role] at stands
      · rw [elected] at led
        cases led
        exact matched
    next other =>
      obtain ⟨entered, starts, reached⟩ := inv.started t m leader
      refine ⟨entered, fun here stands => ?_, fun start led => ?_⟩
      · by_cases same : m = n
        · subst same
          exact other here
        · rw [Cluster.role, volatile m same] at stands
          exact starts here stands
      · rw [(others other).2] at led
        exact (reached start led).trans (extends'.matched m t)

end LogInv

end Distlab.Raft
