import Distlab.Raft.BookKeeping
import Distlab.Raft.Timers

/-!
# Election timers under the operations of a node

Every way in which a node loses the leadership, gains it or stands for election
ends with its timer armed, or disarmed if the node leads or is no voter.
-/

set_option autoImplicit false

namespace Distlab.Raft

open Foundations

variable {ν : Type} [LinearOrder ν] {C : Config ν} {n m : ν} {s t : Cluster ν}

/-! ## Writes -/

omit [LinearOrder ν] in
/-- A step that changes neither the timer nor the network. -/
theorem Touched.of_same (time : t.time = s.time) (timer : t.timer n = s.timer n)
    (network : t.network = s.network) : Touched n s t where
  time := time
  later := by rw [timer]
  sent := ⟨[], by simp [network], by simp⟩

/-- A volatile write that does not decide who leads. -/
theorem kept_updateVolatile {f : Volatile ν → Volatile ν}
    (leads : (f (s.volatile m)).role = .leader ↔ (s.volatile m).role = .leader) :
    Kept C n s (s.updateVolatile m f) where
  toTouched := .of_same rfl rfl rfl
  timer := rfl
  alive := rfl
  waits := by
    have same : (s.updateVolatile m f).role n = .leader ↔ s.role n = .leader := by
      by_cases equal : n = m
      · subst equal
        simpa [Cluster.role, Cluster.updateVolatile] using leads
      · simp [Cluster.role, Cluster.updateVolatile, equal]
    exact and_congr Iff.rfl (not_congr same)

/-- A volatile write touches its node only. -/
theorem shifts_updateVolatile (f : Volatile ν → Volatile ν) :
    Shifts C n m s (s.updateVolatile m f) where
  touched := .of_same rfl rfl rfl
  others other := by
    refine ⟨.of_same rfl rfl rfl, rfl, rfl, ?_⟩
    have same : (s.updateVolatile m f).role n = s.role n := by
      simp [Cluster.role, Cluster.updateVolatile, other]
    exact and_congr Iff.rfl (by rw [same])

theorem quiet_persistTermAndVote (term : ℕ) (votedFor : Option ν) :
    Quiet s (persistTermAndVote m term votedFor s) :=
  (quiet_updatePersistent m _).trans (quiet_record _)

theorem shifts_retire : Shifts C n m s (retire m s) := shifts_updateVolatile _

theorem shifts_adoptTerm (term : ℕ) : Shifts C n m s (adoptTerm m term s) :=
  (quiet_persistTermAndVote term none).kept.shifts.trans shifts_retire

theorem shifts_castVote (term : ℕ) (candidate : ν) :
    Shifts C n m s (castVote m term candidate s) :=
  (quiet_persistTermAndVote term _).kept.shifts.trans (shifts_updateVolatile _)

theorem shifts_becomeCandidate : Shifts C n m s (becomeCandidate m s) :=
  (quiet_persistTermAndVote _ _).kept.shifts.trans (shifts_updateVolatile _)

/-! ## Timers -/

/-- A new generation of a timer that nothing waits for. -/
theorem Rearmed.of_silent (time : t.time = s.time) (network : t.network = s.network)
    (newer : (s.timer n).generation < (t.timer n).generation) (idle : ¬ Waits C n t) :
    Rearmed C n s t where
  time := time
  later := newer.le
  sent := ⟨[], by simp [network], by simp⟩
  newer := newer
  arms sent grown := by
    rw [network] at grown
    rw [Arms, if_neg idle, List.self_eq_append_right.mp grown]
    rfl

theorem kept_updateTimer (other : n ≠ m) (f : ElectionTimer → ElectionTimer) :
    Kept C n s (s.updateTimer m f) where
  toTouched := .of_same rfl (by simp [Cluster.updateTimer, other]) rfl
  timer := by simp [Cluster.updateTimer, other]
  alive := rfl
  waits := Iff.rfl

/-- The node of a timer that is disabled is not a voter. -/
theorem resets_disableElectionTimeout (outside : isVoter C s m = false) :
    Resets C n m s (disableElectionTimeout m s) := by
  unfold disableElectionTimeout
  dsimp only
  have bumped : (s.timer m).generation <
      ((s.updateTimer m fun t =>
        { t with generation := t.generation + 1 }).timer m).generation := by
    simp [Cluster.updateTimer]
  have counted : Resets C n m s (s.updateTimer m fun t =>
      { t with generation := t.generation + 1 }) := by
    refine ⟨fun same => ?_, fun other => kept_updateTimer other _⟩
    subst same
    refine .of_silent rfl rfl bumped fun waits => ?_
    exact Bool.false_ne_true (outside.symm.trans waits.1)
  refine counted.trans ?_
  set u := s.updateTimer m fun t => { t with generation := t.generation + 1 }
  have cleared : Kept C n u
      (if (u.volatile m).preVoteTerm.isSome then clearPreVote m u else u) := by
    split
    · exact (quiet_clearPreVote m).kept
    · exact .refl u
  set v := if (u.volatile m).preVoteTerm.isSome then clearPreVote m u else u
  refine cleared.acts.trans (Kept.acts ?_)
  split
  next candidate =>
    refine kept_updateVolatile (iff_of_false (by simp) ?_)
    rw [← Cluster.role, candidate]
    simp
  next => exact .refl v

/-- The timer of a node that does not lead is armed, if the node is a voter. -/
theorem resets_resetElectionTimeout {timeout : ℕ} (timed : C.electionTimeout m = some timeout)
    (follows : s.role m ≠ .leader) : Resets C n m s (resetElectionTimeout C m s) := by
  unfold resetElectionTimeout
  split
  next outside => exact resets_disableElectionTimeout (by simpa using outside)
  next voter =>
    rw [timed]
    dsimp only
    refine ⟨fun same => ?_, fun other => ?_⟩
    · subst same
      refine ⟨⟨rfl, by simp [Cluster.updateTimer, Cluster.schedule], ?_⟩,
        by simp [Cluster.updateTimer, Cluster.schedule], fun sent grown => ?_⟩
      · refine ⟨[_], rfl, fun message member generation deadline payload => ?_⟩
        obtain rfl := List.mem_singleton.mp member
        cases payload
        exact ⟨rfl, ⟨_, rfl, Nat.le_add_right _ _⟩,
          fun _ => by simp [Cluster.updateTimer, Cluster.schedule]⟩
      · obtain rfl := List.append_cancel_left grown
        have waits : Waits C n ((s.updateTimer n fun t =>
            ⟨t.generation + 1, some (s.time + timeout)⟩).schedule n (.electionTimeout
              ((s.updateTimer n fun t => ⟨t.generation + 1, some (s.time + timeout)⟩).timer
                n).generation (some (s.time + timeout)))) :=
          ⟨not_not.mp voter, follows⟩
        rw [Arms, if_pos waits]
        refine ⟨?_, s.time + timeout, by simp [Cluster.updateTimer, Cluster.schedule], ?_⟩
        · simp [Message.timesOut, Cluster.schedule]
        · intro message member _
          obtain rfl := List.mem_singleton.mp member
          rfl
    · have scheduled := kept_updateTimer (C := C) (s := s) other fun t =>
        ⟨t.generation + 1, some (s.time + timeout)⟩
      refine scheduled.trans ⟨⟨rfl, le_rfl, [_], rfl, ?_⟩, rfl, rfl, Iff.rfl⟩
      intro message member generation deadline payload
      obtain rfl := List.mem_singleton.mp member
      cases payload
      exact ⟨rfl, ⟨_, rfl, Nat.le_add_right _ _⟩, fun same => absurd same.symm other⟩

/-- A leader has no timer to reset. -/
theorem acts_resetElectionTimeout {timeout : ℕ} (timed : C.electionTimeout m = some timeout) :
    Acts C n m s (resetElectionTimeout C m s) := by
  by_cases leads : s.role m = .leader
  · unfold resetElectionTimeout
    split
    next outside => exact (resets_disableElectionTimeout (by simpa using outside)).acts
    next =>
      rw [timed]
      exact (Kept.refl s).acts
  · exact (resets_resetElectionTimeout timed leads).acts

/-! ## Terms and leadership -/

/-- A node that adopts a term without arming its timer. -/
theorem shifts_advanceTerm (term : ℕ) : Shifts C n m s (advanceTerm C m term false s) := by
  unfold advanceTerm
  split
  · exact .refl s
  · have adopted : Shifts C n m s (clearPreVote m (adoptTerm m term s)) :=
      (shifts_adoptTerm term).trans (quiet_clearPreVote m).kept.shifts
    dsimp only
    rw [if_neg (by simp)]
    split
    · exact adopted.trans (quiet_notifyLeaderRetired m _).kept.shifts
    · exact adopted

/-- A node that did not lead keeps its timer when it adopts a term. -/
theorem kept_advanceTerm (follows : s.role m ≠ .leader) (term : ℕ) (rearm : Bool) :
    Kept C n s (advanceTerm C m term rearm s) := by
  unfold advanceTerm
  split
  · exact .refl s
  · simp only [follows, and_false, if_false]
    refine Kept.trans ?_ (quiet_clearPreVote m).kept
    refine (quiet_persistTermAndVote (m := m) term none).kept.trans ?_
    exact kept_updateVolatile (s := persistTermAndVote m term none s)
      (f := fun w => { w with role := .follower, votesReceived := ∅ })
      (iff_of_false (by simp) follows)

/-- A node that led follows with its timer armed. -/
theorem acts_advanceTerm {timeout : ℕ} (timed : C.electionTimeout m = some timeout) (term : ℕ) :
    Acts C n m s (advanceTerm C m term true s) := by
  by_cases leads : s.role m = .leader
  · unfold advanceTerm
    split
    · exact (Kept.refl s).acts
    · simp only [leads, if_true, and_self]
      have adopted : Shifts C n m s (clearPreVote m (adoptTerm m term s)) :=
        (shifts_adoptTerm term).trans (quiet_clearPreVote m).kept.shifts
      have retired := adopted.trans
        (quiet_notifyLeaderRetired (s := clearPreVote m (adoptTerm m term s)) m
          (s.currentTerm m)).kept.shifts
      refine (retired.resets (resets_resetElectionTimeout timed ?_)).acts
      rw [(quiet_notifyLeaderRetired m _).role, (quiet_clearPreVote m).role]
      simp [adoptTerm, retire, Cluster.role, Cluster.updateVolatile]
  · exact (kept_advanceTerm leads term true).acts

theorem quiet_recordLeader (term : ℕ) : Quietly s (recordLeader term m s) := by
  unfold recordLeader
  split
  · exact .of_fields rfl rfl rfl rfl (fun _ => rfl) rfl
  split
  · exact ⟨.refl s, trivial⟩
  · exact .refl s

/-- A leader has no timer. -/
theorem acts_becomeLeader (term : ℕ) :
    (becomeLeader m term s).Ensures (Acts C n m s) fun _ _ => True := by
  unfold becomeLeader
  split
  · exact (Kept.refl s).acts
  · refine Outcome.Ensures.bind (quiet_recordLeader term) (fun _ t _ recorded => ?_) fun _ quiet =>
      quiet.kept.acts
    have promoted : Shifts C n m s (clearPreVote m (t.updateVolatile m fun w =>
        { w with role := .leader })) :=
      (recorded.kept.shifts.trans (shifts_updateVolatile _)).trans
      (quiet_clearPreVote m).kept.shifts
    dsimp only
    generalize silent : clearPreVote m (t.updateVolatile m fun w => { w with role := .leader }) = u
      at promoted ⊢
    have leads : u.role m = .leader := by
      rw [← silent, (quiet_clearPreVote m).role]
      simp [Cluster.role, Cluster.updateVolatile]
    have disarmed : Resets C n m u (u.updateTimer m fun t => ⟨t.generation + 1, none⟩) := by
      refine ⟨fun same => ?_, fun other => kept_updateTimer other _⟩
      subst same
      exact .of_silent rfl rfl (by simp [Cluster.updateTimer]) fun waits => waits.2 leads
    exact ((promoted.resets disarmed).kept
      ((quiet_record _).trans (quiet_notifyLeaderAcquired m term)).kept).acts

/-! ## Elections -/

variable {timeout : ℕ} (timed : C.electionTimeout m = some timeout)

include timed

/-- A node that stands for election arms its timer first. -/
theorem resets_startElection (alive : s.alive m = true) (voter : isVoter C s m = true) :
    (startElection C m s).Ensures (Resets C n m s) fun _ _ => True := by
  unfold startElection
  rw [if_neg (by simp [alive]), if_neg (by simp [voter])]
  have stands : Resets C n m s
      (resetElectionTimeout C m (becomeCandidate m (clearPreVote m s))) := by
    have candidate := (quiet_clearPreVote (s := s) m).kept.shifts.trans
      (shifts_becomeCandidate (C := C) (n := n) (m := m))
    refine candidate.resets (resets_resetElectionTimeout timed ?_)
    simp [becomeCandidate, Cluster.role, Cluster.updateVolatile]
  dsimp only
  split
  · exact (acts_becomeLeader _).mono (fun t after => stands.trans after) fun _ _ => id
  · exact stands.kept (quiet_sendAll (by simp) _ _).kept

theorem acts_startElection :
    (startElection C m s).Ensures (Acts C n m s) fun _ _ => True := by
  by_cases ready : s.alive m = true ∧ isVoter C s m = true
  · exact (resets_startElection timed ready.1 ready.2).mono (fun t resets => resets.acts)
      fun _ _ => id
  · unfold startElection
    split
    · exact ⟨(Kept.refl s).acts, trivial⟩
    next alive =>
      rw [if_pos fun voter => ready ⟨by simpa using alive, voter⟩]
      exact ⟨(Kept.refl s).acts, trivial⟩

/-- A node that probes for an election arms its timer. -/
theorem resets_startPreVote (alive : s.alive m = true) (waits : Waits C m s) :
    (startPreVote C m s).Ensures (Resets C n m s) fun _ _ => True := by
  unfold startPreVote
  rw [if_neg (by simp [alive]), if_neg (by simp [waits.1]), if_neg waits.2]
  dsimp only
  have probes : Quiet s (s.updateVolatile m fun w => { w with
      preVoteTerm := some (s.currentTerm m + 1), preVotesReceived := {m} }) :=
    quiet_updateVolatile m rfl
  generalize (s.updateVolatile m fun w => { w with
    preVoteTerm := some (s.currentTerm m + 1), preVotesReceived := {m} }) = t at probes
  have waits' : Waits C m t := probes.kept.waits.mpr waits
  split
  · have cleared := quiet_clearPreVote (s := t) m
    refine (resets_startElection timed ?_ ?_).mono
      (fun u resets => (probes.trans cleared).kept.shifts.resets resets) fun _ _ => id
    · rw [cleared.alive, probes.alive]
      exact alive
    · exact (cleared.kept.waits.mpr waits').1
  · exact (probes.kept.shifts.resets (resets_resetElectionTimeout timed waits'.2)).kept
      (quiet_sendAll (by simp) _ _).kept

theorem acts_startPreVote : (startPreVote C m s).Ensures (Acts C n m s) fun _ _ => True := by
  by_cases ready : s.alive m = true ∧ Waits C m s
  · exact (resets_startPreVote timed ready.1 ready.2).mono (fun t resets => resets.acts)
      fun _ _ => id
  · unfold startPreVote
    split
    · exact ⟨(Kept.refl s).acts, trivial⟩
    split
    · exact ⟨(Kept.refl s).acts, trivial⟩
    split
    · exact (Kept.refl s).acts
    next alive voter leads =>
      exact absurd ⟨by simpa using alive, by simpa using voter, leads⟩ ready

theorem acts_stepDown : (stepDown C m s).Ensures (Acts C n m s) fun _ _ => True := by
  unfold stepDown
  split
  · exact ⟨(Kept.refl s).acts, trivial⟩
  split
  · exact (Kept.refl s).acts
  · have retired : Shifts C n m s (clearPreVote m (retire m s)) :=
      shifts_retire.trans (quiet_clearPreVote m).kept.shifts
    have noted := retired.trans (quiet_notifyLeaderRetired (s := clearPreVote m (retire m s)) m
      (s.currentTerm m)).kept.shifts
    refine (noted.resets (resets_resetElectionTimeout timed ?_)).acts
    rw [(quiet_notifyLeaderRetired m _).role, (quiet_clearPreVote m).role, role_retire]
    simp

/-- The end of a restart: the timer has a new generation, then it is armed. -/
theorem resets_revived (cleared : Shifts C n m s t) (follows : t.role m ≠ .leader) :
    Resets C n m s (resetElectionTimeout C m
      (t.updateTimer m fun timer => ⟨timer.generation + 1, none⟩)) := by
  have counted : Shifts C n m t (t.updateTimer m fun timer => ⟨timer.generation + 1, none⟩) := by
    refine ⟨⟨rfl, ?_, [], by simp [Cluster.updateTimer], by simp⟩,
      fun other => kept_updateTimer other _⟩
    by_cases same : n = m
    · subst same
      simp [Cluster.updateTimer]
    · simp [Cluster.updateTimer, same]
  exact (cleared.trans counted).resets (resets_resetElectionTimeout timed follows)

/-- A node that restarts comes back with its timer armed, if it is a voter. -/
theorem resets_restart : Resets C n m s (restart C m s) := by
  unfold restart
  dsimp only
  set revived : Cluster ν := { s with alive := Function.update s.alive m true }
  have alive : Shifts C n m s revived := by
    refine ⟨.of_same rfl rfl rfl, fun other => ⟨.of_same rfl rfl rfl, rfl, ?_, Iff.rfl⟩⟩
    exact Function.update_of_ne other _ _
  have cleared := alive.trans (shifts_updateVolatile (C := C) (n := n) (s := revived) (m := m)
    fun _ => {})
  have follows : (revived.updateVolatile m fun _ => {}).role m ≠ .leader := by
    simp [Cluster.role, Cluster.updateVolatile]
  split
  · exact resets_revived timed cleared follows
  · have noted := quiet_notifyLeaderRetired (s := revived.updateVolatile m fun _ => {}) m
    refine resets_revived timed (cleared.trans (noted _).kept.shifts) ?_
    rw [(noted _).role]
    exact follows

end Distlab.Raft
