import Distlab.Raft.SafeCheckpoints

/-!
# Leader Completeness and State Machine Safety

In a run of fixed membership whose drivers do what the protocol asks for, the archive of the
last state extends those of all states. What was committed by a leader is decided in it, and
the leader of a later term was elected with it, whichever of the two comes first.
-/

set_option autoImplicit false

namespace Distlab.Raft

open Foundations LeaderLogs

variable {ν : Type} [LinearOrder ν] {C : Config ν} {s s' : Cluster ν} {A A' : Logs ν}

/-! ## The states of a run -/

/-- A later leader was elected with what was decided. -/
theorem Decided.prefix_elected {t T index : ℕ} {log start : List (LogEntry (Command ν))}
    (decided : Decided C A t log index) (sound : A.Sound (rules C)) (earlier : t < T)
    (elected : A.elected T = some start) : log.take index <+: start := by
  obtain none | ⟨t', below, index', chosen, part⟩ := decided.safe
  · rw [none]
    exact List.nil_prefix
  · exact part.trans (sound.prefix_elected chosen (below.trans_lt earlier) elected)

/-- A leader has what is final in earlier terms, also if it became so after this state. -/
theorem Archived.leader_covers (archived : Archived C s A) (grows : A.Extends A')
    (sound : A'.Sound (rules C)) {t index : ℕ} {n : ν} {entry : LogEntry (Command ν)}
    (final : Final C A' t index entry) (leads : s.role n = .leader)
    (earlier : t < s.currentTerm n) : (s.logView n).Covers index entry := by
  obtain ⟨log, decided, positive, found⟩ := final
  obtain ⟨led, own, -⟩ := (archived.logs.nodes n).leader leads
  obtain ⟨start, elected⟩ := Option.isSome_iff_exists.mp led
  have kept := decided.prefix_elected sound earlier (grows.elected _ start elected)
  refine archived.covers_of_part ?_ positive found
  rw [← own]
  exact kept.trans (archived.logs.sound.prefix_leaderLog_of_elected elected)

/-- The records of what a node has applied are final. -/
theorem Archived.final_of_mem_applied (archived : Archived C s A) {n : ν} {r : AppliedEntry ν}
    (member : r ∈ s.applier.applied n) : Final C A (s.currentTerm n) r.index r.entry := by
  rw [(archived.applied.nodes n).records] at member
  obtain ⟨k, found, index⟩ := mem_appliedRecords member
  rw [index]
  exact archived.final_of_applied found

/-- A run goes on with an archive that extends the one before. -/
theorem Archived.run_append {events rest : List (Event ν)} (fixed : C.kind = .fixed)
    (continues : ∀ event ∈ rest, event.Continues)
    (protocol : ∀ event ∈ rest, event.Protocol (C := C)) (archived : Archived C (run C events) A) :
    ∃ A', A.Extends A' ∧ Archived C (run C (events ++ rest)) A' := by
  have moves : Moves C .protocol (run C events) (run C (events ++ rest)) := by
    unfold run
    rw [runEvents_append]
    exact moves_runEvents continues (.inr protocol) fun _ _ => trivial
  exact archived.moves fixed id moves

/-- The states of a run have archives that the archive of its last state extends. -/
theorem exists_archives (fixed : C.kind = .fixed) {events : List (Event ν)}
    (continues : ∀ event ∈ events, event.Continues)
    (protocol : ∀ event ∈ events, event.Protocol (C := C)) :
    ∃ A, Archived C (run C events) A ∧
      ∀ first, first <+: events → ∃ A₁, A₁.Extends A ∧ Archived C (run C first) A₁ := by
  induction events using List.reverseRecOn with
  | nil =>
      have fresh : Moves C .protocol
          (Config.over (fun _ => {}) C.initialConfiguration {} fun _ => {}) (run C []) :=
        moves_startTimers _
      obtain ⟨A, -, archived⟩ := archived_over.moves fixed id fresh
      refine ⟨A, archived, fun first part => ⟨A, .refl A, ?_⟩⟩
      rw [List.prefix_nil.mp part]
      exact archived
  | append_singleton events event ih =>
      obtain ⟨A, archived, earlier⟩ :=
        ih (fun e member => continues e (List.mem_append_left _ member))
          fun e member => protocol e (List.mem_append_left _ member)
      obtain ⟨A', grows, archived'⟩ := archived.run_append fixed
        (fun e member => continues e (List.mem_append_right _ member))
        fun e member => protocol e (List.mem_append_right _ member)
      refine ⟨A', archived', fun first part => ?_⟩
      obtain rfl | before := List.prefix_concat_iff.mp part
      · exact ⟨A', .refl A', archived'⟩
      · obtain ⟨A₁, grows₁, archived₁⟩ := earlier first before
        exact ⟨A₁, grows₁.trans grows, archived₁⟩

/-- In a state of the run a leader of the term has committed the entry. -/
def CommittedIn (C : Config ν) (events : List (Event ν)) (term index : ℕ)
    (entry : LogEntry (Command ν)) : Prop :=
  ∃ first, first <+: events ∧ ∃ n, (run C first).role n = .leader ∧
    (run C first).currentTerm n = term ∧ index ≤ (run C first).commitIndex n ∧
    ((run C first).logView n).entryAt index = some entry

/-- **Leader Completeness and State Machine Safety.** In every run of a cluster of fixed
membership whose drivers do what the protocol asks for, an entry that a leader has committed
is in the log of every leader of a later term or covered by its boundary, whichever of the
two comes first in the run. What any two nodes apply at one index is the same entry, no
event raises a conflict with the canonical entry of an index, and checkpoints pass. -/
theorem leader_completeness_and_state_machine_safety (fixed : C.kind = .fixed)
    (events : List (Event ν)) (continues : ∀ event ∈ events, event.Continues)
    (protocol : ∀ event ∈ events, event.Protocol (C := C)) :
    (∀ term index entry, CommittedIn C events term index entry →
      ∀ second, second <+: events → ∀ n, (run C second).role n = .leader →
        term < (run C second).currentTerm n →
        ((run C second).logView n).Covers index entry) ∧
    (∀ first second, first <+: events → second <+: events → ∀ n m r r',
      r ∈ (run C first).applier.applied n → r' ∈ (run C second).applier.applied m →
      r.index = r'.index → r.entry = r'.entry) ∧
    (∀ event : Event ν, event.Continues → event.Protocol (C := C) → ∀ index existing n,
      (step C event (run C events)).error? ≠ some (.canonicalConflict index existing n)) ∧
    (checkpoint C (run C events)).error? = none := by
  obtain ⟨A, archived, states⟩ := exists_archives fixed continues protocol
  have sound := archived.logs.sound
  refine ⟨?_, ?_, fun event goesOn asked index existing n raised => ?_, archived.checkpoint fixed⟩
  · rintro term index entry ⟨first, part, m, -, rfl, committed, found⟩ second part' n leads earlier
    obtain ⟨A₁, grows₁, archived₁⟩ := states first part
    obtain ⟨A₂, grows₂, archived₂⟩ := states second part'
    have final := (archived₁.final_of_committed committed found).later archived₁.logs.sound grows₁
    exact archived₂.leader_covers grows₂ sound final leads earlier
  · intro first second part part' n m r r' applied applied' same
    obtain ⟨A₁, grows₁, archived₁⟩ := states first part
    obtain ⟨A₂, grows₂, archived₂⟩ := states second part'
    have final := (archived₁.final_of_mem_applied applied).later archived₁.logs.sound grows₁
    have final' := (archived₂.final_of_mem_applied applied').later archived₂.logs.sound grows₂
    rw [← same] at final'
    exact final.unique final' sound
  · have runs : Runs C .protocol (run C events) (step C event (run C events)) :=
      runs_step goesOn (.inr asked) (Event.allowed_of_proposes fun _ _ => trivial)
    obtain ⟨A', -, archived'⟩ := archived.moves fixed id runs.state
    exact archived'.not_canonicalConflict index existing n (Outcome.Ensures.error runs raised)

/-- The first node of three is elected, replicates an entry to the second one, commits and
applies it. -/
def committedByFirst : List (Event ℕ) :=
  [.startElection 0, .deliver ⟨0, 0⟩, .deliver ⟨2, 0⟩, .newReplicator 0 false false,
    .appendCurrentTerm 0 (.other "a"), .replicate 0 1 none [[⟨3, 0⟩, ⟨4, 0⟩]],
    .advanceCommitIndex 0, .applyCommitted 0]

/-- Then the second node is elected by the third one, which has not seen the entry. -/
def laterElection : List (Event ℕ) :=
  committedByFirst ++ [.startElection 1, .deliver ⟨6, 0⟩, .deliver ⟨7, 0⟩]

theorem laterElection_covers :
    CommittedIn threeNodes laterElection 1 1 ⟨1, .other "a"⟩ ∧
      (run threeNodes laterElection).role 1 = .leader ∧
      ((run threeNodes laterElection).logView 1).Covers 1 ⟨1, .other "a"⟩ := by
  have committed : CommittedIn threeNodes laterElection 1 1 ⟨1, .other "a"⟩ :=
    ⟨committedByFirst, List.prefix_append _ _, 0, by decide +kernel, by decide +kernel,
      by decide +kernel, by decide +kernel⟩
  have leads : (run threeNodes laterElection).role 1 = .leader := by decide +kernel
  have safe := leader_completeness_and_state_machine_safety (C := threeNodes) rfl laterElection
    (fun event member => by
      simp only [laterElection, committedByFirst, List.cons_append, List.nil_append,
        List.mem_cons, List.not_mem_nil, or_false] at member
      obtain rfl | rfl | rfl | rfl | rfl | rfl | rfl | rfl | rfl | rfl | rfl := member <;> trivial)
    fun event member => by
      simp only [laterElection, committedByFirst, List.cons_append, List.nil_append,
        List.mem_cons, List.not_mem_nil, or_false] at member
      obtain rfl | rfl | rfl | rfl | rfl | rfl | rfl | rfl | rfl | rfl | rfl := member <;>
        first | trivial | exact .inl rfl
  exact ⟨committed, leads, safe.1 1 1 _ committed laterElection List.prefix_rfl 1 leads
    (by decide +kernel)⟩

end Distlab.Raft
