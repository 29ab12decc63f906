import Distlab.Raft.LeaderCompleteness

/-!
# Replication progress

What a replicator knows a peer to match, the peer has stored in the replicator's term. It
keeps it until it follows a leader of a later term that was elected without it, of which a
leader that is cut off learns nothing. What a replicator commits is chosen, so no later
leader is without it and a majority keeps it.
-/

set_option autoImplicit false

namespace Distlab.Raft

open Foundations LeaderLogs

variable {ν : Type} [LinearOrder ν] {C : Config ν} {s : Cluster ν} {A A' : Logs ν}

namespace RaftLogView

/-- The view reaches the index and covers what another view has up to it. -/
def CoversUpTo {κ : Type} (view other : RaftLogView κ) (index : ℕ) : Prop :=
  index ≤ view.lastIndex ∧
    ∀ place ≤ index, ∀ entry, other.entryAt place = some entry → view.Covers place entry

end RaftLogView

/-! ## In one state -/

namespace Archived

variable (archived : Archived C s A) {r : LeaderReplicator ν} (current : r.Current s)
include archived current

/-- The log of a current replicator's leader is the log of its term. -/
theorem leaderLog_eq : A.leaderLog r.term = A.log r.leader := by
  obtain ⟨leads, term⟩ := current
  obtain ⟨-, own, -⟩ := (archived.logs.nodes r.leader).leader leads
  rw [← term]
  exact own

omit current in
theorem coversUpTo {n m : ν} {index : ℕ} (part : (A.log n).take index <+: A.log m)
    (within : index ≤ (A.log n).length) :
    (s.logView m).CoversUpTo (s.logView n) index := by
  refine ⟨?_, fun place below entry found => ?_⟩
  · rw [(archived.view m).lastIndex_eq, ← List.length_take_of_le within]
    exact part.length_le
  · have above := RaftLogView.lt_of_entryAt found
    rw [(archived.view n).entryAt_eq above] at found
    exact archived.covers_of_part ((List.take_prefix_take_left below).trans part)
      (Nat.zero_lt_of_lt above) found

/-- **What a peer matches it keeps**, unless a later leader was elected without it. -/
theorem prefix_log_of_progress (member : r ∈ s.replicators) (peer : ν) :
    (r.progress peer).matchIndex ≤ (A.log r.leader).length ∧
      ((A.log r.leader).take (r.progress peer).matchIndex <+: A.log peer ∨
        ∃ T start, r.term < T ∧ T ≤ s.currentTerm peer ∧ A.elected T = some start ∧
          ¬ (A.log r.leader).take (r.progress peer).matchIndex <+: start) := by
  have matched := (archived.logs.replicators r member).matched peer
  have kept := archived.logs.sound.kept peer r.term _ matched
  have within := matched.trans (archived.logs.sound.within peer r.term)
  unfold Archive.Keeps at kept
  rw [archived.leaderLog_eq current] at kept within
  refine ⟨within, kept.imp_right fun ⟨T, start, above, below, elected, missing⟩ => ?_⟩
  have term : A.currentTerm peer = s.currentTerm peer := (archived.logs.nodes peer).term
  exact ⟨T, start, above, by omega, elected, missing⟩

/-- A later leader is elected with what the leader has compacted. -/
theorem prefix_elected_of_compacted {T index : ℕ} {start : List (LogEntry (Command ν))}
    (compacted : index ≤ (s.logView r.leader).baseIndex) (later : r.term < T)
    (elected : A.elected T = some start) : (A.log r.leader).take index <+: start := by
  have applied := (archived.logs.nodes r.leader).applied
  have within := compacted.trans (archived.applied.nodes r.leader).behind
  have term : s.currentTerm r.leader = r.term := current.2
  exact (applied.of_le within).prefix_elected archived.logs.sound (term.trans_lt later) elected

omit current in
/-- What a replicator has committed is stored on a majority. -/
theorem exists_majority_of_commitIndex (member : r ∈ s.replicators) {index : ℕ}
    (positive : 0 < index) (committed : index ≤ r.commitIndex) :
    ∃ entry nodes, (A.leaderLog r.term)[index - 1]? = some entry ∧ Majority C nodes ∧
      ∀ v ∈ nodes, (s.logView v).Covers index entry := by
  have decided := (archived.logs.replicators r member).committed.of_le committed
  have within := decided.within
  have below : index - 1 < (A.leaderLog r.term).length := by omega
  have found : (A.leaderLog r.term)[index - 1]? = some (A.leaderLog r.term)[index - 1] :=
    List.getElem?_eq_getElem below
  obtain none | ⟨nodes, decides, stored⟩ := archived.logs.sound.exists_quorum_of_safe decided.safe
  · have length := List.length_take_of_le within
    rw [none, List.length_nil] at length
    omega
  · exact ⟨_, nodes, found, decides, fun v voter =>
      archived.covers_of_part (stored v voter) positive found⟩

end Archived

/-! ## In every run -/

/-- In no state of the run in which the node leads in the term does its log show an entry
with the given term at the index. -/
def LeadsWithout (C : Config ν) (events : List (Event ν)) (n : ν) (T index term : ℕ) : Prop :=
  ∀ first, first <+: events → (run C first).role n = .leader → (run C first).currentTerm n = T →
    ((run C first).logView n).termAt index ≠ some term

/-- A leader whose log shows the term of another log at an index has the log up to it, and
was elected with it if the other log is of an earlier term. -/
theorem Archived.prefix_elected_of_termAt (archived : Archived C s A) (grows : A.Extends A')
    (sound : A'.Sound (rules C)) {t index : ℕ} {n : ν} {start : List (LogEntry (Command ν))}
    (led : (A'.elected t).isSome) (within : index ≤ (A'.leaderLog t).length)
    (later : t < s.currentTerm n) (leads : s.role n = .leader)
    (elected : A'.elected (s.currentTerm n) = some start)
    (shows : (s.logView n).termAt index = some (logTerm ((A'.leaderLog t).take index))) :
    (A'.leaderLog t).take index <+: start := by
  obtain ⟨-, own, -⟩ := (archived.logs.nodes n).leader leads
  obtain ⟨-, below, term⟩ := (archived.view n).termAt_eq_some.mp shows
  have longer : A.log n <+: A'.leaderLog (s.currentTerm n) := own ▸ grows.leaderLog _
  have same : (A'.leaderLog (s.currentTerm n)).take index = (A.log n).take index := by
    obtain ⟨rest, log⟩ := longer
    rw [← log, List.take_append_of_le_length below]
  have agree : (A'.leaderLog t).take index = (A'.leaderLog (s.currentTerm n)).take index := by
    refine LogInv.take_eq (sound.rooted_leaderLog led)
      (sound.rooted_leaderLog (Option.isSome_iff_exists.mpr ⟨start, elected⟩)) within
      (below.trans longer.length_le) ?_
    rw [same, term]
  refine sound.prefix_elected_of_below elected (agree ▸ List.take_prefix index _) ?_
  intro entry member
  exact (sound.term_le_of_mem_leaderLog (List.mem_of_mem_take member)).trans_lt later

/-- **Replication progress.** In every run of a cluster of fixed membership whose drivers do
what the protocol asks for, what a current replicator knows a peer to match, the peer stores
or covers, unless the cluster has elected a leader of a later term, up to the peer's own, that
has never shown the entry at the matched index. At every index up to the commit index of a
replicator, one entry is stored on a majority; it is the leader's while the leader leads in
the replicator's term. -/
theorem progress_and_commit_evidence (fixed : C.kind = .fixed)
    (events : List (Event ν)) (continues : ∀ event ∈ events, event.Continues)
    (protocol : ∀ event ∈ events, event.Protocol (C := C)) :
    ∀ r ∈ (run C events).replicators,
      (r.Current (run C events) → ∀ peer,
        ((run C events).logView peer).CoversUpTo ((run C events).logView r.leader)
            (r.progress peer).matchIndex ∨
          ∃ T n term, r.term < T ∧ T ≤ (run C events).currentTerm peer ∧
            (run C events).leadersByTerm.lookup T = some n ∧
            ((run C events).logView r.leader).termAt (r.progress peer).matchIndex = some term ∧
            LeadsWithout C events n T (r.progress peer).matchIndex term) ∧
      ∀ index, 0 < index → index ≤ r.commitIndex → ∃ entry nodes, Majority C nodes ∧
        (∀ v ∈ nodes, ((run C events).logView v).Covers index entry) ∧
        (r.Current (run C events) → ((run C events).logView r.leader).Covers index entry) := by
  obtain ⟨A, archived, states⟩ := exists_archives fixed continues protocol
  intro r member
  refine ⟨fun current peer => ?_, fun index positive committed => ?_⟩
  · obtain ⟨within, kept | ⟨T, start, later, reached, elected, missing⟩⟩ :=
      archived.prefix_log_of_progress current member peer
    · exact .inl (archived.coversUpTo kept within)
    have retained : ((run C events).logView r.leader).baseIndex ≤
        (r.progress peer).matchIndex := by
      by_contra compacted
      exact missing (archived.prefix_elected_of_compacted current (not_le.mp compacted).le later
        elected)
    have recorded : ((run C events).leadersByTerm.lookup T).isSome :=
      (archived.logs.elected T).mp (Option.isSome_iff_exists.mpr ⟨start, elected⟩)
    obtain ⟨n, recorded⟩ := Option.isSome_iff_exists.mp recorded
    refine .inr ⟨T, n, _, later, reached, recorded, (archived.view r.leader).termAt_eq retained
      within, fun first part leads here shows => missing ?_⟩
    obtain ⟨A₁, grows, archived₁⟩ := states first part
    rw [← archived.leaderLog_eq current] at within shows ⊢
    exact archived₁.prefix_elected_of_termAt grows archived.logs.sound
      (archived.logs.replicators r member).led within (here ▸ later) leads (here ▸ elected) shows
  · obtain ⟨entry, nodes, found, majority, stored⟩ :=
      archived.exists_majority_of_commitIndex member positive committed
    refine ⟨entry, nodes, majority, stored, fun current => archived.covers positive ?_⟩
    rw [← archived.leaderLog_eq current]
    exact found

theorem committedByFirst_majority :
    ∃ entry nodes, Majority threeNodes nodes ∧
      ∀ v ∈ nodes, ((run threeNodes committedByFirst).logView v).Covers 1 entry := by
  obtain ⟨r, found⟩ := Option.isSome_iff_exists.mp
    (show ((run threeNodes committedByFirst).replicators[0]?).isSome by decide +kernel)
  have commit : (run threeNodes committedByFirst).replicators[0]?.map (·.commitIndex) = some 1 := by
    decide +kernel
  rw [found] at commit
  have evidence := progress_and_commit_evidence (C := threeNodes) rfl committedByFirst
    (fun event member => by
      simp only [committedByFirst, List.mem_cons, List.not_mem_nil, or_false] at member
      obtain rfl | rfl | rfl | rfl | rfl | rfl | rfl | rfl := member <;> trivial)
    (fun event member => by
      simp only [committedByFirst, List.mem_cons, List.not_mem_nil, or_false] at member
      obtain rfl | rfl | rfl | rfl | rfl | rfl | rfl | rfl := member <;>
        first | trivial | exact .inl rfl) r (List.mem_of_getElem? found)
  obtain ⟨entry, nodes, majority, stored, -⟩ :=
    evidence.2 1 Nat.one_pos (Option.some.inj commit).ge
  exact ⟨entry, nodes, majority, stored⟩

/-- Five nodes of fixed membership, without election timers. -/
def fiveNodes : Config ℕ where
  nodeIds := [0, 1, 2, 3, 4]
  nonempty := by decide
  nodup := by decide

/-- The first node leads and replicates an entry to the second one only. The third node is
elected by the fourth and the fifth one, and replicates another entry to the second one. -/
def truncatedPeer : List (Event ℕ) :=
  [.startElection 0, .deliver ⟨0, 0⟩, .deliver ⟨1, 0⟩, .deliver ⟨4, 0⟩, .deliver ⟨5, 0⟩,
    .newReplicator 0 false false, .appendCurrentTerm 0 (.other "a"),
    .replicate 0 1 none [[⟨6, 0⟩, ⟨7, 0⟩]],
    .startElection 2, .deliver ⟨10, 0⟩, .deliver ⟨11, 0⟩, .deliver ⟨12, 0⟩, .deliver ⟨13, 0⟩,
    .newReplicator 2 false false, .appendCurrentTerm 2 (.other "b"),
    .replicate 1 1 none [[⟨14, 0⟩, ⟨15, 0⟩]]]

/-- The first node still leads in its term, and its replicator still has the second node
match the entry that this has lost. -/
theorem truncatedPeer_not_covers :
    (∀ event ∈ truncatedPeer, event.Continues ∧ event.Protocol (C := fiveNodes)) ∧
      ∃ r ∈ (run fiveNodes truncatedPeer).replicators, r.Current (run fiveNodes truncatedPeer) ∧
        (r.progress 1).matchIndex = 1 ∧
        ((run fiveNodes truncatedPeer).logView r.leader).entryAt 1 = some ⟨1, .other "a"⟩ ∧
        ¬ ((run fiveNodes truncatedPeer).logView 1).Covers 1 ⟨1, .other "a"⟩ := by
  refine ⟨fun event member => ?_, ?_⟩
  · simp only [truncatedPeer, List.mem_cons, List.not_mem_nil, or_false] at member
    obtain rfl | rfl | rfl | rfl | rfl | rfl | rfl | rfl | rfl | rfl | rfl | rfl | rfl | rfl |
      rfl | rfl := member <;> exact ⟨trivial, by first | trivial | exact .inl rfl⟩
  · obtain ⟨r, found⟩ := Option.isSome_iff_exists.mp
      (show ((run fiveNodes truncatedPeer).replicators[0]?).isSome by decide +kernel)
    have fields : (run fiveNodes truncatedPeer).replicators[0]?.map
        (fun r => (r.leader, r.term, (r.progress 1).matchIndex)) = some (0, 1, 1) := by
      decide +kernel
    rw [found] at fields
    obtain ⟨leader, term, matched⟩ : r.leader = 0 ∧ r.term = 1 ∧ (r.progress 1).matchIndex = 1 := by
      simpa using fields
    refine ⟨r, List.mem_of_getElem? found, ?_, matched, ?_, ?_⟩
    · rw [LeaderReplicator.Current, leader, term]
      exact ⟨by decide +kernel, by decide +kernel⟩
    · rw [leader]
      decide +kernel
    · unfold RaftLogView.Covers
      decide +kernel

end Distlab.Raft
