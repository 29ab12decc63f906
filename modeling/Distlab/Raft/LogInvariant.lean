import Distlab.Foundations.LeaderLogSteps
import Distlab.Raft.ElectionSafety
import Distlab.Raft.FullLogs

/-!
# The archive of a cluster

The logs of a cluster of fixed membership, as if nothing had been compacted, with what
their nodes voted for and matched. The invariant ties an archive to what the nodes store,
to the messages in the network, to the trace and to the progress of the replicators.
-/

set_option autoImplicit false

namespace Distlab.Raft

open Foundations LeaderLogs

variable {ν : Type} [LinearOrder ν] {C : Config ν} {s s' : Cluster ν}

/-- The archive of a cluster. -/
abbrev Logs (ν : Type) := Archive ν (LogEntry (Command ν))

/-- Entries have terms, and majorities decide. -/
def rules (C : Config ν) : Rules ν (LogEntry (Command ν)) where
  term := LogEntry.term
  quorum := Majority C
  common := Majority.common

@[simp] theorem lastTerm_rules (log : List (LogEntry (Command ν))) :
    (rules C).lastTerm log = logTerm log := rfl

variable {A A' : Logs ν}

/-! ## What is decided -/

/-- The log reaches the index, and what was chosen up to the term decides it so far. -/
structure Decided (C : Config ν) (A : Logs ν) (T : ℕ) (log : List (LogEntry (Command ν)))
    (index : ℕ) : Prop where
  within : index ≤ log.length
  safe : A.Safe (rules C) T (log.take index)

theorem Decided.zero (C : Config ν) (A : Logs ν) (T : ℕ) (log : List (LogEntry (Command ν))) :
    Decided C A T log 0 := ⟨Nat.zero_le _, .inl rfl⟩

section Decided

variable {T T' index index' : ℕ} {log log' : List (LogEntry (Command ν))}

theorem Decided.of_le (decided : Decided C A T log index) (less : index' ≤ index) :
    Decided C A T log index' :=
  ⟨less.trans decided.within, decided.safe.of_part (List.take_prefix_take_left less)⟩

theorem Decided.mono (decided : Decided C A T log index) (less : T ≤ T') :
    Decided C A T' log index := ⟨decided.within, decided.safe.mono less⟩

theorem Decided.later (decided : Decided C A T log index) (sound : A.Sound (rules C))
    (extends' : A.Extends A') : Decided C A' T log index :=
  ⟨decided.within, extends'.safe sound le_rfl decided.safe⟩

/-- What is decided of a log is decided of every log that has it. -/
theorem Decided.of_part (decided : Decided C A T log index) (part : log.take index <+: log') :
    Decided C A T log' index := by
  have length : (log.take index).length = index := List.length_take_of_le decided.within
  have same : log'.take index = log.take index := by
    obtain ⟨rest, rfl⟩ := part
    rw [List.take_append_of_le_length length.ge, List.take_of_length_le length.le]
  exact ⟨length ▸ part.length_le, same ▸ decided.safe⟩

/-- The log of a leader has what was decided up to its term. -/
theorem Decided.prefix_leaderLog (decided : Decided C A T log index) (sound : A.Sound (rules C))
    (led : (A.elected T).isSome) : log.take index <+: A.leaderLog T :=
  sound.prefix_leaderLog_of_safe decided.safe led

/-- Logs agree on what is decided of both. -/
theorem Decided.agree (decided : Decided C A T log index) (decided' : Decided C A T' log' index)
    (sound : A.Sound (rules C)) : log.take index = log'.take index := by
  have length : (log.take index).length = index := List.length_take_of_le decided.within
  have length' : (log'.take index).length = index := List.length_take_of_le decided'.within
  obtain part | part := sound.prefix_or_prefix_of_safe decided.safe decided'.safe
  · exact part.eq_of_length (by omega)
  · exact (part.eq_of_length (by omega)).symm

end Decided

/-! ## What a cluster knows of its logs -/

/-- The snapshot stands for a decided log. -/
def Stands (C : Config ν) (A : Logs ν) (T : ℕ) (log : List (LogEntry (Command ν)))
    (snapshot : KVSnapshot ν) : Prop :=
  Decided C A T log snapshot.lastIncludedIndex ∧
    logTerm (log.take snapshot.lastIncludedIndex) = snapshot.lastIncludedTerm

/-- What a node stores. -/
structure NodeLogs (C : Config ν) (A : Logs ν) (n : ν) (p : Persistent ν) (w : Volatile ν)
    (applied : ℕ) : Prop where
  term : A.currentTerm n = p.currentTerm
  view : p.log.Ends (A.log n)
  unvoted : p.votedFor = none → A.voted n p.currentTerm = none
  candidate : w.role = .candidate → A.voted n p.currentTerm = some (A.log n)
  leader : w.role = .leader → (A.elected p.currentTerm).isSome ∧
    A.leaderLog p.currentTerm = A.log n ∧ (A.log n).length ≤ A.matched n p.currentTerm
  committed : Decided C A p.currentTerm (A.log n) w.commitIndex
  applied : Decided C A p.currentTerm (A.log n) applied
  snapshot : ∀ snapshot, p.kvSnapshot = some snapshot → Stands C A p.currentTerm (A.log n) snapshot

/-- What a sent message says. -/
def Sent (C : Config ν) (A : Logs ν) : Payload ν → Prop
  | .requestVote request => ∃ own, A.voted request.candidateId request.term = some own ∧
      request.lastLogIndex = own.length ∧ request.lastLogTerm = logTerm own
  | .appendEntries a => (A.elected a.term).isSome ∧
      a.prevLogIndex ≤ (A.leaderLog a.term).length ∧
      (A.leaderLog a.term).take a.prevLogIndex ++ a.entries <+: A.leaderLog a.term ∧
      logTerm ((A.leaderLog a.term).take a.prevLogIndex) = a.prevLogTerm ∧
      Decided C A a.term (A.leaderLog a.term) a.leaderCommit
  | .appendEntriesResponse response =>
      response.success = true → response.matchIndex ≤ A.matched response.followerId response.term
  | .installSnapshotRequest request => (A.elected request.term).isSome ∧
      Stands C A request.term (A.leaderLog request.term) request.snapshot
  | .installSnapshotResponse response => response.success = true →
      response.lastIncludedIndex ≤ A.matched response.followerId response.term
  | _ => True

/-- What a record of the trace says. -/
def Recorded (C : Config ν) (A : Logs ν) : TraceRecord ν → Prop
  | .persistTermVote v T (some candidate) => ∃ log own, A.voted v T = some log ∧
      A.voted candidate T = some own ∧ (rules C).UpToDate own log
  | .appendResponse _ follower T success matchIndex =>
      success = true → matchIndex ≤ A.matched follower T
  | .installSnapshotResponse response => response.success = true →
      response.lastIncludedIndex ≤ A.matched response.followerId response.term
  | .commitAdvance _ T commitIndex => Decided C A T (A.leaderLog T) commitIndex
  | _ => True

/-- What a replicator knows. -/
structure Knows (C : Config ν) (A : Logs ν) (r : LeaderReplicator ν) : Prop where
  led : (A.elected r.term).isSome
  matched : ∀ peer, (r.progress peer).matchIndex ≤ A.matched peer r.term
  committed : Decided C A r.term (A.leaderLog r.term) r.commitIndex

/-- The recorded leader of a term has entered it and does not stand in it again. -/
structure Started (A : Logs ν) (s : Cluster ν) (T : ℕ) (n : ν) : Prop where
  entered : T ≤ s.currentTerm n
  leads : T = s.currentTerm n → s.role n ≠ .candidate
  matched : ∀ start, A.elected T = some start → start.length ≤ A.matched n T

/-- **The logs of a cluster.** -/
structure LogInv (C : Config ν) (s : Cluster ν) (A : Logs ν) : Prop where
  sound : A.Sound (rules C)
  nodes : ∀ n, NodeLogs C A n (s.persistent n) (s.volatile n) (s.applier.lastApplied n)
  network : ∀ message ∈ s.network, Sent C A message.payload
  trace : ∀ entry ∈ s.trace, Recorded C A entry
  replicators : ∀ r ∈ s.replicators, Knows C A r
  elected : ∀ T, (A.elected T).isSome ↔ (s.leadersByTerm.lookup T).isSome
  started : ∀ T n, s.leadersByTerm.lookup T = some n → Started A s T n

/-! ## Later archives -/

section Later

variable (sound : A.Sound (rules C)) (extends' : A.Extends A')
include sound extends'

/-- What is decided of the log of a term stays so while it grows. -/
theorem Decided.grow {T T' index : ℕ} (decided : Decided C A T (A.leaderLog T') index) :
    Decided C A' T (A'.leaderLog T') index :=
  (decided.later sound extends').of_part
    ((List.take_prefix index _).trans (extends'.leaderLog T'))

theorem Stands.grow {T T' : ℕ} {snapshot : KVSnapshot ν}
    (stands : Stands C A T (A.leaderLog T') snapshot) :
    Stands C A' T (A'.leaderLog T') snapshot :=
  ⟨stands.1.grow sound extends', by
    rw [extends'.take_leaderLog stands.1.within]
    exact stands.2⟩

theorem Sent.later {payload : Payload ν} (sent : Sent C A payload) : Sent C A' payload := by
  cases payload with
  | requestVote request =>
      obtain ⟨own, voted, index, term⟩ := sent
      exact ⟨own, extends'.voted _ _ own voted, index, term⟩
  | appendEntries a =>
      obtain ⟨led, within, part, term, decided⟩ := sent
      have same := extends'.take_leaderLog within
      have longer := extends'.leaderLog a.term
      exact ⟨extends'.isSome_elected led, within.trans longer.length_le, same ▸ part.trans longer,
        same ▸ term, decided.grow sound extends'⟩
  | appendEntriesResponse response =>
      exact fun success => (sent success).trans (extends'.matched _ _)
  | installSnapshotRequest request =>
      exact ⟨extends'.isSome_elected sent.1, sent.2.grow sound extends'⟩
  | installSnapshotResponse response =>
      exact fun success => (sent success).trans (extends'.matched _ _)
  | _ => trivial

theorem Recorded.later {entry : TraceRecord ν} (recorded : Recorded C A entry) :
    Recorded C A' entry := by
  cases entry with
  | persistTermVote v T vote =>
      cases vote with
      | none => trivial
      | some candidate =>
          obtain ⟨log, own, voted, voted', upToDate⟩ := recorded
          exact ⟨log, own, extends'.voted v T log voted, extends'.voted candidate T own voted',
            upToDate⟩
  | appendResponse leader follower T success matchIndex =>
      exact fun accepted => (recorded accepted).trans (extends'.matched _ _)
  | installSnapshotResponse response =>
      exact fun accepted => (recorded accepted).trans (extends'.matched _ _)
  | commitAdvance leader T commitIndex => exact Decided.grow sound extends' recorded
  | _ => trivial

theorem Knows.later {r : LeaderReplicator ν} (knows : Knows C A r) : Knows C A' r :=
  ⟨extends'.isSome_elected knows.led, fun peer => (knows.matched peer).trans (extends'.matched _ _),
    knows.committed.grow sound extends'⟩

/-- A node whose own log, term and votes stay. -/
theorem NodeLogs.later {n : ν} {p : Persistent ν} {w : Volatile ν} {applied : ℕ}
    (node : NodeLogs C A n p w applied) (term : A'.currentTerm n = A.currentTerm n)
    (log : A'.log n = A.log n) (voted : A'.voted n = A.voted n)
    (leads : w.role = .leader → A'.leaderLog p.currentTerm = A.leaderLog p.currentTerm) :
    NodeLogs C A' n p w applied where
  term := term.trans node.term
  view := by
    rw [log]
    exact node.view
  unvoted none := by
    rw [voted]
    exact node.unvoted none
  candidate stands := by
    rw [voted, log]
    exact node.candidate stands
  leader leader := by
    obtain ⟨led, same, matched⟩ := node.leader leader
    rw [log, leads leader]
    exact ⟨extends'.isSome_elected led, same, matched.trans (extends'.matched _ _)⟩
  committed := by
    rw [log]
    exact node.committed.later sound extends'
  applied := by
    rw [log]
    exact node.applied.later sound extends'
  snapshot snapshot stored := by
    rw [log]
    exact ⟨(node.snapshot snapshot stored).1.later sound extends',
      (node.snapshot snapshot stored).2⟩

end Later

/-- The invariant of a later archive, from what it says of the new state. -/
theorem LogInv.later (inv : LogInv C s A) (extends' : A.Extends A')
    (sound' : A'.Sound (rules C))
    (nodes : ∀ n, NodeLogs C A' n (s'.persistent n) (s'.volatile n) (s'.applier.lastApplied n))
    (network : ∀ message ∈ s'.network, message ∈ s.network ∨ Sent C A' message.payload)
    (trace : ∀ entry ∈ s'.trace, entry ∈ s.trace ∨ Recorded C A' entry)
    (replicators : ∀ r ∈ s'.replicators, r ∈ s.replicators ∨ Knows C A' r)
    (elected : ∀ T, (A'.elected T).isSome ↔ (s'.leadersByTerm.lookup T).isSome)
    (started : ∀ T n, s'.leadersByTerm.lookup T = some n → Started A' s' T n) :
    LogInv C s' A' where
  sound := sound'
  nodes := nodes
  network message sent := (network message sent).elim
    (fun old => (inv.network message old).later inv.sound extends') id
  trace entry recorded := (trace entry recorded).elim
    (fun old => (inv.trace entry old).later inv.sound extends') id
  replicators r member := (replicators r member).elim
    (fun old => (inv.replicators r old).later inv.sound extends') id
  elected := elected
  started := started

/-! ## Changes that the logs do not see -/

/-- A node stores the same logs, and its role and commit index are the same or fall. -/
structure SameNode (p p' : Persistent ν) (w w' : Volatile ν) : Prop where
  term : p'.currentTerm = p.currentTerm
  vote : p'.votedFor = p.votedFor
  log : p'.log = p.log
  snapshot : p'.kvSnapshot = p.kvSnapshot
  role : w'.role = .follower ∨ w'.role = w.role
  committed : w'.commitIndex ≤ w.commitIndex

omit [LinearOrder ν] in
theorem SameNode.refl (p : Persistent ν) (w : Volatile ν) : SameNode p p w w :=
  ⟨rfl, rfl, rfl, rfl, .inr rfl, le_rfl⟩

theorem NodeLogs.same {n : ν} {p p' : Persistent ν} {w w' : Volatile ν} {applied : ℕ}
    (node : NodeLogs C A n p w applied) (same : SameNode p p' w w') :
    NodeLogs C A n p' w' applied := by
  obtain ⟨term, vote, log, snapshot, role, committed⟩ := same
  have kept : ∀ {r}, r ≠ .follower → w'.role = r → w.role = r := by
    intro r other here
    obtain follows | same := role
    · exact absurd (here.symm.trans follows) other
    · exact same ▸ here
  constructor
  · rw [term]
    exact node.term
  · rw [log]
    exact node.view
  · rw [term, vote]
    exact node.unvoted
  · rw [term]
    exact fun stands => node.candidate (kept (by simp) stands)
  · rw [term]
    exact fun leads => node.leader (kept (by simp) leads)
  · rw [term]
    exact node.committed.of_le committed
  · rw [term]
    exact node.applied
  · rw [term, snapshot]
    exact node.snapshot

/-- **The frame of the logs.** -/
theorem LogInv.frame (inv : LogInv C s A)
    (nodes : ∀ n, SameNode (s.persistent n) (s'.persistent n) (s.volatile n) (s'.volatile n))
    (applied : s'.applier.lastApplied = s.applier.lastApplied)
    (leaders : s'.leadersByTerm = s.leadersByTerm)
    (network : ∀ message ∈ s'.network, message ∈ s.network ∨ Sent C A message.payload)
    (trace : ∀ entry ∈ s'.trace, entry ∈ s.trace ∨ Recorded C A entry)
    (replicators : ∀ r ∈ s'.replicators, r ∈ s.replicators ∨ Knows C A r) : LogInv C s' A := by
  refine inv.later (.refl A) inv.sound (fun n => ?_) network trace replicators ?_ ?_
  · rw [applied]
    exact (inv.nodes n).same (nodes n)
  · rw [leaders]
    exact inv.elected
  · intro T n recorded
    rw [leaders] at recorded
    obtain ⟨entered, leads, matched⟩ := inv.started T n recorded
    have term : s'.currentTerm n = s.currentTerm n := (nodes n).term
    refine ⟨term ▸ entered, fun here stands => ?_, matched⟩
    obtain follows | same := (nodes n).role
    · rw [Cluster.role, follows] at stands
      cases stands
    · exact leads (term ▸ here) (same.symm.trans stands)

/-- A change of what neither the nodes nor the network nor the trace keeps. -/
theorem LogInv.of_fields (inv : LogInv C s A) (persistent : s'.persistent = s.persistent)
    (volatile : s'.volatile = s.volatile) (applied : s'.applier.lastApplied = s.applier.lastApplied)
    (leaders : s'.leadersByTerm = s.leadersByTerm) (network : s'.network = s.network)
    (trace : s'.trace = s.trace) (replicators : s'.replicators = s.replicators) :
    LogInv C s' A := by
  refine inv.frame (fun n => ?_) applied leaders (fun message sent => .inl (network ▸ sent))
    (fun entry recorded => .inl (trace ▸ recorded)) fun r member => .inl (replicators ▸ member)
  rw [persistent, volatile]
  exact .refl _ _

/-- A cluster over durable state in which no node has a term. -/
theorem logInv_over {configuration : VotingConfiguration ν} {images : ν → KVImage} :
    LogInv C (Config.over (fun _ => {}) configuration {} images) Archive.initial where
  sound := Archive.sound_initial
  nodes n := by
    refine ⟨rfl, .initial, fun _ => rfl, fun stands => ?_, fun leads => ?_, .zero C _ _ _,
      .zero C _ _ _, fun _ stored => ?_⟩
    · cases stands
    · cases leads
    · cases stored
  network _ sent := by cases sent
  trace _ recorded := by cases recorded
  replicators _ member := by cases member
  elected _ := Iff.rfl
  started _ _ recorded := by cases recorded

end Distlab.Raft
