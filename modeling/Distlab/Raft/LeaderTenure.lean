import Distlab.Raft.DriverOperations
import Distlab.Raft.ElectionSafety

/-!
# The tenure of a leader

A node that leads in a term leads in it until it is gone: its term is higher, or it follows in
the term, and it does not lead in this term again. While it leads its commit index only grows.
So a replicator's leader has committed what the replicator has, once it has written this
down (`Tracked`). What a leader learns from answers is sent meanwhile: a response above the
ordinals that the trace shows was not in the network before.
-/

set_option autoImplicit false

namespace Distlab.Raft

open Foundations

variable {ν : Type} [LinearOrder ν] {C : Config ν} {U : Licence ν} {s t : Cluster ν} {n : ν}
  {T c : ℕ}

/-! ## Leaders that are gone -/

omit [LinearOrder ν] in
/-- The node does not lead in the term any more. -/
def Gone (n : ν) (T : ℕ) (s : Cluster ν) : Prop :=
  T < s.currentTerm n ∨ s.currentTerm n = T ∧ s.role n = .follower

omit [LinearOrder ν] in
/-- The node leads in the term and has committed up to the index, or it is gone. -/
def Reigns (n : ν) (T c : ℕ) (s : Cluster ν) : Prop :=
  s.role n = .leader ∧ s.currentTerm n = T ∧ c ≤ s.commitIndex n ∨ Gone n T s

section Writes

omit [LinearOrder ν] in
theorem Reigns.of_same (reigns : Reigns n T c s) (term : t.currentTerm n = s.currentTerm n)
    (role : t.role n = s.role n) (commit : t.commitIndex n = s.commitIndex n) :
    Reigns n T c t := by
  unfold Reigns Gone at *
  rw [term, role, commit]
  exact reigns

omit [LinearOrder ν] in
theorem Gone.of_same (gone : Gone n T s) (term : t.currentTerm n = s.currentTerm n)
    (role : t.role n = s.role n) : Gone n T t := by
  unfold Gone at *
  rw [term, role]
  exact gone

omit [LinearOrder ν] in
/-- A node that becomes a follower of its term. -/
theorem Reigns.follow (reigns : Reigns n T c s) (term : t.currentTerm n = s.currentTerm n)
    (role : t.role n = .follower) : Reigns n T c t := by
  obtain ⟨-, here, -⟩ | later | ⟨here, -⟩ := reigns
  · exact .inr (.inr ⟨term.trans here, role⟩)
  · exact .inr (.inl (term ▸ later))
  · exact .inr (.inr ⟨term.trans here, role⟩)

omit [LinearOrder ν] in
/-- A node that enters a later term. -/
theorem Reigns.enter (reigns : Reigns n T c s) (higher : s.currentTerm n < t.currentTerm n) :
    Reigns n T c t := by
  obtain ⟨-, rfl, -⟩ | later | ⟨rfl, -⟩ := reigns
  · exact .inr (.inl higher)
  · exact .inr (.inl (later.trans higher))
  · exact .inr (.inl higher)

/-- A write of a node's volatile state that keeps its role and its commit index. -/
theorem Reigns.updateVolatile (reigns : Reigns n T c s) (m : ν) {f : Volatile ν → Volatile ν}
    (role : (f (s.volatile m)).role = s.role m)
    (commit : (f (s.volatile m)).commitIndex = s.commitIndex m) :
    Reigns n T c (s.updateVolatile m f) := by
  refine reigns.of_same rfl ?_ ?_
  all_goals
    by_cases same : n = m
    · subst same
      simpa [Cluster.role, Cluster.commitIndex, Cluster.updateVolatile] using by assumption
    · simp [Cluster.role, Cluster.commitIndex, Cluster.updateVolatile, same]

/-- A node that commits more. -/
theorem Reigns.commit (reigns : Reigns n T c s) (m : ν) {index : ℕ}
    (higher : s.commitIndex m ≤ index) :
    Reigns n T c (s.updateVolatile m fun w => { w with commitIndex := index }) := by
  by_cases same : n = m
  · subst same
    obtain ⟨role, term, reached⟩ | gone := reigns
    · refine .inl ⟨?_, term, ?_⟩
      · simpa [Cluster.role, Cluster.updateVolatile] using role
      · simpa [Cluster.commitIndex, Cluster.updateVolatile] using reached.trans higher
    · refine .inr (gone.of_same rfl ?_)
      simp [Cluster.role, Cluster.updateVolatile]
  · refine reigns.of_same rfl ?_ ?_ <;>
      simp [Cluster.role, Cluster.commitIndex, Cluster.updateVolatile, same]

/-- A leader commits up to an index. -/
theorem reigns_commit (role : s.role n = .leader) (term : s.currentTerm n = T) (index : ℕ) :
    Reigns n T index (s.updateVolatile n fun w => { w with commitIndex := index }) := by
  refine .inl ⟨?_, term, ?_⟩
  · simpa [Cluster.role, Cluster.updateVolatile] using role
  · simp [Cluster.commitIndex, Cluster.updateVolatile]

end Writes

/-- **One move.** -/
theorem Reigns.move (reigns : Reigns n T c s) (move : Move C U s t) : Reigns n T c t := by
  cases move with
  | housekeeping same =>
      have term : (core t).currentTerm n = (core s).currentTerm n := by rw [same]
      have role : (core t).role n = (core s).role n := by rw [same]
      have commit : (core t).commitIndex n = (core s).commitIndex n := by rw [same]
      exact reigns.of_same term role commit
  | advanceTerm m term higher =>
      by_cases same : n = m
      · subst same
        refine reigns.enter (higher.trans_eq ?_)
        simp [adoptTerm, retire, persistTermAndVote, Cluster.currentTerm, Cluster.updatePersistent,
          Cluster.updateVolatile, Cluster.record]
      · refine reigns.of_same ?_ ?_ ?_ <;>
          simp [adoptTerm, retire, persistTermAndVote, Cluster.currentTerm, Cluster.role,
            Cluster.commitIndex, Cluster.updatePersistent, Cluster.updateVolatile, Cluster.record,
            same]
  | stand m =>
      by_cases same : n = m
      · subst same
        refine reigns.enter ((Nat.lt_succ_self _).trans_eq ?_)
        simp [becomeCandidate, persistTermAndVote, Cluster.currentTerm, Cluster.updatePersistent,
          Cluster.updateVolatile, Cluster.record]
      · refine reigns.of_same ?_ ?_ ?_ <;>
          simp [becomeCandidate, persistTermAndVote, Cluster.currentTerm, Cluster.role,
            Cluster.commitIndex, Cluster.updatePersistent, Cluster.updateVolatile, Cluster.record,
            same]
  | grant message request arrived payload voter eligible term =>
      by_cases same : n = message.dst
      · subst same
        refine reigns.follow ?_ ?_
        · simpa [castVote, persistTermAndVote, Cluster.currentTerm, Cluster.updatePersistent,
            Cluster.updateVolatile, Cluster.record] using term
        · simp [castVote, Cluster.role, Cluster.updateVolatile]
      · refine reigns.of_same ?_ ?_ ?_ <;>
          simp [castVote, persistTermAndVote, Cluster.currentTerm, Cluster.role,
            Cluster.commitIndex, Cluster.updatePersistent, Cluster.updateVolatile, Cluster.record,
            same]
  | collect message => exact reigns.updateVolatile message.dst rfl rfl
  | lead m member candidate =>
      by_cases same : n = m
      · subst same
        obtain ⟨role, -⟩ | later | ⟨-, role⟩ := reigns
        · rw [role] at candidate
          cases candidate
        · exact .inr (.inl later)
        · rw [role] at candidate
          cases candidate
      · refine reigns.of_same ?_ ?_ ?_ <;>
          simp [promote, Cluster.currentTerm, Cluster.role, Cluster.commitIndex,
            Cluster.updateVolatile, Cluster.record, same]
  | retire m | reset m =>
      by_cases same : n = m
      · subst same
        refine reigns.follow rfl ?_
        simp [retire, Cluster.role, Cluster.updateVolatile]
      · refine reigns.of_same rfl ?_ ?_ <;>
          simp [retire, Cluster.role, Cluster.commitIndex, Cluster.updateVolatile, same]
  | commit m index higher =>
      exact reigns.commit m higher.le
  | append m | createSnapshot m | compactLog m | compactApplied m | installOwn m | apply m
  | watermark leader index command m =>
      refine reigns.of_same ?_ rfl rfl
      by_cases same : n = m <;>
        simp [writeApplied, writeCompacted, writeSnapshot, Cluster.currentTerm,
          Cluster.updatePersistent, same]
  | merge message | install message =>
      refine reigns.of_same ?_ rfl rfl
      by_cases same : n = message.dst <;>
        simp [writeSnapshot, Cluster.currentTerm, Cluster.updatePersistent, same]
  | _ => exact reigns

theorem Reigns.moves (reigns : Reigns n T c s) (moves : Moves C U s t) : Reigns n T c t :=
  moves.invariant (fun _ _ move reigns => reigns.move move) reigns

omit [LinearOrder ν] in
theorem Gone.not_leads (gone : Gone n T s) (role : s.role n = .leader)
    (term : s.currentTerm n = T) : False := by
  obtain later | ⟨-, follows⟩ := gone
  · omega
  · rw [role] at follows
    cases follows

/-- **A leader goes on leading or is gone.** -/
theorem leads_or_gone (role : s.role n = .leader) (term : s.currentTerm n = T)
    (moves : Moves C U s t) :
    t.role n = .leader ∧ t.currentTerm n = T ∧ s.commitIndex n ≤ t.commitIndex n ∨ Gone n T t :=
  Reigns.moves (.inl ⟨role, term, le_rfl⟩) moves

/-! ## What replicators commit -/

omit [LinearOrder ν] in
/-- The leaders of replicators have committed what these have, unless they are gone. -/
def Tracked (s : Cluster ν) : Prop :=
  ∀ r ∈ s.replicators, Reigns r.leader r.term r.commitIndex s

/-- Moves that leave the replicators alone. -/
theorem Tracked.moves (tracked : Tracked s) (moves : Moves C U s t)
    (same : t.replicators = s.replicators) : Tracked t := fun r member =>
  (tracked r (same ▸ member)).moves moves

omit [LinearOrder ν] in
theorem mem_updateReplicator {i : ℕ} {f : LeaderReplicator ν → LeaderReplicator ν}
    {r : LeaderReplicator ν} (member : r ∈ (s.updateReplicator i f).replicators) :
    r ∈ s.replicators ∨ ∃ r', s.replicators[i]? = some r' ∧ r = f r' := by
  obtain ⟨k, found⟩ := List.mem_iff_getElem?.mp member
  simp only [Cluster.updateReplicator, List.getElem?_modify] at found
  obtain ⟨r', found', rfl⟩ := Option.map_eq_some_iff.mp found
  by_cases same : i = k
  · subst same
    exact .inr ⟨r', found', if_pos rfl⟩
  · rw [if_neg same]
    exact .inl (List.mem_of_getElem? found')

omit [LinearOrder ν] in
theorem Tracked.updateReplicator (tracked : Tracked s) {i : ℕ}
    {f : LeaderReplicator ν → LeaderReplicator ν}
    (keeps : ∀ r, (f r).leader = r.leader ∧ (f r).term = r.term ∧
      (f r).commitIndex = r.commitIndex) : Tracked (s.updateReplicator i f) := by
  intro r member
  obtain old | ⟨r', found, rfl⟩ := mem_updateReplicator member
  · exact (tracked r old).of_same rfl rfl rfl
  · obtain ⟨leader, term, commit⟩ := keeps r'
    rw [leader, term, commit]
    exact (tracked r' (List.mem_of_getElem? found)).of_same rfl rfl rfl

omit [LinearOrder ν] in
/-- A check of the leader changes nothing. -/
theorem ensures_requireCurrentLeader {P : Cluster ν → Prop} (holds : P s)
    (r : LeaderReplicator ν) : (requireCurrentLeader r s).Ensures P fun _ _ => True := by
  unfold requireCurrentLeader
  split
  · exact ⟨holds, trivial⟩
  · exact holds

/-- **The commit rule**: the leader takes over what its replicator commits. -/
theorem Tracked.advanceCommitIndex (tracked : Tracked s) (fixed : C.kind = .fixed) (i : ℕ) :
    (advanceCommitIndex C i s).Ensures Tracked fun _ _ => True := by
  unfold Raft.advanceCommitIndex
  split
  · exact tracked
  next r found =>
  refine (ensures_requireCurrentLeader tracked r).bind (fun _ t required _ => ?_) fun _ => id
  obtain ⟨rfl, current⟩ := requireCurrentLeader_returns required
  split
  · exact ⟨tracked, trivial⟩
  · exact tracked
  next index scanned =>
  obtain ⟨candidate, -, -⟩ := commitScan_found scanned
  obtain ⟨-, within⟩ := of_mem_commitCandidates candidate
  have aware : usesConfiguration C r = false := by
    unfold usesConfiguration
    rw [fixed]
  dsimp only
  rw [aware]
  -- The index is in the leader's log, so the leader takes it over.
  have inside : ¬ (t.logView r.leader).lastIndex < index := not_lt.mpr within
  unfold advanceNodeCommit
  split
  · next short => exact absurd short inside
  split
  · next reached =>
    intro r' member
    obtain old | ⟨r'', found', rfl⟩ := mem_updateReplicator member
    · exact (tracked r' old).of_same rfl rfl rfl
    · rw [found] at found'
      cases found'
      exact .inl ⟨current.1, current.2, reached⟩
  · next higher =>
    intro r' member
    obtain old | ⟨r'', found', rfl⟩ := mem_updateReplicator member
    · have raised : t.commitIndex r.leader ≤ index := (not_le.mp higher).le
      exact ((tracked r' old).commit r.leader raised).of_same rfl rfl rfl
    · rw [found] at found'
      cases found'
      exact (reigns_commit (s := t) current.1 current.2 index).of_same rfl rfl rfl

/-- The end of an attempt that a peer acknowledged. -/
theorem Tracked.acknowledgePeer (tracked : Tracked s) (fixed : C.kind = .fixed) (i : ℕ) (peer : ν)
    (matchIndex : ℕ) :
    (acknowledgePeer C i peer matchIndex s).Ensures Tracked fun _ _ => True := by
  have matched : Tracked (advancePeer i peer matchIndex s) :=
    tracked.updateReplicator fun r => ⟨rfl, rfl, rfl⟩
  exact (matched.advanceCommitIndex fixed i).bind (fun _ _ _ => id) fun _ => id

theorem Tracked.newReplicator (tracked : Tracked s) (snapshotTransport membershipAware : Bool) :
    (newReplicator C n snapshotTransport membershipAware s).Ensures Tracked fun _ _ => True := by
  unfold Raft.newReplicator
  split
  · exact ⟨tracked, trivial⟩
  · refine (ensures_requireCurrentLeader tracked _).bind (fun _ t required _ => ?_) fun _ => id
    obtain ⟨rfl, current⟩ := requireCurrentLeader_returns required
    intro r member
    obtain old | new := List.mem_append.mp member
    · exact (tracked r old).of_same rfl rfl rfl
    · rw [List.mem_singleton.mp new]
      exact .inl ⟨current.1, current.2, le_rfl⟩

omit [LinearOrder ν] in
/-- The leaders of replicators were elected in their terms. -/
def Owned (s : Cluster ν) : Prop :=
  ∀ r ∈ s.replicators, BecameLeader s r.leader r.term

/-- **One move.** -/
theorem Owned.move (owned : Owned s) (votes : VoteInv C s) (move : Move C U s t) : Owned t := by
  have grown := move.trace_prefix.subset
  have kept : ∀ r ∈ s.replicators, BecameLeader t r.leader r.term :=
    fun r member => grown (owned r member)
  have modified : ∀ (i : ℕ) (f : LeaderReplicator ν → LeaderReplicator ν),
      (∀ r, (f r).leader = r.leader ∧ (f r).term = r.term) →
      ∀ r ∈ (s.updateReplicator i f).replicators, BecameLeader t r.leader r.term := by
    intro i f keeps r member
    obtain old | ⟨r', found, rfl⟩ := mem_updateReplicator member
    · exact kept r old
    · rw [(keeps r').1, (keeps r').2]
      exact kept r' (List.mem_of_getElem? found)
  cases move with
  | housekeeping same =>
      have replicators : (core t).replicators = (core s).replicators := by rw [same]
      exact fun r member => kept r ((congrArg (r ∈ ·) replicators).mp member)
  | newReplicator r member current =>
      intro r' listed
      obtain old | new := List.mem_append.mp listed
      · exact kept r' old
      · rw [List.mem_singleton.mp new, ← current.2]
        exact (votes.leads r.leader current.1).2
  | probe i f keeps => exact modified i f fun r => ⟨(keeps r).1, (keeps r).2.1⟩
  | acknowledge i => exact modified i _ fun _ => ⟨rfl, rfl⟩
  | advanceCommit i => exact modified i _ fun _ => ⟨rfl, rfl⟩
  | _ => exact kept

/-! ## Messages that are sent meanwhile -/

/-- A move adds at most one message to the network: a timeout, or one that is sent. -/
theorem Move.network_cases (move : Move C U s t) : t.network = s.network ∨
    ∃ message, t.network = s.network ++ [message] ∧
      ((∃ generation deadline, message.payload = .electionTimeout generation deadline) ∨
        Sendable C U s message ∧ t.trace = s.trace ++ [.send message]) := by
  cases move with
  | housekeeping same =>
      have network : (core t).network = (core s).network := by rw [same]
      exact .inl network
  | send message sendable => exact .inr ⟨message, rfl, .inr ⟨sendable, rfl⟩⟩
  | schedule message generation deadline payload =>
      exact .inr ⟨message, rfl, .inl ⟨generation, deadline, payload⟩⟩
  | _ => exact .inl rfl

/-- **What was not in the network before was sent since.** -/
theorem Moves.sent (moves : Moves C U s t) {message : Message ν} (arrived : message ∈ t.network)
    (timeout : ∀ generation deadline, message.payload ≠ .electionTimeout generation deadline) :
    message ∈ s.network ∨ ∃ u, Moves C U s u ∧ Moves C U u t ∧ Sendable C U u message := by
  induction moves with
  | refl => exact .inl arrived
  | @tail u v before move ih =>
      have later : message ∈ u.network → _ := fun old =>
        (ih old).imp_right fun ⟨w, first, second, sendable⟩ =>
          (⟨w, first, second.trans (.one move), sendable⟩ :
            ∃ w, Moves C U s w ∧ Moves C U w v ∧ Sendable C U w message)
      obtain same | ⟨added, network, sent⟩ := move.network_cases
      · exact later (same ▸ arrived)
      · rw [network] at arrived
        obtain old | new := List.mem_append.mp arrived
        · exact later old
        · rw [← List.mem_singleton.mp new] at sent
          obtain ⟨generation, deadline, payload⟩ | ⟨sendable, -⟩ := sent
          · exact absurd payload (timeout generation deadline)
          · exact .inr ⟨u, before, .one move, sendable⟩

/-- The trace shows the responses that the network has, and delivers what it has. -/
structure Traced (s : Cluster ν) : Prop where
  sent : ∀ message ∈ s.network, isAppendEntriesResponse message = true → .send message ∈ s.trace
  delivered : ∀ message, .deliver message ∈ s.trace → message ∈ s.network

theorem Traced.move (traced : Traced s) (move : Move C U s t) : Traced t where
  sent message arrived response := by
    have grown := move.trace_prefix.subset
    obtain same | ⟨added, network, sent⟩ := move.network_cases
    · exact grown (traced.sent message (same ▸ arrived) response)
    · rw [network] at arrived
      obtain old | new := List.mem_append.mp arrived
      · exact grown (traced.sent message old response)
      · obtain rfl := List.mem_singleton.mp new
        obtain ⟨generation, deadline, payload⟩ | ⟨-, trace⟩ := sent
        · unfold isAppendEntriesResponse at response
          rw [payload] at response
          cases response
        · rw [trace]
          exact List.mem_append_right _ List.mem_cons_self
  delivered message recorded := by
    have kept : .deliver message ∈ s.trace → message ∈ t.network := fun old =>
      move.network (traced.delivered message old)
    have appended : ∀ entry : TraceRecord ν, t.trace = s.trace ++ [entry] →
        (entry = .deliver message → message ∈ t.network) → message ∈ t.network := by
      intro entry trace new
      rw [trace] at recorded
      exact (List.mem_append.mp recorded).elim kept fun last =>
        new (List.mem_singleton.mp last).symm
    cases move with
    | housekeeping same =>
        have trace : (core t).trace = (core s).trace := by rw [same]
        exact kept (trace ▸ recorded)
    | advanceTerm | stand | grant | lead | send =>
        exact appended _ rfl fun same => by cases same
    | record entry recordable =>
        refine appended entry rfl fun same => ?_
        subst same
        exact recordable
    | _ => exact kept recorded

theorem Traced.moves (traced : Traced s) (moves : Moves C U s t) : Traced t :=
  moves.invariant (fun _ _ move traced => traced.move move) traced

/-! ## Answers -/

/-- The floor is above the responses that the trace shows. -/
theorem ordinal_le_floor {r : LeaderReplicator ν} {peer : ν} {message : Message ν}
    {records : List (TraceRecord ν)} (sent : .send message ∈ records) (src : message.src = peer)
    (dst : message.dst = r.leader) (response : isAppendEntriesResponse message = true) :
    message.ordinal ≤ appendResponseOrdinalFloor r peer records := by
  induction records using List.reverseRecOn with
  | nil => exact absurd sent List.not_mem_nil
  | append_singleton records last ih =>
      unfold appendResponseOrdinalFloor at ih ⊢
      rw [List.foldl_append, List.foldl_cons, List.foldl_nil]
      obtain earlier | here := List.mem_append.mp sent
      · have below := ih earlier
        split
        · split
          · exact below.trans (le_max_left _ _)
          · exact below
        · exact below
      · rw [← List.mem_singleton.mp here]
        simp only [src, dst, response, and_self, if_true]
        exact le_max_right _ _

end Distlab.Raft
