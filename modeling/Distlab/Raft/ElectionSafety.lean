import Distlab.Raft.Runs

/-!
# Election safety

In a cluster of fixed membership at most one node becomes leader in a term. The
invariant ties the durable votes, the votes that candidates have collected, the
granted responses in the network and the recorded leaders to the trace of durable
votes.
-/

set_option autoImplicit false

namespace Distlab.Raft

open Foundations

variable {ν : Type} [LinearOrder ν] {C : Config ν} {U : Licence ν}

/-- The node has durably voted for a candidate in a term. -/
def Voted (s : Cluster ν) (voter : ν) (term : ℕ) (candidate : ν) : Prop :=
  .persistTermVote voter term (some candidate) ∈ s.trace

/-- The node has become leader in a term. -/
def BecameLeader (s : Cluster ν) (n : ν) (term : ℕ) : Prop := .leader n term ∈ s.trace

instance (s : Cluster ν) (n : ν) (term : ℕ) : Decidable (BecameLeader s n term) :=
  inferInstanceAs (Decidable (.leader n term ∈ s.trace))

/-- A majority of the nodes. -/
def Majority (C : Config ν) (votes : Finset ν) : Prop :=
  votes ⊆ C.nodeIds.toFinset ∧ C.nodeIds.length / 2 + 1 ≤ votes.card

/-- Two majorities have a node in common. -/
theorem Majority.common {votes votes' : Finset ν} (majority : Majority C votes)
    (majority' : Majority C votes') : ∃ v ∈ votes, v ∈ votes' := by
  by_contra none
  have separate : Disjoint votes votes' :=
    Finset.disjoint_left.mpr fun v vote vote' => none ⟨v, vote, vote'⟩
  have together : (votes ∪ votes').card ≤ C.nodeIds.toFinset.card :=
    Finset.card_le_card (Finset.union_subset majority.1 majority'.1)
  rw [Finset.card_union_of_disjoint separate, List.toFinset_card_of_nodup C.nodup] at together
  have enough := majority.2
  have enough' := majority'.2
  omega

/-- The later of two records of one node has a later term, or the same term and a
vote that the earlier one did not have. -/
def KeepsVote (earlier later : TraceRecord ν) : Prop :=
  ∀ n term vote term' vote', earlier = .persistTermVote n term vote →
    later = .persistTermVote n term' vote' →
      term ≤ term' ∧ (term = term' → vote = none ∨ vote = vote')

/-- Votes, leaders and the trace agree. -/
structure VoteInv (C : Config ν) (s : Cluster ν) : Prop where
  persisted : ∀ v term vote, .persistTermVote v term vote ∈ s.trace →
    term ≤ s.currentTerm v ∧ (term = s.currentTerm v → vote = none ∨ vote = s.votedFor v)
  written : ∀ v, s.currentTerm v = 0 ∨ ∃ vote, .persistTermVote v (s.currentTerm v) vote ∈ s.trace
  ordered : s.trace.Pairwise KeepsVote
  voted : ∀ v candidate, s.votedFor v = some candidate → Voted s v (s.currentTerm v) candidate
  responses : ∀ message ∈ s.network, ∀ response,
    message.payload = .requestVoteResponse response → response.voteGranted = true →
      Voted s response.voterId response.term message.dst
  candidates : ∀ n, s.role n = .candidate → ∀ v ∈ (s.volatile n).votesReceived,
    v ∈ C.nodeIds ∧ Voted s v (s.currentTerm n) n
  elected : ∀ term n, s.leadersByTerm.lookup term = some n →
    ∃ votes, Majority C votes ∧ ∀ v ∈ votes, Voted s v term n
  leads : ∀ n, s.role n = .leader → n ∈ C.nodeIds ∧ BecameLeader s n (s.currentTerm n)
  recorded : ∀ n term, BecameLeader s n term → s.leadersByTerm.lookup term = some n

/-- A voter has one vote in a term. -/
theorem VoteInv.unique {s : Cluster ν} (inv : VoteInv C s) {v c c' : ν} {term : ℕ}
    (voted : Voted s v term c) (voted' : Voted s v term c') : c = c' := by
  obtain ⟨i, hi, first⟩ := List.getElem_of_mem voted
  obtain ⟨j, hj, second⟩ := List.getElem_of_mem voted'
  have pairwise := List.pairwise_iff_getElem.mp inv.ordered
  have agree : ∀ {i j : ℕ} {c c' : ν} (hi : i < s.trace.length) (hj : j < s.trace.length),
      s.trace[i] = .persistTermVote v term (some c) →
      s.trace[j] = .persistTermVote v term (some c') → i < j → c = c' := by
    intro i j c c' hi hj first second before
    obtain ⟨-, same⟩ := pairwise i j hi hj before v term (some c) term (some c') first second
    obtain none | same := same rfl
    · cases none
    · exact Option.some.inj same
  rcases Nat.lt_trichotomy i j with before | rfl | after
  · exact agree hi hj first second before
  · rw [first] at second
    cases second
    rfl
  · exact (agree hj hi second first after).symm

/-- What an invariant of votes may depend on. -/
structure SameVotes (s s' : Cluster ν) : Prop where
  terms : ∀ n, s'.currentTerm n = s.currentTerm n
  votes : ∀ n, s'.votedFor n = s.votedFor n
  roles : ∀ n, s'.role n = .follower ∨
    s'.role n = s.role n ∧ (s'.volatile n).votesReceived = (s.volatile n).votesReceived
  responses : ∀ message ∈ s'.network, ∀ response,
    message.payload = .requestVoteResponse response → message ∈ s.network
  trace : s'.trace = s.trace ∨ ∃ entry, s'.trace = s.trace ++ [entry] ∧
    (∀ v term vote, entry ≠ .persistTermVote v term vote) ∧ ∀ n term, entry ≠ .leader n term
  leaders : s'.leadersByTerm = s.leadersByTerm

omit [LinearOrder ν] in
/-- A record that names no durable vote and no leader adds none. -/
theorem SameVotes.mem_trace {s s' : Cluster ν} (same : SameVotes s s') {entry : TraceRecord ν}
    (kind : (∃ v term vote, entry = .persistTermVote v term vote) ∨
      ∃ n term, entry = .leader n term) : entry ∈ s'.trace ↔ entry ∈ s.trace := by
  obtain trace | ⟨new, trace, noVote, noLeader⟩ := same.trace
  · rw [trace]
  · rw [trace, List.mem_append, List.mem_singleton, or_iff_left]
    rintro rfl
    obtain ⟨v, term, vote, rfl⟩ | ⟨n, term, rfl⟩ := kind
    · exact noVote v term vote rfl
    · exact noLeader n term rfl

omit [LinearOrder ν] in
theorem SameVotes.voted {s s' : Cluster ν} (same : SameVotes s s') {v c : ν} {term : ℕ} :
    Voted s' v term c ↔ Voted s v term c := same.mem_trace (.inl ⟨v, term, some c, rfl⟩)

omit [LinearOrder ν] in
theorem SameVotes.becameLeader {s s' : Cluster ν} (same : SameVotes s s') {n : ν} {term : ℕ} :
    BecameLeader s' n term ↔ BecameLeader s n term := same.mem_trace (.inr ⟨n, term, rfl⟩)

omit [LinearOrder ν] in
theorem SameVotes.of_fields {s s' : Cluster ν} (persistent : s'.persistent = s.persistent)
    (volatile : s'.volatile = s.volatile) (network : s'.network = s.network)
    (trace : s'.trace = s.trace) (leaders : s'.leadersByTerm = s.leadersByTerm) :
    SameVotes s s' where
  terms n := by rw [Cluster.currentTerm, persistent, Cluster.currentTerm]
  votes n := by rw [Cluster.votedFor, persistent, Cluster.votedFor]
  roles n := .inr (by rw [Cluster.role, volatile, Cluster.role]; exact ⟨rfl, rfl⟩)
  responses _ sent _ _ := network ▸ sent
  trace := .inl trace
  leaders := leaders

/-- A durable write that keeps the term and the vote. -/
theorem SameVotes.updatePersistent {s : Cluster ν} (n : ν) {f : Persistent ν → Persistent ν}
    (keeps : ∀ p, (f p).currentTerm = p.currentTerm ∧ (f p).votedFor = p.votedFor) :
    SameVotes s (s.updatePersistent n f) where
  terms m := by
    by_cases same : m = n
    · subst same
      simpa [Cluster.currentTerm, Cluster.updatePersistent] using (keeps (s.persistent m)).1
    · simp [Cluster.currentTerm, Cluster.updatePersistent, same]
  votes m := by
    by_cases same : m = n
    · subst same
      simpa [Cluster.votedFor, Cluster.updatePersistent] using (keeps (s.persistent m)).2
    · simp [Cluster.votedFor, Cluster.updatePersistent, same]
  roles _ := .inr ⟨rfl, rfl⟩
  responses _ sent _ _ := sent
  trace := .inl rfl
  leaders := rfl

/-- A volatile write that keeps the role and the votes, or makes the node a follower. -/
theorem SameVotes.updateVolatile {s : Cluster ν} (n : ν) {f : Volatile ν → Volatile ν}
    (keeps : ∀ w, (f w).role = .follower ∨
      (f w).role = w.role ∧ (f w).votesReceived = w.votesReceived) :
    SameVotes s (s.updateVolatile n f) where
  terms _ := rfl
  votes _ := rfl
  roles m := by
    by_cases same : m = n
    · subst same
      simpa [Cluster.role, Cluster.updateVolatile] using keeps (s.volatile m)
    · simp [Cluster.role, Cluster.updateVolatile, same]
  responses _ sent _ _ := sent
  trace := .inl rfl
  leaders := rfl

theorem SameVotes.writeSnapshot (n : ν) (snapshot : KVSnapshot ν)
    (suffix : List (LogEntry (Command ν))) (s : Cluster ν) :
    SameVotes s (writeSnapshot n snapshot suffix s) := by
  have same : SameVotes s (s.updatePersistent n fun p =>
      { p with
        kvSnapshot := some snapshot
        log := ⟨snapshot.lastIncludedIndex, snapshot.lastIncludedTerm, suffix⟩
        stateMachineApplied := []
        stateMachineBaseIndex := snapshot.lastIncludedIndex
        stateMachineBaseTerm := snapshot.lastIncludedTerm
        membershipCommitIndex :=
          snapshot.votingConfiguration.elim p.membershipCommitIndex (·.committedIndex) }) :=
    .updatePersistent n fun _ => ⟨rfl, rfl⟩
  exact ⟨same.terms, same.votes, same.roles, same.responses, same.trace, same.leaders⟩

omit [LinearOrder ν] in
theorem SameVotes.record {s : Cluster ν} {entry : TraceRecord ν}
    (noVote : ∀ v term vote, entry ≠ .persistTermVote v term vote)
    (noLeader : ∀ n term, entry ≠ .leader n term) : SameVotes s (s.record entry) where
  terms _ := rfl
  votes _ := rfl
  roles _ := .inr ⟨rfl, rfl⟩
  responses _ sent _ _ := sent
  trace := .inr ⟨entry, rfl, noVote, noLeader⟩
  leaders := rfl

omit [LinearOrder ν] in
theorem SameVotes.of_core {s s' : Cluster ν} (same : core s' = core s) : SameVotes s s' where
  terms n := by
    have persistent : (core s').persistent = (core s).persistent := by rw [same]
    exact congrArg (fun p => (p n).currentTerm) persistent
  votes n := by
    have persistent : (core s').persistent = (core s).persistent := by rw [same]
    exact congrArg (fun p => (p n).votedFor) persistent
  roles n := by
    have volatile : (core s').volatile = (core s).volatile := by rw [same]
    exact .inr ⟨congrArg (fun w => (w n).role) volatile,
      congrArg (fun w => (w n).votesReceived) volatile⟩
  responses _ sent _ _ := by
    have network : (core s').network = (core s).network := by rw [same]
    exact network ▸ sent
  trace := by
    have trace : (core s').trace = (core s).trace := by rw [same]
    exact .inl trace
  leaders := by
    have leaders : (core s').leadersByTerm = (core s).leadersByTerm := by rw [same]
    exact leaders

/-- **The frame of votes.** -/
theorem VoteInv.frame {s s' : Cluster ν} (inv : VoteInv C s) (same : SameVotes s s') :
    VoteInv C s' where
  persisted v term vote recorded := by
    rw [same.terms, same.votes]
    exact inv.persisted v term vote ((same.mem_trace (.inl ⟨v, term, vote, rfl⟩)).mp recorded)
  written v := by
    rw [same.terms]
    refine (inv.written v).imp id (Exists.imp fun vote recorded => ?_)
    exact (same.mem_trace (.inl ⟨v, _, vote, rfl⟩)).mpr recorded
  ordered := by
    obtain trace | ⟨entry, trace, noVote, -⟩ := same.trace
    · exact trace ▸ inv.ordered
    · rw [trace]
      refine List.pairwise_append.mpr ⟨inv.ordered, List.pairwise_singleton _ _, ?_⟩
      intro earlier _ later last n term vote term' vote' _ persists
      rw [List.mem_singleton.mp last] at persists
      exact absurd persists (noVote n term' vote')
  voted v candidate vote := by
    rw [same.votes] at vote
    rw [same.voted, same.terms]
    exact inv.voted v candidate vote
  responses message sent response payload granted := by
    rw [same.voted]
    exact inv.responses message (same.responses message sent response payload) response payload
      granted
  candidates n candidate v vote := by
    obtain follows | ⟨role, votes⟩ := same.roles n
    · rw [follows] at candidate
      cases candidate
    · rw [same.voted, same.terms]
      exact inv.candidates n (role ▸ candidate) v (votes ▸ vote)
  elected term n recorded := by
    rw [same.leaders] at recorded
    obtain ⟨votes, majority, voted⟩ := inv.elected term n recorded
    exact ⟨votes, majority, fun v vote => same.voted.mpr (voted v vote)⟩
  leads n leader := by
    obtain follows | ⟨role, -⟩ := same.roles n
    · rw [follows] at leader
      cases leader
    · rw [same.terms, same.becameLeader]
      exact inv.leads n (role ▸ leader)
  recorded n term became := by
    rw [same.leaders]
    exact inv.recorded n term (same.becameLeader.mp became)

/-! ## Durable votes -/

/-- A durable write of a node's term and vote, which also changes its role. -/
structure Persists (s s' : Cluster ν) (n : ν) (term : ℕ) (vote : Option ν) : Prop where
  reaches : s'.currentTerm n = term
  casts : s'.votedFor n = vote
  others : ∀ m, m ≠ n → s'.persistent m = s.persistent m ∧ s'.volatile m = s.volatile m
  network : s'.network = s.network
  trace : s'.trace = s.trace ++ [.persistTermVote n term vote]
  leaders : s'.leadersByTerm = s.leadersByTerm

omit [LinearOrder ν] in
theorem Persists.voted {s s' : Cluster ν} {n : ν} {term : ℕ} {vote : Option ν}
    (persists : Persists s s' n term vote) {v c : ν} {t : ℕ} :
    Voted s' v t c ↔ Voted s v t c ∨ v = n ∧ t = term ∧ vote = some c := by
  unfold Voted
  rw [persists.trace, List.mem_append, List.mem_singleton]
  refine or_congr_right ⟨fun same => ?_, ?_⟩
  · cases same
    exact ⟨rfl, rfl, rfl⟩
  · rintro ⟨rfl, rfl, rfl⟩
    rfl

omit [LinearOrder ν] in
theorem Persists.becameLeader {s s' : Cluster ν} {n : ν} {term : ℕ} {vote : Option ν}
    (persists : Persists s s' n term vote) {m : ν} {t : ℕ} :
    BecameLeader s' m t ↔ BecameLeader s m t := by
  unfold BecameLeader
  rw [persists.trace, List.mem_append, List.mem_singleton, or_iff_left]
  intro same
  cases same

/-- **A durable vote.** A node may write a higher term, or its first vote of its
term, or the same vote again. -/
theorem VoteInv.persists {s s' : Cluster ν} (inv : VoteInv C s) {n : ν} {term : ℕ}
    {vote : Option ν} (persists : Persists s s' n term vote)
    (allowed : s.currentTerm n < term ∨
      s.currentTerm n = term ∧ (s.votedFor n = none ∨ s.votedFor n = vote))
    (notLeader : s'.role n ≠ .leader)
    (ownVotes : s'.role n = .candidate →
      n ∈ C.nodeIds ∧ vote = some n ∧ (s'.volatile n).votesReceived = {n}) : VoteInv C s' where
  persisted v t vote' recorded := by
    rw [persists.trace, List.mem_append, List.mem_singleton] at recorded
    by_cases own : v = n
    · subst own
      rw [persists.reaches, persists.casts]
      obtain old | new := recorded
      · obtain ⟨below, kept⟩ := inv.persisted v t vote' old
        obtain higher | ⟨same, free⟩ := allowed
        · exact ⟨by omega, fun at_term => by omega⟩
        · refine ⟨by omega, fun at_term => ?_⟩
          obtain none | kept := kept (by omega)
          · exact .inl none
          · rw [kept]
            exact free
      · cases new
        exact ⟨le_rfl, fun _ => .inr rfl⟩
    · obtain old | new := recorded
      · obtain ⟨durable, -⟩ := persists.others v own
        rw [Cluster.currentTerm, Cluster.votedFor, durable]
        exact inv.persisted v t vote' old
      · cases new
        exact absurd rfl own
  written v := by
    rw [persists.trace]
    by_cases own : v = n
    · subst own
      rw [persists.reaches]
      exact .inr ⟨vote, List.mem_append_right _ (List.mem_singleton_self _)⟩
    · obtain ⟨durable, -⟩ := persists.others v own
      rw [Cluster.currentTerm, durable]
      exact (inv.written v).imp id (Exists.imp fun _ => List.mem_append_left _)
  ordered := by
    rw [persists.trace]
    refine List.pairwise_append.mpr ⟨inv.ordered, List.pairwise_singleton _ _, ?_⟩
    intro earlier before later last m t vote' t' vote'' wrote writes
    rw [List.mem_singleton.mp last] at writes
    cases writes
    subst wrote
    obtain ⟨below, kept⟩ := inv.persisted n t vote' before
    obtain higher | ⟨same, free⟩ := allowed
    · exact ⟨by omega, fun at_term => by omega⟩
    · refine ⟨by omega, fun at_term => ?_⟩
      obtain none | kept := kept (by omega)
      · exact .inl none
      · rw [kept]
        exact free
  voted v candidate cast := by
    rw [persists.voted]
    by_cases own : v = n
    · subst own
      rw [persists.casts] at cast
      exact .inr ⟨rfl, persists.reaches, cast⟩
    · obtain ⟨durable, -⟩ := persists.others v own
      rw [Cluster.votedFor, durable] at cast
      rw [Cluster.currentTerm, durable]
      exact .inl (inv.voted v candidate cast)
  responses message sent response payload granted := by
    rw [persists.network] at sent
    exact persists.voted.mpr (.inl (inv.responses message sent response payload granted))
  candidates m candidate v cast := by
    by_cases own : m = n
    · subst own
      obtain ⟨member, forOwn, votes⟩ := ownVotes candidate
      rw [votes, Finset.mem_singleton] at cast
      subst cast
      exact ⟨member, persists.voted.mpr (.inr ⟨rfl, persists.reaches, forOwn⟩)⟩
    · obtain ⟨durable, volatile⟩ := persists.others m own
      rw [Cluster.role, volatile] at candidate
      rw [volatile] at cast
      obtain ⟨member, voted⟩ := inv.candidates m candidate v cast
      rw [Cluster.currentTerm, durable]
      exact ⟨member, persists.voted.mpr (.inl voted)⟩
  elected t m recorded := by
    rw [persists.leaders] at recorded
    obtain ⟨votes, majority, voted⟩ := inv.elected t m recorded
    exact ⟨votes, majority, fun v vote => persists.voted.mpr (.inl (voted v vote))⟩
  leads m leader := by
    by_cases own : m = n
    · subst own
      exact absurd leader notLeader
    · obtain ⟨durable, volatile⟩ := persists.others m own
      rw [Cluster.role, volatile] at leader
      rw [Cluster.currentTerm, durable, persists.becameLeader]
      exact inv.leads m leader
  recorded m t became := by
    rw [persists.leaders]
    exact inv.recorded m t (persists.becameLeader.mp became)

theorem persists_adoptTerm (n : ν) (term : ℕ) (s : Cluster ν) :
    Persists s (adoptTerm n term s) n term none where
  reaches := by
    simp [adoptTerm, retire, persistTermAndVote, Cluster.currentTerm, Cluster.updatePersistent,
      Cluster.updateVolatile, Cluster.record]
  casts := by
    simp [adoptTerm, retire, persistTermAndVote, Cluster.votedFor, Cluster.updatePersistent,
      Cluster.updateVolatile, Cluster.record]
  others m other := by
    simp [adoptTerm, retire, persistTermAndVote, Cluster.updatePersistent,
      Cluster.updateVolatile, Cluster.record, other]
  network := rfl
  trace := rfl
  leaders := rfl

theorem persists_becomeCandidate (n : ν) (s : Cluster ν) :
    Persists s (becomeCandidate n s) n (s.currentTerm n + 1) (some n) where
  reaches := by
    simp [becomeCandidate, persistTermAndVote, Cluster.currentTerm, Cluster.updatePersistent,
      Cluster.updateVolatile, Cluster.record]
  casts := by
    simp [becomeCandidate, persistTermAndVote, Cluster.votedFor, Cluster.updatePersistent,
      Cluster.updateVolatile, Cluster.record]
  others m other := by
    simp [becomeCandidate, persistTermAndVote, Cluster.updatePersistent,
      Cluster.updateVolatile, Cluster.record, other]
  network := rfl
  trace := rfl
  leaders := rfl

theorem persists_castVote (n : ν) (term : ℕ) (candidate : ν) (s : Cluster ν) :
    Persists s (castVote n term candidate s) n term (some candidate) where
  reaches := by
    simp [castVote, persistTermAndVote, Cluster.currentTerm, Cluster.updatePersistent,
      Cluster.updateVolatile, Cluster.record]
  casts := by
    simp [castVote, persistTermAndVote, Cluster.votedFor, Cluster.updatePersistent,
      Cluster.updateVolatile, Cluster.record]
  others m other := by
    simp [castVote, persistTermAndVote, Cluster.updatePersistent,
      Cluster.updateVolatile, Cluster.record, other]
  network := rfl
  trace := rfl
  leaders := rfl

/-! ## Every move keeps the votes -/

/-- A new leader has the votes of a majority. -/
theorem VoteInv.elects {s : Cluster ν} (inv : VoteInv C s) (fixed : C.kind = .fixed) {n : ν}
    (candidate : s.role n = .candidate)
    (quorum : hasElectionQuorum C s (s.volatile n).votesReceived = true) :
    Majority C (s.volatile n).votesReceived ∧
      ∀ v ∈ (s.volatile n).votesReceived, Voted s v (s.currentTerm n) n := by
  refine ⟨⟨fun v vote => ?_, ?_⟩, fun v vote => (inv.candidates n candidate v vote).2⟩
  · exact List.mem_toFinset.mpr (inv.candidates n candidate v vote).1
  · unfold hasElectionQuorum at quorum
    rw [fixed] at quorum
    exact of_decide_eq_true quorum

/-- Two candidates with majorities of one term are one node. -/
theorem VoteInv.one_leader {s : Cluster ν} (inv : VoteInv C s) (fixed : C.kind = .fixed) {n m : ν}
    (candidate : s.role n = .candidate)
    (quorum : hasElectionQuorum C s (s.volatile n).votesReceived = true)
    (recorded : s.leadersByTerm.lookup (s.currentTerm n) = some m) : m = n := by
  obtain ⟨majority, voted⟩ := inv.elects fixed candidate quorum
  obtain ⟨votes', majority', voted'⟩ := inv.elected _ m recorded
  obtain ⟨v, vote, vote'⟩ := majority.common majority'
  exact inv.unique (voted' v vote') (voted v vote)

theorem VoteInv.lead {s : Cluster ν} (inv : VoteInv C s) (fixed : C.kind = .fixed) {n : ν}
    (member : n ∈ C.nodeIds) (candidate : s.role n = .candidate)
    (quorum : hasElectionQuorum C s (s.volatile n).votesReceived = true)
    (free : ∀ existing, s.leadersByTerm.lookup (s.currentTerm n) = some existing → existing = n) :
    VoteInv C (promote n s) := by
  obtain ⟨majority, voted⟩ := inv.elects fixed candidate quorum
  have votes : ∀ {v term vote}, .persistTermVote v term vote ∈
      s.trace ++ [.leader n (s.currentTerm n)] ↔ .persistTermVote v term vote ∈ s.trace := by
    intro v term vote
    rw [List.mem_append, List.mem_singleton, or_iff_left]
    intro same
    cases same
  have leaders : ∀ {m term}, .leader m term ∈ s.trace ++ [.leader n (s.currentTerm n)] ↔
      .leader m term ∈ s.trace ∨ m = n ∧ term = s.currentTerm n := by
    intro m term
    rw [List.mem_append, List.mem_singleton, TraceRecord.leader.injEq]
  have own : (s.leadersByTerm.setDefault (s.currentTerm n) n).lookup (s.currentTerm n) =
      some n := by
    rw [Dict.lookup_setDefault]
    split
    · rfl
    · next known =>
      have present : s.currentTerm n ∈ s.leadersByTerm := by simpa using known
      obtain ⟨m, recorded⟩ := Option.isSome_iff_exists.mp (AList.lookup_isSome.mpr present)
      rw [recorded, free m recorded]
  have others : ∀ m, m ≠ n → (promote n s).volatile m = s.volatile m := fun m other => by
    simp [promote, Cluster.updateVolatile, Cluster.record, other]
  refine ⟨fun v term vote recorded => ?_, fun v => ?_, ?_, fun v c cast => ?_,
    fun message sent response payload granted => ?_, fun m candidate' v cast => ?_,
    fun term m recorded => ?_, fun m leader => ?_, fun m term became => ?_⟩
  · exact inv.persisted v term vote (votes.mp recorded)
  · exact (inv.written v).imp id (Exists.imp fun _ => votes.mpr)
  · refine List.pairwise_append.mpr ⟨inv.ordered, List.pairwise_singleton _ _, ?_⟩
    intro earlier _ later last m term vote term' vote' _ persists
    rw [List.mem_singleton.mp last] at persists
    cases persists
  · exact votes.mpr (inv.voted v c cast)
  · exact votes.mpr (inv.responses message sent response payload granted)
  · by_cases same : m = n
    · subst same
      simp [promote, Cluster.role, Cluster.updateVolatile, Cluster.record] at candidate'
    · rw [Cluster.role, others m same] at candidate'
      rw [others m same] at cast
      obtain ⟨inside, vote⟩ := inv.candidates m candidate' v cast
      exact ⟨inside, votes.mpr vote⟩
  · obtain old | ⟨rfl, rfl⟩ := Dict.of_lookup_setDefault recorded
    · obtain ⟨votes', majority', voted'⟩ := inv.elected term m old
      exact ⟨votes', majority', fun v vote => votes.mpr (voted' v vote)⟩
    · exact ⟨_, majority, fun v vote => votes.mpr (voted v vote)⟩
  · by_cases same : m = n
    · subst same
      exact ⟨member, leaders.mpr (.inr ⟨rfl, rfl⟩)⟩
    · rw [Cluster.role, others m same] at leader
      obtain ⟨inside, became⟩ := inv.leads m leader
      exact ⟨inside, leaders.mpr (.inl became)⟩
  · obtain old | ⟨rfl, rfl⟩ := leaders.mp became
    · have recorded := inv.recorded m term old
      change (s.leadersByTerm.setDefault (s.currentTerm n) n).lookup term = some m
      rw [Dict.lookup_setDefault, if_neg, recorded]
      rintro ⟨rfl, absent⟩
      rw [AList.lookup_eq_none.mpr absent] at recorded
      cases recorded
    · exact own

omit [LinearOrder ν] in
/-- A message other than a vote response. -/
theorem SameVotes.network {s : Cluster ν} {message : Message ν} {records : List (TraceRecord ν)}
    (other : ∀ response, message.payload ≠ .requestVoteResponse response)
    (records_eq : records = s.trace ∨ records = s.trace ++ [.send message]) :
    SameVotes s { s with network := s.network ++ [message], trace := records } where
  terms _ := rfl
  votes _ := rfl
  roles _ := .inr ⟨rfl, rfl⟩
  responses message' sent response payload := by
    obtain old | new := List.mem_append.mp sent
    · exact old
    · rw [List.mem_singleton.mp new] at payload
      exact absurd payload (other response)
  trace := by
    refine records_eq.imp id fun records_eq => ⟨_, records_eq, ?_, ?_⟩
    · intro v term vote same
      cases same
    · intro n term same
      cases same
  leaders := rfl

/-- **Votes.** Every move of a cluster of fixed membership keeps them. -/
theorem VoteInv.move {s s' : Cluster ν} (fixed : C.kind = .fixed) (move : Move C U s s')
    (inv : VoteInv C s) : VoteInv C s' := by
  have unchanged : s'.persistent = s.persistent → s'.volatile = s.volatile →
      s'.network = s.network → s'.trace = s.trace → s'.leadersByTerm = s.leadersByTerm →
      VoteInv C s' := fun persistent volatile network trace leaders =>
    inv.frame (.of_fields persistent volatile network trace leaders)
  cases move with
  | housekeeping same => exact inv.frame (.of_core same)
  | advanceTerm n term higher =>
      have follows : (adoptTerm n term s).role n = .follower := role_retire n _
      refine inv.persists (persists_adoptTerm n term s) (.inl higher) ?_ fun candidate => ?_
      · rw [follows]
        simp
      · rw [follows] at candidate
        cases candidate
  | stand n member voter =>
      have stands : (becomeCandidate n s).role n = .candidate ∧
          ((becomeCandidate n s).volatile n).votesReceived = {n} := by
        simp [becomeCandidate, Cluster.updateVolatile, Cluster.role]
      refine inv.persists (persists_becomeCandidate n s) (.inl (Nat.lt_succ_self _)) ?_
        fun _ => ⟨member, rfl, stands.2⟩
      rw [stands.1]
      simp
  | grant message request arrived payload voter eligible term upToDate free =>
      have follows : (castVote message.dst request.term request.candidateId s).role message.dst =
          .follower := by
        simp [castVote, Cluster.updateVolatile, Cluster.role]
      refine inv.persists (persists_castVote message.dst request.term request.candidateId s)
        (.inr ⟨term.symm, free⟩) ?_ fun candidate => ?_
      · rw [follows]
        simp
      · rw [follows] at candidate
        cases candidate
  | collect message response arrived payload voter eligible term candidate granted =>
      have voted := inv.responses message arrived.1 response payload granted
      have member : response.voterId ∈ C.nodeIds := by
        have valid := arrived.2
        unfold validEnvelope at valid
        rw [payload] at valid
        exact (of_decide_eq_true valid).1
      have others : ∀ m, m ≠ message.dst → (s.updateVolatile message.dst fun w =>
          { w with votesReceived := insert response.voterId w.votesReceived }).volatile m =
          s.volatile m := fun m other => by simp [Cluster.updateVolatile, other]
      have roles : ∀ m, (s.updateVolatile message.dst fun w =>
          { w with votesReceived := insert response.voterId w.votesReceived }).role m =
          s.role m := by
        intro m
        by_cases same : m = message.dst
        · subst same
          simp [Cluster.role, Cluster.updateVolatile]
        · rw [Cluster.role, others m same, Cluster.role]
      refine ⟨inv.persisted, inv.written, inv.ordered, inv.voted, inv.responses,
        fun m candidate' v cast => ?_, inv.elected, fun m leader => inv.leads m (roles m ▸ leader),
          inv.recorded⟩
      rw [roles m] at candidate'
      by_cases same : m = message.dst
      · subst same
        have cast' : v ∈ insert response.voterId (s.volatile message.dst).votesReceived := by
          simpa [Cluster.updateVolatile] using cast
        obtain rfl | old := Finset.mem_insert.mp cast'
        · rw [term] at voted
          exact ⟨member, voted⟩
        · exact inv.candidates _ candidate' v old
      · rw [others m same] at cast
        exact inv.candidates m candidate' v cast
  | lead n member candidate quorum free => exact inv.lead fixed member candidate quorum free
  | retire n => exact inv.frame (.updateVolatile n fun _ => .inl rfl)
  | reset n => exact inv.frame (.updateVolatile n fun _ => .inl rfl)
  | send message sendable =>
      cases payload : message.payload with
      | requestVoteResponse response =>
          simp only [Sendable, payload] at sendable
          obtain ⟨term, voter, votes⟩ := sendable
          have same : SameVotes s { s with trace := s.trace ++ [.send message] } :=
            ⟨fun _ => rfl, fun _ => rfl, fun _ => .inr ⟨rfl, rfl⟩, fun _ sent _ _ => sent,
              .inr ⟨_, rfl, (by simp), (by simp)⟩, rfl⟩
          have inv' := inv.frame same
          refine ⟨inv'.persisted, inv'.written, inv'.ordered, inv'.voted,
            fun message' sent response' payload' granted => ?_, inv'.candidates, inv'.elected,
            inv'.leads, inv'.recorded⟩
          obtain old | new := List.mem_append.mp sent
          · exact inv'.responses message' old response' payload' granted
          · rw [List.mem_singleton.mp new, payload] at payload'
            cases payload'
            rw [List.mem_singleton.mp new, term, voter]
            exact inv'.voted _ _ (votes granted)
      | _ => exact inv.frame (.network (by simp [payload]) (.inr rfl))
  | schedule message generation deadline payload =>
      exact inv.frame (.network (by simp [payload]) (.inl rfl))
  | record entry recordable =>
      cases entry with
      | send | persistTermVote | leader => exact recordable.elim
      | _ => exact inv.frame (.record (by simp) (by simp))
  | append n => exact inv.frame (.updatePersistent n fun _ => ⟨rfl, rfl⟩)
  | merge message => exact inv.frame (.updatePersistent message.dst fun _ => ⟨rfl, rfl⟩)
  | commit n => exact inv.frame (.updateVolatile n fun _ => .inr ⟨rfl, rfl⟩)
  | createSnapshot n => exact inv.frame (.updatePersistent n fun _ => ⟨rfl, rfl⟩)
  | compactLog n => exact inv.frame (.updatePersistent n fun _ => ⟨rfl, rfl⟩)
  | watermark leader index command n =>
      exact inv.frame (.updatePersistent n fun _ => ⟨rfl, rfl⟩)
  | apply n entry applier =>
      have same : SameVotes s (s.updatePersistent n fun p =>
          { p with stateMachineApplied := p.stateMachineApplied ++ [entry] }) :=
        .updatePersistent n fun _ => ⟨rfl, rfl⟩
      exact inv.frame ⟨same.terms, same.votes, same.roles, same.responses, same.trace, same.leaders⟩
  | compactApplied n snapshot =>
      have same : SameVotes s (s.updatePersistent n fun p =>
          { p with
            stateMachineApplied := ((s.applier.applied n).drop
              (snapshot.lastIncludedIndex - s.applier.baseIndex n)).map (·.entry)
            stateMachineBaseIndex := snapshot.lastIncludedIndex
            stateMachineBaseTerm := snapshot.lastIncludedTerm }) :=
        .updatePersistent n fun _ => ⟨rfl, rfl⟩
      exact inv.frame ⟨same.terms, same.votes, same.roles, same.responses, same.trace, same.leaders⟩
  | install message request suffix =>
      have same := SameVotes.writeSnapshot message.dst request.snapshot suffix s
      exact inv.frame same
  | installOwn n snapshot suffix => exact inv.frame (.writeSnapshot n snapshot suffix s)
  | image | newReplicator | probe | acknowledge | advanceCommit | activate | transitions
  | observeElection | observeLog | observeEntry | observeCommit =>
      exact unchanged rfl rfl rfl rfl rfl

/-! ## Runs -/

/-- The trace only grows. -/
theorem Move.trace_prefix {s s' : Cluster ν} (move : Move C U s s') : s.trace <+: s'.trace := by
  cases move with
  | housekeeping same =>
      have trace : (core s').trace = (core s).trace := by rw [same]
      exact (show s'.trace = s.trace from trace) ▸ List.prefix_rfl
  | advanceTerm | stand | grant | lead | send | record => exact List.prefix_append _ _
  | _ => exact List.prefix_rfl

theorem Moves.trace_prefix {s s' : Cluster ν} (moves : Moves C U s s') :
    s.trace <+: s'.trace :=
  moves.invariant (P := fun s' => s.trace <+: s'.trace)
    (fun _ _ move kept => kept.trans move.trace_prefix) List.prefix_rfl

theorem moves_startTimers (s : Cluster ν) : Moves C U s (startTimers C s) :=
  (moves_foldl (P := fun _ => True) (fun s n _ => ⟨moves_resetElectionTimeout n s, trivial⟩)
    C.nodeIds trivial).1

/-- A cluster over durable state in which no node has a term. -/
theorem voteInv_over {configuration : VotingConfiguration ν} {applier : StateMachineApplier ν}
    {images : ν → KVImage} :
    VoteInv C (Config.over (fun _ => {}) configuration applier images) where
  persisted _ _ _ recorded := by cases recorded
  written _ := .inl rfl
  ordered := .nil
  voted _ _ cast := by cases cast
  responses _ sent := by cases sent
  candidates _ candidate := by cases candidate
  elected _ _ recorded := by cases recorded
  leads _ leader := by cases leader
  recorded _ _ became := by cases became

theorem voteInv_run (fixed : C.kind = .fixed) {events : List (Event ν)}
    (continues : ∀ event ∈ events, event.Continues) : VoteInv C (run C events) := by
  have fresh : Moves C .unrestricted
      (Config.over (fun _ => {}) C.initialConfiguration {} fun _ => {})
      C.fresh := moves_startTimers _
  have moves : Moves C .unrestricted C.fresh (run C events) :=
    moves_runEvents continues (.inl trivial) fun _ _ => trivial
  exact (fresh.trans moves).invariant (fun _ _ move inv => inv.move fixed move) voteInv_over

/-- From an earlier to a later state, a node's term does not decrease, and while it
is the same, its vote is only cast. -/
theorem VoteInv.later {s s' : Cluster ν} (inv : VoteInv C s) (inv' : VoteInv C s')
    (grows : s.trace <+: s'.trace) (n : ν) :
    s.currentTerm n ≤ s'.currentTerm n ∧ (s.currentTerm n = s'.currentTerm n →
      s.votedFor n = none ∨ s'.votedFor n = s.votedFor n) := by
  constructor
  · obtain zero | ⟨vote, recorded⟩ := inv.written n
    · omega
    · exact (inv'.persisted n _ vote (grows.subset recorded)).1
  · intro same
    cases cast : s.votedFor n with
    | none => exact .inl rfl
    | some c =>
        have recorded : Voted s' n (s.currentTerm n) c := grows.subset (inv.voted n c cast)
        obtain none | kept := (inv'.persisted n _ _ recorded).2 same
        · cases none
        · exact .inr kept.symm

/-- **Election safety and vote durability.** In every run of a cluster of fixed
membership, at most one node ever becomes leader in a term and no event raises an
election safety violation; the durable votes of a node have increasing terms and
one candidate in a term, so from a state of the run to a later one its term does
not decrease and, within a term, its vote changes only from none to a candidate. -/
theorem election_safety (fixed : C.kind = .fixed) (events : List (Event ν))
    (continues : ∀ event ∈ events, event.Continues) :
    (∀ n m term, BecameLeader (run C events) n term → BecameLeader (run C events) m term →
      n = m) ∧
    (∀ n, (run C events).role n = .leader →
      BecameLeader (run C events) n ((run C events).currentTerm n)) ∧
    (∀ event : Event ν, event.Continues → ∀ term existing n,
      (step C event (run C events)).error? ≠ some (.electionSafety term existing n)) ∧
    (run C events).trace.Pairwise KeepsVote ∧
    ∀ more : List (Event ν), (∀ event ∈ more, event.Continues) → ∀ n,
      (run C events).currentTerm n ≤ (run C (events ++ more)).currentTerm n ∧
      ((run C events).currentTerm n = (run C (events ++ more)).currentTerm n →
        (run C events).votedFor n = none ∨
          (run C (events ++ more)).votedFor n = (run C events).votedFor n) := by
  have inv := voteInv_run fixed continues
  refine ⟨fun n m term led led' => ?_, fun n leader => (inv.leads n leader).2,
    fun event goesOn term existing n raised => ?_, inv.ordered, fun more goesOn n => ?_⟩
  · have recorded := inv.recorded n term led
    rw [inv.recorded m term led'] at recorded
    exact (Option.some.inj recorded).symm
  · have runs : Runs C .unrestricted (run C events) (step C event (run C events)) :=
      runs_step goesOn (.inl trivial) (Event.allowed_of_proposes fun _ _ => trivial)
    have inv' := runs.state.invariant (fun _ _ move inv => inv.move fixed move) inv
    obtain ⟨-, candidate, rfl, quorum, recorded, other⟩ := Outcome.Ensures.error runs raised
    exact other (inv'.one_leader fixed candidate quorum recorded)
  · have inv' : VoteInv C (run C (events ++ more)) := voteInv_run fixed fun event member =>
      (List.mem_append.mp member).elim (continues event) (goesOn event)
    have moves : Moves C .unrestricted (run C events) (run C (events ++ more)) := by
      unfold run
      rw [runEvents_append]
      exact moves_runEvents goesOn (.inl trivial) fun _ _ => trivial
    exact inv.later inv' moves.trace_prefix n

/-- Three nodes of fixed membership, without election timers. -/
def threeNodes : Config ℕ where
  nodeIds := [0, 1, 2]
  nonempty := by decide
  nodup := by decide

/-- The first node is elected by the second one; the third stands for election in
the same term, too late for the vote of the second. -/
def contestedElection : List (Event ℕ) :=
  [.startElection 0, .startElection 2, .deliver ⟨0, 0⟩, .deliver ⟨3, 0⟩, .deliver ⟨4, 0⟩,
    .deliver ⟨5, 0⟩]

theorem contestedElection_one_leader :
    (run threeNodes contestedElection).role 0 = .leader ∧
      ¬ BecameLeader (run threeNodes contestedElection) 2 1 := by
  refine ⟨by decide +kernel, fun became => ?_⟩
  have safe := election_safety (C := threeNodes) rfl contestedElection fun event member => by
    simp only [contestedElection, List.mem_cons, List.not_mem_nil, or_false] at member
    obtain rfl | rfl | rfl | rfl | rfl | rfl := member <;> trivial
  have led : BecameLeader (run threeNodes contestedElection) 0 1 := by decide +kernel
  exact absurd (safe.1 0 2 1 led became) (by decide)

end Distlab.Raft
