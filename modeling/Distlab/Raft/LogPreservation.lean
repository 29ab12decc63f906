import Distlab.Raft.LogWrites

/-!
# Every move keeps the logs

Messages, records and replicators, and the invariant over every move of a cluster of fixed
membership whose drivers do what the protocol asks for. A replicator that advances its
commit index has a majority that matches the log of its term up to an entry of the term, so
what it commits is chosen.
-/

set_option autoImplicit false

namespace Distlab.Raft

open Foundations LeaderLogs

variable {ν : Type} [LinearOrder ν] {C : Config ν} {U : Licence ν} {s s' : Cluster ν}
  {A : Logs ν}

theorem mem_modify {β : Type} {items : List β} {i : ℕ} {f : β → β} {item : β}
    (member : item ∈ items.modify i f) :
    item ∈ items ∨ ∃ old, items[i]? = some old ∧ item = f old := by
  obtain ⟨j, found⟩ := List.mem_iff_getElem?.mp member
  rw [List.getElem?_modify] at found
  obtain ⟨old, here, rfl⟩ := Option.map_eq_some_iff.mp found
  split
  next same => exact .inr ⟨old, same ▸ here, rfl⟩
  next => exact .inl (List.mem_of_getElem? here)

namespace LogInv

variable (inv : LogInv C s A)
include inv

/-! ## Messages -/

/-- What a node may send is true of the archive, once the node has stated what it
matches. -/
theorem sent (protocol : ¬ U.own) {message : Message ν} (sendable : Sendable C U s message) :
    ∃ A' : Logs ν, A.Extends A' ∧ LogInv C s A' ∧ Sent C A' message.payload := by
  have node := inv.nodes message.src
  cases payload : message.payload with
  | requestVote request =>
      simp only [Sendable, payload] at sendable
      obtain ⟨-, stands, rfl⟩ := sendable
      exact ⟨A, .refl A, inv, A.log message.src, node.candidate stands, node.view.lastIndex_eq,
        node.view.lastTerm_eq⟩
  | appendEntries a =>
      simp only [Sendable, payload] at sendable
      obtain ⟨leads, term, -, replicated⟩ := sendable
      obtain ⟨agrees, r, member, leader, current, commit⟩ := replicated.resolve_left protocol
      obtain ⟨led, own, -⟩ := node.leader leads
      have own : A.leaderLog (s.currentTerm message.src) = A.log message.src := own
      obtain ⟨within, prevTerm, has⟩ := inv.of_agrees agrees
      have knows := inv.replicators r member
      have decided := knows.committed
      rw [← current.2, leader, ← commit] at decided
      have same : A.leaderLog a.term = A.log message.src := by rw [term, own]
      refine ⟨A, .refl A, inv, ?_, ?_, ?_, ?_, ?_⟩
      · rwa [term]
      · rwa [same]
      · rwa [same]
      · rwa [same]
      · rwa [term]
  | appendEntriesResponse response =>
      simp only [Sendable, payload] at sendable
      obtain ⟨term, follower, holds⟩ := sendable
      cases success : response.success with
      | false =>
          refine ⟨A, .refl A, inv, fun accepted => ?_⟩
          rw [success] at accepted
          cases accepted
      | true =>
          obtain ⟨a, holds, -, reach⟩ := holds success
          obtain ⟨-, within, has⟩ := inv.prefix_of_holdsAppend holds
          refine ⟨_, A.extends_acknowledge message.src a.reach, inv.acknowledge within has,
            fun _ => ?_⟩
          rw [follower, term, reach]
          unfold Archive.acknowledge
          dsimp only
          rw [if_pos ⟨rfl, node.term.symm⟩]
          exact le_max_right _ _
  | installSnapshotRequest request =>
      simp only [Sendable, payload] at sendable
      obtain ⟨-, leads, term, -, latest⟩ := sendable
      obtain ⟨led, own, -⟩ := node.leader leads
      have own : A.leaderLog (s.currentTerm message.src) = A.log message.src := own
      have stands : (A.elected (s.currentTerm message.src)).isSome ∧
          Stands C A (s.currentTerm message.src) (A.log message.src) request.snapshot :=
        ⟨led, node.snapshot _ latest⟩
      rw [← own, ← term] at stands
      exact ⟨A, .refl A, inv, stands⟩
  | installSnapshotResponse response =>
      simp only [Sendable, payload] at sendable
      obtain ⟨term, follower, holds⟩ := sendable
      cases success : response.success with
      | false =>
          refine ⟨A, .refl A, inv, fun accepted => ?_⟩
          rw [success] at accepted
          cases accepted
      | true =>
          obtain ⟨request, ⟨message', arrived, -, payload', term', latest, stored, newer⟩, -, index,
            -⟩ := holds success
          have told := inv.network message' arrived.1
          rw [payload'] at told
          obtain ⟨-, decided, -⟩ := told
          rw [term'] at decided
          have own := (node.snapshot latest stored).1.of_le newer
          have has := own.agree decided inv.sound
          refine ⟨_, A.extends_acknowledge message.src request.snapshot.lastIncludedIndex,
            inv.acknowledge decided.within (has ▸ List.take_prefix _ _), fun _ => ?_⟩
          rw [follower, term, index]
          unfold Archive.acknowledge
          dsimp only
          rw [if_pos ⟨rfl, node.term.symm⟩]
          exact le_max_right _ _
  | _ => exact ⟨A, .refl A, inv, trivial⟩

/-- A node sends a message. -/
theorem send (protocol : ¬ U.own) {message : Message ν} (sendable : Sendable C U s message) :
    Continues C A { s with
      network := s.network ++ [message]
      trace := s.trace ++ [.send message] } := by
  obtain ⟨A', extends', inv', sent⟩ := inv.sent protocol sendable
  refine ⟨A', extends', inv'.frame (fun n => .refl _ _) rfl rfl (fun message' member => ?_)
    (fun entry member => ?_) fun _ => .inl⟩
  · obtain old | new := List.mem_append.mp member
    · exact .inl old
    · rw [List.mem_singleton.mp new]
      exact .inr sent
  · obtain old | new := List.mem_append.mp member
    · exact .inl old
    · rw [List.mem_singleton.mp new]
      exact .inr trivial

/-- A timer is scheduled. -/
theorem schedule {message : Message ν} {generation : ℕ} {deadline : Option ℕ}
    (payload : message.payload = .electionTimeout generation deadline) :
    LogInv C { s with network := s.network ++ [message] } A := by
  refine inv.frame (fun n => .refl _ _) rfl rfl (fun message' member => ?_) (fun _ => .inl)
    fun _ => .inl
  obtain old | new := List.mem_append.mp member
  · exact .inl old
  · rw [List.mem_singleton.mp new, payload]
    exact .inr trivial

/-- A record is added to the trace. -/
theorem record {entry : TraceRecord ν} (recordable : Recordable C s entry) :
    LogInv C (s.record entry) A := by
  refine inv.frame (fun n => .refl _ _) rfl rfl (fun _ => .inl) (fun entry' member => ?_)
    fun _ => .inl
  obtain old | new := List.mem_append.mp member
  · exact .inl old
  rw [List.mem_singleton.mp new]
  refine .inr ?_
  cases entry with
  | persistTermVote | leader | send => exact recordable.elim
  | appendResponse leader follower term success matchIndex =>
      obtain ⟨message, arrived, -, payload⟩ := recordable
      have sent := inv.network message arrived.1
      rwa [payload] at sent
  | installSnapshotResponse response =>
      obtain ⟨message, arrived, payload⟩ := recordable
      have sent := inv.network message arrived.1
      rwa [payload] at sent
  | commitAdvance leader term commitIndex =>
      obtain ⟨r, known, -, rfl, -, within⟩ := recordable
      exact (inv.replicators r known).committed.of_le within
  | _ => trivial

/-! ## Replicators -/

/-- The replicators change. -/
theorem replicate {replicators : List (LeaderReplicator ν)}
    (knows : ∀ r ∈ replicators, r ∈ s.replicators ∨ Knows C A r) :
    LogInv C { s with replicators := replicators } A :=
  inv.frame (fun _ => .refl _ _) rfl rfl (fun _ => .inl) (fun _ => .inl) knows

/-- A new replicator knows what its leader has committed. -/
theorem newReplicator {r : LeaderReplicator ν} (current : r.Current s)
    (commit : r.commitIndex = s.commitIndex r.leader)
    (unmatched : ∀ peer, (r.progress peer).matchIndex = 0) :
    LogInv C { s with replicators := s.replicators ++ [r] } A := by
  refine inv.replicate fun r' member => ?_
  obtain old | new := List.mem_append.mp member
  · exact .inl old
  rw [List.mem_singleton.mp new]
  have node := inv.nodes r.leader
  obtain ⟨led, own, -⟩ := node.leader current.1
  have term : (s.persistent r.leader).currentTerm = r.term := current.2
  have decided := node.committed
  rw [term] at led own decided
  refine .inr ⟨led, fun peer => ?_, ?_⟩
  · rw [unmatched]
    exact Nat.zero_le _
  · rw [own, commit]
    exact decided

/-- A replicator changes what it has learned of a peer or what it has committed. -/
theorem updateReplicator {i : ℕ} {f : LeaderReplicator ν → LeaderReplicator ν}
    (keeps : ∀ r, s.replicators[i]? = some r → Knows C A r → Knows C A (f r)) :
    LogInv C (s.updateReplicator i f) A := by
  refine inv.replicate fun r member => ?_
  obtain old | ⟨r', found, rfl⟩ := mem_modify member
  · exact .inl old
  · exact .inr (keeps r' found (inv.replicators r' (List.mem_of_getElem? found)))

/-- The trace shows what a peer has matched. -/
theorem matched_of_evidence {r : LeaderReplicator ν} {peer : ν} {matchIndex : ℕ}
    (evidence : MatchEvidence s r peer matchIndex) : matchIndex ≤ A.matched peer r.term := by
  obtain recorded | ⟨response, recorded, -, follower, term, success, index, -⟩ := evidence
  · exact inv.trace _ recorded rfl
  · have matched := inv.trace _ recorded success
    rwa [follower, term, index] at matched

/-- What the acknowledgements of a leader's term commit is decided. -/
theorem decided_of_quorum (fixed : C.kind = .fixed) (votes : VoteInv C s)
    {r : LeaderReplicator ν} {index : ℕ} (knows : Knows C A r) (current : r.Current s)
    (within : index ≤ (s.logView r.leader).lastIndex)
    (term : (s.logView r.leader).termAt index = some r.term)
    (quorum : commitQuorum C r index s = .ok true) :
    Decided C A r.term (A.leaderLog r.term) index := by
  have node := inv.nodes r.leader
  obtain ⟨led, own, own'⟩ := node.leader current.1
  have here : (s.persistent r.leader).currentTerm = r.term := current.2
  rw [here] at led own own'
  have view : (s.logView r.leader).Ends (A.log r.leader) := node.view
  rw [view.lastIndex_eq] at within
  obtain ⟨-, -, lastTerm⟩ := view.termAt_eq_some.mp term
  obtain ⟨start, elected⟩ := Option.isSome_iff_exists.mp led
  have majority : Majority C (acknowledged C r index) := by
    have fixedRule : usesConfiguration C r = false := by
      unfold usesConfiguration
      rw [fixed]
    unfold commitQuorum at quorum
    rw [fixedRule] at quorum
    have enough := of_decide_eq_true (Except.ok.inj quorum)
    constructor
    · intro v member
      obtain rfl | peer := Finset.mem_insert.mp member
      · exact List.mem_toFinset.mpr (votes.leads _ current.1).1
      · have known := List.mem_of_mem_filter (List.mem_toFinset.mp peer)
        exact List.mem_toFinset.mpr (List.mem_of_mem_filter known)
    · have peers : ((C.peers r.leader).filter fun peer =>
          index ≤ (r.progress peer).matchIndex).Nodup := (C.nodup.filter _).filter _
      unfold acknowledged
      rw [Finset.card_insert_of_notMem, List.toFinset_card_of_nodup peers,
        ← List.countP_eq_length_filter]
      · omega
      · intro member
        have self := List.mem_of_mem_filter (List.mem_toFinset.mp member)
        exact of_decide_eq_true (List.mem_filter.mp self).2 rfl
  refine ⟨own ▸ within, .inr ⟨r.term, le_rfl, index, ⟨(inv.sound.leads _ start elected).1, ?_, _,
    majority, fun v member => ?_⟩, List.prefix_rfl⟩⟩
  · rw [own]
    exact lastTerm
  · obtain rfl | peer := Finset.mem_insert.mp member
    · exact within.trans own'
    · have reached := of_decide_eq_true (List.mem_filter.mp (List.mem_toFinset.mp peer)).2
      exact reached.trans (knows.matched v)

/-! ## What the logs do not see -/

/-- A durable write that keeps the logs. -/
theorem updatePersistent (n : ν) {f : Persistent ν → Persistent ν}
    (keeps : ∀ p w, SameNode p (f p) w w) : LogInv C (s.updatePersistent n f) A := by
  refine inv.frame (fun m => ?_) rfl rfl (fun _ => .inl) (fun _ => .inl) fun _ => .inl
  by_cases same : m = n
  · subst same
    simpa [Cluster.updatePersistent] using keeps (s.persistent m) (s.volatile m)
  · simpa [Cluster.updatePersistent, same] using SameNode.refl (s.persistent m) (s.volatile m)

/-- A volatile write that keeps the role and the commit index, or lets them fall. -/
theorem updateVolatile (n : ν) {f : Volatile ν → Volatile ν}
    (keeps : ∀ p w, SameNode p p w (f w)) : LogInv C (s.updateVolatile n f) A := by
  refine inv.frame (fun m => ?_) rfl rfl (fun _ => .inl) (fun _ => .inl) fun _ => .inl
  by_cases same : m = n
  · subst same
    simpa [Cluster.updateVolatile] using keeps (s.persistent m) (s.volatile m)
  · simpa [Cluster.updateVolatile, same] using SameNode.refl (s.persistent m) (s.volatile m)

/-- A change of clocks, timers, liveness or leadership records. -/
theorem of_core (same : core s' = core s) : LogInv C s' A := by
  have persistent : s'.persistent = s.persistent :=
    show (core s').persistent = (core s).persistent by rw [same]
  have applier : s'.applier = s.applier := show (core s').applier = (core s).applier by rw [same]
  have network : s'.network = s.network := show (core s').network = (core s).network by rw [same]
  have trace : s'.trace = s.trace := show (core s').trace = (core s).trace by rw [same]
  have replicators : s'.replicators = s.replicators :=
    show (core s').replicators = (core s).replicators by rw [same]
  refine inv.frame (fun n => ?_) (congrArg _ applier)
    (show (core s').leadersByTerm = (core s).leadersByTerm by rw [same])
    (fun message sent => .inl (network ▸ sent)) (fun entry recorded => .inl (trace ▸ recorded))
    fun r member => .inl (replicators ▸ member)
  rw [persistent]
  have role : ((core s').volatile n).role = ((core s).volatile n).role := by rw [same]
  have commit : ((core s').volatile n).commitIndex = ((core s).volatile n).commitIndex := by
    rw [same]
  exact ⟨rfl, rfl, rfl, rfl, .inr role, commit.le⟩

end LogInv

/-! ## Every move -/

/-- **Every move keeps the logs**, in a cluster of fixed membership whose drivers do what
the protocol asks for. -/
theorem LogInv.move (fixed : C.kind = .fixed) (protocol : ¬ U.own) (move : Move C U s s')
    (votes : VoteInv C s) (inv : LogInv C s A) : Continues C A s' := by
  have unchanged : s'.persistent = s.persistent → s'.volatile = s.volatile →
      s'.applier = s.applier → s'.leadersByTerm = s.leadersByTerm → s'.network = s.network →
      s'.trace = s.trace → s'.replicators = s.replicators → Continues C A s' :=
    fun persistent volatile applier leaders network trace replicators =>
      (inv.of_fields persistent volatile (congrArg _ applier) leaders network trace
        replicators).continues
  cases move with
  | housekeeping same => exact (inv.of_core same).continues
  | advanceTerm n term higher => exact inv.advanceTerm higher
  | stand n => exact inv.stand n
  | grant message request arrived payload voter eligible term upToDate free =>
      exact inv.grant votes arrived payload term upToDate free
  | collect message =>
      exact LogInv.continues (inv.updateVolatile message.dst fun _ _ =>
        ⟨rfl, rfl, rfl, rfl, .inr rfl, le_rfl⟩)
  | lead n member candidate quorum free => exact inv.lead fixed votes candidate quorum free
  | retire n =>
      exact LogInv.continues (inv.updateVolatile n fun _ _ =>
        ⟨rfl, rfl, rfl, rfl, .inl rfl, le_rfl⟩)
  | reset n =>
      exact LogInv.continues (inv.updateVolatile n fun _ _ =>
        ⟨rfl, rfl, rfl, rfl, .inl rfl, Nat.zero_le _⟩)
  | send message sendable => exact inv.send protocol sendable
  | schedule message generation deadline payload => exact (inv.schedule payload).continues
  | record entry recordable => exact (inv.record recordable).continues
  | append n command leads => exact inv.append votes leads
  | merge message a merged arrived payload term follows matched merges =>
      exact inv.merge arrived payload term follows matched merges
  | commit n index higher within reason => exact (inv.commit reason).continues
  | apply n entry applier member committed found canonical =>
      exact (inv.apply committed canonical).continues
  | createSnapshot n snapshot member boundary positive term =>
      exact (inv.createSnapshot boundary term).continues
  | compactLog n snapshot member latest boundary term => exact (inv.compactLog term).continues
  | compactApplied n snapshot =>
      have writes := inv.updatePersistent n (f := fun p =>
        { p with
          stateMachineApplied := ((s.applier.applied n).drop
            (snapshot.lastIncludedIndex - s.applier.baseIndex n)).map (·.entry)
          stateMachineBaseIndex := snapshot.lastIncludedIndex
          stateMachineBaseTerm := snapshot.lastIncludedTerm })
        fun _ _ => ⟨rfl, rfl, rfl, rfl, .inr rfl, le_rfl⟩
      exact LogInv.continues (writes.of_fields rfl rfl rfl rfl rfl rfl rfl)
  | install message request suffix arrived payload term follows newer beyond retained =>
      exact inv.install arrived payload term follows retained
  | installOwn n snapshot suffix own => exact absurd own protocol
  | newReplicator r member current commit unmatched =>
      exact (inv.newReplicator current commit unmatched).continues
  | probe i f keeps =>
      refine (inv.updateReplicator fun r _ knows => ?_).continues
      obtain ⟨-, term, commit, -, matched⟩ := keeps r
      refine ⟨term ▸ knows.led, fun peer => ?_, ?_⟩
      · rw [term, matched]
        exact knows.matched peer
      · rw [term, commit]
        exact knows.committed
  | acknowledge i r peer matchIndex found evidence =>
      refine (inv.updateReplicator fun r' found' knows => ?_).continues
      rw [found] at found'
      cases found'
      refine ⟨knows.led, fun peer' => ?_, knows.committed⟩
      by_cases same : peer' = peer
      · subst same
        simpa using ⟨knows.matched peer', inv.matched_of_evidence evidence⟩
      · simpa [same] using knows.matched peer'
  | advanceCommit i r index found current beyond within term quorum =>
      refine (inv.updateReplicator fun r' found' knows => ?_).continues
      rw [found] at found'
      cases found'
      exact ⟨knows.led, knows.matched,
        inv.decided_of_quorum fixed votes (r := r) knows current within term quorum⟩
  | watermark leader index command n =>
      exact LogInv.continues (inv.updatePersistent n fun _ _ =>
        ⟨rfl, rfl, rfl, rfl, .inr rfl, le_rfl⟩)
  | image | activate | transitions | observeElection | observeLog | observeEntry
  | observeCommit => exact unchanged rfl rfl rfl rfl rfl rfl rfl

end Distlab.Raft
