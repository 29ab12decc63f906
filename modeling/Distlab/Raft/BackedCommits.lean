import Distlab.Raft.AppliedLogs
import Distlab.Raft.LeaderTenure

/-!
# Where commit indexes come from

What a node commits, applies, stores in a snapshot or is told to commit, a replicator has
committed before by the rule of its term: a majority of the nodes had matched an entry of
this term beyond it. Such an index stays backed: replicators commit ever more, and what was
chosen stays chosen.
-/

set_option autoImplicit false

namespace Distlab.Raft

open Foundations LeaderLogs

variable {ν : Type} [LinearOrder ν] {C : Config ν} {U : Licence ν} {s t : Cluster ν}
  {A A' : Logs ν} {index index' : ℕ}

/-- A replicator of the term has committed up to the index, which a majority had matched. -/
structure Advanced (C : Config ν) (s : Cluster ν) (A : Logs ν) (index T : ℕ) : Prop where
  replicator : ∃ r ∈ s.replicators, r.term = T ∧ index ≤ r.commitIndex
  chosen : ∃ reach, index ≤ reach ∧ A.Chosen (rules C) T reach

/-- Some replicator has committed up to the index. -/
def Backed (C : Config ν) (s : Cluster ν) (A : Logs ν) (index : ℕ) : Prop :=
  index = 0 ∨ ∃ T, Advanced C s A index T

/-- The indexes that a message says are committed. -/
def Payload.committed : Payload ν → ℕ
  | .appendEntries a => a.leaderCommit
  | .installSnapshotRequest request => request.snapshot.lastIncludedIndex
  | _ => 0

/-- **What is committed is backed.** -/
structure BackedInv (C : Config ν) (s : Cluster ν) (A : Logs ν) : Prop where
  committed : ∀ n, Backed C s A (s.commitIndex n)
  applied : ∀ n, Backed C s A (s.applier.lastApplied n)
  snapshot : ∀ n snapshot, (s.persistent n).kvSnapshot = some snapshot →
    Backed C s A snapshot.lastIncludedIndex
  replicators : ∀ r ∈ s.replicators, Backed C s A r.commitIndex
  network : ∀ message ∈ s.network, Backed C s A message.payload.committed

/-! ## Backed indexes -/

namespace Backed

theorem zero : Backed C s A 0 := .inl rfl

theorem of_le (backed : Backed C s A index) (less : index' ≤ index) : Backed C s A index' := by
  obtain rfl | ⟨T, ⟨r, member, term, reached⟩, reach, within, chosen⟩ := backed
  · exact .inl (Nat.le_zero.mp less)
  · exact .inr ⟨T, ⟨r, member, term, less.trans reached⟩, reach, less.trans within, chosen⟩

end Backed

/-- A replicator commits ever more. -/
theorem Move.commits (move : Move C U s t) {r : LeaderReplicator ν} (member : r ∈ s.replicators) :
    ∃ r' ∈ t.replicators, r'.leader = r.leader ∧ r'.term = r.term ∧
      r.commitIndex ≤ r'.commitIndex := by
  obtain ⟨k, found⟩ := List.mem_iff_getElem?.mp member
  have modified : ∀ i f, (∀ r', s.replicators[i]? = some r' → (f r').leader = r'.leader ∧
      (f r').term = r'.term ∧ r'.commitIndex ≤ (f r').commitIndex) →
      ∃ r' ∈ (s.updateReplicator i f).replicators, r'.leader = r.leader ∧ r'.term = r.term ∧
        r.commitIndex ≤ r'.commitIndex := by
    intro i f grows
    by_cases same : i = k
    · subst same
      refine ⟨f r, List.mem_of_getElem? (i := i) ?_, grows r found⟩
      simp [Cluster.updateReplicator, found]
    · refine ⟨r, List.mem_of_getElem? (i := k) ?_, rfl, rfl, le_rfl⟩
      simp [Cluster.updateReplicator, same, found]
  cases move with
  | housekeeping same =>
      have replicators : (core t).replicators = (core s).replicators := by rw [same]
      exact ⟨r, (congrArg (r ∈ ·) replicators).mpr member, rfl, rfl, le_rfl⟩
  | newReplicator => exact ⟨r, List.mem_append_left _ member, rfl, rfl, le_rfl⟩
  | probe i f keeps =>
      exact modified i f fun r' _ => ⟨(keeps r').1, (keeps r').2.1, (keeps r').2.2.1.ge⟩
  | acknowledge i => exact modified i _ fun _ _ => ⟨rfl, rfl, le_rfl⟩
  | advanceCommit i r' index found' _ beyond =>
      refine modified i _ fun r'' found'' => ⟨rfl, rfl, ?_⟩
      rw [found'] at found''
      cases found''
      exact (le_max_left _ _).trans beyond.le
  | _ => exact ⟨r, member, rfl, rfl, le_rfl⟩

/-- **What is backed stays backed.** -/
theorem Backed.move (backed : Backed C s A index) (move : Move C U s t) (grows : A.Extends A')
    (sound : A.Sound (rules C)) : Backed C t A' index := by
  refine backed.imp_right fun ⟨T, ⟨r, member, term, reached⟩, reach, within, chosen⟩ => ?_
  obtain ⟨r', member', -, term', further⟩ := move.commits member
  exact ⟨T, ⟨r', member', term'.trans term, reached.trans further⟩, reach, within,
    (grows.chosen sound chosen).1⟩

/-- A leader commits what a majority matches, by an entry of its term. -/
theorem LogInv.exists_chosen (inv : LogInv C s A) (fixed : C.kind = .fixed) (votes : VoteInv C s)
    {r : LeaderReplicator ν} (knows : Knows C A r) (current : r.Current s) (positive : 0 < index)
    (within : index ≤ (s.logView r.leader).lastIndex)
    (term : (s.logView r.leader).termAt index = some r.term)
    (quorum : commitQuorum C r index s = .ok true) :
    ∃ reach, index ≤ reach ∧ A.Chosen (rules C) r.term reach := by
  have decided := inv.decided_of_quorum fixed votes knows current within term quorum
  have node := inv.nodes r.leader
  obtain ⟨-, own, -⟩ := node.leader current.1
  have here : (s.persistent r.leader).currentTerm = r.term := current.2
  rw [here] at own
  have view : (s.logView r.leader).Ends (A.log r.leader) := node.view
  obtain ⟨-, -, last⟩ := view.termAt_eq_some.mp term
  have length : ((A.leaderLog r.term).take index).length = index :=
    List.length_take_of_le decided.within
  have nonempty : (A.leaderLog r.term).take index ≠ [] := by
    intro empty
    rw [empty, List.length_nil] at length
    omega
  have chosen := inv.sound.exists_chosen_of_lastTerm decided.safe nonempty
    (by rw [lastTerm_rules, own]; exact last)
  rwa [length] at chosen

namespace BackedInv

/-- The invariant of a later state, from what it says of new indexes. -/
theorem later (inv : BackedInv C s A)
    (backs : ∀ index, Backed C s A index → Backed C t A' index)
    (committed : ∀ n, t.commitIndex n = s.commitIndex n ∨ Backed C t A' (t.commitIndex n))
    (applied : ∀ n, t.applier.lastApplied n = s.applier.lastApplied n ∨
      Backed C t A' (t.applier.lastApplied n))
    (snapshot : ∀ n snapshot, (t.persistent n).kvSnapshot = some snapshot →
      (s.persistent n).kvSnapshot = some snapshot ∨ Backed C t A' snapshot.lastIncludedIndex)
    (replicators : ∀ r ∈ t.replicators, r ∈ s.replicators ∨ Backed C t A' r.commitIndex)
    (network : ∀ message ∈ t.network, message ∈ s.network ∨
      Backed C t A' message.payload.committed) : BackedInv C t A' where
  committed n := (committed n).elim (fun same => same ▸ backs _ (inv.committed n)) id
  applied n := (applied n).elim (fun same => same ▸ backs _ (inv.applied n)) id
  snapshot n stored found := (snapshot n stored found).elim
    (fun old => backs _ (inv.snapshot n stored old)) id
  replicators r member := (replicators r member).elim
    (fun old => backs _ (inv.replicators r old)) id
  network message member := (network message member).elim
    (fun old => backs _ (inv.network message old)) id

/-- What commits, applies and sends nothing. -/
theorem quiet (inv : BackedInv C s A) (backs : ∀ index, Backed C s A index → Backed C t A' index)
    (committed : ∀ n, t.commitIndex n = s.commitIndex n)
    (applied : t.applier.lastApplied = s.applier.lastApplied)
    (snapshot : ∀ n, (t.persistent n).kvSnapshot = (s.persistent n).kvSnapshot)
    (replicators : t.replicators = s.replicators) (network : t.network = s.network) :
    BackedInv C t A' :=
  inv.later backs (fun n => .inl (committed n)) (fun n => .inl (congrFun applied n))
    (fun n _ found => .inl ((snapshot n).symm.trans found))
    (fun _ member => .inl (replicators ▸ member))
    fun _ member => .inl (network ▸ member)

/-- A replicator is written, or sends something new. -/
theorem tend (inv : BackedInv C s A) (backs : ∀ index, Backed C s A index → Backed C t A' index)
    (committed : t.volatile = s.volatile)
    (applied : t.applier.lastApplied = s.applier.lastApplied)
    (persistent : t.persistent = s.persistent)
    (replicators : ∀ r ∈ t.replicators, r ∈ s.replicators ∨ Backed C t A' r.commitIndex)
    (network : ∀ message ∈ t.network, message ∈ s.network ∨
      Backed C t A' message.payload.committed) : BackedInv C t A' :=
  inv.later backs (fun n => .inl (by rw [Cluster.commitIndex, Cluster.commitIndex, committed]))
    (fun n => .inl (congrFun applied n)) (fun n _ found => .inl (by rwa [persistent] at found))
    replicators network

/-- A move of the network. -/
theorem committed_of_sendable (inv : BackedInv C s A) (protocol : ¬ U.own) {message : Message ν}
    (sendable : Sendable C U s message) : Backed C s A message.payload.committed := by
  unfold Sendable at sendable
  cases payload : message.payload with
  | appendEntries a =>
      rw [payload] at sendable
      obtain ⟨-, -, -, own | ⟨-, r, member, -, -, commit⟩⟩ := sendable
      · exact absurd own protocol
      · have same : (Payload.appendEntries a).committed = r.commitIndex := commit
        rw [same]
        exact inv.replicators r member
  | installSnapshotRequest request =>
      rw [payload] at sendable
      obtain ⟨-, -, -, -, stored⟩ := sendable
      exact inv.snapshot message.src request.snapshot stored
  | _ => exact .zero

/-- What a node may commit is backed. -/
theorem committed_of_reason (inv : BackedInv C s A) {n : ν} (reason : CommitReason C s n index) :
    Backed C s A index := by
  cases reason with
  | replicator r member leader current within => exact (inv.replicators r member).of_le within
  | append a holds within reached =>
      obtain ⟨message, arrived, -, payload, -⟩ := holds
      have backed := inv.network message arrived.1
      rw [payload] at backed
      exact backed.of_le within
  | snapshot snapshot latest within => exact (inv.snapshot n snapshot latest).of_le within

/-- **One move.** -/
theorem move (inv : BackedInv C s A) (archived : Archived C s A) (fixed : C.kind = .fixed)
    (protocol : ¬ U.own) (move : Move C U s t) (grows : A.Extends A') : BackedInv C t A' := by
  have backs : ∀ index, Backed C s A index → Backed C t A' index :=
    fun index backed => backed.move move grows archived.logs.sound
  cases move with
  | housekeeping same =>
      have committed : ∀ n, (core t).commitIndex n = (core s).commitIndex n := fun n => by rw [same]
      have applied : (core t).applier = (core s).applier := by rw [same]
      have persistent : (core t).persistent = (core s).persistent := by rw [same]
      have replicators : (core t).replicators = (core s).replicators := by rw [same]
      have network : (core t).network = (core s).network := by rw [same]
      exact inv.quiet backs committed (congrArg StateMachineApplier.lastApplied applied)
        (fun n => congrArg Persistent.kvSnapshot (congrFun persistent n)) replicators network
  | advanceTerm n | stand n =>
      refine inv.quiet backs (fun m => ?_) rfl (fun m => ?_) rfl rfl <;>
        by_cases same : m = n <;>
          simp [adoptTerm, becomeCandidate, retire, persistTermAndVote, Cluster.commitIndex,
            Cluster.updatePersistent, Cluster.updateVolatile, Cluster.record, same]
  | grant message =>
      refine inv.quiet backs (fun m => ?_) rfl (fun m => ?_) rfl rfl <;>
        by_cases same : m = message.dst <;>
          simp [castVote, persistTermAndVote, Cluster.commitIndex, Cluster.updatePersistent,
            Cluster.updateVolatile, Cluster.record, same]
  | collect message =>
      refine inv.quiet backs (fun m => ?_) rfl (fun m => rfl) rfl rfl
      by_cases same : m = message.dst <;>
        simp [Cluster.commitIndex, Cluster.updateVolatile, same]
  | lead n | retire n =>
      refine inv.quiet backs (fun m => ?_) rfl (fun m => rfl) rfl rfl
      by_cases same : m = n <;>
        simp [promote, retire, Cluster.commitIndex, Cluster.updateVolatile, Cluster.record, same]
  | reset n =>
      refine inv.later backs (fun m => ?_) (fun _ => .inl rfl) (fun _ _ => .inl) (fun _ => .inl)
        fun _ => .inl
      by_cases same : m = n
      · subst same
        refine .inr (.inl ?_)
        simp [Cluster.commitIndex, Cluster.updateVolatile]
      · exact .inl (by simp [Cluster.commitIndex, Cluster.updateVolatile, same])
  | send message sendable =>
      refine inv.tend backs rfl rfl rfl (fun _ => .inl) fun other member => ?_
      refine (List.mem_append.mp member).imp_right fun new => ?_
      rw [List.mem_singleton.mp new]
      exact backs _ (inv.committed_of_sendable protocol sendable)
  | schedule message generation deadline payload =>
      refine inv.tend backs rfl rfl rfl (fun _ => .inl) fun other member => ?_
      refine (List.mem_append.mp member).imp_right fun new => ?_
      rw [List.mem_singleton.mp new, payload]
      exact .zero
  | commit n index higher within reason =>
      refine inv.later backs (fun m => ?_) (fun _ => .inl rfl) (fun _ _ => .inl) (fun _ => .inl)
        fun _ => .inl
      by_cases same : m = n
      · subst same
        refine .inr ?_
        simpa [Cluster.commitIndex, Cluster.updateVolatile] using
          backs index (inv.committed_of_reason reason)
      · exact .inl (by simp [Cluster.commitIndex, Cluster.updateVolatile, same])
  | append n | compactLog n | compactApplied n =>
      refine inv.quiet backs (fun m => rfl) rfl (fun m => ?_) rfl rfl
      by_cases same : m = n <;> simp [writeCompacted, Cluster.updatePersistent, same]
  | merge message =>
      refine inv.quiet backs (fun m => rfl) rfl (fun m => ?_) rfl rfl
      by_cases same : m = message.dst <;> simp [Cluster.updatePersistent, same]
  | watermark leader index command n =>
      refine inv.quiet backs (fun m => rfl) rfl (fun m => ?_) rfl rfl
      by_cases same : m = n <;> simp [Cluster.updatePersistent, same]
  | apply n entry applier member committed found canonical =>
      obtain ⟨_, same⟩ := recordCanonical_ok canonical
      refine inv.later backs (fun _ => .inl rfl) (fun m => ?_) (fun m snapshot stored => .inl ?_)
        (fun _ => .inl) fun _ => .inl
      · by_cases here : m = n
        · subst here
          have last : (writeApplied m (s.applier.lastApplied m + 1) entry
              { s with applier := applier }).applier.lastApplied m =
                s.applier.lastApplied m + 1 := Function.update_self ..
          rw [last]
          exact .inr (backs _ ((inv.committed m).of_le committed))
        · have kept : applier.lastApplied m = s.applier.lastApplied m := by rw [same]
          exact .inl ((Function.update_of_ne here ..).trans kept)
      · by_cases here : m = n
        · subst here
          simpa [writeApplied, Cluster.updatePersistent] using stored
        · simpa [writeApplied, Cluster.updatePersistent, here] using stored
  | createSnapshot n snapshot member boundary =>
      refine inv.later backs (fun _ => .inl rfl) (fun _ => .inl rfl) (fun m other stored => ?_)
        (fun _ => .inl) fun _ => .inl
      by_cases same : m = n
      · subst same
        refine .inr ?_
        simp only [Cluster.updatePersistent, Function.update_self, Option.some.injEq] at stored
        rw [← stored, boundary]
        exact backs _ (inv.applied m)
      · exact .inl (by simpa [Cluster.updatePersistent, same] using stored)
  | install message request suffix arrived payload =>
      have backed := backs _ (inv.network message arrived.1)
      rw [payload] at backed
      refine inv.later backs (fun _ => .inl rfl) (fun m => ?_) (fun m other stored => ?_)
        (fun _ => .inl) fun _ => .inl
      · by_cases same : m = message.dst
        · subst same
          have last : (writeSnapshot message.dst request.snapshot suffix s).applier.lastApplied
              message.dst = request.snapshot.lastIncludedIndex := Function.update_self ..
          rw [last]
          exact .inr backed
        · exact .inl (Function.update_of_ne same ..)
      · by_cases same : m = message.dst
        · subst same
          simp only [writeSnapshot, Cluster.updatePersistent, Function.update_self,
            Option.some.injEq] at stored
          exact .inr (stored ▸ backed)
        · exact .inl (by simpa [writeSnapshot, Cluster.updatePersistent, same] using stored)
  | installOwn n snapshot suffix unrestricted => exact absurd unrestricted protocol
  | newReplicator r member current commit =>
      refine inv.tend backs rfl rfl rfl (fun other listed => ?_) fun _ => .inl
      refine (List.mem_append.mp listed).imp_right fun new => ?_
      rw [List.mem_singleton.mp new, commit]
      exact backs _ (inv.committed r.leader)
  | probe i f keeps =>
      refine inv.tend backs rfl rfl rfl (fun r member => ?_) fun _ => .inl
      obtain old | ⟨r', found, same⟩ := mem_updateReplicator member
      · exact .inl old
      · rw [same, (keeps r').2.2.1]
        exact .inr (backs _ (inv.replicators r' (List.mem_of_getElem? found)))
  | acknowledge i =>
      refine inv.tend backs rfl rfl rfl (fun r member => ?_) fun _ => .inl
      obtain old | ⟨r', found, same⟩ := mem_updateReplicator member
      · exact .inl old
      · rw [same]
        exact .inr (backs _ (inv.replicators r' (List.mem_of_getElem? found)))
  | advanceCommit i r index found current beyond within term quorum =>
      obtain ⟨reach, below, chosen⟩ := archived.logs.exists_chosen fixed archived.votes
        (archived.logs.replicators r (List.mem_of_getElem? found)) current
        ((Nat.zero_le _).trans_lt beyond) within term quorum
      refine inv.tend backs rfl rfl rfl (fun r' member => ?_) fun _ => .inl
      obtain old | ⟨r'', found', same⟩ := mem_updateReplicator member
      · exact .inl old
      rw [found] at found'
      cases found'
      refine .inr (.inr ⟨r.term, ⟨r', member, ?_, ?_⟩, reach, ?_,
        (grows.chosen archived.logs.sound chosen).1⟩)
      · rw [same]
      · rfl
      · rw [same]
        exact below
  | _ => exact inv.quiet backs (fun _ => rfl) rfl (fun _ => rfl) rfl rfl

end BackedInv

/-- **A run of moves.** Its archive extends the one before, and what was backed stays so. -/
theorem BackedInv.moves (inv : BackedInv C s A) (archived : Archived C s A)
    (fixed : C.kind = .fixed) (protocol : ¬ U.own) (moves : Moves C U s t) :
    ∃ A', A.Extends A' ∧ Archived C t A' ∧ BackedInv C t A' ∧
      ∀ index, Backed C s A index → Backed C t A' index := by
  refine moves.invariant (P := fun t => ∃ A', A.Extends A' ∧ Archived C t A' ∧ BackedInv C t A' ∧
    ∀ index, Backed C s A index → Backed C t A' index) (fun u v move kept => ?_)
    ⟨A, .refl A, archived, inv, fun _ => id⟩
  obtain ⟨B, grows, between, inv', backs⟩ := kept
  obtain ⟨A', grows', after⟩ := between.move fixed protocol move
  exact ⟨A', grows.trans grows', after, inv'.move between fixed protocol move grows',
    fun index backed => (backs index backed).move move grows' between.logs.sound⟩

end Distlab.Raft
