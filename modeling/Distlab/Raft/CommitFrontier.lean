import Distlab.Raft.ReadFreshness

/-!
# The frontier of the committed log

The frontier of a run is the furthest index that any of its nodes has applied. Snapshots
that are stored or sent do not go beyond it, so it only moves when a node applies an entry.
Up to the frontier the committed log has entries that some node held, and each of them was
appended by a driver. The frontier is backed, so a linearizable read that begins there
sees all of it.
-/

set_option autoImplicit false

namespace Distlab.Raft

open Foundations LeaderLogs Deduplication

variable {ν : Type} [LinearOrder ν] {C : Config ν} {P : Permit ν} {s t : Cluster ν}
  {A A' : Logs ν} {n : ν} {K L : ℕ}

/-! ## What is applied -/

omit [LinearOrder ν] in
/-- Nothing that is applied, stored or sent goes beyond the index. -/
structure AppliedWithin (s : Cluster ν) (K : ℕ) : Prop where
  applied : ∀ n, s.applier.lastApplied n ≤ K
  stored : ∀ n snapshot, (s.persistent n).kvSnapshot = some snapshot →
    snapshot.lastIncludedIndex ≤ K
  sent : ∀ message ∈ s.network, ∀ request, message.payload = .installSnapshotRequest request →
    request.snapshot.lastIncludedIndex ≤ K

namespace AppliedWithin

omit [LinearOrder ν] in
theorem mono (within : AppliedWithin s K) (le : K ≤ L) : AppliedWithin s L where
  applied n := (within.applied n).trans le
  stored n snapshot found := (within.stored n snapshot found).trans le
  sent message member request payload := (within.sent message member request payload).trans le

omit [LinearOrder ν] in
/-- A call that sends nothing, and the snapshots that it stores. -/
theorem call {issued : List (KVSnapshot ν)} (within : AppliedWithin s K)
    (applied : ∀ n, t.applier.lastApplied n ≤ K) (stores : Issues issued s t)
    (bounded : ∀ snapshot ∈ issued, snapshot.lastIncludedIndex ≤ K)
    (network : t.network = s.network) : AppliedWithin t K where
  applied := applied
  stored n snapshot found := (stores n snapshot found).elim (within.stored n snapshot)
    (bounded snapshot)
  sent message member := within.sent message (network ▸ member)

omit [LinearOrder ν] in
theorem spare {R : Prop} (within : AppliedWithin s K) (spares : Spares R s t) :
    AppliedWithin t K where
  applied n := by
    rw [(spares.keeps n).lastApplied]
    exact within.applied n
  stored n snapshot found :=
    within.stored n snapshot ((spares.keeps n).kvSnapshot.symm.trans found)
  sent message member request payload := by
    obtain ⟨sent, network, honest⟩ := spares.sent
    rw [network] at member
    obtain old | new := List.mem_append.mp member
    · exact within.sent message old request payload
    · have own := honest message new
      unfold Honest at own
      rw [payload] at own
      exact within.stored message.src request.snapshot own

end AppliedWithin

/-- A call that compacts a log leaves what is applied alone. -/
theorem lastApplied_compactSnapshot (n : ν) (s : Cluster ν) :
    (compactSnapshot C n s).state.applier.lastApplied = s.applier.lastApplied := by
  suffices kept : (compactSnapshot C n s).Ensures
      (fun t => t.applier.lastApplied = s.applier.lastApplied) fun _ _ => True from kept.state
  unfold compactSnapshot
  obtain ⟨snapshot, t, created⟩ | ⟨violation, raised⟩ := createSnapshot_cases (C := C) n s
  · obtain ⟨same, -⟩ := createSnapshot_returns created
    have kept : t.applier.lastApplied = s.applier.lastApplied := by rw [same]; rfl
    rw [created, Outcome.bind_returns]
    dsimp only
    split
    · exact ⟨kept, trivial⟩
    unfold applierCompactThrough
    dsimp only
    split
    · exact ⟨kept, trivial⟩
    split
    · split
      · exact ⟨kept, trivial⟩
      · exact kept
    split
    · exact ⟨kept, trivial⟩
    · exact kept
  · rw [raised]
    exact ⟨rfl, trivial⟩

/-- A call that compacts a log stores a snapshot of what the node has applied, or none. -/
theorem exists_issues_compactSnapshot (n : ν) (s : Cluster ν) :
    ∃ issued, (∀ snapshot ∈ issued, snapshot.lastIncludedIndex = s.applier.lastApplied n) ∧
      Issues issued s (compactSnapshot C n s).state := by
  have boundary : ∀ {snapshot : KVSnapshot ν} {u : Cluster ν},
      createSnapshot C n s = .returns snapshot u →
      ∀ other ∈ [snapshot], other.lastIncludedIndex = s.applier.lastApplied n := by
    intro snapshot u created other member
    rw [List.mem_singleton.mp member, (createSnapshot_returns created).2.1]
  obtain ⟨snapshot, t, returned, stores⟩ | ⟨violation, raised⟩ |
    ⟨snapshot, t, violation, u, created, raised, keeps⟩ := compactSnapshot_cases (C := C) n s
  · rw [returned]
    refine ⟨[snapshot], ?_, stores⟩
    unfold compactSnapshot at returned
    obtain ⟨created, u, creates, rest⟩ := Outcome.bind_eq_returns.mp returned
    dsimp only at rest
    split at rest
    · cases rest
    obtain ⟨_, v, _, last⟩ := Outcome.bind_eq_returns.mp rest
    cases last
    exact boundary creates
  · rw [raised]
    exact ⟨[], fun _ member => absurd member List.not_mem_nil, .refl [] s⟩
  · rw [raised]
    exact ⟨[snapshot], boundary created,
      (issues_createSnapshot created).trans (issues_of_keeps keeps)⟩

/-- A call that installs a snapshot applies what the snapshot has, and stores it. -/
theorem applied_installSnapshot {snapshot : KVSnapshot ν} {preserve : Bool} :
    (installSnapshot C n snapshot preserve s).Ensures (fun t =>
      (∀ m, t.applier.lastApplied m = s.applier.lastApplied m ∨
        t.applier.lastApplied m = snapshot.lastIncludedIndex) ∧ Issues [snapshot] s t)
      fun _ _ => True := by
  have unchanged : (∀ m, s.applier.lastApplied m = s.applier.lastApplied m ∨
      s.applier.lastApplied m = snapshot.lastIncludedIndex) ∧ Issues [snapshot] s s :=
    ⟨fun _ => .inl rfl, .refl _ s⟩
  unfold installSnapshot
  dsimp only
  split
  · exact ⟨unchanged, trivial⟩
  split
  · split
    · exact ⟨unchanged, trivial⟩
    · exact unchanged
  split
  · exact ⟨unchanged, trivial⟩
  split
  · exact ⟨unchanged, trivial⟩
  next suffix _ =>
  split
  · exact ⟨unchanged, trivial⟩
  split
  · exact ⟨unchanged, trivial⟩
  have written : (∀ m, (writeSnapshot n snapshot suffix s).applier.lastApplied m =
      s.applier.lastApplied m ∨ (writeSnapshot n snapshot suffix s).applier.lastApplied m =
        snapshot.lastIncludedIndex) ∧ Issues [snapshot] s (writeSnapshot n snapshot suffix s) := by
    refine ⟨fun m => ?_, fun m other stored => ?_⟩
    · by_cases same : m = n
      · subst same
        exact .inr (Function.update_self ..)
      · exact .inl (Function.update_of_ne same ..)
    · by_cases same : m = n
      · subst same
        refine .inr (List.mem_singleton.mpr ?_)
        simpa [writeSnapshot, Cluster.updatePersistent, eq_comm] using stored
      · exact .inl (by simpa [writeSnapshot, Cluster.updatePersistent, same] using stored)
  generalize writeSnapshot n snapshot suffix s = v at written ⊢
  -- What follows raises the commit index at most.
  refine Outcome.Ensures.bind (P := fun t => (∀ m, t.applier.lastApplied m =
      s.applier.lastApplied m ∨ t.applier.lastApplied m = snapshot.lastIncludedIndex) ∧
    Issues [snapshot] s t) ?_ (fun _ t _ kept => ?_) fun _ => id
  · split
    · unfold advanceNodeCommit
      split
      · exact ⟨written, trivial⟩
      split
      · exact written
      · exact written
    · exact written
  · unfold assertLogMatching
    split
    · unfold assertStateMachineSafety
      rw [Outcome.bind_returns]
      split
      · exact kept
      · exact ⟨kept, trivial⟩
    · exact ⟨kept, trivial⟩

/-- What a node applies is in its log. -/
theorem mem_entries_of_applyEach {indexes : List ℕ} {records : List (AppliedEntry ν)}
    (returned : applyEach n indexes s = .returns records t) :
    ∀ record ∈ records, record.entry ∈ (s.logView n).entries := by
  induction indexes generalizing s records with
  | nil =>
      cases returned
      exact fun _ member => absurd member List.not_mem_nil
  | cons index rest ih =>
      unfold applyEach at returned
      split at returned
      · cases returned
      next entry found =>
      split at returned
      · cases returned
      next applier _ =>
      obtain ⟨later, u, looped, last⟩ := Outcome.bind_eq_returns.mp returned
      cases last
      have same : (writeApplied n index entry { s with applier := applier }).logView n =
          s.logView n := by
        simp [writeApplied, Cluster.logView, Cluster.updatePersistent]
      intro record member
      obtain rfl | listed := List.mem_cons.mp member
      · rw [RaftLogView.entryAt_eq_getElem (RaftLogView.lt_of_entryAt found)] at found
        exact List.mem_of_getElem? found
      · have inside := ih looped record listed
        rwa [same] at inside

theorem mem_entries_of_kvApplyCommitted {records : List (AppliedEntry ν)}
    (returned : kvApplyCommitted n s = .returns records t) :
    ∀ record ∈ records, record.entry ∈ (s.logView n).entries := by
  unfold kvApplyCommitted at returned
  dsimp only at returned
  split at returned
  · cases returned
  split at returned
  · cases returned
  split at returned
  · cases returned
  obtain ⟨applied, u, appliedAll, rest⟩ := Outcome.bind_eq_returns.mp returned
  obtain ⟨_, v, _, last⟩ := Outcome.bind_eq_returns.mp rest
  cases last
  unfold applierApplyCommitted at appliedAll
  dsimp only at appliedAll
  split at appliedAll
  · cases appliedAll
    exact fun _ member => absurd member List.not_mem_nil
  split at appliedAll
  · cases appliedAll
  split at appliedAll
  · cases appliedAll
  exact mem_entries_of_applyEach appliedAll

/-! ## The frontier -/

/-- A committed log in a state whose frontier is the index. -/
structure Covers (C : Config ν) (s : Cluster ν) (allowed : Command ν → Prop) (K : ℕ)
    (log : List (LogEntry (Command ν))) : Prop where
  refines : Refines C log s
  within : K ≤ log.length
  allowed : ∀ entry ∈ log.take K, allowed entry.command

/-- The index is the frontier, and the drivers appended what the logs have. -/
structure Frontier (C : Config ν) (s : Cluster ν) (A : Logs ν) (allowed : Command ν → Prop)
    (K : ℕ) : Prop where
  within : AppliedWithin s K
  backed : Backed C s A K
  carried : ∀ entry, HasEntry s entry → allowed entry.command
  covers : ∀ log, Decides C A log → Covers C s allowed K log

theorem Frontier.mono {allowed allowed' : Command ν → Prop} (frontier : Frontier C s A allowed K)
    (weaker : ∀ command, allowed command → allowed' command) : Frontier C s A allowed' K where
  within := frontier.within
  backed := frontier.backed
  carried entry carries := weaker _ (frontier.carried entry carries)
  covers log decides :=
    have covered := frontier.covers log decides
    ⟨covered.refines, covered.within, fun entry member => weaker _ (covered.allowed entry member)⟩

section Stages

variable {allowed : Command ν → Prop}

/-- A stage that applies nothing beyond the frontier. -/
theorem Frontier.quiet (frontier : Frontier C s A allowed K) (audited : Audited C s A)
    (fixed : C.kind = .fixed) (stage : Stage C P s t)
    (allows : ∀ command, P.appends command → allowed command) (grows : A.Extends A')
    (backs : ∀ index, Backed C s A index → Backed C t A' index) (within : AppliedWithin t K) :
    Frontier C t A' allowed K where
  within := within
  backed := backs K frontier.backed
  carried entry carries := (stage.carries carries).elim (frontier.carried entry) (allows _)
  covers log decides :=
    have decided := decides.earlier grows audited.archived.logs.sound
    have covered := frontier.covers log decided
    ⟨covered.refines.stage audited.archived fixed decided stage, covered.within, covered.allowed⟩

/-- **The frontier moves** when a node applies what it has committed. -/
theorem Frontier.apply (frontier : Frontier C s A allowed K) (audited : Audited C s A)
    (fixed : C.kind = .fixed) (member : n ∈ C.nodeIds) {records : List (AppliedEntry ν)}
    (returned : kvApplyCommitted n s = .returns records t) (grows : A.Extends A')
    (audited' : Audited C t A') (backs : ∀ index, Backed C s A index → Backed C t A' index) :
    Frontier C t A' allowed (max K (t.applier.lastApplied n)) := by
  have stage : Stage C ⟨allowed, False⟩ s (kvApplyCommitted n s).state := .apply n member
  have silent := (Outcome.Ensures.state (silences_kvApplyCommitted (n := n) (s := s))).network
  have stores := issues_kvApplyCommitted (n := n) (s := s)
  rw [returned] at stage silent stores
  have applies : ∀ log, Decides C A log → ∃ u image,
      Applies log n (records.map (·.entry)) s u ∧
        t = { u with kv := Function.update u.kv n image } := by
    intro log decides
    obtain ⟨issued, effects, refined⟩ := (frontier.covers log decides).refines
    obtain ⟨u, image, applies, same, -⟩ := kvApplyCommitted_applies
      (refined.reached.converging.nodes n member).replica (audited.archived.commitsTo decides n)
      returned
    exact ⟨u, image, applies, same⟩
  refine ⟨?_, ?_, ?_, fun log decides => ?_⟩
  · refine (frontier.within.mono (le_max_left _ _)).call (fun m => ?_) stores
      (fun _ member => absurd member List.not_mem_nil) silent
    obtain ⟨log, decides⟩ := audited.archived.logs.exists_decides
    obtain ⟨u, image, applied, rfl⟩ := applies log decides
    by_cases same : m = n
    · subst same
      exact le_max_right _ _
    · refine le_max_of_le_left ?_
      exact (applied.others m same).lastApplied.trans_le (frontier.within.applied m)
  · obtain le | le := le_total K (t.applier.lastApplied n)
    · rw [max_eq_right le]
      exact audited'.backed.applied n
    · rw [max_eq_left le]
      exact backs K frontier.backed
  · intro entry carries
    exact (stage.carries carries).elim (frontier.carried entry) id
  · have decided := decides.earlier grows audited.archived.logs.sound
    have covered := frontier.covers log decided
    obtain ⟨u, image, applied, rfl⟩ := applies log decided
    refine ⟨covered.refines.stage audited.archived fixed decided stage,
      max_le covered.within applied.replica.within, fun entry inside => ?_⟩
    obtain le | le := le_total K (u.applier.lastApplied n)
    · -- The log up to there has what the node had applied, and entries of its log.
      rw [max_eq_right le, applied.entries] at inside
      obtain old | new := List.mem_append.mp inside
      · refine covered.allowed entry ?_
        exact (List.take_subset_take_left log (frontier.within.applied n)) old
      · obtain ⟨record, listed, rfl⟩ := List.mem_map.mp new
        exact frontier.carried record.entry
          (.inl ⟨n, mem_entries_of_kvApplyCommitted returned record listed⟩)
    · rw [max_eq_left le] at inside
      exact covered.allowed entry inside

/-- **One stage moves the frontier on.** -/
theorem Frontier.stage (frontier : Frontier C s A allowed K) (audited : Audited C s A)
    (fixed : C.kind = .fixed) (stage : Stage C P s t)
    (allows : ∀ command, P.appends command → allowed command) :
    ∃ A' K', A.Extends A' ∧ K ≤ K' ∧ Audited C t A' ∧ Frontier C t A' allowed K' ∧
      ∀ index, Backed C s A index → Backed C t A' index := by
  obtain ⟨A', grows, audited', backs⟩ := audited.stages fixed (.one stage)
  have still : AppliedWithin t K → ∃ A' K', A.Extends A' ∧ K ≤ K' ∧ Audited C t A' ∧
      Frontier C t A' allowed K' ∧ ∀ index, Backed C s A index → Backed C t A' index :=
    fun within => ⟨A', K, grows, le_rfl, audited',
      frontier.quiet audited fixed stage allows grows backs within, backs⟩
  have within := frontier.within
  cases stage with
  | spare moves spares => exact still (within.spare spares)
  | append n command allowed =>
      refine still ?_
      unfold appendCurrentTerm
      split
      · exact within
      split
      · exact within
      · let appended := s.updatePersistent n fun p =>
          { p with log := { p.log with entries := p.log.entries ++ [⟨p.currentTerm, command⟩] } }
        have stores : Issues [] s appended := by
          refine .of_latest fun m => ?_
          by_cases same : m = n
          · subst same
            simp [appended, Cluster.updatePersistent]
          · simp [appended, Cluster.updatePersistent, same]
        exact within.call within.applied stores
          (fun _ member => absurd member List.not_mem_nil) rfl
  | apply n member =>
      obtain ⟨records, u, returned⟩ | ⟨violation, raised⟩ :=
        audited.archived.kvApplyCommitted_cases fixed member
      · rw [returned] at audited' backs ⊢
        exact ⟨A', _, grows, le_max_left _ _, audited',
          frontier.apply audited fixed member returned grows audited' backs, backs⟩
      · refine still ?_
        rw [raised]
        exact within
  | create n member =>
      refine still ?_
      obtain ⟨snapshot, u, returned⟩ | ⟨violation, raised⟩ := createSnapshot_cases (C := C) n s
      · have stores := issues_createSnapshot returned
        obtain ⟨same, boundary, -⟩ := createSnapshot_returns returned
        rw [returned]
        refine within.call (fun m => ?_) stores (fun other member => ?_) ?_
        · exact same ▸ within.applied m
        · rw [List.mem_singleton.mp member, boundary]
          exact within.applied n
        · exact same ▸ rfl
      · rw [raised]
        exact within
  | compact n member =>
      refine still ?_
      have applied := lastApplied_compactSnapshot (C := C) n s
      have silent := (Outcome.Ensures.state
        (silences_compactSnapshot (C := C) (n := n) (s := s))).network
      obtain ⟨issued, boundary, stores⟩ := exists_issues_compactSnapshot (C := C) n s
      refine within.call (fun m => applied ▸ within.applied m) stores
        (fun other member => ?_) silent
      rw [boundary other member]
      exact within.applied n
  | install message request arrived payload dst term follows =>
      refine still ?_
      let installed := (installSnapshot C request.followerId request.snapshot true s).state
      have applied : (∀ m, installed.applier.lastApplied m = s.applier.lastApplied m ∨
          installed.applier.lastApplied m = request.snapshot.lastIncludedIndex) ∧
            Issues [request.snapshot] s installed := applied_installSnapshot.state
      have silent := (Outcome.Ensures.state (silences_installSnapshot (C := C)
        (n := request.followerId) (s := s) request.snapshot true)).network
      have reach := within.sent message arrived.1 request payload
      refine within.call (fun m => ?_) applied.2 (fun other member => ?_) silent
      · obtain same | new := applied.1 m
        · rw [same]
          exact within.applied m
        · rw [new]
          exact reach
      · rw [List.mem_singleton.mp member]
        exact reach

/-- **Stages move the frontier on.** -/
theorem Frontier.stages (frontier : Frontier C s A allowed K) (audited : Audited C s A)
    (fixed : C.kind = .fixed) (stages : Stages C P s t)
    (allows : ∀ command, P.appends command → allowed command) :
    ∃ A' K', A.Extends A' ∧ K ≤ K' ∧ Audited C t A' ∧ Frontier C t A' allowed K' ∧
      ∀ index, Backed C s A index → Backed C t A' index := by
  induction stages with
  | refl => exact ⟨A, K, .refl A, le_rfl, audited, frontier, fun _ => id⟩
  | tail _ stage ih =>
      obtain ⟨B, L, grows, further, between, moved, backs⟩ := ih
      obtain ⟨A', K', grows', further', after, moved', backs'⟩ :=
        moved.stage between fixed stage allows
      exact ⟨A', K', grows.trans grows', further.trans further', after, moved',
        fun index backed => backs' index (backs index backed)⟩

/-- A new cluster has applied nothing. -/
theorem exists_frontier_fresh (fixed : C.kind = .fixed) :
    ∃ A, Audited C C.fresh A ∧ Frontier C C.fresh A allowed 0 := by
  obtain ⟨A, audited⟩ := exists_audited_fresh fixed
  have spares : Spares False (Config.over (fun _ => {}) C.initialConfiguration {} fun _ => {})
      C.fresh := spares_startTimers _
  have none : ∀ entry, ¬ HasEntry (Config.over (fun _ => {}) C.initialConfiguration {} fun _ => {} :
      Cluster ν) entry := by
    rintro entry (⟨n, member⟩ | ⟨message, member, -⟩)
    · exact absurd member List.not_mem_nil
    · exact absurd member List.not_mem_nil
  have empty : AppliedWithin (Config.over (fun _ => {}) C.initialConfiguration {} fun _ => {} :
      Cluster ν) 0 :=
    ⟨fun _ => le_rfl, nofun, fun _ member => absurd member List.not_mem_nil⟩
  refine ⟨A, audited, empty.spare spares, .zero,
    fun entry carries => (none entry (spares.carries carries)).elim, fun log _ => ?_⟩
  exact ⟨refines_fresh, Nat.zero_le _, fun entry member => absurd member List.not_mem_nil⟩

end Stages

end Distlab.Raft
