import Distlab.Raft.BackedCommits
import Distlab.Raft.FreshAnswers
import Distlab.Raft.LinearizableRead
import Distlab.Raft.ReplicaRefinement

/-!
# Linearizable reads are fresh

A read that returns sees everything that any node had committed or applied when it began.
What was committed is backed by a replicator of some term. If the term is later than the
leader's, the majority that matched it shares a node with the majority that answered the
leader, which was in no later term. If it is the leader's own term, the leader has committed
it. If it is earlier, the leader was elected with it, and an entry of its own term, which it
has committed, stands behind it.
-/

set_option autoImplicit false

namespace Distlab.Raft

open Foundations LeaderLogs Deduplication

variable {ν : Type} [LinearOrder ν] {C : Config ν} {P : Permit ν} {s t : Cluster ν}
  {A A' : Logs ν} {r : LeaderReplicator ν} {T i : ℕ}

/-! ## What a read rests on -/

/-- The invariants of a run that a read rests on. -/
structure Audited (C : Config ν) (s : Cluster ν) (A : Logs ν) : Prop where
  archived : Archived C s A
  backed : BackedInv C s A
  tracked : Tracked s
  traced : Traced s
  owned : Owned s

theorem Owned.moves {U : Licence ν} (owned : Owned s) (votes : VoteInv C s)
    (fixed : C.kind = .fixed) (moves : Moves C U s t) : Owned t :=
  (moves.invariant (P := fun u => VoteInv C u ∧ Owned u)
    (fun _ _ move kept => ⟨kept.1.move fixed move, kept.2.move kept.1 move⟩) ⟨votes, owned⟩).2

/-- **Stages keep it**, and what is backed. -/
theorem Audited.stages (audited : Audited C s A) (fixed : C.kind = .fixed)
    (stages : Stages C P s t) :
    ∃ A', A.Extends A' ∧ Audited C t A' ∧ ∀ index, Backed C s A index → Backed C t A' index := by
  have moves := stages.moves fixed
  obtain ⟨A', grows, archived, backed, backs⟩ :=
    audited.backed.moves audited.archived fixed id moves
  exact ⟨A', grows, ⟨archived, backed, stages.tracked fixed audited.tracked,
    audited.traced.moves moves, audited.owned.moves audited.archived.votes fixed moves⟩, backs⟩

theorem exists_audited_fresh (fixed : C.kind = .fixed) : ∃ A, Audited C C.fresh A := by
  have moves : Moves C .protocol
      (Config.over (fun _ => {}) C.initialConfiguration {} fun _ => {}) C.fresh :=
    moves_startTimers _
  have backed : BackedInv C (Config.over (fun _ => {}) C.initialConfiguration {} fun _ => {})
      Archive.initial :=
    ⟨fun _ => .zero, fun _ => .zero, nofun, nofun, nofun⟩
  obtain ⟨A, -, archived, backed, -⟩ := backed.moves archived_over fixed id moves
  have spares : Spares False (Config.over (fun _ => {}) C.initialConfiguration {} fun _ => {})
      C.fresh := spares_startTimers _
  have none : C.fresh.replicators = [] := spares.replicators.resolve_left id
  have traced : Traced (Config.over (fun _ => {}) C.initialConfiguration {} fun _ => {}) :=
    ⟨fun _ member => absurd member List.not_mem_nil, fun _ member => absurd member List.not_mem_nil⟩
  refine ⟨A, archived, backed, fun r member => ?_, traced.moves moves, fun r member => ?_⟩ <;>
    exact absurd (none ▸ member) List.not_mem_nil

/-! ## The parts of a read -/

/-- The commit rule leaves the roles and the terms alone. -/
theorem leads_advanceCommitIndex (fixed : C.kind = .fixed) (i : ℕ) (s : Cluster ν) :
    (advanceCommitIndex C i s).Ensures (fun t => ∀ n, t.role n = s.role n ∧
      t.currentTerm n = s.currentTerm n ∧ s.commitIndex n ≤ t.commitIndex n) fun _ _ => True := by
  have same : ∀ n, s.role n = s.role n ∧ s.currentTerm n = s.currentTerm n ∧
      s.commitIndex n ≤ s.commitIndex n := fun _ => ⟨rfl, rfl, le_rfl⟩
  unfold advanceCommitIndex
  split
  · exact same
  next r _ =>
  unfold requireCurrentLeader
  split
  · exact ⟨same, trivial⟩
  rw [Outcome.bind_returns]
  split
  · exact ⟨same, trivial⟩
  · exact same
  next index _ =>
    have aware : usesConfiguration C r = false := by
      unfold usesConfiguration
      rw [fixed]
    dsimp only
    rw [aware]
    unfold advanceNodeCommit
    split
    · exact ⟨same, trivial⟩
    split
    · exact same
    next higher =>
    intro n
    have higher' : s.commitIndex r.leader < index := not_le.mp higher
    by_cases here : n = r.leader
    · subst here
      refine ⟨?_, rfl, ?_⟩ <;>
        simp [Cluster.role, Cluster.commitIndex, Cluster.updateVolatile, Cluster.record,
          Cluster.updateReplicator]
      exact higher'.le
    · refine ⟨?_, rfl, ?_⟩ <;>
        simp [Cluster.role, Cluster.commitIndex, Cluster.updateVolatile, Cluster.record,
          Cluster.updateReplicator, here]

/-- `_require_current_leader` returns for a live leader of the replicator's term. -/
theorem requireReadLeader_returns (returned : requireReadLeader C i r s = .returns () t) :
    r.Current s ∧ ∃ index, advanceCommitIndex C i s = .returns index t := by
  unfold requireReadLeader at returned
  split at returned
  · cases returned
  split at returned
  · cases returned
  next leads =>
  split at returned
  · cases returned
  next current =>
  split at returned
  · next index u advanced =>
    cases returned
    exact ⟨⟨not_not.mp leads, not_not.mp current⟩, index, advanced⟩
  · split at returned <;> cases returned

omit [LinearOrder ν] in
/-- `_require_current_term_commit` returns where the entry at the commit index is of the
leader's term. -/
theorem requireCurrentTermCommit_returns {leader : ν}
    (returned : requireCurrentTermCommit leader s = .returns () t) :
    t = s ∧ 0 < s.commitIndex leader ∧
      (s.logView leader).termAt (s.commitIndex leader) = some (s.currentTerm leader) := by
  unfold requireCurrentTermCommit at returned
  dsimp only at returned
  split at returned
  · cases returned
  next positive =>
  split at returned
  · cases returned
  next term found =>
  split at returned
  · cases returned
  next same =>
    cases returned
    rw [not_not] at same
    exact ⟨rfl, Nat.pos_of_ne_zero positive, same ▸ found⟩

theorem requireReadConfiguration_returns {began : RoundConfiguration ν}
    (returned : requireReadConfiguration C began s = .returns () t) : t = s := by
  unfold requireReadConfiguration at returned
  split at returned
  · cases returned
    rfl
  · cases returned

/-- **The loop of a read.** The peers that it adds have answered meanwhile. -/
theorem confirmPeers_returns {began : RoundConfiguration ν} {attempts : ℕ}
    {schedules : ν → List (List Delivery)} {peers before after : List ν} (tends : P.tends)
    (fixed : C.kind = .fixed) (traced : Traced s) (probing : Probing r.leader T i s)
    (returned : confirmPeers C began i r attempts schedules peers before s = .returns after t) :
    Stages C P s t ∧ Probing r.leader T i t ∧
      ∀ peer ∈ after, peer ∈ before ∨ peer ∈ peers ∧ Answered C s peer T := by
  induction peers generalizing before s with
  | nil =>
      cases returned
      exact ⟨.refl _, probing, fun _ => .inl⟩
  | cons peer rest ih =>
      rw [confirmPeers] at returned
      obtain ⟨_, u, required, loops⟩ := Outcome.bind_eq_returns.mp returned
      obtain rfl := requireReadConfiguration_returns required
      split at loops
      · cases loops
        exact ⟨.refl _, probing, fun _ => .inl⟩
      have stages : Staged C P u (replicate C i peer (some attempts) (schedules peer) u) :=
        staged_replicate tends fixed
      have kept : (replicate C i peer (some attempts) (schedules peer) u).Ensures
          (Probing r.leader T i) _ := probing_replicate fixed probing
      -- The rest of the loop goes on from where the call ended.
      have goesOn : ∀ {v : Cluster ν} {known : List ν}, Stages C P u v → Probing r.leader T i v →
          confirmPeers C began i r attempts schedules rest known v = .returns after t →
          (∀ p ∈ known, p ∈ before ∨ p ∈ peer :: rest ∧ Answered C u p T) →
          Stages C P u t ∧ Probing r.leader T i t ∧
            ∀ p ∈ after, p ∈ before ∨ p ∈ peer :: rest ∧ Answered C u p T := by
        intro v known reached probing later answers
        have moves := reached.moves fixed
        obtain ⟨stages', probing', answered⟩ := ih (traced.moves moves) probing later
        refine ⟨reached.trans stages', probing', fun p member => ?_⟩
        obtain old | ⟨listed, since⟩ := answered p member
        · exact answers p old
        · exact .inr ⟨List.mem_cons_of_mem _ listed, since.before moves⟩
      split at loops
      · next v replicated =>
        rw [replicated] at stages kept
        obtain ⟨_, w, required, later⟩ := Outcome.bind_eq_returns.mp loops
        obtain rfl := requireReadConfiguration_returns required
        refine goesOn stages kept later fun p member => ?_
        refine (List.mem_append.mp member).imp_right fun new => ?_
        obtain rfl := List.mem_singleton.mp new
        exact ⟨List.mem_cons_self, answered_of_replicate fixed traced probing replicated⟩
      · next v replicated =>
        rw [replicated] at stages kept
        exact goesOn stages kept loops fun _ => .inl
      · next missing v replicated =>
        rw [replicated] at stages kept
        exact goesOn stages.1 kept.1 loops fun _ => .inl
      · cases loops

/-! ## Freshness -/

/-- The leader and the peers that answered it are a majority of the nodes. -/
theorem majority_of_hasQuorum {began : RoundConfiguration ν} {peers : List ν} {leader : ν}
    (fixed : C.kind = .fixed) (member : leader ∈ C.nodeIds) (listed : ∀ p ∈ peers, p ∈ C.nodeIds)
    (quorum : began.hasQuorum C (insert leader peers.toFinset) = true) :
    Majority C (insert leader peers.toFinset) := by
  refine ⟨fun v inside => ?_, ?_⟩
  · rw [List.mem_toFinset]
    obtain rfl | peer := Finset.mem_insert.mp inside
    · exact member
    · exact listed v (List.mem_toFinset.mp peer)
  · unfold RoundConfiguration.hasQuorum at quorum
    rw [fixed] at quorum
    exact of_decide_eq_true quorum

/-- **What is backed is committed by a leader that its term's majority confirms**, once the
leader has committed an entry of its term. -/
theorem Audited.le_commitIndex (audited : Audited C s A) {leader : ν} {nodes : Finset ν}
    (leads : s.role leader = .leader)
    (positive : 0 < s.commitIndex leader)
    (own : (s.logView leader).termAt (s.commitIndex leader) = some (s.currentTerm leader))
    (majority : Majority C nodes)
    (confirm : ∀ v ∈ nodes, s.currentTerm v ≤ s.currentTerm leader) {index : ℕ}
    (backed : Backed C s A index) : index ≤ s.commitIndex leader := by
  obtain rfl | ⟨T, ⟨r, member, rfl, committed⟩, reach, within, chosen⟩ := backed
  · exact Nat.zero_le _
  have sound := audited.archived.logs.sound
  have node := audited.archived.logs.nodes leader
  have term : ∀ v, A.currentTerm v = s.currentTerm v :=
    fun v => (audited.archived.logs.nodes v).term
  obtain ⟨-, last, decided, decides, matched⟩ := id chosen
  obtain later | same | earlier := lt_trichotomy (s.currentTerm leader) r.term
  · -- A node of both majorities would have matched an entry of a term that it has not entered.
    obtain ⟨v, confirms, matches'⟩ := Majority.common majority decides
    have none : A.matched v r.term = 0 := by
      refine sound.unmatched v r.term ?_
      rw [term v]
      exact (confirm v confirms).trans_lt later
    have zero : reach = 0 := Nat.le_zero.mp ((matched v matches').trans none.le)
    omega
  · -- The replicator is one of this leader.
    have elected := audited.archived.votes.recorded _ _ (audited.owned r member)
    have elected' :=
      audited.archived.votes.recorded _ _ (audited.archived.votes.leads leader leads).2
    rw [same, elected] at elected'
    obtain rfl := Option.some.inj elected'
    obtain ⟨-, -, reached⟩ | gone := audited.tracked r member
    · exact committed.trans reached
    · exact (gone.not_leads leads same).elim
  · -- The leader was elected with what was chosen, and its own entry stands behind it.
    obtain ⟨led, log, -⟩ := node.leader leads
    obtain ⟨start, elected⟩ := Option.isSome_iff_exists.mp led
    have kept := (sound.prefix_elected chosen earlier elected).length_le
    obtain ⟨v, voter, -⟩ := Majority.common decides decides
    rw [List.length_take_of_le ((matched v voter).trans (sound.within v r.term))] at kept
    have view : (s.logView leader).Ends (A.log leader) := node.view
    obtain ⟨-, inside, ownTerm⟩ := view.termAt_eq_some.mp own
    have here : (s.persistent leader).currentTerm = s.currentTerm leader := rfl
    rw [here] at log elected
    rw [← log] at inside ownTerm
    by_contra beyond
    have part : (A.leaderLog (s.currentTerm leader)).take (s.commitIndex leader) <+: start := by
      refine List.prefix_of_prefix_length_le (List.take_prefix _ _)
        (sound.prefix_leaderLog_of_elected elected) ?_
      exact (List.length_take_le _ _).trans (by omega)
    obtain ⟨entry, found⟩ :
        ∃ entry, (A.leaderLog (s.currentTerm leader))[s.commitIndex leader - 1]? =
        some entry := ⟨_, List.getElem?_eq_getElem (by omega)⟩
    have member : entry ∈ start := by
      refine part.subset (List.mem_of_getElem? (i := s.commitIndex leader - 1) ?_)
      rw [List.getElem?_take_of_lt (by omega)]
      exact found
    rw [logTerm_take positive found] at ownTerm
    obtain ⟨-, below, -⟩ := sound.leads _ start elected
    exact absurd ownTerm (below entry member).ne

/-- **A leader that confirms its authority** has committed what was backed before, and it is
reached in stages. -/
theorem Audited.confirmAuthority (audited : Audited C s A) (tends : P.tends)
    (fixed : C.kind = .fixed) {attempts : ℕ} {schedules : ν → List (List Delivery)}
    {evidence : ReadBarrierEvidence ν} (probing : Probing r.leader r.term i s)
    (returned : confirmAuthority C i r attempts schedules s = .returns evidence t) :
    Stages C P s t ∧ r.Current s ∧
      ∀ index, Backed C s A index → index ≤ t.commitIndex r.leader := by
  unfold Raft.confirmAuthority at returned
  split at returned
  · cases returned
  obtain ⟨_, u, began, confirms⟩ := Outcome.bind_eq_returns.mp returned
  obtain ⟨_, u', required, loops⟩ := Outcome.bind_eq_returns.mp confirms
  obtain ⟨peers, v, confirmed, ends⟩ := Outcome.bind_eq_returns.mp loops
  obtain ⟨_, w, again, checks⟩ := Outcome.bind_eq_returns.mp ends
  obtain ⟨_, w', same, concludes⟩ := Outcome.bind_eq_returns.mp checks
  obtain ⟨current, _, advanced⟩ := requireReadLeader_returns began
  obtain ⟨current', _, advanced'⟩ := requireReadLeader_returns again
  obtain ⟨rfl, positive, own⟩ := requireCurrentTermCommit_returns required
  obtain rfl := requireReadConfiguration_returns same
  split at concludes
  · cases concludes
  next quorum =>
  cases concludes
  rw [Bool.not_eq_true, Bool.not_eq_false] at quorum
  -- The first check lets the leader commit, and the loop asks its peers.
  have first : Staged C P s (advanceCommitIndex C i s) := staged_advanceCommitIndex tends fixed i
  have last : Staged C P v (advanceCommitIndex C i v) := staged_advanceCommitIndex tends fixed i
  have kept : (advanceCommitIndex C i s).Ensures (Probing r.leader r.term i) _ :=
    probing.advanceCommitIndex fixed i
  have leads := leads_advanceCommitIndex fixed i s
  have leads' := leads_advanceCommitIndex fixed i v
  rw [advanced] at first kept leads
  rw [advanced'] at last leads'
  obtain ⟨A', -, audited', backs⟩ := audited.stages fixed first
  obtain ⟨between, -, answered⟩ :=
    confirmPeers_returns tends fixed audited'.traced kept confirmed
  refine ⟨(Stages.trans first between).trans last, current, fun index backed => ?_⟩
  obtain ⟨role, term, -⟩ := leads r.leader
  have role' := role.trans current.1
  have term' := term.trans current.2
  have member := (audited'.archived.votes.leads r.leader role').1
  have listed : ∀ p ∈ peers, p ∈ C.nodeIds := fun p inside =>
    List.mem_of_mem_filter ((answered p inside).resolve_left List.not_mem_nil).1
  have majority := majority_of_hasQuorum fixed member listed quorum
  have committed := audited'.le_commitIndex role' positive own majority (fun v inside => ?_)
    (backs index backed)
  · -- The leader goes on leading, so its commit index has only grown since.
    obtain ⟨-, -, grown⟩ | gone := leads_or_gone role' term' (between.moves fixed)
    · exact committed.trans (grown.trans (leads' r.leader).2.2)
    · exact (gone.not_leads current'.1 current'.2).elim
  · obtain rfl | peer := Finset.mem_insert.mp inside
    · exact le_rfl
    · rw [term']
      have answers := (answered v (List.mem_toFinset.mp peer)).resolve_left List.not_mem_nil
      exact answers.2.currentTerm_le

/-- A leader that has confirmed its authority applies what was backed before. -/
theorem Audited.applyConfirmed (audited : Audited C s A) (tends : P.tends)
    (fixed : C.kind = .fixed) {attempts : ℕ} {schedules : ν → List (List Delivery)}
    {evidence : ReadBarrierEvidence ν} {u : Cluster ν} {records : List (AppliedEntry ν)}
    (probing : Probing r.leader r.term i s)
    (confirmed : Raft.confirmAuthority C i r attempts schedules s = .returns evidence u)
    (applied : kvApplyCommitted r.leader u = .returns records t) :
    Stages C P s t ∧ r.leader ∈ C.nodeIds ∧
      ∀ index, Backed C s A index → index ≤ t.applier.lastApplied r.leader := by
  obtain ⟨stages, current, committed⟩ := audited.confirmAuthority tends fixed probing confirmed
  have member := (audited.archived.votes.leads r.leader current.1).1
  have apply : Stage C P u (kvApplyCommitted r.leader u).state := .apply r.leader member
  rw [applied] at apply
  refine ⟨stages.trans (.one apply), member, fun index backed => ?_⟩
  exact (committed index backed).trans (commitIndex_le_of_kvApplyCommitted applied)

omit [LinearOrder ν] in
theorem uncaught_returns {β : Type} {op : Op ν β} {b : β}
    (returned : ReadOp.uncaught op = .returns b t) : op = .returns b t := by
  cases op with
  | returns b' t' =>
      cases returned
      rfl
  | raises error t' => cases returned

/-- `get` confirms, applies and reads. -/
theorem linearizableGet_returns {key : String} {attempts : ℕ}
    {schedules : ν → List (List Delivery)} {value : Option String}
    (returned : linearizableGet C i r key attempts schedules s = .returns value t) :
    value = (t.kv r.leader).state.lookup key ∧ ∃ evidence u records,
      confirmAuthority C i r attempts schedules s = .returns evidence u ∧
        kvApplyCommitted r.leader u = .returns records t := by
  unfold linearizableGet at returned
  split at returned
  · cases returned
  obtain ⟨evidence, u, confirmed, applies⟩ := Outcome.bind_eq_returns.mp returned
  obtain ⟨records, v, applied, reads⟩ := Outcome.bind_eq_returns.mp applies
  cases reads
  exact ⟨rfl, evidence, u, records, confirmed, uncaught_returns applied⟩

/-! ## Runs -/

/-- **The states of a run.** What a node has committed or applied in one of them is backed in
the last one. -/
theorem exists_audited (fixed : C.kind = .fixed) {events : List (Event ν)}
    (continues : ∀ event ∈ events, event.Continues)
    (protocol : ∀ event ∈ events, event.Protocol (C := C))
    (served : ∀ event ∈ events, event.Served fun _ => True) :
    ∃ A, Audited C (run C events) A ∧ ∀ first, first <+: events → ∀ n,
      Backed C (run C events) A ((run C first).commitIndex n) ∧
      Backed C (run C events) A ((run C first).applier.lastApplied n) := by
  induction events using List.reverseRecOn with
  | nil =>
      obtain ⟨A, audited⟩ := exists_audited_fresh fixed
      refine ⟨A, audited, fun first part n => ?_⟩
      rw [List.prefix_nil.mp part]
      exact ⟨audited.backed.committed n, audited.backed.applied n⟩
  | append_singleton events event ih =>
      obtain ⟨A, audited, earlier⟩ :=
        ih (fun e member => continues e (List.mem_append_left _ member))
          (fun e member => protocol e (List.mem_append_left _ member))
          fun e member => served e (List.mem_append_left _ member)
      have stages : Stages C ⟨fun _ => True, True⟩ (run C events) (run C (events ++ [event])) :=
        stages_run trivial fixed continues protocol served
      obtain ⟨A', -, audited', backs⟩ := audited.stages fixed stages
      refine ⟨A', audited', fun first part n => ?_⟩
      obtain rfl | part := List.prefix_concat_iff.mp part
      · exact ⟨audited'.backed.committed n, audited'.backed.applied n⟩
      · exact (earlier first part n).imp (backs _) (backs _)

/-- **A linearizable read is fresh.** In every run of a cluster of fixed membership, a read
through a replicator without snapshot transport that returns has applied on the leader all
that any node had committed or applied in any state of the run before it, whatever the
simulator delivers meanwhile. It returns the value after so many entries of the one log that
all nodes commit. -/
theorem linearizable_get_fresh (fixed : C.kind = .fixed) (events : List (Event ν))
    (continues : ∀ event ∈ events, event.Continues)
    (protocol : ∀ event ∈ events, event.Protocol (C := C))
    (served : ∀ event ∈ events, event.Served fun _ => True)
    (found : (run C events).replicators[i]? = some r) (plain : r.snapshotTransport = false)
    {key : String} {attempts : ℕ} {schedules : ν → List (List Delivery)} {value : Option String}
    (returned : linearizableGet C i r key attempts schedules (run C events) = .returns value t) :
    ∃ log, t.applier.lastApplied r.leader ≤ log.length ∧
      value = (imageOf (log.take (t.applier.lastApplied r.leader))).state key ∧
      ∀ first, first <+: events → ∀ n ∈ C.nodeIds, CommitsTo log n (run C first) ∧
        ((run C first).kv n).view = imageOf (log.take ((run C first).applier.lastApplied n)) ∧
        (run C first).commitIndex n ≤ t.applier.lastApplied r.leader ∧
        (run C first).applier.lastApplied n ≤ t.applier.lastApplied r.leader := by
  obtain ⟨B, audited, backed⟩ := exists_audited fixed continues protocol served
  have probing : Probing r.leader r.term i (run C events) := ⟨r, found, rfl, rfl, plain⟩
  obtain ⟨reads, evidence, u, records, confirmed, applied⟩ := linearizableGet_returns returned
  obtain ⟨stages, member, fresh⟩ := audited.applyConfirmed (P := ⟨fun _ => True, True⟩) trivial
    fixed probing confirmed applied
  -- The log is what is decided when the read ends.
  obtain ⟨A, archived, states⟩ :=
    exists_refinement (P := ⟨fun _ => True, True⟩) trivial fixed continues protocol served
  obtain ⟨A', grows, archived', refines⟩ := stages.refines archived fixed
  obtain ⟨log, decides⟩ := archived'.logs.exists_decides
  have earlier := states log (decides.earlier grows archived.logs.sound)
  obtain ⟨issued, effects, refined⟩ := refines log decides (earlier events List.prefix_rfl).2
  have converged := refined.reached.converging.nodes r.leader member
  refine ⟨log, converged.replica.within, ?_, fun first part n inside => ?_⟩
  · rw [reads]
    exact congrFun (congrArg Image.state converged.upToDate) key
  · obtain ⟨commits, issued', effects', refined'⟩ := earlier first part
    exact ⟨commits n, (refined'.reached.converging.nodes n inside).upToDate,
      fresh _ (backed first part n).1, fresh _ (backed first part n).2⟩

/-- The first node of three has committed a request with the second one. -/
def consulted : List (Event ℕ) :=
  [.startElection 0, .deliver ⟨0, 0⟩, .deliver ⟨2, 0⟩, .newReplicator 0 false false,
    .appendCurrentTerm 0 (.clientRequest "client" 1 (.put "key" "new")),
    .replicate 0 1 none [[⟨3, 0⟩, ⟨4, 0⟩]]]

theorem consulted_protocol : ∀ event ∈ consulted,
    event.Continues ∧ event.Protocol (C := threeNodes) ∧ event.Served fun _ => True := by
  intro event member
  simp only [consulted, List.mem_cons, List.not_mem_nil, or_false] at member
  obtain rfl | rfl | rfl | rfl | rfl | rfl := member <;>
    exact ⟨trivial, by first | trivial | exact .inl rfl, trivial⟩

/-- The first node reads what it has committed, once the second one has answered. -/
theorem consulted_reads : ∃ r t, (run threeNodes consulted).replicators[0]? = some r ∧
    linearizableGet threeNodes 0 r "key" 1 (fun _ => [[⟨5, 0⟩, ⟨6, 0⟩]])
      (run threeNodes consulted) =
      .returns (some "new") t ∧
    (run threeNodes consulted).commitIndex 0 = 1 ∧
    (run threeNodes consulted).commitIndex 0 ≤ t.applier.lastApplied 0 := by
  have reads : (run threeNodes consulted).replicators[0]?.bind (fun r =>
      if r.leader = 0 ∧ r.snapshotTransport = false then
        (linearizableGet threeNodes 0 r "key" 1 (fun _ => [[⟨5, 0⟩, ⟨6, 0⟩]])
          (run threeNodes consulted)).value? else none) = some (some "new") := by decide +kernel
  obtain ⟨r, found, value⟩ := Option.bind_eq_some_iff.mp reads
  split at value
  · next plain =>
    have returned := Outcome.eq_returns_of_value? value
    obtain ⟨log, -, -, fresh⟩ := linearizable_get_fresh rfl consulted
      (fun event member => (consulted_protocol event member).1)
      (fun event member => (consulted_protocol event member).2.1)
      (fun event member => (consulted_protocol event member).2.2) found plain.2 returned
    have reached := (fresh consulted List.prefix_rfl 0 (by decide)).2.2.1
    rw [plain.1] at reached
    exact ⟨r, _, found, returned, by decide +kernel, reached⟩
  · cases value

end Distlab.Raft
