import Distlab.Raft.ReplicaCalls

/-!
# Replicas of one committed log converge

A node's image is the image of the committed prefix that it has applied, whether
the node applied the entries, installed a snapshot of them or was reconstructed
from what it had stored. Each step keeps that, so equal prefixes have equal images,
and the requests that took effect on a node are among those that the log executes.
-/

set_option autoImplicit false

namespace Distlab.Raft

open Foundations Deduplication

variable {ν : Type} [LinearOrder ν] {C : Config ν} {log : List (LogEntry (Command ν))}
  {n m : ν} {s t : Cluster ν}

/-! ## What the protocol leaves alone -/

theorem keeps_disableElectionTimeout (m n : ν) : Keeps m s (disableElectionTimeout n s) := by
  unfold disableElectionTimeout
  dsimp only
  split <;> split <;> exact ⟨rfl, rfl, rfl, rfl, rfl, rfl, rfl⟩

theorem keeps_resetElectionTimeout (m n : ν) : Keeps m s (resetElectionTimeout C n s) := by
  unfold resetElectionTimeout
  split
  · exact keeps_disableElectionTimeout m n
  split
  · exact .refl m s
  split
  · exact .refl m s
  · exact ⟨rfl, rfl, rfl, rfl, rfl, rfl, rfl⟩

theorem keeps_startTimers (m : ν) (s : Cluster ν) : Keeps m s (startTimers C s) := by
  unfold startTimers
  generalize C.nodeIds = nodes
  induction nodes generalizing s with
  | nil => exact .refl m s
  | cons n rest ih => exact (keeps_resetElectionTimeout m n).trans (ih _)

theorem keeps_updateTimer (m n : ν) (f : ElectionTimer → ElectionTimer) :
    Keeps m s (s.updateTimer n f) := ⟨rfl, rfl, rfl, rfl, rfl, rfl, rfl⟩

theorem keeps_notifyLeaderRetired (m n : ν) (term : ℕ) :
    Keeps m s (notifyLeaderRetired n term s) := by
  obtain ⟨active, observers, same⟩ := notifyLeaderRetired_eq n term s
  rw [same]
  exact ⟨rfl, rfl, rfl, rfl, rfl, rfl, rfl⟩

theorem keeps_crash (m n : ν) : Keeps m s (crash n s) := by
  unfold crash
  dsimp only
  set halted : Cluster ν := { s with alive := Function.update s.alive n false }
  have stopped : Keeps m s halted := ⟨rfl, rfl, rfl, rfl, rfl, rfl, rfl⟩
  refine Keeps.trans ?_ (keeps_updateVolatile m n _)
  split
  · exact stopped.trans (keeps_notifyLeaderRetired m n _)
  · exact stopped

theorem keeps_restart (m n : ν) : Keeps m s (restart C n s) := by
  unfold restart
  dsimp only
  set revived : Cluster ν := { s with alive := Function.update s.alive n true }
  have cleared : Keeps m s (revived.updateVolatile n fun _ => {}) :=
    ⟨rfl, rfl, rfl, rfl, rfl, rfl, rfl⟩
  refine Keeps.trans ?_ (keeps_resetElectionTimeout m n)
  refine Keeps.trans ?_ (keeps_updateTimer m n _)
  split
  · exact cleared
  · exact cleared.trans (keeps_notifyLeaderRetired m n _)

/-! ## Runs -/

/-- A node in a run: a replica with its image up to date, on which only requests took
effect that the log executes, in the log's order. -/
structure Converged (log : List (LogEntry (Command ν))) (r : Replicas ν) (n : ν) : Prop where
  replica : Replica log n r.cluster
  upToDate : UpToDate log n r.cluster
  effects : (r.effects n).Sublist
    (executedRequests (log.take (r.cluster.applier.lastApplied n)))

omit [LinearOrder ν] in
/-- A longer prefix executes what a shorter one does, and more. -/
theorem executedRequests_sublist {first second : ℕ} (le : first ≤ second) :
    (executedRequests (log.take first)).Sublist (executedRequests (log.take second)) := by
  obtain ⟨rest, extends_⟩ := List.take_prefix_take_left le (l := log)
  rw [← extends_, executedRequests_append]
  exact List.sublist_append_left _ _

omit [LinearOrder ν] in
theorem Converged.keeps {r : Replicas ν} (converged : Converged log r n)
    (keeps : Keeps n r.cluster t) : Converged log { r with cluster := t } n where
  replica := converged.replica.keeps keeps
  upToDate := converged.upToDate.keeps keeps
  effects := by
    rw [keeps.lastApplied]
    exact converged.effects

theorem Converged.maintains {r : Replicas ν} {actor : ν} {issued : List (KVSnapshot ν)}
    (converged : Converged log r n) (maintains : Maintains log actor r.cluster t) :
    Converged log { r with cluster := t, issued := issued } n := by
  by_cases same : n = actor
  · subst same
    exact ⟨maintains.replica, maintains.upToDate,
      converged.effects.trans (executedRequests_sublist maintains.grows)⟩
  · have kept := converged.keeps (maintains.others n same)
    exact ⟨kept.replica, kept.upToDate, kept.effects⟩

omit [LinearOrder ν] in
theorem Converged.restored {r : Replicas ν} (converged : Converged log r n)
    (restored : Restored log n r.cluster t) : Converged log { r with cluster := t } n where
  replica := restored.replica
  upToDate := restored.upToDate
  effects := by
    rw [restored.same]
    exact converged.effects

/-- What holds in a run: every node has converged, and the snapshots are sound. -/
structure Converging (C : Config ν) (log : List (LogEntry (Command ν))) (r : Replicas ν) :
    Prop where
  nodes : ∀ n ∈ C.nodeIds, Converged log r n
  issued : ∀ snapshot ∈ r.issued, snapshot.Sound log

theorem converging_fresh : Converging C log ⟨C.fresh, [], fun _ => []⟩ where
  nodes n _ := by
    have start : Converged log (⟨Config.over (fun _ => {}) C.initialConfiguration {} fun _ => {},
        [], fun _ => []⟩ : Replicas ν) n := by
      refine ⟨⟨Nat.zero_le _, le_rfl, rfl, rfl, rfl, fun _ found => ?_⟩, rfl, List.nil_sublist _⟩
      cases found
    have kept := start.keeps (keeps_startTimers (C := C) n _)
    exact ⟨kept.replica, kept.upToDate, kept.effects⟩
  issued _ member := absurd member List.not_mem_nil

/-- A call that maintains its node, and the snapshots that it issues. -/
theorem Converging.maintains {r : Replicas ν} (converging : Converging C log r)
    (maintains : Maintains log n r.cluster t) {issued : List (KVSnapshot ν)}
    (sound : ∀ snapshot ∈ issued, snapshot.Sound log) :
    Converging C log { r with cluster := t, issued := r.issued ++ issued } where
  nodes m member := (converging.nodes m member).maintains maintains
  issued snapshot member := (List.mem_append.mp member).elim (converging.issued snapshot)
    (sound snapshot)

/-- Entries that a node applies, with their effects. -/
theorem Converging.apply {r : Replicas ν} {records : List (AppliedEntry ν)}
    (converging : Converging C log r) (member : n ∈ C.nodeIds)
    (commits : CommitsTo log n r.cluster)
    (returned : kvApplyCommitted n r.cluster = .returns records t) :
    Converging C log { r with
      cluster := t
      effects := Function.update r.effects n
        (r.effects n ++ takeEffect n (records.map (·.entry)) (r.cluster.kv n)) } := by
  obtain ⟨replica, upToDate, effects⟩ := converging.nodes n member
  obtain ⟨u, image, applies, rfl, view, effects', _⟩ :=
    kvApplyCommitted_applies replica commits returned
  have requests : records.map (·.entry.command.request) =
      (records.map (·.entry)).map (·.command.request) := by
    rw [List.map_map]
    rfl
  refine ⟨fun m listed => ?_, converging.issued⟩
  by_cases same : m = n
  · subst same
    have stored := applies.replica
    refine ⟨⟨stored.within, stored.base, stored.applied, stored.durableApplied,
      stored.durableBase, stored.snapshot⟩, ?_, ?_⟩
    · show (Function.update u.kv m image m).view = _
      rw [Function.update_self, view, upToDate, applies.entries, imageOf_append, requests]
    · show (Function.update r.effects m _ m).Sublist _
      rw [Function.update_self, effects', upToDate, applies.entries, executedRequests_append,
        requests]
      exact effects.append (List.Sublist.refl _)
  · have image_kept : Keeps m u { u with kv := Function.update u.kv n image } :=
      ⟨rfl, rfl, rfl, rfl, rfl, rfl, Function.update_of_ne same _ _⟩
    have kept := (converging.nodes m listed).keeps ((applies.others m same).trans image_kept)
    refine ⟨kept.replica, kept.upToDate, ?_⟩
    show (Function.update r.effects n _ m).Sublist _
    rw [Function.update_of_ne same]
    exact kept.effects

/-- A constructor over the durable state restores every node. -/
theorem Converging.restores {r : Replicas ν} {applier : StateMachineApplier ν}
    {images : ν → KVImage} (converging : Converging C log r)
    (loaded : ∀ n ∈ C.nodeIds, Loaded r.cluster n applier)
    (images_eq : restoreImages C applier r.cluster = .ok images)
    (records : t.applier = applier) (kv : t.kv = images)
    (persistent : t.persistent = r.cluster.persistent) :
    Converging C log { r with cluster := t } where
  nodes n member := by
    have converged := converging.nodes n member
    exact converged.restored
      (restored converged.replica (loaded n member) images_eq member records kv persistent)
  issued := converging.issued

omit [LinearOrder ν] in
/-- A change that leaves the nodes' records alone. -/
theorem Converging.keeps {r : Replicas ν} (converging : Converging C log r)
    (keeps : ∀ n, Keeps n r.cluster t) : Converging C log { r with cluster := t } where
  nodes n member := (converging.nodes n member).keeps (keeps n)
  issued := converging.issued

/-- **One step.** -/
theorem Converging.step {r r' : Replicas ν} (converging : Converging C log r)
    (step : ReplicaStep C log r r') : Converging C log r' := by
  cases step with
  | protocol t keeps => exact converging.keeps keeps
  | crash n => exact converging.keeps fun m => keeps_crash m n
  | restart n => exact converging.keeps fun m => keeps_restart m n
  | apply n records t member commits returned =>
      exact converging.apply member commits returned
  | create n snapshot t member returned =>
      obtain ⟨replica, upToDate, _⟩ := converging.nodes n member
      obtain ⟨maintains, sound, _⟩ := createSnapshot_maintains replica upToDate returned
      exact converging.maintains maintains fun issued listed =>
        List.mem_singleton.mp listed ▸ sound
  | compact n snapshot t member returned =>
      obtain ⟨replica, upToDate, _⟩ := converging.nodes n member
      obtain ⟨maintains, sound⟩ := compactSnapshot_maintains replica upToDate returned
      exact converging.maintains maintains fun issued listed =>
        List.mem_singleton.mp listed ▸ sound
  | install n snapshot preserve t member issued returned =>
      obtain ⟨replica, upToDate, _⟩ := converging.nodes n member
      have maintains := installSnapshot_maintains replica upToDate
        (converging.issued snapshot issued) returned
      exact ⟨fun m listed => (converging.nodes m listed).maintains maintains, converging.issued⟩
  | rebuild images images_eq =>
      exact converging.restores (fun n member => (converging.nodes n member).replica.loaded)
        images_eq rfl rfl rfl
  | reload applier images loads images_eq =>
      exact converging.restores (fun n member => loadApplier_loaded loads member)
        images_eq rfl rfl rfl
  | recreate t returned =>
      unfold Raft.recreate at returned
      split at returned
      · cases returned
      next configuration _ =>
        split at returned
        · cases returned
        next applier loads =>
          split at returned
          · cases returned
          next images images_eq =>
            cases returned
            have built := converging.restores
              (t := Config.over r.cluster.persistent configuration applier images)
              (fun n member => loadApplier_loaded loads member) images_eq rfl rfl rfl
            exact built.keeps fun m => keeps_startTimers m _

theorem Reached.converging {r : Replicas ν} (reached : Reached C log r) : Converging C log r := by
  induction reached with
  | fresh => exact converging_fresh
  | step _ step ih => exact ih.step step

/-- **Replicas of one committed log converge.** In every mix of applications, snapshots,
installations, crashes, restarts and reconstructions: nodes that applied the same
prefix have the same KV map and the same client requests, in one run or in two; a
node's KV map is what the log executes up to there, a client request takes effect at
most once on it, and the ids of a client that take effect there increase; and so do the
ids that the log executes for a client. -/
theorem replicas_converge {r r' : Replicas ν} (reached : Reached C log r)
    (reached' : Reached C log r') :
    (∀ n ∈ C.nodeIds, ∀ m ∈ C.nodeIds,
      r.cluster.applier.lastApplied n = r'.cluster.applier.lastApplied m →
        (∀ key, (r.cluster.kv n).state.lookup key = (r'.cluster.kv m).state.lookup key) ∧
        ∀ identity, (r.cluster.kv n).requests.lookup identity =
          (r'.cluster.kv m).requests.lookup identity) ∧
    (∀ n ∈ C.nodeIds,
      (fun key => (r.cluster.kv n).state.lookup key) =
          (executions KVOperation.execute
            ((log.take (r.cluster.applier.lastApplied n)).map (·.command.request))
            (.initial fun _ => none)).foldl (fun state done => done.2.execute state)
              (fun _ => none) ∧
        (r.effects n).Nodup ∧ Increasing (r.effects n)) ∧
    ∀ length, Increasing (executedRequests (log.take length)) := by
  have increasing : ∀ entries : List (LogEntry (Command ν)),
      Increasing (executedRequests entries) := fun _ => increasing_identities _ _
  refine ⟨fun n member m member' same => ?_, fun n member => ?_, fun _ => increasing _⟩
  · have view : (r.cluster.kv n).view = (r'.cluster.kv m).view := by
      rw [(reached.converging.nodes n member).upToDate, same,
        (reached'.converging.nodes m member').upToDate]
    refine ⟨fun key => congrFun (congrArg Image.state view) key, fun identity => ?_⟩
    exact congrFun (congrFun (congrArg Image.seen view) identity.1) identity.2
  · have ordered : Increasing (r.effects n) :=
      (increasing _).sublist (reached.converging.nodes n member).effects
    refine ⟨?_, ordered.nodup, ordered⟩
    have view := (reached.converging.nodes n member).upToDate
    exact (congrArg Image.state view).trans (state_replay _ _)

/-! ## A mirrored node -/

/-- A node that applies entries, and one that installs its snapshot. -/
def mirror : Config ℕ where
  nodeIds := [6, 7]
  nonempty := by decide
  nodup := by decide

/-- A request, and an older one of the same client. -/
def mirrorLog : List (LogEntry (Command ℕ)) :=
  [⟨1, .clientRequest "client" 1 (.put "key" "new")⟩,
    ⟨1, .clientRequest "client" 0 (.put "key" "old")⟩]

/-- The first node has committed the log. -/
def mirrorCommitted : Cluster ℕ :=
  (mirror.fresh.updatePersistent 6 fun p => { p with log := ⟨0, 0, mirrorLog⟩ }).updateVolatile 6
    fun w => { w with commitIndex := 2 }

def mirrorApplied : Cluster ℕ := (kvApplyCommitted 6 mirrorCommitted).state

/-- The snapshot of the first node: the older request had no effect. -/
def mirrorSnapshot : KVSnapshot ℕ where
  lastIncludedIndex := 2
  lastIncludedTerm := 1
  state := [("key", "new")]
  clientRequests := [⟨"client", 1, .put "key" "new"⟩]
  votingConfiguration := none

def mirrorPersisted : Cluster ℕ := (createSnapshot mirror 6 mirrorApplied).state

def mirrorInstalled : Cluster ℕ :=
  (installSnapshot mirror 7 mirrorSnapshot true mirrorPersisted).state

/-- The first node applies the log. -/
theorem mirror_applies : ∃ effects : ℕ → List (String × ℕ),
    Reached mirror mirrorLog ⟨mirrorApplied, [], effects⟩ := by
  have applied : kvApplyCommitted 6 mirrorCommitted = .returns
      [⟨6, 1, mirrorLog[0]⟩, ⟨6, 2, mirrorLog[1]⟩] mirrorApplied :=
    Outcome.eq_returns_of_value? (by decide +kernel)
  have commits : CommitsTo mirrorLog 6 mirrorCommitted := by
    intro index entry within found
    have here : mirrorCommitted.logView 6 = ⟨0, 0, mirrorLog⟩ := by decide +kernel
    rw [here] at found
    unfold RaftLogView.entryAt at found
    split at found
    · cases found
    · exact found
  have committed : Reached mirror mirrorLog ⟨mirrorCommitted, [], fun _ => []⟩ :=
    .step .fresh (.protocol mirrorCommitted fun n => by
      refine ⟨rfl, rfl, rfl, ?_, ?_, ?_, rfl⟩ <;>
        simp only [mirrorCommitted, Cluster.updatePersistent, Cluster.updateVolatile,
          Function.update_apply] <;> split <;> simp_all)
  exact ⟨_, committed.step (.apply 6 _ _ (by decide) commits applied)⟩

/-- The other node installed the snapshot, and the two have the same KV map. -/
theorem mirror_converges : ∃ r : Replicas ℕ, Reached mirror mirrorLog r ∧
    r.cluster.applier.lastApplied 6 = 2 ∧ r.cluster.applier.lastApplied 7 = 2 ∧
    ∀ key, (r.cluster.kv 6).state.lookup key = (r.cluster.kv 7).state.lookup key := by
  obtain ⟨_, applied⟩ := mirror_applies
  have created : createSnapshot mirror 6 mirrorApplied = .returns mirrorSnapshot mirrorPersisted :=
    Outcome.eq_returns_of_value? (by decide +kernel)
  have installed : installSnapshot mirror 7 mirrorSnapshot true mirrorPersisted =
      .returns () mirrorInstalled := Outcome.eq_returns_of_value? (by decide +kernel)
  have reached := (applied.step (.create 6 _ _ (by decide) created)).step
    (.install 7 mirrorSnapshot true _ (by decide) (by simp) installed)
  have first : mirrorInstalled.applier.lastApplied 6 = 2 := by decide +kernel
  have second : mirrorInstalled.applier.lastApplied 7 = 2 := by decide +kernel
  refine ⟨_, reached, first, second, ?_⟩
  exact fun key => ((replicas_converge reached reached).1 6 (by decide) 7 (by decide)
    (first.trans second.symm)).1 key

end Distlab.Raft
