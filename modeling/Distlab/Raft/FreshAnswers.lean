import Distlab.Raft.Stages
import Distlab.Raft.TransferMoves

/-!
# Fresh answers

A replicator without a snapshot transport asks a peer by a probe, and takes a response for
the answer only if its ordinal is above those of all earlier responses. So the peer sent it
meanwhile: when `replicate` returns, the peer has been in the leader's term since it began.
-/

set_option autoImplicit false

namespace Distlab.Raft

open Foundations

variable {ν : Type} [LinearOrder ν] {C : Config ν} {U : Licence ν} {P : Permit ν}
  {s t : Cluster ν} {leader peer : ν} {T i : ℕ}

/-- From the state on the node comes to be in the term. -/
def Answered (C : Config ν) (s : Cluster ν) (peer : ν) (T : ℕ) : Prop :=
  ∃ u, Moves C .protocol s u ∧ u.currentTerm peer = T

theorem Answered.before (answered : Answered C t peer T) (moves : Moves C .protocol s t) :
    Answered C s peer T := by
  obtain ⟨u, later, term⟩ := answered
  exact ⟨u, moves.trans later, term⟩

/-- A node that answers was in no later term before. -/
theorem Answered.currentTerm_le (answered : Answered C s peer T) : s.currentTerm peer ≤ T := by
  obtain ⟨u, later, term⟩ := answered
  exact (later.termsGrow peer).trans_eq term

/-! ## Probes -/

/-- A record that answers a probe stands after the delivery of the response. -/
theorem exists_delivered_of_matching {r : LeaderReplicator ν} {probe : AppendProbe ν}
    {records : List (TraceRecord ν)} {success : Bool} {matchIndex : ℕ}
    (matching : matchingAppendResponse r probe records = some (success, matchIndex)) :
    ∃ message, .deliver message ∈ records ∧ message.src = probe.peer ∧ message.dst = r.leader ∧
      probe.responseOrdinalFloor < message.ordinal ∧
      message.payload = .appendEntriesResponse ⟨r.term, probe.peer, success, matchIndex⟩ := by
  obtain ⟨index, -, answers⟩ := List.exists_of_findSome?_eq_some matching
  unfold appendResponseAt at answers
  split at answers
  · split at answers
    · next fits =>
      cases answers
      obtain ⟨-, -, -, delivered, -⟩ := fits
      unfold appendResponseDeliveredAfter at delivered
      rw [Bool.and_eq_true] at delivered
      obtain ⟨-, before⟩ := delivered
      split at before
      · next message found =>
        exact ⟨message, List.mem_of_getElem? found, of_decide_eq_true before⟩
      · cases before
    · cases answers
  · cases answers

/-- **The answer to a probe is fresh.** -/
theorem answered_of_matching (traced : Traced s) (moves : Moves C .protocol s t)
    {r : LeaderReplicator ν} {probe : AppendProbe ν} {success : Bool} {matchIndex : ℕ}
    (floor : probe.responseOrdinalFloor = appendResponseOrdinalFloor r probe.peer s.trace)
    (matching : matchingAppendResponse r probe t.trace = some (success, matchIndex)) :
    Answered C s probe.peer r.term := by
  obtain ⟨message, delivered, src, dst, above, payload⟩ := exists_delivered_of_matching matching
  have response : isAppendEntriesResponse message = true := by
    unfold isAppendEntriesResponse
    rw [payload]
  have arrived := (traced.moves moves).delivered message delivered
  obtain old | ⟨u, first, -, sendable⟩ := moves.sent arrived fun generation deadline => by
    rw [payload]
    exact nofun
  · -- A response from before the probe is not above the floor.
    have below := ordinal_le_floor (traced.sent message old response) src dst response
    rw [floor] at above
    exact absurd above (not_lt.mpr below)
  · unfold Sendable at sendable
    rw [payload, src] at sendable
    exact ⟨u, first, sendable.1.symm⟩

/-! ## Replicators without a snapshot transport -/

omit [LinearOrder ν] in
/-- The replicator of a leader's term that sends no snapshots. -/
def Probing (leader : ν) (T i : ℕ) (s : Cluster ν) : Prop :=
  ∃ r, s.replicators[i]? = some r ∧ r.leader = leader ∧ r.term = T ∧ r.snapshotTransport = false

namespace Probing

omit [LinearOrder ν] in
theorem of_same (probing : Probing leader T i s) (same : t.replicators = s.replicators) :
    Probing leader T i t := by
  obtain ⟨r, found, rest⟩ := probing
  exact ⟨r, by rw [same]; exact found, rest⟩

omit [LinearOrder ν] in
theorem updateReplicator (probing : Probing leader T i s) (j : ℕ)
    {f : LeaderReplicator ν → LeaderReplicator ν}
    (keeps : ∀ r, (f r).leader = r.leader ∧ (f r).term = r.term ∧
      (f r).snapshotTransport = r.snapshotTransport) :
    Probing leader T i (s.updateReplicator j f) := by
  obtain ⟨r, found, lead, term, plain⟩ := probing
  by_cases same : j = i
  · refine ⟨f r, ?_, (keeps r).1.trans lead, (keeps r).2.1.trans term, (keeps r).2.2.trans plain⟩
    simp [Cluster.updateReplicator, found, same]
  · exact ⟨r, by simp [Cluster.updateReplicator, same, found], lead, term, plain⟩

/-- What is reached without writing the replicators. -/
theorem staged {β : Type} {Q : Command ν → Prop} {op : Op ν β} (probing : Probing leader T i s)
    (staged : Staged C ⟨Q, False⟩ s op) :
    op.Ensures (Probing leader T i) fun _ _ => True :=
  staged.mono (fun _ stages => probing.of_same (stages.replicators id)) fun _ _ => id

omit [LinearOrder ν] in
/-- A step that leaves the replicators alone. -/
theorem spared {β : Type} {op : Op ν β} (probing : Probing leader T i s)
    (sparing : Sparing False s op) : op.Ensures (Probing leader T i) fun _ _ => True :=
  sparing.mono (fun _ spares => probing.of_same (spares.replicators.resolve_left id)) fun _ _ => id

theorem advanceCommitIndex (probing : Probing leader T i s) (fixed : C.kind = .fixed) (j : ℕ) :
    (advanceCommitIndex C j s).Ensures (Probing leader T i) fun _ _ => True := by
  unfold Raft.advanceCommitIndex
  split
  · exact probing
  next r _ =>
  refine (ensures_requireCurrentLeader probing r).bind (fun _ t _ probing => ?_) fun _ => id
  split
  · exact ⟨probing, trivial⟩
  · exact probing
  next index _ =>
    have aware : usesConfiguration C r = false := by
      unfold usesConfiguration
      rw [fixed]
    dsimp only
    rw [aware]
    have written : Probing leader T i
        (t.updateReplicator j fun r => { r with commitIndex := index }) :=
      probing.updateReplicator j fun _ => ⟨rfl, rfl, rfl⟩
    have commits : (advanceNodeCommit r.leader index
        (t.updateReplicator j fun r => { r with commitIndex := index })).Ensures
          (Probing leader T i) fun _ _ => True := by
      unfold advanceNodeCommit
      split
      · exact ⟨written, trivial⟩
      split
      · exact written
      · exact written.of_same rfl
    exact commits.bind (fun _ _ _ kept => kept.of_same rfl) fun _ => id

theorem acknowledgePeer (probing : Probing leader T i s) (fixed : C.kind = .fixed) (j : ℕ)
    (matchIndex : ℕ) :
    (acknowledgePeer C j peer matchIndex s).Ensures (Probing leader T i) fun _ _ => True := by
  have matched : Probing leader T i (advancePeer j peer matchIndex s) :=
    probing.updateReplicator j fun _ => ⟨rfl, rfl, rfl⟩
  exact (matched.advanceCommitIndex fixed j).bind (fun _ _ _ => id) fun _ => id

end Probing

/-! ## Replication -/

section Replication

variable (fixed : C.kind = .fixed)
include fixed

theorem probing_replicateAppend {r : LeaderReplicator ν} {deliveries : List Delivery}
    (probing : Probing leader T i s) :
    (replicateAppend C i r peer deliveries s).Ensures (Probing leader T i) fun _ _ => True := by
  unfold replicateAppend
  dsimp only
  split
  · exact ⟨probing, trivial⟩
  refine (probing.spared (sparing_sendAppendEntries (List.drop_subset _ _))).bind
    (fun _ t _ probing => ?_) fun _ => id
  refine (probing.staged (Q := fun _ => True) (staged_simulate deliveries)).bind
    (fun _ u _ probing => ?_) fun _ => id
  split
  · exact ⟨probing, trivial⟩
  · exact (probing.acknowledgePeer fixed i _).bind (fun _ _ _ => id) fun _ => id
  · exact probing.updateReplicator i fun _ => ⟨rfl, rfl, rfl⟩

omit fixed in
/-- Without a transport no snapshot is sent. -/
theorem replicateSnapshot_raises {r : LeaderReplicator ν} {deliveries : List Delivery}
    (plain : r.snapshotTransport = false) (s : Cluster ν) :
    replicateSnapshot C i r peer deliveries s = .raises (.snapshotUnavailable r.leader) s := by
  unfold replicateSnapshot
  dsimp only
  split
  · rfl
  · simp [plain]

theorem probing_replicateAttempt {r : LeaderReplicator ν} {deliveries : List Delivery}
    (probing : Probing leader T i s) (found : s.replicators[i]? = some r) :
    (replicateAttempt C i r peer deliveries s).Ensures (Probing leader T i) fun _ _ => True := by
  obtain ⟨r', found', -, -, plain⟩ := id probing
  rw [found] at found'
  cases found'
  unfold replicateAttempt
  refine (ensures_requireCurrentLeader probing r).bind (fun _ t _ probing => ?_) fun _ => id
  split
  · rw [replicateSnapshot_raises plain]
    exact ⟨probing, trivial⟩
  · exact probing_replicateAppend fixed probing

theorem probing_replicateLoop (schedules : List (List Delivery)) (maxAttempts : Option ℕ)
    (probing : Probing leader T i s) :
    (replicateLoop C i peer schedules maxAttempts s).Ensures (Probing leader T i)
      fun _ _ => True := by
  induction schedules generalizing maxAttempts s with
  | nil => exact probing
  | cons deliveries rest ih =>
      rw [replicateLoop]
      split
      · exact probing
      split
      · exact probing
      next r found =>
      refine (probing_replicateAttempt fixed probing found).bind (fun done t _ probing => ?_)
        fun _ => id
      split
      · exact probing
      · exact ih _ probing

theorem probing_replicate {maxAttempts : Option ℕ} {schedules : List (List Delivery)}
    (probing : Probing leader T i s) :
    (replicate C i peer maxAttempts schedules s).Ensures (Probing leader T i) fun _ _ => True := by
  unfold replicate
  split
  · exact ⟨probing, trivial⟩
  split
  · exact ⟨probing, trivial⟩
  · exact probing_replicateLoop fixed schedules maxAttempts probing

/-- **One attempt.** A peer that acknowledges it has answered meanwhile. -/
theorem answered_of_replicateAttempt {r : LeaderReplicator ν} {deliveries : List Delivery}
    {done : Bool} (traced : Traced s) (probing : Probing leader T i s)
    (found : s.replicators[i]? = some r)
    (returned : replicateAttempt C i r peer deliveries s = .returns (some done) t) :
    Answered C s peer T := by
  obtain ⟨r', found', -, rfl, plain⟩ := probing
  rw [found] at found'
  cases found'
  unfold replicateAttempt at returned
  obtain ⟨_, u, required, attempted⟩ := Outcome.bind_eq_returns.mp returned
  obtain ⟨rfl, current⟩ := requireCurrentLeader_returns required
  split at attempted
  · rw [replicateSnapshot_raises plain] at attempted
    cases attempted
  next retained =>
  unfold replicateAppend at attempted
  dsimp only at attempted
  split at attempted
  · cases attempted
  obtain ⟨_, v, sent, delivers⟩ := Outcome.bind_eq_returns.mp attempted
  obtain ⟨_, w, simulated, answers⟩ := Outcome.bind_eq_returns.mp delivers
  have sends : Staged C ⟨fun _ => True, True⟩ u (sendAppendEntries C r.leader peer
      ((r.progress peer).nextIndex - 1)
      ((u.logView r.leader).suffixFrom (r.progress peer).nextIndex)
      r.commitIndex u) := staged_sendSuffix found current (not_le.mp retained)
  have runs : Staged C ⟨fun _ => True, True⟩ v (simulate C deliveries v) :=
    staged_simulate deliveries
  rw [sent] at sends
  rw [simulated] at runs
  have moves := (Stages.moves fixed sends).trans (Stages.moves fixed runs)
  split at answers
  · cases answers
  · next matchIndex matching => exact answered_of_matching traced moves rfl matching
  · cases answers

theorem answered_of_replicateLoop {schedules : List (List Delivery)} {maxAttempts : Option ℕ}
    (traced : Traced s) (probing : Probing leader T i s)
    (returned : replicateLoop C i peer schedules maxAttempts s = .returns true t) :
    Answered C s peer T := by
  induction schedules generalizing maxAttempts s with
  | nil => cases returned
  | cons deliveries rest ih =>
      rw [replicateLoop] at returned
      split at returned
      · cases returned
      split at returned
      · cases returned
      next r found =>
      obtain ⟨done, u, attempted, later⟩ := Outcome.bind_eq_returns.mp returned
      cases done with
      | some result => exact answered_of_replicateAttempt fixed traced probing found attempted
      | none =>
          have stages : Staged C ⟨fun _ => True, True⟩ s
              (replicateAttempt C i r peer deliveries s) :=
            staged_replicateAttempt trivial fixed found
          have kept : (replicateAttempt C i r peer deliveries s).Ensures (Probing leader T i) _ :=
            probing_replicateAttempt fixed probing found
          rw [attempted] at stages kept
          have moves := Stages.moves fixed stages
          exact (ih (traced.moves moves) kept later).before moves

/-- **A peer that `replicate` returns for has answered meanwhile.** -/
theorem answered_of_replicate {maxAttempts : Option ℕ} {schedules : List (List Delivery)}
    (traced : Traced s) (probing : Probing leader T i s)
    (returned : replicate C i peer maxAttempts schedules s = .returns true t) :
    Answered C s peer T := by
  unfold replicate at returned
  split at returned
  · cases returned
  split at returned
  · cases returned
  · exact answered_of_replicateLoop fixed traced probing returned

end Replication

end Distlab.Raft
