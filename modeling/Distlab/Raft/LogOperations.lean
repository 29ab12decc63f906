import Distlab.Raft.Operations

/-!
# Log operations are moves

`AppendEntries`, the state machine, snapshots and the delivery of messages.
-/

set_option autoImplicit false

namespace Distlab.Raft

open Foundations

variable {ν : Type} [LinearOrder ν] {C : Config ν} {U : Licence ν}

/-! ## Log replication -/

theorem runs_advanceNodeCommit {n : ν} {index : ℕ} {s : Cluster ν}
    (reason : CommitReason C s n index) : Runs C U s (advanceNodeCommit n index s) := by
  unfold advanceNodeCommit
  split
  · exact .raises (.refl s) trivial
  split
  · exact .returns (.refl s)
  · next within higher =>
    exact .returns (.one (.commit n index (not_le.mp higher) (not_lt.mp within) reason))

/-- The commit index of a node does not reach its log. -/
theorem advanceNodeCommit_returns {n : ν} {index : ℕ} {s s' : Cluster ν}
    (returned : advanceNodeCommit n index s = .returns () s') :
    s' = s ∨ s' = s.updateVolatile n fun w => { w with commitIndex := index } := by
  unfold advanceNodeCommit at returned
  split at returned
  · cases returned
  split at returned
  · cases returned
    exact .inl rfl
  · cases returned
    exact .inr rfl

theorem runs_assertLogMatching (s : Cluster ν) : Runs C U s (assertLogMatching C s) := by
  unfold assertLogMatching
  split
  · exact .returns (.refl s)
  · next violation found =>
    obtain ⟨pair, _, raised⟩ := List.exists_of_findSome?_eq_some found
    obtain ⟨index, _, rfl⟩ := Option.map_eq_some_iff.mp raised
    exact .raises (.refl s) trivial

theorem assertLogMatching_returns {s s' : Cluster ν}
    (returned : assertLogMatching C s = .returns () s') : s' = s := by
  unfold assertLogMatching at returned
  split at returned
  · cases returned
    rfl
  · cases returned

theorem moves_answerAppendEntries {n src : ν} {message : Message ν} {request : AppendEntries ν}
    {success : Bool} {matchIndex : ℕ} {s : Cluster ν} (arrived : Arrived C s message)
    (dst : message.dst = n) (payload : message.payload = .appendEntries request)
    (holds : success = true → HoldsAppend C s n request ∧ request.leaderId = src ∧
      matchIndex = request.reach) :
    Moves C U s (answerAppendEntries n src request success matchIndex s) := by
  unfold answerAppendEntries
  have recorded : Moves C U s (s.record (.appendEntries n request.leaderId request.term
      request.prevLogIndex request.entries.length success matchIndex)) :=
    moves_record ⟨message, request, arrived, dst, payload, rfl, rfl, rfl, rfl⟩
  refine recorded.trans (moves_send fun ordinal => ⟨rfl, rfl, fun succeeded => ?_⟩)
  obtain ⟨holds, leader, reach⟩ := holds succeeded
  exact ⟨request, holds, leader, reach⟩

/-- A follower of the request's term that matches its previous entry. -/
theorem runs_acceptAppend {message : Message ν} {request : AppendEntries ν} {s : Cluster ν}
    (arrived : Arrived C s message) (payload : message.payload = .appendEntries request)
    (src : message.src = request.leaderId) (term : request.term = s.currentTerm message.dst)
    (follows : s.role message.dst = .follower)
    (matched : (s.logView message.dst).prefixMatches request.prevLogIndex request.prevLogTerm =
      true) :
    Runs C U s ((mergeEntries message.dst request.prevLogIndex request.entries s).bind
      fun _ s =>
        (if s.commitIndex message.dst < request.leaderCommit then
            advanceNodeCommit message.dst
              (min request.leaderCommit (request.prevLogIndex + request.entries.length)) s
          else .returns () s).bind fun _ s =>
          (assertLogMatching C s).bind fun _ s =>
            .returns () (answerAppendEntries message.dst message.src request true
              (request.prevLogIndex + request.entries.length) s)) := by
  unfold mergeEntries
  split
  · exact .raises (.refl s) trivial
  next merged merges =>
    rw [Outcome.bind_returns]
    refine Moves.after (.one (.merge message request merged arrived payload term follows matched
      merges)) ?_
    have agrees := RaftLogView.mergeAfter_agrees matched merges
    have log : (s.updatePersistent message.dst fun p =>
        { p with log := { p.log with entries := merged } }).logView message.dst =
        { s.logView message.dst with entries := merged } := by
      simp [Cluster.logView, Cluster.updatePersistent]
    have term' : request.term = (s.updatePersistent message.dst fun p =>
        { p with log := { p.log with entries := merged } }).currentTerm message.dst := by
      rw [term]
      simp [Cluster.currentTerm, Cluster.updatePersistent]
    have holds : HoldsAppend C (s.updatePersistent message.dst fun p =>
        { p with log := { p.log with entries := merged } }) message.dst request :=
      ⟨message, arrived, rfl, payload, term', log ▸ agrees⟩
    have arrived₁ : Arrived C (s.updatePersistent message.dst fun p =>
        { p with log := { p.log with entries := merged } }) message := arrived
    generalize (s.updatePersistent message.dst fun p =>
      { p with log := { p.log with entries := merged } }) = s₁ at *
    have commits : Runs C U s₁ (if s₁.commitIndex message.dst < request.leaderCommit then
        advanceNodeCommit message.dst
          (min request.leaderCommit (request.prevLogIndex + request.entries.length)) s₁
        else .returns () s₁) := by
      split
      · exact runs_advanceNodeCommit
          (.append request holds (Nat.min_le_left _ _) (Nat.min_le_right _ _))
      · exact .returns (.refl s₁)
    refine commits.bind fun _ s₂ committed _ => ?_
    have same : s₂.persistent = s₁.persistent ∧ s₂.network = s₁.network := by
      split at committed
      · obtain rfl | rfl := advanceNodeCommit_returns committed <;> exact ⟨rfl, rfl⟩
      · cases committed
        exact ⟨rfl, rfl⟩
    refine (runs_assertLogMatching s₂).bind fun _ s₃ asserted _ => ?_
    obtain rfl := assertLogMatching_returns asserted
    have arrived' : Arrived C s₃ message := ⟨same.2 ▸ arrived₁.1, arrived₁.2⟩
    refine .returns (moves_answerAppendEntries arrived' rfl payload fun _ => ⟨?_, src.symm, rfl⟩)
    obtain ⟨message', ⟨sent, valid⟩, dst, payload', term'', agrees'⟩ := holds
    refine ⟨message', ⟨same.2 ▸ sent, valid⟩, dst, payload', ?_, ?_⟩
    · rw [Cluster.currentTerm, same.1]
      exact term''
    · rw [Cluster.logView, same.1]
      exact agrees'

theorem runs_handleAppendEntries {message : Message ν} {request : AppendEntries ν} {s : Cluster ν}
    (arrived : Arrived C s message) (payload : message.payload = .appendEntries request)
    (src : message.src = request.leaderId) :
    Runs C U s (handleAppendEntries C message.dst message.src request s) := by
  unfold handleAppendEntries
  split
  · refine .returns (moves_send fun ordinal => ?_)
    exact ⟨rfl, rfl, fun succeeded => absurd succeeded Bool.false_ne_true⟩
  dsimp only
  have advance : Moves C U s (advanceTerm C message.dst request.term false s) :=
    moves_advanceTerm _ _ _ s
  refine advance.after ?_
  have arrived₁ := arrived.after advance
  generalize advanceTerm C message.dst request.term false s = s₁ at *
  split
  · exact .returns (moves_answerAppendEntries arrived₁ rfl payload
      fun succeeded => absurd succeeded Bool.false_ne_true)
  next term =>
    rw [not_not] at term
    have quiet : Moves C U s₁ (clearPreVote message.dst (retire message.dst s₁)) :=
      (moves_retire _ s₁).trans (moves_clearPreVote _ _)
    have notify : Moves C U (clearPreVote message.dst (retire message.dst s₁))
        (if s.role message.dst = .leader ∧ request.term = s.currentTerm message.dst then
          notifyLeaderRetired message.dst (s.currentTerm message.dst)
            (clearPreVote message.dst (retire message.dst s₁))
        else clearPreVote message.dst (retire message.dst s₁)) := by
      split
      · exact moves_notifyLeaderRetired _ _ _
      · exact .refl _
    have volatile : (if s.role message.dst = .leader ∧ request.term = s.currentTerm message.dst then
          notifyLeaderRetired message.dst (s.currentTerm message.dst)
            (clearPreVote message.dst (retire message.dst s₁))
        else clearPreVote message.dst (retire message.dst s₁)).role message.dst = .follower := by
      have retired : (clearPreVote message.dst (retire message.dst s₁)).role message.dst =
          .follower := by
        simp [clearPreVote, retire, Cluster.updateVolatile, Cluster.role]
      split
      · rw [Cluster.role, volatile_notifyLeaderRetired]
        exact retired
      · exact retired
    have persistent : (if s.role message.dst = .leader ∧
          request.term = s.currentTerm message.dst then
          notifyLeaderRetired message.dst (s.currentTerm message.dst)
            (clearPreVote message.dst (retire message.dst s₁))
        else clearPreVote message.dst (retire message.dst s₁)).persistent = s₁.persistent := by
      split
      · rw [persistent_notifyLeaderRetired, persistent_clearPreVote, persistent_retire]
      · rw [persistent_clearPreVote, persistent_retire]
    have moves := quiet.trans (notify.trans (moves_resetElectionTimeout message.dst _))
    refine moves.after ?_
    have arrived₂ := arrived₁.after moves
    have follows := role_resetElectionTimeout_of_follower (C := C) message.dst _ volatile
    have persistent' := (persistent_resetElectionTimeout (C := C) message.dst _).trans persistent
    generalize resetElectionTimeout C message.dst _ = s₂ at *
    split
    · exact .returns
        (moves_answerAppendEntries arrived₂ rfl payload
          fun succeeded => absurd succeeded Bool.false_ne_true)
    · next matched =>
      rw [not_not] at matched
      refine runs_acceptAppend arrived₂ payload src ?_ follows matched
      rw [Cluster.currentTerm, persistent', ← Cluster.currentTerm]
      exact term

theorem moves_handleAppendEntriesResponse {message : Message ν}
    {response : AppendEntriesResponse ν} {s : Cluster ν} (arrived : Arrived C s message)
    (payload : message.payload = .appendEntriesResponse response) :
    Moves C U s (handleAppendEntriesResponse C message.dst response s) := by
  unfold handleAppendEntriesResponse
  split
  · split
    · exact moves_advanceTerm _ _ _ s
    · exact .refl s
  · exact moves_record ⟨message, arrived, rfl, payload⟩

theorem runs_sendAppendEntries {n peer : ν} {prevLogIndex : ℕ}
    {entries : List (LogEntry (Command ν))} {leaderCommit : ℕ} {s : Cluster ν}
    (replicated : ∀ prevLogTerm, (s.logView n).prefixMatches prevLogIndex prevLogTerm = true →
      U.own ∨
        Replicated s n ⟨s.currentTerm n, n, prevLogIndex, prevLogTerm, entries, leaderCommit⟩) :
    Runs C U s (sendAppendEntries C n peer prevLogIndex entries leaderCommit s) := by
  unfold sendAppendEntries
  split
  · exact .raises (.refl s) trivial
  split
  · exact .raises (.refl s) trivial
  next leads =>
  split
  · exact .raises (.refl s) trivial
  split
  · exact .raises (.refl s) trivial
  next retained =>
  split
  · exact .raises (.refl s) trivial
  split
  · exact .raises (.refl s) trivial
  next prevLogTerm term =>
    rw [not_not] at leads
    have matched : (s.logView n).prefixMatches prevLogIndex prevLogTerm = true :=
      RaftLogView.prefixMatches_iff.mpr ⟨by omega, by omega, term⟩
    refine .returns (moves_send fun ordinal => ?_)
    exact ⟨leads, rfl, rfl, replicated prevLogTerm matched⟩

theorem runs_appendCurrentTerm {n : ν} {command : Command ν} {s : Cluster ν}
    (proposal : MayPropose C U s n command) :
    Runs C U s (appendCurrentTerm n command s) := by
  unfold appendCurrentTerm
  split
  · exact .raises (.refl s) trivial
  split
  · exact .raises (.refl s) trivial
  next leads =>
    rw [not_not] at leads
    exact .returns (.one (.append n command leads proposal))

/-! ## The state machine -/

theorem recordCanonical_error {r : AppliedEntry ν} {applier : StateMachineApplier ν}
    {violation : Error ν}
    (conflict : recordCanonical r applier = .error violation) :
    ∃ canonical, applier.canonicalByIndex.lookup r.index = some canonical ∧
      canonical.entry ≠ r.entry ∧
      violation = .canonicalConflict r.index canonical.nodeId r.nodeId := by
  unfold recordCanonical at conflict
  split at conflict
  · next canonical found =>
    split at conflict
    · next other =>
      cases conflict
      exact ⟨canonical, found, other, rfl⟩
    · cases conflict
  · cases conflict

theorem runs_applyEach {n : ν} (member : n ∈ C.nodeIds) (count : ℕ) (s : Cluster ν)
    (committed : s.applier.lastApplied n + count ≤ s.commitIndex n) :
    Runs C U s (applyEach n (List.range' (s.applier.lastApplied n + 1) count) s) := by
  induction count generalizing s with
  | zero => exact .returns (.refl s)
  | succ count ih =>
      rw [List.range'_succ, applyEach]
      split
      · exact .raises (.refl s) trivial
      next entry found =>
      split
      · next violation conflict =>
        obtain ⟨canonical, known, other, rfl⟩ := recordCanonical_error conflict
        have reached : s.applier.lastApplied n + 1 ≤ s.commitIndex n := by omega
        exact .raises (.refl s) ⟨member, rfl, reached, entry, canonical, found, known, other⟩
      · next applier recorded =>
        refine Moves.after (.one (.apply n entry applier member (by omega) found recorded)) ?_
        have applied : (writeApplied n (s.applier.lastApplied n + 1) entry
            { s with applier := applier }).applier.lastApplied n =
            s.applier.lastApplied n + 1 := by
          simp [writeApplied, Cluster.updatePersistent]
        have commit : (writeApplied n (s.applier.lastApplied n + 1) entry
            { s with applier := applier }).commitIndex n = s.commitIndex n := rfl
        generalize writeApplied n (s.applier.lastApplied n + 1) entry
          { s with applier := applier } = s₁ at *
        have rest := ih s₁ (by omega)
        rw [applied] at rest
        exact rest.bind fun records s₂ _ _ => .returns (.refl s₂)

theorem runs_applierApplyCommitted {n : ν} (member : n ∈ C.nodeIds) (s : Cluster ν) :
    Runs C U s (applierApplyCommitted n s) := by
  unfold applierApplyCommitted
  dsimp only
  split
  · exact .returns (.refl s)
  split
  · exact .raises (.refl s) trivial
  split
  · exact .raises (.refl s) trivial
  · exact runs_applyEach member _ s (by omega)

omit [LinearOrder ν] in
theorem applyCommand_error {n : ν} {command : Command ν} {image : KVImage} {violation : Error ν}
    (failed : applyCommand n command image = .error violation) :
    violation = .invalidKVCommand n ∨ violation = .clientRequestConflict n := by
  cases command with
  | clientRequest clientId requestId operation =>
      rw [applyCommand] at failed
      split at failed
      · split at failed
        · cases failed
          exact .inr rfl
        · cases failed
      · split at failed <;> cases failed
  | other payload =>
      cases failed
      exact .inl rfl
  | operation | jointConsensus | stableConsensus | commitRecoveryBarrier => cases failed

theorem runs_applyCommands {n : ν} (entries : List (LogEntry (Command ν))) (s : Cluster ν) :
    Runs C U s (applyCommands n entries s) := by
  induction entries generalizing s with
  | nil => exact .returns (.refl s)
  | cons entry rest ih =>
      rw [applyCommands]
      split
      · next violation failed =>
        obtain rfl | rfl := applyCommand_error failed <;> exact ⟨.refl s, trivial⟩
      · next image _ => exact Moves.after (.one (.image n image)) (ih _)

theorem runs_kvApplyCommitted {n : ν} (member : n ∈ C.nodeIds) (s : Cluster ν) :
    Runs C U s (kvApplyCommitted n s) := by
  unfold kvApplyCommitted
  dsimp only
  split
  · exact .raises (.refl s) trivial
  split
  · exact .raises (.refl s) trivial
  split
  · exact .raises (.refl s) trivial
  · refine (runs_applierApplyCommitted member s).bind fun applied s₁ _ _ => ?_
    exact (runs_applyCommands _ s₁).bind fun _ s₂ _ _ => .returns (.refl s₂)

/-- The checks of one node raise nothing but a violation of state machine safety. -/
def IsSafetyViolation : Error ν → Prop
  | .stateMachineSafety _ => True
  | _ => False

omit [LinearOrder ν] in
theorem checkBoundary_error {n : ν} {baseIndex baseTerm : ℕ} {seen : Seen ν} {violation : Error ν}
    (failed : checkBoundary n baseIndex baseTerm seen = .error violation) :
    IsSafetyViolation violation := by
  unfold checkBoundary at failed
  split at failed
  · cases failed
  split at failed
  · cases failed
    trivial
  split at failed <;> cases failed
  trivial

theorem checkRecords_error {n : ν} {expected : ℕ} {records : List (AppliedEntry ν)}
    {seen : Seen ν} {violation : Error ν}
    (failed : checkRecords n expected records seen = .error violation) :
    IsSafetyViolation violation := by
  induction records generalizing expected seen with
  | nil => cases failed
  | cons r rest ih =>
      rw [checkRecords] at failed
      cases first : checkRecord n seen expected r with
      | ok seen' =>
          rw [first] at failed
          exact ih failed
      | error violation' =>
          rw [first] at failed
          cases failed
          unfold checkRecord at first
          split at first
          · cases first
            trivial
          split at first
          · cases first
            trivial
          split at first <;> cases first
          trivial

theorem checkApplied_error {s : Cluster ν} {seen : Seen ν} {n : ν} {violation : Error ν}
    (failed : checkApplied s seen n = .error violation) : IsSafetyViolation violation := by
  unfold checkApplied at failed
  cases boundary : checkBoundary n (s.applier.baseIndex n) (s.applier.baseTerm n) seen with
  | error violation' =>
      rw [boundary] at failed
      cases failed
      exact checkBoundary_error boundary
  | ok seen₁ =>
      rw [boundary] at failed
      cases records : checkRecords n (s.applier.baseIndex n + 1) (s.applier.applied n) seen₁ with
      | error violation' =>
          simp only [bind, Except.bind, records] at failed
          cases failed
          exact checkRecords_error records
      | ok seen₂ =>
          simp only [bind, Except.bind, records] at failed
          split at failed <;> cases failed
          trivial

theorem runs_assertStateMachineSafety (s : Cluster ν) :
    Runs C U s (assertStateMachineSafety C s) := by
  unfold assertStateMachineSafety
  split
  · exact .returns (.refl s)
  · next violation failed =>
    have safety : IsSafetyViolation violation :=
      foldlM_error (fun seen n _ => checkApplied_error) failed
    refine .raises (.refl s) ?_
    cases violation with
    | stateMachineSafety n => trivial
    | _ => exact safety.elim

theorem assertStateMachineSafety_returns {s s' : Cluster ν}
    (returned : assertStateMachineSafety C s = .returns () s') : s' = s := by
  unfold assertStateMachineSafety at returned
  split at returned
  · cases returned
    rfl
  · cases returned

/-! ## Snapshots -/

/-- What `create` leaves when it returns. -/
theorem createSnapshot_returns {n : ν} {s s' : Cluster ν} {snapshot : KVSnapshot ν}
    (returned : createSnapshot C n s = .returns snapshot s') :
    s' = (s.updatePersistent n fun p => { p with kvSnapshot := some snapshot }) ∧
      snapshot.lastIncludedIndex = s.applier.lastApplied n ∧ 0 < snapshot.lastIncludedIndex ∧
      (s.logView n).termAt snapshot.lastIncludedIndex = some snapshot.lastIncludedTerm ∧
      (∀ latest, (s.persistent n).kvSnapshot = some latest →
        latest.lastIncludedIndex ≤ snapshot.lastIncludedIndex) ∧
      snapshotVotingConfiguration C n snapshot.lastIncludedIndex s =
        .ok snapshot.votingConfiguration := by
  unfold createSnapshot at returned
  dsimp only at returned
  split at returned
  · cases returned
  next applied =>
  split at returned
  · cases returned
  split at returned
  · cases returned
  next term found =>
  split at returned
  · cases returned
  next configuration taken =>
  split at returned
  · cases returned
  next newer =>
    cases returned
    refine ⟨rfl, rfl, Nat.pos_of_ne_zero applied, found, fun latest stored => ?_, taken⟩
    rw [stored] at newer
    simpa using newer

theorem createSnapshot_raises {n : ν} {s s' : Cluster ν} {violation : Error ν}
    (raised : createSnapshot C n s = .raises violation s') : s' = s ∧ Guarded C violation s := by
  unfold createSnapshot at raised
  dsimp only at raised
  split at raised
  · cases raised
    exact ⟨rfl, trivial⟩
  split at raised
  · cases raised
    exact ⟨rfl, trivial⟩
  split at raised
  · cases raised
    exact ⟨rfl, trivial⟩
  split at raised
  · next failed =>
    cases raised
    unfold snapshotVotingConfiguration at failed
    split at failed
    · cases failed
    · dsimp only at failed
      split at failed <;> cases failed
      exact ⟨rfl, trivial⟩
  split at raised
  · cases raised
    exact ⟨rfl, trivial⟩
  · cases raised

theorem runs_createSnapshot {n : ν} (member : n ∈ C.nodeIds) (s : Cluster ν) :
    Runs C U s (createSnapshot C n s) := by
  cases outcome : createSnapshot C n s with
  | returns snapshot s' =>
      obtain ⟨rfl, boundary, positive, term, newer, configuration⟩ :=
        createSnapshot_returns outcome
      exact .returns (.one (.createSnapshot n snapshot member boundary positive term newer
        configuration))
  | raises violation s' =>
      obtain ⟨rfl, guard⟩ := createSnapshot_raises outcome
      exact .raises (.refl _) guard

theorem runs_compactSnapshot {n : ν} (member : n ∈ C.nodeIds) (s : Cluster ν) :
    Runs C U s (compactSnapshot C n s) := by
  unfold compactSnapshot
  refine (runs_createSnapshot member s).bind fun snapshot s₁ created _ => ?_
  obtain ⟨same, boundary, positive, term, -, -⟩ := createSnapshot_returns created
  have latest : (s₁.persistent n).kvSnapshot = some snapshot := by
    simp [same, Cluster.updatePersistent]
  have log : s₁.logView n = s.logView n := by
    simp [same, Cluster.logView, Cluster.updatePersistent]
  have applied : s₁.applier = s.applier := by rw [same]; rfl
  rw [← applied] at boundary
  rw [← log] at term
  dsimp only
  split
  · exact .raises (.refl s₁) trivial
  refine Moves.after (.one (.compactLog n snapshot member latest boundary term)) ?_
  have latest' : ((s₁.updatePersistent n fun p =>
      { p with log := p.log.compactThrough snapshot.lastIncludedIndex }).persistent n).kvSnapshot =
      some snapshot := by
    simp [Cluster.updatePersistent, latest]
  have term' : ((s₁.updatePersistent n fun p =>
      { p with log := p.log.compactThrough snapshot.lastIncludedIndex }).logView n).termAt
      snapshot.lastIncludedIndex = some snapshot.lastIncludedTerm := by
    have compacted := RaftLogView.termAt_compactThrough term
    simpa [Cluster.logView, Cluster.updatePersistent] using compacted
  have compact : Runs C U (s₁.updatePersistent n fun p =>
      { p with log := p.log.compactThrough snapshot.lastIncludedIndex })
      (applierCompactThrough n snapshot.lastIncludedIndex snapshot.lastIncludedTerm
        (s₁.updatePersistent n fun p =>
          { p with log := p.log.compactThrough snapshot.lastIncludedIndex })) := by
    unfold applierCompactThrough
    dsimp only
    split
    · exact .raises (.refl _) trivial
    next inside =>
    split
    · split
      · exact .raises (.refl _) trivial
      · exact .returns (.refl _)
    next moved =>
    split
    · exact .raises (.refl _) trivial
    · refine .returns (.one (.compactApplied n snapshot member latest' boundary term' ?_ ?_))
      · omega
      · simp [Cluster.logView, Cluster.updatePersistent]
  exact compact.bind fun _ s₂ _ _ => .returns (.refl s₂)

/-- The writes of an installation are moves when its checks pass. -/
theorem runs_installSnapshot {n : ν} {snapshot : KVSnapshot ν} {preserve : Bool} {s : Cluster ν}
    (writes : ∀ suffix, (∀ latest, (s.persistent n).kvSnapshot = some latest →
        latest.lastIncludedIndex < snapshot.lastIncludedIndex) →
      (s.logView n).baseIndex ≤ snapshot.lastIncludedIndex →
      retainedSuffix n snapshot preserve s = .ok suffix →
      s.applier.lastApplied n ≤ snapshot.lastIncludedIndex →
      validSnapshotMembership C snapshot = true →
      validInstallMembership n snapshot s = true →
      Moves C U s (writeSnapshot n snapshot suffix s)) :
    Runs C U s (installSnapshot C n snapshot preserve s) := by
  unfold installSnapshot
  dsimp only
  split
  · exact .raises (.refl s) trivial
  next older =>
  split
  · split
    · exact .raises (.refl s) trivial
    · exact .returns (.refl s)
  next other =>
  split
  · exact .raises (.refl s) trivial
  next beyond =>
  split
  · next violation failed =>
    refine .raises (.refl s) ?_
    unfold retainedSuffix at failed
    dsimp only at failed
    split at failed
    · cases failed
    split at failed <;> cases failed
    trivial
  next suffix retained =>
  split
  · exact .raises (.refl s) trivial
  next applied =>
  split
  · exact .raises (.refl s) trivial
  next valid =>
    rw [not_or, not_not, not_not] at valid
    have newer : ∀ latest, (s.persistent n).kvSnapshot = some latest →
        latest.lastIncludedIndex < snapshot.lastIncludedIndex := by
      intro latest stored
      simp only [stored, Option.any_some, decide_eq_true_eq] at older other
      omega
    refine (writes suffix newer (not_lt.mp beyond) retained (not_lt.mp applied) valid.1
      valid.2).after ?_
    have latest : ((writeSnapshot n snapshot suffix s).persistent n).kvSnapshot =
        some snapshot := by
      simp [writeSnapshot, Cluster.updatePersistent]
    generalize writeSnapshot n snapshot suffix s = s₁ at *
    have commits : Runs C U s₁ (if s₁.commitIndex n < snapshot.lastIncludedIndex then
        advanceNodeCommit n snapshot.lastIncludedIndex s₁ else .returns () s₁) := by
      split
      · exact runs_advanceNodeCommit (.snapshot snapshot latest le_rfl)
      · exact .returns (.refl s₁)
    refine commits.bind fun _ s₂ _ _ => ?_
    exact (runs_assertLogMatching s₂).bind fun _ s₃ _ _ => runs_assertStateMachineSafety s₃

/-- What `install` leaves when it returns. -/
theorem installSnapshot_returns {n : ν} {snapshot : KVSnapshot ν} {preserve : Bool}
    {s s' : Cluster ν} (returned : installSnapshot C n snapshot preserve s = .returns () s') :
    (s'.persistent n).kvSnapshot = some snapshot ∧ s'.currentTerm n = s.currentTerm n := by
  unfold installSnapshot at returned
  dsimp only at returned
  split at returned
  · cases returned
  split at returned
  · split at returned
    · cases returned
    · next same =>
      cases returned
      exact ⟨not_not.mp same, rfl⟩
  split at returned
  · cases returned
  split at returned
  · cases returned
  next suffix _ =>
  split at returned
  · cases returned
  split at returned
  · cases returned
  have written : ((writeSnapshot n snapshot suffix s).persistent n).kvSnapshot = some snapshot ∧
      (writeSnapshot n snapshot suffix s).currentTerm n = s.currentTerm n := by
    simp [writeSnapshot, Cluster.updatePersistent, Cluster.currentTerm]
  generalize writeSnapshot n snapshot suffix s = s₁ at *
  obtain ⟨_, s₂, committed, rest⟩ := Outcome.bind_eq_returns.mp returned
  obtain ⟨_, s₃, asserted, safe⟩ := Outcome.bind_eq_returns.mp rest
  obtain rfl := assertStateMachineSafety_returns safe
  obtain rfl := assertLogMatching_returns asserted
  split at committed
  · obtain rfl | rfl := advanceNodeCommit_returns committed <;> exact written
  · cases committed
    exact written

/-! ## The snapshot transport -/

theorem runs_sendInstallSnapshot {leader follower : ν} {term : ℕ} {snapshot : KVSnapshot ν}
    {requestId : ℕ} {s : Cluster ν} :
    Runs C U s (sendInstallSnapshot C leader follower term snapshot requestId s) := by
  unfold sendInstallSnapshot
  split
  · exact .raises (.refl s) trivial
  next member =>
  split
  · exact .raises (.refl s) trivial
  split
  · exact .raises (.refl s) trivial
  split
  · exact .raises (.refl s) trivial
  next authority =>
  split
  · exact .raises (.refl s) trivial
  split
  · exact .raises (.refl s) trivial
  next stored =>
    rw [not_or, not_not, not_not] at authority
    refine .returns (moves_send fun ordinal => ?_)
    exact ⟨not_not.mp member, authority.1, authority.2.symm, rfl, not_not.mp stored⟩

theorem moves_answerInstallSnapshot {request : InstallSnapshotRequest ν} {success : Bool}
    {installedIndex : ℕ} {s : Cluster ν}
    (holds : success = true → HoldsSnapshot C s request.followerId request ∧
      request.snapshot.lastIncludedIndex ≤ installedIndex) :
    Moves C U s (answerInstallSnapshot request success installedIndex s) := by
  refine moves_send fun ordinal => ⟨rfl, rfl, fun succeeded => ?_⟩
  obtain ⟨holds, installed⟩ := holds succeeded
  refine ⟨request, holds, rfl, ?_, rfl⟩
  dsimp only
  split
  · rfl
  · next acknowledged =>
    have reached : ¬ request.snapshot.lastIncludedIndex < installedIndex :=
      fun newer => acknowledged ⟨succeeded, newer⟩
    exact Nat.le_antisymm (not_lt.mp reached) installed

theorem runs_handleInstallSnapshotRequest {message : Message ν}
    {request : InstallSnapshotRequest ν} {s : Cluster ν} (arrived : Arrived C s message)
    (payload : message.payload = .installSnapshotRequest request)
    (dst : message.dst = request.followerId) :
    Runs C U s (handleInstallSnapshotRequest C request s) := by
  unfold handleInstallSnapshotRequest
  dsimp only
  split
  · exact .returns (moves_answerInstallSnapshot fun succeeded =>
      absurd succeeded Bool.false_ne_true)
  next authority =>
    rw [not_or, not_lt] at authority
    have advance : Moves C U s (advanceTerm C request.followerId request.term false s) :=
      moves_advanceTerm _ _ _ s
    have term : (advanceTerm C request.followerId request.term false s).currentTerm
        request.followerId = request.term := by
      unfold advanceTerm
      split
      · next reached => exact Nat.le_antisymm authority.2 reached
      · have adopted : (clearPreVote request.followerId
            (adoptTerm request.followerId request.term s)).currentTerm request.followerId =
            request.term := by
          simp [clearPreVote, adoptTerm, retire, persistTermAndVote, Cluster.currentTerm,
            Cluster.updatePersistent, Cluster.record]
        dsimp only
        rw [if_neg (by simp)]
        split
        · rw [Cluster.currentTerm, persistent_notifyLeaderRetired]
          exact adopted
        · exact adopted
    have moves := advance.trans ((moves_retire request.followerId _).trans
      (moves_resetElectionTimeout request.followerId _))
    refine moves.after ?_
    have arrived' := arrived.after moves
    have follows : (resetElectionTimeout C request.followerId (retire request.followerId
        (advanceTerm C request.followerId request.term false s))).role request.followerId =
        .follower := role_resetElectionTimeout_of_follower _ _ (role_retire _ _)
    have term' : (resetElectionTimeout C request.followerId (retire request.followerId
        (advanceTerm C request.followerId request.term false s))).currentTerm
        request.followerId = request.term := by
      rw [Cluster.currentTerm, persistent_resetElectionTimeout, persistent_retire]
      exact term
    generalize resetElectionTimeout C request.followerId (retire request.followerId
      (advanceTerm C request.followerId request.term false s)) = s₁ at *
    have installs : Runs C U s₁ (handleInstallSnapshotRequest.install C request s₁) := by
      have runs : Runs C U s₁ (installSnapshot C request.followerId request.snapshot true s₁) := by
        refine runs_installSnapshot fun suffix newer beyond retained applied valid compatible => ?_
        rw [← dst] at term' follows newer beyond retained applied compatible ⊢
        exact .one (.install message request suffix arrived' payload term'.symm follows newer
          beyond retained applied valid compatible)
      unfold handleInstallSnapshotRequest.install
      cases outcome : installSnapshot C request.followerId request.snapshot true s₁ with
      | returns _ s₂ =>
          rw [outcome] at runs
          obtain ⟨latest, same⟩ := installSnapshot_returns outcome
          refine .returns (Moves.trans runs (moves_answerInstallSnapshot fun _ => ⟨?_, le_rfl⟩))
          exact ⟨message, arrived'.after runs, dst, payload, by rw [same, term'],
            request.snapshot, latest, le_rfl⟩
      | raises violation s₂ =>
          rw [outcome] at runs
          dsimp only
          split
          · exact .returns (Moves.trans runs.1
              (moves_answerInstallSnapshot fun succeeded => absurd succeeded Bool.false_ne_true))
          · exact .raises runs.1 runs.2
    split
    · next latest stored =>
      split
      · next older =>
        refine .returns (moves_answerInstallSnapshot fun _ => ⟨?_, older.le⟩)
        exact ⟨message, arrived', dst, payload, term'.symm, latest, stored, older.le⟩
      · exact installs
    · exact installs

theorem moves_handleInstallSnapshotResponse {message : Message ν}
    {response : InstallSnapshotResponse ν} {s : Cluster ν} (arrived : Arrived C s message)
    (payload : message.payload = .installSnapshotResponse response) :
    Moves C U s (handleInstallSnapshotResponse C response s) := by
  unfold handleInstallSnapshotResponse
  dsimp only
  split
  · exact .refl s
  · have advance : Moves C U s (advanceTerm C response.leaderId response.term true s) :=
      moves_advanceTerm _ _ _ s
    exact advance.trans (moves_record ⟨message, arrived.after advance, payload⟩)

/-! ## Delivery -/

theorem runs_handleMessage {message : Message ν} {s : Cluster ν} (arrived : Arrived C s message) :
    Runs C U s (handleMessage C message s) := by
  have valid := arrived.2
  unfold validEnvelope at valid
  unfold handleMessage
  cases payload : message.payload with
  | electionTimeout generation deadline =>
      simp only [payload, decide_eq_true_eq] at valid
      exact runs_handleElectionTimeout valid.2.1
  | preVote request => exact .returns (moves_handlePreVote _ _ _ s)
  | preVoteResponse response =>
      simp only [payload, decide_eq_true_eq] at valid
      exact runs_handlePreVoteResponse valid.2.1
  | requestVote request =>
      simp only [payload, decide_eq_true_eq] at valid
      exact .returns (moves_handleRequestVote arrived payload valid.2.2)
  | requestVoteResponse response =>
      simp only [payload, decide_eq_true_eq] at valid
      exact runs_handleRequestVoteResponse arrived payload valid.2.1
  | appendEntries request =>
      simp only [payload, decide_eq_true_eq] at valid
      exact runs_handleAppendEntries arrived payload valid.2.2
  | appendEntriesResponse response =>
      exact .returns (moves_handleAppendEntriesResponse arrived payload)
  | installSnapshotRequest request =>
      simp only [payload, decide_eq_true_eq] at valid
      exact runs_handleInstallSnapshotRequest arrived payload valid.2.2.2
  | installSnapshotResponse response =>
      exact .returns (moves_handleInstallSnapshotResponse arrived payload)

theorem runs_deliver (delivery : Delivery) (s : Cluster ν) : Runs C U s (deliver C delivery s) := by
  unfold deliver
  dsimp only
  have elapse : Moves C U s (s.elapse delivery.elapsed) := .same rfl
  refine elapse.after ?_
  generalize s.elapse delivery.elapsed = s₁
  split
  · exact .returns (.refl s₁)
  next message found =>
  split
  · exact .returns (.refl s₁)
  have sent : message ∈ s₁.network := List.mem_of_getElem? found
  have deliver : Moves C U s₁ (s₁.record (.deliver message)) := moves_record sent
  refine deliver.after ?_
  split
  · next valid => exact runs_handleMessage ⟨sent, valid⟩
  · exact .returns (.refl _)

theorem runs_simulate (deliveries : List Delivery) (s : Cluster ν) :
    Runs C U s (simulate C deliveries s) := by
  unfold simulate
  refine Outcome.ensures_forEach (fun delivery _ s' moves => ?_) s (.refl s)
  exact Moves.after moves (runs_deliver delivery s')

/-! ## Lifecycle -/

theorem moves_crash (n : ν) (s : Cluster ν) : Moves C U s (crash n s) := by
  unfold crash
  dsimp only
  have down : Moves C U s { s with alive := Function.update s.alive n false } := .same rfl
  refine down.trans (Moves.trans ?_ (.one (.reset n)))
  split
  · exact moves_notifyLeaderRetired n _ _
  · exact .refl _

theorem moves_restart (n : ν) (s : Cluster ν) : Moves C U s (restart C n s) := by
  unfold restart
  dsimp only
  have up : Moves C U s { s with alive := Function.update s.alive n true } := .same rfl
  refine up.trans ((Moves.one (.reset n)).trans ?_)
  generalize (Cluster.updateVolatile _ n fun _ => _) = s₁
  split
  · exact (moves_updateTimer n _ s₁).trans (moves_resetElectionTimeout n _)
  · exact (moves_notifyLeaderRetired n _ s₁).trans
      ((moves_updateTimer n _ _).trans (moves_resetElectionTimeout n _))

end Distlab.Raft
