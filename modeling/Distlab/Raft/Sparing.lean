import Distlab.Raft.Convergence
import Distlab.Raft.FullLogs
import Distlab.Raft.Runs

/-!
# What the protocol leaves to the state machine

Elections, replication and the messages of both leave the applied entries, the images and
the snapshots of the nodes alone. They carry entries that a log or a message already has,
and a leader sends the snapshot that it stores.
-/

set_option autoImplicit false

namespace Distlab.Raft

open Foundations

variable {ν : Type} {R : Prop} {s t u : Cluster ν}

/-! ## Steps -/

/-- A log or an `AppendEntries` has the entry. -/
def HasEntry (s : Cluster ν) (entry : LogEntry (Command ν)) : Prop :=
  (∃ n, entry ∈ (s.logView n).entries) ∨
    ∃ message ∈ s.network, ∃ a, message.payload = .appendEntries a ∧ entry ∈ a.entries

/-- The message carries what its sender has. -/
def Honest (s : Cluster ν) (message : Message ν) : Prop :=
  match message.payload with
  | .appendEntries a => ∀ entry ∈ a.entries, HasEntry s entry
  | .installSnapshotRequest request =>
      (s.persistent message.src).kvSnapshot = some request.snapshot
  | _ => True

/-- The step leaves the state machine to its own calls, and the replicators to those steps
that may tend them. -/
structure Spares (R : Prop) (s t : Cluster ν) : Prop where
  keeps : ∀ n, Keeps n s t
  transitions : t.transitions = s.transitions
  entries : ∀ n, ∀ entry ∈ (t.logView n).entries, HasEntry s entry
  sent : ∃ sent, t.network = s.network ++ sent ∧ ∀ message ∈ sent, Honest s message
  replicators : R ∨ t.replicators = s.replicators

/-- The durable state that the state machine and the logs are read from. -/
structure SameRecords (p q : Persistent ν) : Prop where
  applied : q.stateMachineApplied = p.stateMachineApplied
  base : q.stateMachineBaseIndex = p.stateMachineBaseIndex
  snapshot : q.kvSnapshot = p.kvSnapshot
  entries : q.log.entries = p.log.entries

namespace Spares

theorem mono {R' : Prop} (spares : Spares R s t) (weaker : R → R') : Spares R' s t :=
  ⟨spares.keeps, spares.transitions, spares.entries, spares.sent,
    spares.replicators.imp_left weaker⟩

/-- A step that sends nothing. -/
theorem of_records (records : ∀ n, SameRecords (s.persistent n) (t.persistent n))
    (applier : t.applier = s.applier) (kv : t.kv = s.kv)
    (transitions : t.transitions = s.transitions) (network : t.network = s.network)
    (replicators : t.replicators = s.replicators) : Spares R s t where
  keeps n := ⟨by rw [applier], by rw [applier], by rw [applier], (records n).applied,
    (records n).base, (records n).snapshot, by rw [kv]⟩
  transitions := transitions
  entries n entry member := .inl ⟨n, (records n).entries ▸ member⟩
  sent := ⟨[], by rw [network, List.append_nil], fun _ member => absurd member List.not_mem_nil⟩
  replicators := .inr replicators

theorem of_same (persistent : t.persistent = s.persistent) (applier : t.applier = s.applier)
    (kv : t.kv = s.kv) (transitions : t.transitions = s.transitions)
    (network : t.network = s.network) (replicators : t.replicators = s.replicators) :
    Spares R s t :=
  of_records (fun n => by rw [persistent]; exact ⟨rfl, rfl, rfl, rfl⟩) applier kv transitions
    network replicators

theorem refl (s : Cluster ν) : Spares R s s := of_same rfl rfl rfl rfl rfl rfl

theorem carries (spares : Spares R s t) {entry : LogEntry (Command ν)}
    (carries : HasEntry t entry) :
    HasEntry s entry := by
  obtain ⟨n, member⟩ | ⟨message, member, a, payload, listed⟩ := carries
  · exact spares.entries n entry member
  · obtain ⟨sent, network, honest⟩ := spares.sent
    rw [network] at member
    obtain old | new := List.mem_append.mp member
    · exact .inr ⟨message, old, a, payload, listed⟩
    · have carried := honest message new
      unfold Honest at carried
      rw [payload] at carried
      exact carried entry listed

theorem honest (spares : Spares R s t) {message : Message ν} (honest : Honest t message) :
    Honest s message := by
  unfold Honest at honest ⊢
  split
  next a payload =>
    rw [payload] at honest
    exact fun entry member => spares.carries (honest entry member)
  next request payload =>
    rw [payload] at honest
    exact (spares.keeps message.src).kvSnapshot.symm.trans honest
  next => trivial

theorem trans (first : Spares R s t) (second : Spares R t u) : Spares R s u where
  keeps n := (first.keeps n).trans (second.keeps n)
  transitions := second.transitions.trans first.transitions
  entries n entry member := first.carries (second.entries n entry member)
  sent := by
    obtain ⟨sent, network, honest⟩ := first.sent
    obtain ⟨sent', network', honest'⟩ := second.sent
    refine ⟨sent ++ sent', by rw [network', network, List.append_assoc], ?_⟩
    intro message member
    exact (List.mem_append.mp member).elim (honest message) fun new =>
      first.honest (honest' message new)
  replicators := by
    obtain tends | same := first.replicators
    · exact .inl tends
    · exact second.replicators.imp_right fun same' => same'.trans same

end Spares

/-! ## Writes -/

theorem spares_record (entry : TraceRecord ν) : Spares R s (s.record entry) :=
  .of_same rfl rfl rfl rfl rfl rfl

variable [LinearOrder ν] {C : Config ν} {n : ν}

theorem spares_updateVolatile (f : Volatile ν → Volatile ν) : Spares R s (s.updateVolatile n f) :=
  .of_same rfl rfl rfl rfl rfl rfl

theorem spares_updateTimer (f : ElectionTimer → ElectionTimer) : Spares R s (s.updateTimer n f) :=
  .of_same rfl rfl rfl rfl rfl rfl

/-- A durable write that the state machine and the log do not see. -/
theorem spares_updatePersistent {f : Persistent ν → Persistent ν}
    (records : SameRecords (s.persistent n) (f (s.persistent n))) :
    Spares R s (s.updatePersistent n f) := by
  refine .of_records (fun m => ?_) rfl rfl rfl rfl rfl
  by_cases same : m = n
  · subst same
    simpa [Cluster.updatePersistent] using records
  · simpa [Cluster.updatePersistent, same] using ⟨rfl, rfl, rfl, rfl⟩

theorem spares_persistTermAndVote (term : ℕ) (votedFor : Option ν) :
    Spares R s (persistTermAndVote n term votedFor s) :=
  (spares_updatePersistent ⟨rfl, rfl, rfl, rfl⟩).trans (spares_record _)

theorem spares_clearPreVote : Spares R s (clearPreVote n s) := spares_updateVolatile _

theorem spares_retire : Spares R s (retire n s) := spares_updateVolatile _

theorem spares_send {src dst : ν} {payload : Payload ν}
    (honest : ∀ ordinal, Honest s ⟨src, dst, payload, ordinal⟩) :
    Spares R s (s.send src dst payload) where
  keeps _ := ⟨rfl, rfl, rfl, rfl, rfl, rfl, rfl⟩
  transitions := rfl
  entries m _ member := .inl ⟨m, member⟩
  sent := ⟨[_], rfl, fun _ member => List.mem_singleton.mp member ▸ honest _⟩
  replicators := .inr rfl

theorem spares_sendAll {src : ν} {payload : Payload ν}
    (honest : ∀ s dst ordinal, Honest s ⟨src, dst, payload, ordinal⟩)
    (dsts : List ν) (s : Cluster ν) : Spares R s (s.sendAll src dsts payload) := by
  induction dsts generalizing s with
  | nil => exact .refl s
  | cons dst rest ih => exact (spares_send (honest s dst)).trans (ih (s.send src dst payload))

theorem spares_notifyLeaderRetired (term : ℕ) : Spares R s (notifyLeaderRetired n term s) := by
  obtain ⟨active, observers, same⟩ := notifyLeaderRetired_eq n term s
  rw [same]
  exact .of_same rfl rfl rfl rfl rfl rfl

theorem spares_notifyLeaderAcquired (term : ℕ) : Spares R s (notifyLeaderAcquired n term s) := by
  obtain ⟨generation, active, observers, same⟩ := notifyLeaderAcquired_eq n term s
  rw [same]
  exact .of_same rfl rfl rfl rfl rfl rfl

theorem spares_disableElectionTimeout : Spares R s (disableElectionTimeout n s) := by
  have retires : ∀ u : Cluster ν, Spares R s u →
      Spares R s (if u.role n = .candidate then retire n u else u) := by
    intro u spares
    split
    · exact spares.trans spares_retire
    · exact spares
  have timer : Spares R s (s.updateTimer n fun t => { t with generation := t.generation + 1 }) :=
    spares_updateTimer _
  unfold disableElectionTimeout
  refine retires _ ?_
  split
  · exact timer.trans spares_clearPreVote
  · exact timer

theorem spares_resetElectionTimeout : Spares R s (resetElectionTimeout C n s) := by
  unfold resetElectionTimeout
  split
  · exact spares_disableElectionTimeout
  split
  · exact .refl s
  split
  · exact .refl s
  · refine ⟨fun _ => ⟨rfl, rfl, rfl, rfl, rfl, rfl, rfl⟩, rfl, fun m _ member => .inl ⟨m, member⟩,
      ⟨[_], rfl, fun message member => ?_⟩, .inr rfl⟩
    rw [List.mem_singleton.mp member]
    trivial

theorem spares_advanceTerm (term : ℕ) (rearm : Bool) :
    Spares R s (advanceTerm C n term rearm s) := by
  unfold advanceTerm
  split
  · exact .refl s
  dsimp only
  have adopted : Spares R s (clearPreVote n (adoptTerm n term s)) :=
    ((spares_persistTermAndVote term none).trans spares_retire).trans spares_clearPreVote
  by_cases led : s.role n = .leader
  · simp only [led, if_true, and_true]
    have retired := adopted.trans (spares_notifyLeaderRetired (n := n) (s.currentTerm n))
    split
    · exact retired.trans spares_resetElectionTimeout
    · exact retired
  · simpa [led] using adopted

/-! ## Operations -/

/-- Every outcome of the operation leaves the state machine to its own calls. -/
abbrev Sparing (R : Prop) {β : Type} (s : Cluster ν) (op : Op ν β) : Prop :=
  op.Ensures (Spares R s) fun _ _ => True

omit [LinearOrder ν] in
theorem Sparing.bind {β γ : Type} {op : Op ν β} {next : β → Cluster ν → Op ν γ}
    (first : Sparing R s op) (rest : ∀ b t, op = .returns b t → Sparing R t (next b t)) :
    Sparing R s (op.bind next) :=
  Outcome.Ensures.bind first
    (fun b t returned spares =>
      (rest b t returned).mono (fun _ after => spares.trans after) fun _ _ => id)
    fun _ => id

omit [LinearOrder ν] in
theorem Sparing.after {β : Type} {op : Op ν β} (first : Spares R s t) (rest : Sparing R t op) :
    Sparing R s op := rest.mono (fun _ after => first.trans after) fun _ _ => id

omit [LinearOrder ν] in
theorem Sparing.raised {β : Type} (violation : Error ν) (s : Cluster ν) :
    Sparing R s (.raises violation s : Op ν β) := ⟨.refl s, trivial⟩

theorem sparing_becomeLeader (term : ℕ) : Sparing R s (becomeLeader n term s) := by
  unfold becomeLeader
  split
  · exact Spares.refl s
  have recorded : Sparing R s (recordLeader term n s) := by
    unfold recordLeader
    split
    · exact Spares.of_same rfl rfl rfl rfl rfl rfl
    split
    · exact .raised _ s
    · exact Spares.refl s
  refine recorded.bind fun _ t _ => ?_
  have led : Spares R t (clearPreVote n (t.updateVolatile n fun w => { w with role := .leader })) :=
    (spares_updateVolatile _).trans spares_clearPreVote
  exact ((led.trans (spares_updateTimer _)).trans (spares_record _)).trans
    (spares_notifyLeaderAcquired term)

theorem sparing_startElection : Sparing R s (startElection C n s) := by
  unfold startElection
  split
  · exact .raised _ s
  split
  · exact .raised _ s
  dsimp only
  have stands : Spares R s (resetElectionTimeout C n (becomeCandidate n (clearPreVote n s))) :=
    (spares_clearPreVote.trans ((spares_persistTermAndVote _ _).trans
      (spares_updateVolatile _))).trans spares_resetElectionTimeout
  split
  · exact .after stands (sparing_becomeLeader _)
  · exact stands.trans (spares_sendAll (by intros; trivial) _ _)

theorem sparing_startPreVote : Sparing R s (startPreVote C n s) := by
  unfold startPreVote
  split
  · exact .raised _ s
  split
  · exact .raised _ s
  split
  · exact Spares.refl s
  dsimp only
  have opened : Spares R s (s.updateVolatile n fun w =>
      { w with preVoteTerm := some (s.currentTerm n + 1), preVotesReceived := {n} }) :=
    spares_updateVolatile _
  split
  · exact .after (opened.trans spares_clearPreVote) sparing_startElection
  · exact (opened.trans spares_resetElectionTimeout).trans
      (spares_sendAll (by intros; trivial) _ _)

theorem sparing_stepDown : Sparing R s (stepDown C n s) := by
  unfold stepDown
  split
  · exact .raised _ s
  split
  · exact Spares.refl s
  · exact ((spares_retire.trans spares_clearPreVote).trans (spares_notifyLeaderRetired _)).trans
      spares_resetElectionTimeout

theorem spares_crash (n : ν) : Spares R s (crash n s) := by
  unfold crash
  dsimp only
  have stopped : Spares R s { s with alive := Function.update s.alive n false } :=
    .of_same rfl rfl rfl rfl rfl rfl
  refine Spares.trans ?_ (spares_updateVolatile _)
  split
  · exact stopped.trans (spares_notifyLeaderRetired _)
  · exact stopped

theorem spares_restart (n : ν) : Spares R s (restart C n s) := by
  unfold restart
  dsimp only
  set revived : Cluster ν := { s with alive := Function.update s.alive n true }
  have started : Spares R s revived := .of_same rfl rfl rfl rfl rfl rfl
  have cleared : Spares R s (revived.updateVolatile n fun _ => {}) :=
    started.trans (spares_updateVolatile _)
  refine Spares.trans ?_ spares_resetElectionTimeout
  refine Spares.trans ?_ (spares_updateTimer _)
  split
  · exact cleared
  · exact cleared.trans (spares_notifyLeaderRetired _)

/-! ## Handlers -/

theorem sparing_handleElectionTimeout (generation : ℕ) (deadline : Option ℕ) :
    Sparing R s (handleElectionTimeout C n generation deadline s) := by
  unfold handleElectionTimeout
  split
  · exact Spares.refl s
  split
  · exact Spares.refl s
  split
  · exact Spares.refl s
  · exact sparing_startPreVote

theorem spares_handlePreVote (src : ν) (request : RequestVote ν) :
    Spares R s (handlePreVote C n src request s) := spares_send fun _ => trivial

theorem sparing_handlePreVoteResponse (response : PreVoteResponse ν) :
    Sparing R s (handlePreVoteResponse C n response s) := by
  unfold handlePreVoteResponse
  split
  · exact Spares.refl s
  split
  · exact spares_advanceTerm _ _
  split
  · exact Spares.refl s
  split
  · exact Spares.refl s
  have counted : Spares R s (s.updateVolatile n fun w =>
      { w with preVotesReceived := insert response.voterId w.preVotesReceived }) :=
    spares_updateVolatile _
  dsimp only
  split
  · exact .after (counted.trans spares_clearPreVote) sparing_startElection
  · exact counted

theorem spares_handleRequestVote (src : ν) (request : RequestVote ν) :
    Spares R s (handleRequestVote C n src request s) := by
  have grants : ∀ t : Cluster ν, Spares R t (grantVote C n request t) := fun t =>
    (((spares_persistTermAndVote _ _).trans (spares_updateVolatile _)).trans
      spares_clearPreVote).trans spares_resetElectionTimeout
  unfold handleRequestVote
  dsimp only
  have adopts : Spares R s (if isVoter C s request.candidateId then
      advanceTerm C n request.term false s else s) := by
    split
    · exact spares_advanceTerm _ _
    · exact .refl s
  refine Spares.trans ?_ (spares_send fun _ => trivial)
  generalize (if isVoter C s request.candidateId then
      advanceTerm C n request.term false s else s) = adopted at adopts ⊢
  generalize (isVoter C s n && isVoter C s request.candidateId && _ && _ && _) = grant
  have voted : Spares R s (if grant then grantVote C n request adopted else adopted) := by
    split
    · exact adopts.trans (grants adopted)
    · exact adopts
  split
  · exact voted.trans spares_resetElectionTimeout
  · exact voted

theorem sparing_handleRequestVoteResponse (response : RequestVoteResponse ν) :
    Sparing R s (handleRequestVoteResponse C n response s) := by
  unfold handleRequestVoteResponse
  split
  · exact Spares.refl s
  split
  · exact spares_advanceTerm _ _
  split
  · exact Spares.refl s
  split
  · exact Spares.refl s
  have counted : Spares R s (s.updateVolatile n fun w =>
      { w with votesReceived := insert response.voterId w.votesReceived }) :=
    spares_updateVolatile _
  dsimp only
  split
  · exact .after counted (sparing_becomeLeader _)
  · exact counted

theorem sparing_advanceNodeCommit (index : ℕ) : Sparing R s (advanceNodeCommit n index s) := by
  unfold advanceNodeCommit
  split
  · exact .raised _ s
  split
  · exact Spares.refl s
  · exact spares_updateVolatile _

theorem sparing_assertLogMatching : Sparing R s (assertLogMatching C s) := by
  unfold assertLogMatching
  split
  · exact Spares.refl s
  · exact .raised _ s

theorem spares_answerAppendEntries (src : ν) (request : AppendEntries ν) (success : Bool)
    (matchIndex : ℕ) : Spares R s (answerAppendEntries n src request success matchIndex s) :=
  (spares_record _).trans (spares_send fun _ => trivial)

theorem spares_handleAppendEntriesResponse (response : AppendEntriesResponse ν) :
    Spares R s (handleAppendEntriesResponse C n response s) := by
  unfold handleAppendEntriesResponse
  split
  · split
    · exact spares_advanceTerm _ _
    · exact .refl s
  · exact spares_record _

theorem spares_answerInstallSnapshot (request : InstallSnapshotRequest ν) (success : Bool)
    (installedIndex : ℕ) : Spares R s (answerInstallSnapshot request success installedIndex s) :=
  spares_send fun _ => trivial

theorem spares_handleInstallSnapshotResponse (response : InstallSnapshotResponse ν) :
    Spares R s (handleInstallSnapshotResponse C response s) := by
  unfold handleInstallSnapshotResponse
  dsimp only
  split
  · exact .refl s
  · exact (spares_advanceTerm _ _).trans (spares_record _)

/-! ## Entries -/

/-- A merge has entries of the log and incoming ones. -/
theorem mem_of_mergeAfter {view : RaftLogView (Command ν)} {index : ℕ}
    {incoming merged : List (LogEntry (Command ν))}
    (merges : view.mergeAfter index incoming = some merged) {entry : LogEntry (Command ν)}
    (member : entry ∈ merged) : entry ∈ view.entries ∨ entry ∈ incoming := by
  obtain ⟨rest, looped, rfl⟩ := Option.map_eq_some_iff.mp merges
  obtain early | late := List.mem_append.mp member
  · exact .inl (List.mem_of_mem_take early)
  · obtain ⟨-, rfl⟩ | ⟨-, rfl⟩ := RaftLogView.mergeLoop_choice looped
    · exact .inl (List.mem_of_mem_drop late)
    · exact .inr late

/-- A node merges the entries of a message. -/
theorem sparing_mergeEntries {message : Message ν} {request : AppendEntries ν}
    (sent : message ∈ s.network) (payload : message.payload = .appendEntries request) :
    Sparing R s (mergeEntries n request.prevLogIndex request.entries s) := by
  unfold mergeEntries
  split
  · exact .raised _ s
  next merged merges =>
    refine ⟨fun m => ?_, rfl, fun m entry member => ?_, ⟨[], (List.append_nil _).symm,
      fun _ member => absurd member List.not_mem_nil⟩, .inr rfl⟩
    · by_cases same : m = n
      · subst same
        exact ⟨rfl, rfl, rfl, by simp [Cluster.updatePersistent],
          by simp [Cluster.updatePersistent], by simp [Cluster.updatePersistent], rfl⟩
      · exact keeps_updatePersistent_of_ne same _
    · by_cases same : m = n
      · subst same
        have listed : entry ∈ merged := by
          simpa [Cluster.logView, Cluster.updatePersistent] using member
        obtain own | incoming := mem_of_mergeAfter merges listed
        · exact .inl ⟨m, own⟩
        · exact .inr ⟨message, sent, request, payload, incoming⟩
      · refine .inl ⟨m, ?_⟩
        simpa [Cluster.logView, Cluster.updatePersistent, same] using member

/-- The end of `_handle_append_entries`, when the previous entry matches. -/
theorem sparing_acceptAppend {message : Message ν} {request : AppendEntries ν}
    (sent : message ∈ s.network) (payload : message.payload = .appendEntries request) :
    Sparing R s ((mergeEntries n request.prevLogIndex request.entries s).bind fun _ s =>
      (if s.commitIndex n < request.leaderCommit then
          advanceNodeCommit n (min request.leaderCommit
            (request.prevLogIndex + request.entries.length)) s
        else .returns () s).bind fun _ s =>
        (assertLogMatching C s).bind fun _ s =>
          .returns () (answerAppendEntries n message.src request true
            (request.prevLogIndex + request.entries.length) s)) := by
  refine (sparing_mergeEntries sent payload).bind fun _ t _ => Sparing.bind ?_ fun _ u _ => ?_
  · split
    · exact sparing_advanceNodeCommit _
    · exact Spares.refl t
  · exact sparing_assertLogMatching.bind fun _ v _ => spares_answerAppendEntries _ request _ _

theorem sparing_handleAppendEntries {message : Message ν} {request : AppendEntries ν}
    (sent : message ∈ s.network) (payload : message.payload = .appendEntries request) :
    Sparing R s (handleAppendEntries C n message.src request s) := by
  unfold handleAppendEntries
  split
  · exact spares_send fun _ => trivial
  dsimp only
  have adopted : Spares R s (advanceTerm C n request.term false s) := spares_advanceTerm _ _
  split
  · exact adopted.trans (spares_answerAppendEntries _ request _ _)
  have retired : Spares R s (clearPreVote n (retire n (advanceTerm C n request.term false s))) :=
    (adopted.trans spares_retire).trans spares_clearPreVote
  have contacted : Spares R s (resetElectionTimeout C n
      (if s.role n = .leader ∧ request.term = s.currentTerm n then
        notifyLeaderRetired n (s.currentTerm n)
          (clearPreVote n (retire n (advanceTerm C n request.term false s)))
      else clearPreVote n (retire n (advanceTerm C n request.term false s)))) := by
    refine Spares.trans ?_ spares_resetElectionTimeout
    split
    · exact retired.trans (spares_notifyLeaderRetired _)
    · exact retired
  generalize resetElectionTimeout C n _ = u at contacted ⊢
  split
  · exact contacted.trans (spares_answerAppendEntries _ request _ _)
  · obtain ⟨added, network, -⟩ := contacted.sent
    exact .after contacted (sparing_acceptAppend
      (network ▸ List.mem_append_left added sent) payload)

/-! ## Drivers -/

/-- A leader sends entries that it has. -/
theorem sparing_sendAppendEntries {peer : ν} {prevLogIndex leaderCommit : ℕ}
    {entries : List (LogEntry (Command ν))} (own : entries ⊆ (s.logView n).entries) :
    Sparing R s (sendAppendEntries C n peer prevLogIndex entries leaderCommit s) := by
  unfold sendAppendEntries
  split
  · exact .raised _ s
  split
  · exact .raised _ s
  split
  · exact .raised _ s
  split
  · exact .raised _ s
  split
  · exact .raised _ s
  split
  · exact .raised _ s
  · exact spares_send fun _ entry member => .inl ⟨n, own member⟩

theorem sparing_sendInstallSnapshot {follower : ν} {term : ℕ} {snapshot : KVSnapshot ν}
    {requestId : ℕ} : Sparing R s (sendInstallSnapshot C n follower term snapshot requestId s) := by
  unfold sendInstallSnapshot
  split
  · exact .raised _ s
  split
  · exact .raised _ s
  split
  · exact .raised _ s
  split
  · exact .raised _ s
  split
  · exact .raised _ s
  split
  · exact .raised _ s
  next stored => exact spares_send fun _ => not_not.mp stored

omit [LinearOrder ν] in
/-- A write of the replicators. -/
theorem Spares.tends (tends : R) (persistent : t.persistent = s.persistent)
    (applier : t.applier = s.applier) (kv : t.kv = s.kv)
    (transitions : t.transitions = s.transitions) (network : t.network = s.network) :
    Spares R s t where
  keeps n := ⟨by rw [applier], by rw [applier], by rw [applier], by rw [persistent],
    by rw [persistent], by rw [persistent], by rw [kv]⟩
  transitions := transitions
  entries m entry member := .inl ⟨m, by rwa [Cluster.logView, persistent] at member⟩
  sent := ⟨[], by rw [network, List.append_nil], fun _ member => absurd member List.not_mem_nil⟩
  replicators := .inl tends

omit [LinearOrder ν] in
theorem spares_updateReplicator (tends : R) (i : ℕ)
    (f : LeaderReplicator ν → LeaderReplicator ν) : Spares R s (s.updateReplicator i f) :=
  .tends tends rfl rfl rfl rfl rfl

omit [LinearOrder ν] in
theorem sparing_requireCurrentLeader (r : LeaderReplicator ν) :
    Sparing R s (requireCurrentLeader r s) := by
  unfold requireCurrentLeader
  split
  · exact .raised _ s
  · exact Spares.refl s

theorem sparing_newReplicator (tends : R) (snapshotTransport membershipAware : Bool) :
    Sparing R s (newReplicator C n snapshotTransport membershipAware s) := by
  unfold newReplicator
  split
  · exact .raised _ s
  · exact (sparing_requireCurrentLeader _).bind fun _ t _ =>
      Spares.tends tends rfl rfl rfl rfl rfl

/-- In a cluster of fixed membership no configuration is committed. -/
theorem sparing_advanceCommitIndex (tends : R) (fixed : C.kind = .fixed) (i : ℕ) :
    Sparing R s (advanceCommitIndex C i s) := by
  unfold advanceCommitIndex
  split
  · exact Spares.refl s
  next r _ =>
  refine (sparing_requireCurrentLeader r).bind fun _ t _ => ?_
  split
  · exact .raised _ t
  · exact Spares.refl t
  · have aware : usesConfiguration C r = false := by
      unfold usesConfiguration
      rw [fixed]
    dsimp only
    rw [aware]
    refine .after (spares_updateReplicator tends i _)
      ((sparing_advanceNodeCommit _).bind fun _ u _ => ?_)
    exact spares_record _

theorem sparing_acknowledgePeer (tends : R) (fixed : C.kind = .fixed) (i : ℕ) (peer : ν)
    (matchIndex : ℕ) :
    Sparing R s (acknowledgePeer C i peer matchIndex s) :=
  .after (spares_updateReplicator tends i _)
    ((sparing_advanceCommitIndex tends fixed i).bind fun _ t _ => Spares.refl t)

theorem sparing_beginActivityProbe (r : LeaderReplicator ν) (peer : ν) :
    Sparing R s (beginActivityProbe C r peer s) := by
  unfold beginActivityProbe
  split
  · exact .raised _ s
  refine (sparing_requireCurrentLeader r).bind fun _ t _ => ?_
  exact (sparing_sendAppendEntries (List.nil_subset _)).bind fun _ u _ => Spares.refl u

/-- A checkpoint changes the observations of the harness only. -/
theorem sparing_checkpoint : Sparing R s (checkpoint C s) := by
  have checks : Checks C .protocol s (checkpoint C s) := checks_checkpoint s
  refine checks.mono (fun t kept => ?_) fun _ _ _ => trivial
  obtain ⟨-, harness, rfl⟩ := kept
  exact .of_same rfl rfl rfl rfl rfl rfl

end Distlab.Raft
