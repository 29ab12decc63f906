import Distlab.Raft.Events

/-!
# Pre-vote rounds

A node has a pre-vote round open while its volatile state names a prospective term.
Only `start_pre_vote` opens one, and it sends the requests of the round. Every other
operation leaves the open rounds as they are or closes them.
-/

set_option autoImplicit false

namespace Distlab.Raft

open Foundations

variable {ν : Type} {s t u : Cluster ν}

/-! ## Rounds -/

/-- The prospective term of the node's open pre-vote round. -/
def Cluster.openRound (s : Cluster ν) (n : ν) : Option ℕ := (s.volatile n).preVoteTerm

/-- The message is a `PreVote`. -/
def Message.isPreVote (message : Message ν) : Bool :=
  match message.payload with
  | .preVote _ => true
  | _ => false

/-- The message is a `PreVote` or its response. -/
def Message.isPreVoteTraffic (message : Message ν) : Bool :=
  match message.payload with
  | .preVote _ | .preVoteResponse _ => true
  | _ => false

/-- The step opens no round and sends no message of one. -/
structure Shuts (s t : Cluster ν) : Prop where
  rounds : ∀ n, t.openRound n = none ∨ t.openRound n = s.openRound n
  sent : ∃ sent, t.network = s.network ++ sent ∧
    ∀ message ∈ sent, message.isPreVoteTraffic = false

/-- The step sends the requests of the rounds that it opens; a node without peers may
open one without requests. -/
structure Tracks [DecidableEq ν] (C : Config ν) (s t : Cluster ν) : Prop where
  sent : ∃ sent, t.network = s.network ++ sent ∧
    (∀ message ∈ sent, message.isPreVoteTraffic = true → message.src ≠ message.dst) ∧
    ∀ n, t.openRound n = none ∨ t.openRound n = s.openRound n ∨ C.peers n = [] ∨
      ∃ message ∈ sent, message.src = n ∧ message.isPreVote = true

namespace Shuts

/-- A step that keeps the network. -/
theorem of_fields (rounds : ∀ n, t.openRound n = none ∨ t.openRound n = s.openRound n)
    (network : t.network = s.network) : Shuts s t :=
  ⟨rounds, [], by rw [network, List.append_nil], fun _ member => absurd member List.not_mem_nil⟩

/-- A step that keeps the volatile states and the network. -/
theorem of_same (volatile : t.volatile = s.volatile) (network : t.network = s.network) :
    Shuts s t :=
  of_fields (fun n => .inr (by rw [Cluster.openRound, volatile, Cluster.openRound])) network

theorem refl (s : Cluster ν) : Shuts s s := of_same rfl rfl

theorem trans (first : Shuts s t) (second : Shuts t u) : Shuts s u where
  rounds n := by
    rcases second.rounds n with closed | same
    · exact .inl closed
    · rw [same]
      exact first.rounds n
  sent := by
    obtain ⟨sent, network, other⟩ := first.sent
    obtain ⟨sent', network', other'⟩ := second.sent
    refine ⟨sent ++ sent', by rw [network', network, List.append_assoc], ?_⟩
    intro message member
    exact (List.mem_append.mp member).elim (other message) (other' message)

theorem tracks [DecidableEq ν] {C : Config ν} (shuts : Shuts s t) : Tracks C s t where
  sent := by
    obtain ⟨sent, network, other⟩ := shuts.sent
    refine ⟨sent, network, fun message member traffic => ?_, fun n => ?_⟩
    · rw [other message member] at traffic
      cases traffic
    · rcases shuts.rounds n with closed | same
      · exact .inl closed
      · exact .inr (.inl same)

end Shuts

theorem Tracks.trans [DecidableEq ν] {C : Config ν} (first : Tracks C s t)
    (second : Tracks C t u) : Tracks C s u where
  sent := by
    obtain ⟨sent, network, apart, opened⟩ := first.sent
    obtain ⟨sent', network', apart', opened'⟩ := second.sent
    refine ⟨sent ++ sent', by rw [network', network, List.append_assoc], ?_, fun n => ?_⟩
    · intro message member
      exact (List.mem_append.mp member).elim (apart message) (apart' message)
    · rcases opened' n with closed | same | alone | ⟨message, member, from_⟩
      · exact .inl closed
      · rw [same]
        rcases opened n with closed | same | alone | ⟨message, member, from_⟩
        · exact .inl closed
        · exact .inr (.inl same)
        · exact .inr (.inr (.inl alone))
        · exact .inr (.inr (.inr ⟨message, List.mem_append_left _ member, from_⟩))
      · exact .inr (.inr (.inl alone))
      · exact .inr (.inr (.inr ⟨message, List.mem_append_right _ member, from_⟩))

/-! ## Writes -/

theorem shuts_record (entry : TraceRecord ν) : Shuts s (s.record entry) := .of_same rfl rfl

variable [LinearOrder ν] {C : Config ν} {n : ν}

theorem shuts_updatePersistent (f : Persistent ν → Persistent ν) :
    Shuts s (s.updatePersistent n f) := .of_same rfl rfl

theorem shuts_updateTimer (f : ElectionTimer → ElectionTimer) : Shuts s (s.updateTimer n f) :=
  .of_same rfl rfl

/-- A volatile write of one node that keeps its round or closes it. -/
theorem shuts_updateVolatile {f : Volatile ν → Volatile ν}
    (round : (f (s.volatile n)).preVoteTerm = none ∨
      (f (s.volatile n)).preVoteTerm = (s.volatile n).preVoteTerm) :
    Shuts s (s.updateVolatile n f) := by
  refine .of_fields (fun m => ?_) rfl
  by_cases same : m = n
  · subst same
    simpa [Cluster.openRound, Cluster.updateVolatile] using round
  · simp [Cluster.openRound, Cluster.updateVolatile, same]

theorem openRound_clearPreVote : (clearPreVote n s).openRound n = none := by
  simp [clearPreVote, Cluster.openRound, Cluster.updateVolatile]

theorem shuts_clearPreVote : Shuts s (clearPreVote n s) := shuts_updateVolatile (.inl rfl)

theorem shuts_retire : Shuts s (retire n s) := shuts_updateVolatile (.inr rfl)

theorem shuts_send {src dst : ν} {payload : Payload ν}
    (other : ∀ ordinal, (⟨src, dst, payload, ordinal⟩ : Message ν).isPreVoteTraffic = false) :
    Shuts s (s.send src dst payload) where
  rounds _ := .inr rfl
  sent := ⟨[_], rfl, fun _ member => List.mem_singleton.mp member ▸ other _⟩

theorem shuts_sendAll {src : ν} {payload : Payload ν}
    (other : ∀ dst ordinal, (⟨src, dst, payload, ordinal⟩ : Message ν).isPreVoteTraffic = false)
    (dsts : List ν) (s : Cluster ν) : Shuts s (s.sendAll src dsts payload) := by
  induction dsts generalizing s with
  | nil => exact .refl s
  | cons dst rest ih => exact (shuts_send (other dst)).trans (ih (s.send src dst payload))

/-- What `send` to several destinations sends. -/
theorem sendAll_sent (src : ν) (payload : Payload ν) (dsts : List ν) (s : Cluster ν) :
    (s.sendAll src dsts payload).volatile = s.volatile ∧
      ∃ sent, (s.sendAll src dsts payload).network = s.network ++ sent ∧
        sent.map (fun message => (message.src, message.dst, message.payload)) =
          dsts.map fun dst => (src, dst, payload) := by
  induction dsts generalizing s with
  | nil => exact ⟨rfl, [], (List.append_nil _).symm, rfl⟩
  | cons dst rest ih =>
      obtain ⟨volatile, sent, network, listed⟩ := ih (s.send src dst payload)
      refine ⟨volatile, ⟨src, dst, payload, s.ordinals src dst + 1⟩ :: sent, ?_, ?_⟩
      · refine network.trans ?_
        simp [Cluster.send]
      · rw [List.map_cons, listed, List.map_cons]

theorem shuts_notifyLeaderRetired (term : ℕ) : Shuts s (notifyLeaderRetired n term s) := by
  obtain ⟨active, observers, same⟩ := notifyLeaderRetired_eq n term s
  rw [same]
  exact .of_same rfl rfl

theorem shuts_notifyLeaderAcquired (term : ℕ) : Shuts s (notifyLeaderAcquired n term s) := by
  obtain ⟨generation, active, observers, same⟩ := notifyLeaderAcquired_eq n term s
  rw [same]
  exact .of_same rfl rfl

theorem shuts_disableElectionTimeout : Shuts s (disableElectionTimeout n s) := by
  have retires : ∀ u : Cluster ν, Shuts s u →
      Shuts s (if u.role n = .candidate then retire n u else u) := by
    intro u shuts
    split
    · exact shuts.trans shuts_retire
    · exact shuts
  have timer : Shuts s (s.updateTimer n fun t => { t with generation := t.generation + 1 }) :=
    .of_same rfl rfl
  unfold disableElectionTimeout
  refine retires _ ?_
  split
  · exact timer.trans shuts_clearPreVote
  · exact timer

theorem shuts_resetElectionTimeout : Shuts s (resetElectionTimeout C n s) := by
  unfold resetElectionTimeout
  split
  · exact shuts_disableElectionTimeout
  split
  · exact .refl s
  split
  · exact .refl s
  · refine ⟨fun _ => .inr rfl, [_], rfl, fun message member => ?_⟩
    rw [List.mem_singleton.mp member]
    rfl

/-- A node that adopts a higher term has no round open. -/
theorem openRound_advanceTerm {term : ℕ} {rearm : Bool} (higher : s.currentTerm n < term) :
    (advanceTerm C n term rearm s).openRound n = none := by
  have closes : ∀ {a b : Cluster ν}, a.openRound n = none → Shuts a b → b.openRound n = none := by
    intro a b closed shuts
    rcases shuts.rounds n with none | same
    · exact none
    · rw [same, closed]
  unfold advanceTerm
  rw [if_neg (by omega)]
  dsimp only
  have cleared := openRound_clearPreVote (n := n) (s := adoptTerm n term s)
  by_cases led : s.role n = .leader
  · simp only [led, if_true, and_true]
    have retired := closes cleared (shuts_notifyLeaderRetired (n := n) (s.currentTerm n))
    split
    · exact closes retired shuts_resetElectionTimeout
    · exact retired
  · simpa [led] using cleared

theorem shuts_advanceTerm (term : ℕ) (rearm : Bool) : Shuts s (advanceTerm C n term rearm s) := by
  unfold advanceTerm
  split
  · exact .refl s
  dsimp only
  have adopted : Shuts s (clearPreVote n (adoptTerm n term s)) := by
    have persisted : Shuts s (persistTermAndVote n term none s) := .of_same rfl rfl
    exact (persisted.trans shuts_retire).trans shuts_clearPreVote
  by_cases led : s.role n = .leader
  · simp only [led, if_true, and_true]
    have retired := adopted.trans (shuts_notifyLeaderRetired (n := n) (s.currentTerm n))
    split
    · exact retired.trans shuts_resetElectionTimeout
    · exact retired
  · simpa [led] using adopted

/-! ## Operations -/

/-- Every outcome of the operation keeps the rounds or closes them. -/
abbrev Shutting {β : Type} (s : Cluster ν) (op : Op ν β) : Prop :=
  op.Ensures (Shuts s) fun _ _ => True

omit [LinearOrder ν] in
theorem Shutting.bind {β γ : Type} {op : Op ν β} {next : β → Cluster ν → Op ν γ}
    (first : Shutting s op) (rest : ∀ b t, Shutting t (next b t)) : Shutting s (op.bind next) :=
  Outcome.Ensures.bind first
    (fun b t _ shuts => (rest b t).mono (fun _ after => shuts.trans after) fun _ _ => id)
    fun _ => id

omit [LinearOrder ν] in
theorem Shutting.after {β : Type} {op : Op ν β} (first : Shuts s t) (rest : Shutting t op) :
    Shutting s op := rest.mono (fun _ after => first.trans after) fun _ _ => id

theorem shutting_becomeLeader (term : ℕ) : Shutting s (becomeLeader n term s) := by
  unfold becomeLeader
  split
  · exact Shuts.refl s
  have recorded : Shutting s (recordLeader term n s) := by
    unfold recordLeader
    split
    · exact Shuts.of_same rfl rfl
    split
    · exact ⟨.refl s, trivial⟩
    · exact Shuts.refl s
  refine recorded.bind fun _ t => ?_
  have led : Shuts t (t.updateVolatile n fun w => { w with role := .leader }) :=
    shuts_updateVolatile (.inr rfl)
  have cleared := led.trans (shuts_clearPreVote (n := n))
  have recorded := cleared.trans (.of_same (t := ((clearPreVote n (t.updateVolatile n fun w =>
    { w with role := .leader })).updateTimer n fun t => ⟨t.generation + 1, none⟩).record
      (.leader n term)) rfl rfl)
  exact recorded.trans (shuts_notifyLeaderAcquired term)

theorem shutting_startElection : Shutting s (startElection C n s) := by
  unfold startElection
  split
  · exact ⟨.refl s, trivial⟩
  split
  · exact ⟨.refl s, trivial⟩
  dsimp only
  have stands : Shuts s (resetElectionTimeout C n (becomeCandidate n (clearPreVote n s))) := by
    have persisted : Shuts (clearPreVote n s) (persistTermAndVote n
        ((clearPreVote n s).currentTerm n + 1) (some n) (clearPreVote n s)) := .of_same rfl rfl
    refine (shuts_clearPreVote.trans (persisted.trans ?_)).trans shuts_resetElectionTimeout
    exact shuts_updateVolatile (.inr rfl)
  split
  · exact .after stands (shutting_becomeLeader _)
  · exact stands.trans (shuts_sendAll (fun _ _ => rfl) _ _)

/-- `start_pre_vote` sends the requests of the round that it opens. -/
theorem tracks_startPreVote (n : ν) :
    (startPreVote C n s).Ensures (Tracks C s) fun _ _ => True := by
  unfold startPreVote
  split
  · exact ⟨(Shuts.refl s).tracks, trivial⟩
  split
  · exact ⟨(Shuts.refl s).tracks, trivial⟩
  split
  · exact (Shuts.refl s).tracks
  -- the round is open in `opened`, and its requests go to the peers
  set opened := s.updateVolatile n fun w =>
    { w with preVoteTerm := some (s.currentTerm n + 1), preVotesReceived := {n} }
  have others : ∀ m, m ≠ n → opened.openRound m = s.openRound m := by
    intro m other
    simp [opened, Cluster.openRound, Cluster.updateVolatile, other]
  dsimp only
  split
  · have cleared : Shuts s (clearPreVote n opened) := by
      refine .of_fields (fun m => ?_) rfl
      by_cases same : m = n
      · subst same
        exact .inl openRound_clearPreVote
      · refine .inr ?_
        rw [← others m same]
        simp [clearPreVote, Cluster.openRound, Cluster.updateVolatile, same]
    exact (Shutting.after cleared shutting_startElection).mono (fun _ shuts => shuts.tracks)
      fun _ _ => id
  next =>
    obtain ⟨rounds, before, network, other⟩ := shuts_resetElectionTimeout
      (C := C) (n := n) (s := opened)
    obtain ⟨volatile, sent, network', listed⟩ := sendAll_sent n
      (.preVote (voteRequest n (s.currentTerm n + 1) (resetElectionTimeout C n opened)))
      (C.peers n) (resetElectionTimeout C n opened)
    have sends : ∀ message ∈ sent, message.src = n ∧ message.dst ∈ C.peers n ∧
        message.isPreVote = true := by
      intro message member
      have entry := listed ▸ List.mem_map_of_mem
        (f := fun message : Message ν => (message.src, message.dst, message.payload)) member
      obtain ⟨dst, peer, same⟩ := List.mem_map.mp entry
      obtain ⟨src, dst, payload⟩ : n = message.src ∧ dst = message.dst ∧ _ = message.payload := by
        simpa using same
      refine ⟨src.symm, dst ▸ peer, ?_⟩
      unfold Message.isPreVote
      rw [← payload]
    refine ⟨before ++ sent, ?_, ?_, fun m => ?_⟩
    · rw [← List.append_assoc]
      exact network'.trans (congrArg (· ++ sent) network)
    · intro message member traffic
      rcases List.mem_append.mp member with member | member
      · rw [other message member] at traffic
        cases traffic
      · obtain ⟨src, dst, _⟩ := sends message member
        rw [src]
        exact fun same => (of_decide_eq_true (List.mem_filter.mp dst).2) same.symm
    · by_cases same : m = n
      · subst same
        refine .inr (.inr ?_)
        cases peers : C.peers m with
        | nil => exact .inl rfl
        | cons peer rest =>
            rw [peers, List.map_cons] at listed
            cases sent with
            | nil => cases listed
            | cons first later =>
                obtain ⟨src, _, preVote⟩ := sends first List.mem_cons_self
                exact .inr ⟨first, List.mem_append_right _ List.mem_cons_self, src, preVote⟩
      · have kept : ((resetElectionTimeout C n opened).sendAll n (C.peers n) (.preVote
            (voteRequest n (s.currentTerm n + 1) (resetElectionTimeout C n opened)))).openRound m =
              (resetElectionTimeout C n opened).openRound m := by
          unfold Cluster.openRound
          rw [volatile]
        rw [kept]
        rcases rounds m with closed | kept
        · exact .inl closed
        · exact .inr (.inl (kept.trans (others m same)))

/-! ## Handlers -/

theorem shutting_advanceNodeCommit (index : ℕ) : Shutting s (advanceNodeCommit n index s) := by
  unfold advanceNodeCommit
  split
  · exact ⟨.refl s, trivial⟩
  split
  · exact Shuts.refl s
  · exact shuts_updateVolatile (.inr rfl)

theorem shutting_assertLogMatching : Shutting s (assertLogMatching C s) := by
  unfold assertLogMatching
  split
  · exact Shuts.refl s
  · exact ⟨.refl s, trivial⟩

theorem shutting_mergeEntries (prevLogIndex : ℕ) (entries : List (LogEntry (Command ν))) :
    Shutting s (mergeEntries n prevLogIndex entries s) := by
  unfold mergeEntries
  split
  · exact ⟨.refl s, trivial⟩
  · exact shuts_updatePersistent _

theorem shuts_answerAppendEntries (src : ν) (request : AppendEntries ν) (success : Bool)
    (matchIndex : ℕ) : Shuts s (answerAppendEntries n src request success matchIndex s) :=
  (shuts_record _).trans (shuts_send fun _ => rfl)

/-- The end of `_handle_append_entries`, when the previous entry matches. -/
theorem shutting_mergeAndCommit (src : ν) (request : AppendEntries ν) :
    Shutting s ((mergeEntries n request.prevLogIndex request.entries s).bind fun _ s =>
      (if s.commitIndex n < request.leaderCommit then
          advanceNodeCommit n (min request.leaderCommit
            (request.prevLogIndex + request.entries.length)) s
        else .returns () s).bind fun _ s =>
        (assertLogMatching C s).bind fun _ s =>
          .returns () (answerAppendEntries n src request true
            (request.prevLogIndex + request.entries.length) s)) := by
  refine (shutting_mergeEntries _ _).bind fun _ t => Shutting.bind ?_ fun _ u => ?_
  · split
    · exact shutting_advanceNodeCommit _
    · exact Shuts.refl t
  · exact shutting_assertLogMatching.bind fun _ v => shuts_answerAppendEntries src request _ _

theorem shutting_installSnapshot (snapshot : KVSnapshot ν) (preserve : Bool) :
    Shutting s (installSnapshot C n snapshot preserve s) := by
  unfold installSnapshot
  dsimp only
  split
  · exact ⟨.refl s, trivial⟩
  split
  · split
    · exact ⟨.refl s, trivial⟩
    · exact Shuts.refl s
  split
  · exact ⟨.refl s, trivial⟩
  split
  · exact ⟨.refl s, trivial⟩
  split
  · exact ⟨.refl s, trivial⟩
  split
  · exact ⟨.refl s, trivial⟩
  next suffix _ _ _ =>
    have written : Shuts s (writeSnapshot n snapshot suffix s) := .of_same rfl rfl
    refine .after written
      (Shutting.bind ?_ fun _ t => shutting_assertLogMatching.bind fun _ u => ?_)
    · split
      · exact shutting_advanceNodeCommit _
      · exact Shuts.refl _
    · unfold assertStateMachineSafety
      split
      · exact Shuts.refl u
      · exact ⟨.refl u, trivial⟩

theorem shuts_answerInstallSnapshot (request : InstallSnapshotRequest ν) (success : Bool)
    (installedIndex : ℕ) : Shuts s (answerInstallSnapshot request success installedIndex s) :=
  shuts_send fun _ => rfl

theorem shutting_install (request : InstallSnapshotRequest ν) :
    Shutting s (handleInstallSnapshotRequest.install C request s) := by
  have installs := shutting_installSnapshot (C := C) (n := request.followerId) (s := s)
    request.snapshot true
  unfold handleInstallSnapshotRequest.install
  split
  next t installed =>
    rw [installed] at installs
    exact installs.trans (shuts_answerInstallSnapshot request _ _)
  next violation t raised =>
    rw [raised] at installs
    split
    · exact installs.1.trans (shuts_answerInstallSnapshot request _ _)
    · exact ⟨installs.1, trivial⟩

theorem shutting_handleInstallSnapshotRequest (request : InstallSnapshotRequest ν) :
    Shutting s (handleInstallSnapshotRequest C request s) := by
  unfold handleInstallSnapshotRequest
  dsimp only
  split
  · exact shuts_answerInstallSnapshot request _ _
  have contacted : Shuts s (resetElectionTimeout C request.followerId (retire request.followerId
      (advanceTerm C request.followerId request.term false s))) :=
    ((shuts_advanceTerm _ _).trans shuts_retire).trans shuts_resetElectionTimeout
  split
  · split
    · exact contacted.trans (shuts_answerInstallSnapshot request _ _)
    · exact .after contacted (shutting_install request)
  · exact .after contacted (shutting_install request)

theorem shuts_handleInstallSnapshotResponse (response : InstallSnapshotResponse ν) :
    Shuts s (handleInstallSnapshotResponse C response s) := by
  unfold handleInstallSnapshotResponse
  dsimp only
  split
  · exact .refl s
  · exact (shuts_advanceTerm _ _).trans (.of_same rfl rfl)

theorem shutting_handlePreVoteResponse (response : PreVoteResponse ν) :
    Shutting s (handlePreVoteResponse C n response s) := by
  unfold handlePreVoteResponse
  split
  · exact Shuts.refl s
  split
  · exact shuts_advanceTerm _ _
  split
  · exact Shuts.refl s
  split
  · exact Shuts.refl s
  have counted : Shuts s (s.updateVolatile n fun w =>
      { w with preVotesReceived := insert response.voterId w.preVotesReceived }) :=
    shuts_updateVolatile (.inr rfl)
  dsimp only
  split
  · exact .after (counted.trans shuts_clearPreVote) shutting_startElection
  · exact counted

theorem shuts_handleRequestVote (src : ν) (request : RequestVote ν) :
    Shuts s (handleRequestVote C n src request s) := by
  have grants : ∀ t : Cluster ν, Shuts t (grantVote C n request t) := by
    intro t
    have persisted : Shuts t (persistTermAndVote n request.term (some request.candidateId) t) :=
      .of_same rfl rfl
    refine (persisted.trans ?_).trans shuts_resetElectionTimeout
    exact (shuts_updateVolatile (.inr rfl)).trans shuts_clearPreVote
  unfold handleRequestVote
  dsimp only
  have adopts : Shuts s (if isVoter C s request.candidateId then
      advanceTerm C n request.term false s else s) := by
    split
    · exact shuts_advanceTerm _ _
    · exact .refl s
  refine Shuts.trans ?_ (shuts_send fun _ => rfl)
  generalize (if isVoter C s request.candidateId then
      advanceTerm C n request.term false s else s) = adopted at adopts ⊢
  generalize (isVoter C s n && isVoter C s request.candidateId && _ && _ && _) = grant
  have voted : Shuts s (if grant then grantVote C n request adopted else adopted) := by
    split
    · exact adopts.trans (grants adopted)
    · exact adopts
  split
  · exact voted.trans shuts_resetElectionTimeout
  · exact voted

theorem shutting_handleRequestVoteResponse (response : RequestVoteResponse ν) :
    Shutting s (handleRequestVoteResponse C n response s) := by
  unfold handleRequestVoteResponse
  split
  · exact Shuts.refl s
  split
  · exact shuts_advanceTerm _ _
  split
  · exact Shuts.refl s
  split
  · exact Shuts.refl s
  have counted : Shuts s (s.updateVolatile n fun w =>
      { w with votesReceived := insert response.voterId w.votesReceived }) :=
    shuts_updateVolatile (.inr rfl)
  dsimp only
  split
  · exact .after counted (shutting_becomeLeader _)
  · exact counted

theorem shuts_handleAppendEntriesResponse (response : AppendEntriesResponse ν) :
    Shuts s (handleAppendEntriesResponse C n response s) := by
  unfold handleAppendEntriesResponse
  split
  · split
    · exact shuts_advanceTerm _ _
    · exact .refl s
  · exact .of_same rfl rfl

/-! ## Calls -/

theorem shutting_stepDown : Shutting s (dropValue (stepDown C n s)) := by
  refine Shutting.bind ?_ fun _ t => Shuts.refl t
  unfold stepDown
  split
  · exact ⟨.refl s, trivial⟩
  split
  · exact Shuts.refl s
  · exact ((shuts_retire.trans shuts_clearPreVote).trans (shuts_notifyLeaderRetired _)).trans
      shuts_resetElectionTimeout

theorem shuts_crash (n : ν) : Shuts s (crash n s) := by
  unfold crash
  dsimp only
  have stopped : Shuts s { s with alive := Function.update s.alive n false } := .of_same rfl rfl
  refine Shuts.trans ?_ (shuts_updateVolatile (.inl rfl))
  split
  · exact stopped.trans (shuts_notifyLeaderRetired _)
  · exact stopped

theorem shuts_restart (n : ν) : Shuts s (restart C n s) := by
  unfold restart
  dsimp only
  set revived : Cluster ν := { s with alive := Function.update s.alive n true }
  have started : Shuts s revived := .of_same rfl rfl
  have cleared : Shuts s (revived.updateVolatile n fun _ => {}) :=
    started.trans (shuts_updateVolatile (.inl rfl))
  refine Shuts.trans ?_ shuts_resetElectionTimeout
  refine Shuts.trans ?_ (shuts_updateTimer _)
  split
  · exact cleared
  · exact cleared.trans (shuts_notifyLeaderRetired _)

theorem shutting_sendAppendEntries (peer : ν) (prevLogIndex : ℕ)
    (entries : List (LogEntry (Command ν))) (leaderCommit : ℕ) :
    Shutting s (sendAppendEntries C n peer prevLogIndex entries leaderCommit s) := by
  unfold sendAppendEntries
  split
  · exact ⟨.refl s, trivial⟩
  split
  · exact ⟨.refl s, trivial⟩
  split
  · exact ⟨.refl s, trivial⟩
  split
  · exact ⟨.refl s, trivial⟩
  split
  · exact ⟨.refl s, trivial⟩
  split
  · exact ⟨.refl s, trivial⟩
  · exact shuts_send fun _ => rfl

theorem shutting_sendInstallSnapshot (follower : ν) (term : ℕ) (snapshot : KVSnapshot ν)
    (requestId : ℕ) : Shutting s (sendInstallSnapshot C n follower term snapshot requestId s) := by
  unfold sendInstallSnapshot
  split
  · exact ⟨.refl s, trivial⟩
  split
  · exact ⟨.refl s, trivial⟩
  split
  · exact ⟨.refl s, trivial⟩
  split
  · exact ⟨.refl s, trivial⟩
  split
  · exact ⟨.refl s, trivial⟩
  split
  · exact ⟨.refl s, trivial⟩
  · exact shuts_send fun _ => rfl

end Distlab.Raft
