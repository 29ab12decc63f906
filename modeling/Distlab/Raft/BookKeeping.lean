import Distlab.Raft.Books

/-!
# The handlers keep the books

Elections, the handlers of the messages, and the installation of snapshots.
-/

set_option autoImplicit false

namespace Distlab.Raft

open Foundations

variable {ν : Type} [LinearOrder ν] {C : Config ν}

/-! ## Elections -/

section Elections

variable {s s' : Cluster ν} {n : ν}

theorem recordLeader_eq {term : ℕ} (free : ∀ existing,
    s.leadersByTerm.lookup term = some existing → existing = n) :
    ∃ leaders, recordLeader term n s = .returns () { s with leadersByTerm := leaders } ∧
      leaders.lookup term = some n ∧
      ∀ t m, s.leadersByTerm.lookup t = some m → leaders.lookup t = some m := by
  unfold recordLeader
  split
  next absent =>
    refine ⟨_, rfl, AList.lookup_insert _, fun t m found => ?_⟩
    rw [Dict.lookup_insert, if_neg, found]
    rintro rfl
    rw [absent] at found
    cases found
  next existing found =>
    obtain rfl := free existing found
    exact ⟨s.leadersByTerm, if_neg (not_not.mpr rfl), found, fun _ _ => id⟩

omit [LinearOrder ν] in
theorem Addressed.mono {leaders later : Dict ℕ ν} {m : Message ν}
    (addressed : Addressed leaders m)
    (kept : ∀ t n, leaders.lookup t = some n → later.lookup t = some n) : Addressed later m := by
  unfold Addressed at addressed ⊢
  split at addressed
  next => exact addressed
  next => exact ⟨addressed.1, kept _ _ addressed.2⟩
  next => trivial

/-- A candidate has become the leader of its term in `t`, and the cluster is told.
The books of `s` may be behind on the candidate. -/
theorem acquires {leads : ν → Option ℕ} {t : Cluster ν} (accounts : Accounts leads s)
    (others : ∀ m, m ≠ n → leads m = s.leads m) (roles : Roles s) (alive : s.alive n = true)
    (candidate : s.role n = .candidate)
    (active : t.activeLeaderGenerations = s.activeLeaderGenerations)
    (generation : t.leadershipGeneration = s.leadershipGeneration)
    (observers : t.leadershipObservers = s.leadershipObservers) (live : t.alive = s.alive)
    (persistent : t.persistent = s.persistent) (network : t.network = s.network)
    (role : ∀ m, t.role m = if m = n then .leader else s.role m)
    (recorded : t.leadersByTerm.lookup (s.currentTerm n) = some n)
    (kept : ∀ u m, s.leadersByTerm.lookup u = some m → t.leadersByTerm.lookup u = some m) :
    Books (notifyLeaderAcquired n (s.currentTerm n) t) := by
  have term : ∀ m, t.currentTerm m = s.currentTerm m := by
    intro m
    rw [Cluster.currentTerm, persistent, Cluster.currentTerm]
  have leader : t.role n = .leader := by rw [role, if_pos rfl]
  have roles' : Roles t := by
    refine ⟨fun m leads => ?_, fun m candidate' => ?_, fun m leads => ?_, fun m member => ?_⟩
    · rw [live]
      by_cases same : m = n
      · rw [same, alive]
      · rw [role, if_neg same] at leads
        exact roles.live m leads
    · rw [Cluster.votedFor, persistent]
      by_cases same : m = n
      · subst same
        exact roles.ballot m (by rw [candidate]; decide)
      · rw [role, if_neg same] at candidate'
        exact roles.ballot m candidate'
    · rw [term]
      by_cases same : m = n
      · rw [same, recorded]
      · rw [role, if_neg same] at leads
        exact kept _ _ (roles.recorded m leads)
    · exact (roles.addressed m (network ▸ member)).mono kept
  have acquired := (accounts.congr active generation observers).acquired leader (term n)
    ((congrFun live n).trans alive)
  have leads' : t.leads = Function.update leads n (some (s.currentTerm n)) := by
    funext m
    rw [roles'.leads_eq, role, term]
    by_cases same : m = n
    · subst same
      rw [Function.update_self, if_pos rfl, if_pos rfl]
    · rw [Function.update_of_ne same, if_neg same, others m same, roles.leads_eq]
  obtain ⟨generation', active', observers', told⟩ :=
    notifyLeaderAcquired_eq n (s.currentTerm n) t
  have unchanged : (notifyLeaderAcquired n (s.currentTerm n) t).leads = t.leads := by
    rw [told]
    rfl
  refine ⟨?_, ?_⟩
  · rw [unchanged, leads']
    exact acquired
  · rw [told]
    exact ⟨roles'.live, roles'.ballot, roles'.recorded, roles'.addressed⟩

/-- `_become_leader` of a candidate whose term has no other leader. -/
theorem becomeLeader_promotes {leads : ν → Option ℕ} (accounts : Accounts leads s)
    (others : ∀ m, m ≠ n → leads m = s.leads m) (roles : Roles s) (alive : s.alive n = true)
    (candidate : s.role n = .candidate)
    (free : ∀ existing, s.leadersByTerm.lookup (s.currentTerm n) = some existing →
      existing = n) :
    (becomeLeader n (s.currentTerm n) s).Ensures Books fun _ _ => True := by
  obtain ⟨leaders, records, recorded, kept⟩ := recordLeader_eq free
  unfold becomeLeader
  rw [if_neg (by simp [candidate]), records, Outcome.bind_returns, Outcome.ensures_returns]
  refine acquires accounts others roles alive candidate rfl rfl rfl rfl rfl rfl (fun m => ?_)
    recorded kept
  by_cases same : m = n
  · subst same
    simp [clearPreVote, Cluster.updateTimer, Cluster.updateVolatile, Cluster.record, Cluster.role]
  · simp [clearPreVote, Cluster.updateTimer, Cluster.updateVolatile, Cluster.record, Cluster.role,
      same]

/-- `_become_leader` of a live node. -/
theorem becomeLeader_books (books : Books s) (alive : s.alive n = true) (term : ℕ) :
    (becomeLeader n term s).Ensures Books fun _ _ => True := by
  by_cases stays : term ≠ s.currentTerm n ∨ s.role n ≠ .candidate
  · unfold becomeLeader
    rw [if_pos stays]
    exact books
  · rw [not_or, not_not, not_not] at stays
    obtain ⟨rfl, candidate⟩ := stays
    by_cases free : ∀ existing, s.leadersByTerm.lookup (s.currentTerm n) = some existing →
        existing = n
    · exact becomeLeader_promotes books.accounts (fun _ _ => rfl) books.roles alive candidate free
    · -- The election raises before it changes the candidate.
      simp only [not_forall] at free
      obtain ⟨existing, found, differs⟩ := free
      unfold becomeLeader recordLeader
      rw [if_neg (by simp [candidate]), found]
      simp only [if_pos differs]
      exact ⟨books, trivial⟩

/-- What `reset_election_timeout` of a voter leaves unchanged. -/
theorem resetElectionTimeout_of_voter (voter : isVoter C s n = true) :
    ∃ timer network, resetElectionTimeout C n s =
      { s with timer := timer, network := network } := by
  unfold resetElectionTimeout
  rw [if_neg (not_not.mpr voter)]
  split
  · exact ⟨s.timer, s.network, rfl⟩
  · split
    · exact ⟨s.timer, s.network, rfl⟩
    · exact ⟨_, _, rfl⟩

theorem role_becomeCandidate (m : ν) :
    (becomeCandidate n s).role m = if m = n then .candidate else s.role m := by
  by_cases same : m = n
  · subst same
    simp [becomeCandidate, Cluster.role, Cluster.updateVolatile]
  · simp [becomeCandidate, persistTermAndVote, Cluster.record, Cluster.updatePersistent,
      Cluster.role, Cluster.updateVolatile, same]

theorem persistent_becomeCandidate {m : ν} (other : m ≠ n) :
    (becomeCandidate n s).persistent m = s.persistent m := by
  simp [becomeCandidate, persistTermAndVote, Cluster.record, Cluster.updatePersistent,
    Cluster.updateVolatile, other]

theorem currentTerm_becomeCandidate {m : ν} (other : m ≠ n) :
    (becomeCandidate n s).currentTerm m = s.currentTerm m := by
  rw [Cluster.currentTerm, persistent_becomeCandidate other, Cluster.currentTerm]

/-- A node that stands for election has the role of a candidate, also when it led. -/
theorem Roles.becomeCandidate (roles : Roles s) : Roles (becomeCandidate n s) := by
  have other_of : ∀ m, (Raft.becomeCandidate n s).role m = .leader → m ≠ n := by
    rintro m leader rfl
    rw [role_becomeCandidate, if_pos rfl] at leader
    cases leader
  refine ⟨fun m leader => ?_, fun m candidate => ?_, fun m leader => ?_, roles.addressed⟩
  · have other := other_of m leader
    rw [role_becomeCandidate, if_neg other] at leader
    exact roles.live m leader
  · by_cases same : m = n
    · subst same
      simp [Raft.becomeCandidate, persistTermAndVote, Cluster.record, Cluster.updatePersistent,
        Cluster.updateVolatile, Cluster.votedFor]
    · rw [role_becomeCandidate, if_neg same] at candidate
      rw [Cluster.votedFor, persistent_becomeCandidate same]
      exact roles.ballot m candidate
  · have other := other_of m leader
    rw [role_becomeCandidate, if_neg other] at leader
    rw [Cluster.currentTerm, persistent_becomeCandidate other]
    exact roles.recorded m leader

/-- A leader that stands for election wins it in the same call: its own vote is a
quorum, and its next term has no other leader. -/
def SupersedesItself (C : Config ν) (n : ν) (s : Cluster ν) : Prop :=
  hasElectionQuorum C s {n} = true ∧
    (s.leadersByTerm.lookup (s.currentTerm n + 1)).getD n = n

/-- `start_election` of a node that does not lead, or that is elected at once. -/
theorem startElection_books (books : Books s)
    (keeps : s.alive n = true → isVoter C s n = true → s.role n = .leader →
      SupersedesItself C n s) :
    (startElection C n s).Ensures Books fun _ _ => True := by
  unfold startElection
  split
  · exact ⟨books, trivial⟩
  next alive =>
  rw [not_not] at alive
  split
  · exact ⟨books, trivial⟩
  next voter =>
  rw [not_not] at voter
  dsimp only
  have cleared := (sits_clearPreVote n s).books books
  have role : (clearPreVote n s).role n = s.role n := by
    simp [clearPreVote, Cluster.role, Cluster.updateVolatile]
  have voter' : isVoter C (becomeCandidate n (clearPreVote n s)) n = true := voter
  obtain ⟨timer, network, reset⟩ := resetElectionTimeout_of_voter voter'
  have sits := sits_resetElectionTimeout (C := C) n (becomeCandidate n (clearPreVote n s))
  rw [reset] at sits ⊢
  have quorum : hasElectionQuorum C ({ becomeCandidate n (clearPreVote n s) with
      timer := timer, network := network }) {n} = hasElectionQuorum C s {n} := rfl
  have term : ({ becomeCandidate n (clearPreVote n s) with
      timer := timer, network := network } : Cluster ν).currentTerm n = s.currentTerm n + 1 := by
    simp [becomeCandidate, persistTermAndVote, Cluster.updatePersistent, Cluster.record,
      Cluster.currentTerm]
  have candidate : ({ becomeCandidate n (clearPreVote n s) with
      timer := timer, network := network } : Cluster ν).role n = .candidate := by
    simp [becomeCandidate, Cluster.updateVolatile, Cluster.role]
  rw [quorum]
  by_cases leader : s.role n = .leader
  · obtain ⟨alone, free⟩ := keeps alive voter leader
    rw [if_pos alone, ← term]
    have roles := sits.roles cleared.roles.becomeCandidate
    refine becomeLeader_promotes (cleared.accounts.congr rfl rfl rfl) (fun m other => ?_) roles
      alive candidate fun existing found => ?_
    · rw [cleared.roles.leads_eq, roles.leads_eq]
      change _ = if (becomeCandidate n (clearPreVote n s)).role m = .leader then
        some ((becomeCandidate n (clearPreVote n s)).currentTerm m) else none
      rw [role_becomeCandidate, if_neg other, currentTerm_becomeCandidate other]
    · rw [term] at found
      change s.leadersByTerm.lookup (s.currentTerm n + 1) = some existing at found
      rwa [found] at free
  · have stood := ((sits_becomeCandidate (n := n) (role ▸ leader)).trans sits).books cleared
    split
    · exact becomeLeader_books stood alive _
    · refine (sits_sendAll (C.peers n) _ fun dst member ordinal => ?_).books stood
      exact Ne.symm (of_decide_eq_true (List.mem_filter.mp member).2)

/-- `start_pre_vote`. -/
theorem startPreVote_books (books : Books s) (n : ν) :
    (startPreVote C n s).Ensures Books fun _ _ => True := by
  unfold startPreVote
  split
  · exact ⟨books, trivial⟩
  split
  · exact ⟨books, trivial⟩
  split
  · exact books
  next led =>
  dsimp only
  have probed := sits_updateVolatile n s (fun w =>
    { w with preVoteTerm := some (s.currentTerm n + 1), preVotesReceived := {n} }) rfl
  split
  · have cleared := probed.trans (sits_clearPreVote n _)
    exact startElection_books (cleared.books books) fun _ _ leader =>
      absurd ((cleared.leads n).mp leader) led
  · have reset := probed.trans (sits_resetElectionTimeout (C := C) n _)
    exact (reset.trans (sits_sendAll (C.peers n) _ fun _ _ _ => by trivial)).books books

end Elections

/-! ## Handlers -/

section Handlers

variable {s s' : Cluster ν} {n : ν}

theorem handleElectionTimeout_books (books : Books s) (n : ν) (generation : ℕ)
    (deadline : Option ℕ) :
    (handleElectionTimeout C n generation deadline s).Ensures Books fun _ _ => True := by
  unfold handleElectionTimeout
  split
  · exact books
  split
  · exact books
  split
  · exact books
  · exact startPreVote_books books n

theorem Books.handlePreVote (books : Books s) (n src : ν) (request : RequestVote ν) :
    Books (handlePreVote C n src request s) :=
  (sits_send s fun _ => by trivial).books books

theorem handlePreVoteResponse_books (books : Books s) (n : ν) (response : PreVoteResponse ν) :
    (handlePreVoteResponse C n response s).Ensures Books fun _ _ => True := by
  unfold handlePreVoteResponse
  split
  · exact books
  split
  · exact books.advanceTerm n response.term true
  split
  · exact books
  next probing =>
  split
  · exact books
  dsimp only
  have counted := sits_updateVolatile n s (fun w =>
    { w with preVotesReceived := insert response.voterId w.preVotesReceived }) rfl
  split
  · have cleared := counted.trans (sits_clearPreVote n _)
    refine startElection_books (cleared.books books) fun _ _ leader => ?_
    exact absurd (.inr (.inr ((cleared.leads n).mp leader))) probing
  · exact counted.books books

/-- `_handle_request_vote` of a request from another node: a leader that grants
its vote has left its term before. -/
theorem Books.handleRequestVote (books : Books s) {n : ν} (src : ν) {request : RequestVote ν}
    (other : request.candidateId ≠ n) : Books (handleRequestVote C n src request s) := by
  unfold Raft.handleRequestVote
  dsimp only
  have advanced : Books (if isVoter C s request.candidateId = true then
      Raft.advanceTerm C n request.term false s else s) := by
    split
    · exact books.advanceTerm n request.term false
    · exact books
  generalize (if isVoter C s request.candidateId = true then
      Raft.advanceTerm C n request.term false s else s) = u at advanced ⊢
  generalize grants : (isVoter C s n && isVoter C s request.candidateId &&
    decide (request.term = u.currentTerm n) && candidateLogIsUpToDate n request u &&
    decide (u.votedFor n = none ∨ u.votedFor n = some request.candidateId)) = grant
  have granted : Books (if grant = true then grantVote C n request u else u) := by
    split
    next yes =>
      rw [yes, Bool.and_eq_true, decide_eq_true_eq] at grants
      have led : u.role n ≠ .leader := by
        intro leader
        have own := advanced.roles.ballot n (by rw [leader]; decide)
        rw [own] at grants
        rcases grants.2 with absent | same
        · cases absent
        · exact other (Option.some.inj same).symm
      exact ((sits_castVote led _ _).trans ((sits_clearPreVote n _).trans
        (sits_resetElectionTimeout n _))).books advanced
    · exact advanced
  generalize (if grant = true then grantVote C n request u else u) = v at granted ⊢
  refine (sits_send _ fun _ => by trivial).books ?_
  split
  · exact (sits_resetElectionTimeout n _).books granted
  · exact granted

theorem handleRequestVoteResponse_books (books : Books s) {n : ν} (alive : s.alive n = true)
    (response : RequestVoteResponse ν) :
    (handleRequestVoteResponse C n response s).Ensures Books fun _ _ => True := by
  unfold handleRequestVoteResponse
  split
  · exact books
  split
  · exact books.advanceTerm n response.term true
  split
  · exact books
  split
  · exact books
  dsimp only
  have counted := (sits_updateVolatile n s (fun w =>
    { w with votesReceived := insert response.voterId w.votesReceived }) rfl).books books
  split
  · exact becomeLeader_books counted alive response.term
  · exact counted

theorem Books.handleAppendEntriesResponse (books : Books s) (n : ν)
    (response : AppendEntriesResponse ν) :
    Books (handleAppendEntriesResponse C n response s) := by
  unfold Raft.handleAppendEntriesResponse
  split
  · split
    · exact books.advanceTerm n response.term true
    · exact books
  · exact (sits_record s _).books books

/-! ### The log -/

theorem sits_advanceNodeCommit (n : ν) (index : ℕ) (s : Cluster ν) :
    (advanceNodeCommit n index s).Ensures (Sits s) fun _ _ => True := by
  unfold advanceNodeCommit
  split
  · exact ⟨.refl s, trivial⟩
  split
  · exact .refl s
  · exact sits_updateVolatile n s _ rfl

theorem sits_assertLogMatching (s : Cluster ν) :
    (assertLogMatching C s).Ensures (Sits s) fun _ _ => True := by
  unfold assertLogMatching
  split
  · exact .refl s
  · exact ⟨.refl s, trivial⟩

theorem sits_mergeEntries (n : ν) (prevLogIndex : ℕ) (entries : List (LogEntry (Command ν)))
    (s : Cluster ν) :
    (mergeEntries n prevLogIndex entries s).Ensures (Sits s) fun _ _ => True := by
  unfold mergeEntries
  split
  · exact ⟨.refl s, trivial⟩
  · exact sits_updatePersistent n s _ rfl rfl

theorem sits_answerAppendEntries (n src : ν) (request : AppendEntries ν) (success : Bool)
    (matchIndex : ℕ) (s : Cluster ν) :
    Sits s (answerAppendEntries n src request success matchIndex s) :=
  (sits_record s _).trans (sits_send _ fun _ => by trivial)

omit [LinearOrder ν] in
/-- Operations that leave the leaders as they are compose. -/
theorem Sits.bind {β γ : Type} {first : Op ν β} {next : β → Cluster ν → Op ν γ}
    (ensures : first.Ensures (Sits s) fun _ _ => True)
    (keeps : ∀ b t, (next b t).Ensures (Sits t) fun _ _ => True) :
    (first.bind next).Ensures (Sits s) fun _ _ => True :=
  ensures.bind (fun b t _ before => (keeps b t).mono (fun _ => before.trans) fun _ _ => id)
    fun _ => id

/-- A node that adopts a higher term is a follower in it. -/
theorem role_advanceTerm {term : ℕ} (higher : s.currentTerm n < term) (rearm : Bool) :
    (advanceTerm C n term rearm s).role n = .follower := by
  unfold advanceTerm
  rw [if_neg (not_le.mpr higher)]
  dsimp only
  have adopted : (if s.role n = .leader then
      notifyLeaderRetired n (s.currentTerm n) (clearPreVote n (adoptTerm n term s))
      else clearPreVote n (adoptTerm n term s)).role n = .follower := by
    have follower : (clearPreVote n (adoptTerm n term s)).role n = .follower := by
      simp [clearPreVote, adoptTerm, retire, Cluster.role, Cluster.updateVolatile]
    split
    · rw [Cluster.role, volatile_notifyLeaderRetired]
      exact follower
    · exact follower
  split
  · exact role_resetElectionTimeout_of_follower n _ adopted
  · exact adopted

/-- What comes after a step that keeps the books. -/
theorem Books.then {β : Type} {operation : Op ν β} (books : Books s)
    (ensures : operation.Ensures (Sits s) fun _ _ => True) :
    operation.Ensures Books fun _ _ => True :=
  ensures.mono (fun _ sits => sits.books books) fun _ _ => id

/-- `_handle_append_entries`: a leader of the same term is retired, one of a lower
term has left it before. -/
theorem handleAppendEntries_books (books : Books s) (n src : ν) (request : AppendEntries ν) :
    (handleAppendEntries C n src request s).Ensures Books fun _ _ => True := by
  unfold handleAppendEntries
  split
  · exact (sits_send s fun _ => by trivial).books books
  dsimp only
  have advanced := books.advanceTerm (C := C) n request.term false
  split
  · exact (sits_answerAppendEntries n src request false 0 _).books advanced
  next current =>
  rw [not_not] at current
  have told : Books (if s.role n = .leader ∧ request.term = s.currentTerm n then
      notifyLeaderRetired n (s.currentTerm n)
        (clearPreVote n (retire n (advanceTerm C n request.term false s)))
      else clearPreVote n (retire n (advanceTerm C n request.term false s))) := by
    split
    next same =>
      obtain ⟨leader, term⟩ := same
      have stays : advanceTerm C n request.term false s = s := by
        unfold advanceTerm
        rw [if_pos term.le]
      rw [stays]
      refine books.fall leader rfl rfl rfl rfl rfl (fun _ _ => rfl) ?_ (fun m other => ?_)
        fun _ _ => rfl
      · simp [clearPreVote, retire, Cluster.role, Cluster.updateVolatile]
      · simp [clearPreVote, retire, Cluster.updateVolatile, other]
    next differs =>
      refine ((sits_retire ?_).trans (sits_clearPreVote n _)).books advanced
      intro leader
      refine differs ?_
      by_cases higher : request.term ≤ s.currentTerm n
      · have stays : advanceTerm C n request.term false s = s := by
          unfold advanceTerm
          rw [if_pos higher]
        rw [stays] at leader current
        exact ⟨leader, current⟩
      · rw [role_advanceTerm (not_le.mp higher)] at leader
        cases leader
  generalize (if s.role n = .leader ∧ request.term = s.currentTerm n then
      notifyLeaderRetired n (s.currentTerm n)
        (clearPreVote n (retire n (advanceTerm C n request.term false s)))
      else clearPreVote n (retire n (advanceTerm C n request.term false s))) = u at told ⊢
  have reset := (sits_resetElectionTimeout (C := C) n u).books told
  generalize resetElectionTimeout C n u = v at reset ⊢
  split
  · exact (sits_answerAppendEntries n src request false 0 v).books reset
  · refine reset.then (Sits.bind (sits_mergeEntries n _ _ v) fun _ w => ?_)
    refine Sits.bind ?_ fun _ x => Sits.bind (sits_assertLogMatching x) fun _ y =>
      sits_answerAppendEntries n src request true _ y
    split
    · exact sits_advanceNodeCommit n _ w
    · exact .refl w

/-! ### Snapshots -/

theorem sits_installSnapshot (n : ν) (snapshot : KVSnapshot ν) (preserve : Bool) (s : Cluster ν) :
    (installSnapshot C n snapshot preserve s).Ensures (Sits s) fun _ _ => True := by
  unfold installSnapshot
  dsimp only
  split
  · exact ⟨.refl s, trivial⟩
  split
  · split
    · exact ⟨.refl s, trivial⟩
    · exact .refl s
  split
  · exact ⟨.refl s, trivial⟩
  split
  · exact ⟨.refl s, trivial⟩
  next suffix _ =>
  split
  · exact ⟨.refl s, trivial⟩
  split
  · exact ⟨.refl s, trivial⟩
  have written : Sits s (writeSnapshot n snapshot suffix s) := by
    refine .of_roles (fun _ => rfl) (fun m => ?_) rfl rfl rfl rfl rfl fun _ => .inl
    by_cases same : m = n
    · subst same
      simp [writeSnapshot, Cluster.currentTerm, Cluster.votedFor, Cluster.updatePersistent]
    · simp [writeSnapshot, Cluster.currentTerm, Cluster.votedFor, Cluster.updatePersistent, same]
  generalize writeSnapshot n snapshot suffix s = t at written ⊢
  have rest : ((if t.commitIndex n < snapshot.lastIncludedIndex then
        advanceNodeCommit n snapshot.lastIncludedIndex t
      else .returns () t).bind fun _ s =>
        (assertLogMatching C s).bind fun _ s => assertStateMachineSafety C s).Ensures
      (Sits t) fun _ _ => True := by
    refine Sits.bind ?_ fun _ u => Sits.bind (sits_assertLogMatching u) fun _ w => ?_
    · split
      · exact sits_advanceNodeCommit n _ t
      · exact .refl t
    · unfold assertStateMachineSafety
      split
      · exact .refl w
      · exact ⟨.refl w, trivial⟩
  exact rest.mono (fun _ => written.trans) fun _ _ => id

/-- The role that the leader of a term has when it hears from the term's leader. -/
theorem Books.led_of_other (books : Books s) {n leader : ν} {term : ℕ}
    (reached : s.currentTerm n ≤ term) (other : leader ≠ n)
    (recorded : s.leadersByTerm.lookup term = some leader) :
    (Raft.advanceTerm C n term false s).role n ≠ .leader := by
  by_cases higher : s.currentTerm n < term
  · rw [role_advanceTerm higher]
    decide
  · intro leads
    have stays : Raft.advanceTerm C n term false s = s := by
      unfold Raft.advanceTerm
      rw [if_pos (not_lt.mp higher)]
    rw [stays] at leads
    have own := books.roles.recorded n leads
    rw [show s.currentTerm n = term by omega, recorded] at own
    exact other (Option.some.inj own)

/-- `_handle_request` of the snapshot transport. -/
theorem handleInstallSnapshotRequest_books (books : Books s) {request : InstallSnapshotRequest ν}
    (other : request.leaderId ≠ request.followerId)
    (recorded : s.leadersByTerm.lookup request.term = some request.leaderId) :
    (handleInstallSnapshotRequest C request s).Ensures Books fun _ _ => True := by
  unfold handleInstallSnapshotRequest
  dsimp only
  split
  · exact (sits_send s fun _ => by trivial).books books
  next reached =>
  rw [not_or, not_lt] at reached
  have led := books.led_of_other (C := C) reached.2 other recorded
  have prepared :=
    ((sits_retire led).trans (sits_resetElectionTimeout (C := C) request.followerId _)).books
    (books.advanceTerm request.followerId request.term false)
  generalize resetElectionTimeout C request.followerId _ = t at prepared ⊢
  have installs : (handleInstallSnapshotRequest.install C request t).Ensures Books
      fun _ _ => True := by
    unfold handleInstallSnapshotRequest.install
    have installed := prepared.then
      (sits_installSnapshot (C := C) request.followerId request.snapshot true t)
    split
    next u returned =>
      rw [returned] at installed
      exact (sits_send u fun _ => by trivial).books installed
    next violation u raised =>
      rw [raised] at installed
      split
      · exact (sits_send u fun _ => by trivial).books installed.1
      · exact installed
  split
  · split
    · exact (sits_send t fun _ => by trivial).books prepared
    · exact installs
  · exact installs

theorem Books.handleInstallSnapshotResponse (books : Books s)
    (response : InstallSnapshotResponse ν) :
    Books (handleInstallSnapshotResponse C response s) := by
  unfold Raft.handleInstallSnapshotResponse
  dsimp only
  split
  · exact books
  · exact (sits_record _ _).books (books.advanceTerm _ _ _)

end Handlers

end Distlab.Raft
