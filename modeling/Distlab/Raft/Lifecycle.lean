import Distlab.Raft.BookKeeping
import Distlab.Raft.Events

/-!
# The leadership lifecycle

Runs of elections, deliveries, crashes and restarts, with observers and
supervisors that are registered on the way.
-/

set_option autoImplicit false

namespace Distlab.Raft

open Foundations

variable {ν : Type} [LinearOrder ν] {C : Config ν}

/-! ## Events -/

section Events

variable {s : Cluster ν}

/-- `handle_message` of a live receiver. -/
theorem handleMessage_books (books : Books s) {message : Message ν}
    (member : message ∈ s.network) (alive : s.alive message.dst = true)
    (valid : validEnvelope C message = true) :
    (handleMessage C message s).Ensures Books fun _ _ => True := by
  have addressed := books.roles.addressed message member
  obtain ⟨src, dst, payload, ordinal⟩ := message
  unfold handleMessage
  cases payload with
  | electionTimeout generation deadline => exact handleElectionTimeout_books books _ _ _
  | preVote request => exact books.handlePreVote _ _ _
  | preVoteResponse response => exact handlePreVoteResponse_books books _ _
  | requestVote request =>
      refine books.handleRequestVote _ ?_
      have claimed : src = request.candidateId := by
        simp only [validEnvelope, claimedSource] at valid
        exact (of_decide_eq_true valid).2.2
      rw [← claimed]
      exact addressed
  | requestVoteResponse response => exact handleRequestVoteResponse_books books alive _
  | appendEntries request => exact handleAppendEntries_books books _ _ _
  | appendEntriesResponse response => exact books.handleAppendEntriesResponse _ _
  | installSnapshotRequest request =>
      exact handleInstallSnapshotRequest_books books addressed.1 addressed.2
  | installSnapshotResponse response => exact books.handleInstallSnapshotResponse _

theorem deliver_books (books : Books s) (delivery : Delivery) :
    (deliver C delivery s).Ensures Books fun _ _ => True := by
  unfold deliver
  dsimp only
  have elapsed := (sits_elapse s delivery.elapsed).books books
  split
  · exact elapsed
  next message found =>
  split
  · exact elapsed
  next alive =>
  rw [not_not] at alive
  have recorded := (sits_record _ (.deliver message)).books elapsed
  split
  next valid => exact handleMessage_books recorded (List.mem_of_getElem? found) alive valid
  next => exact recorded

theorem sendAppendEntries_books (books : Books s) (n peer : ν) (prevLogIndex : ℕ)
    (entries : List (LogEntry (Command ν))) (leaderCommit : ℕ) :
    (sendAppendEntries C n peer prevLogIndex entries leaderCommit s).Ensures Books
      fun _ _ => True := by
  unfold sendAppendEntries
  split
  · exact ⟨books, trivial⟩
  split
  · exact ⟨books, trivial⟩
  split
  · exact ⟨books, trivial⟩
  split
  · exact ⟨books, trivial⟩
  split
  · exact ⟨books, trivial⟩
  split
  · exact ⟨books, trivial⟩
  · exact (sits_send s fun _ => by trivial).books books

theorem sendInstallSnapshot_books (books : Books s) (leader follower : ν) (term : ℕ)
    (snapshot : KVSnapshot ν) (requestId : ℕ) :
    (sendInstallSnapshot C leader follower term snapshot requestId s).Ensures Books
      fun _ _ => True := by
  unfold sendInstallSnapshot
  split
  · exact ⟨books, trivial⟩
  split
  · exact ⟨books, trivial⟩
  next other =>
  split
  · exact ⟨books, trivial⟩
  split
  · exact ⟨books, trivial⟩
  next authority =>
  split
  · exact ⟨books, trivial⟩
  split
  · exact ⟨books, trivial⟩
  rw [not_or, not_not, not_not] at authority
  obtain ⟨leads, rfl⟩ := authority
  refine (sits_send s fun _ => ?_).books books
  exact ⟨fun same => other (.inr same), books.roles.recorded leader leads⟩

/-- An event of the node protocol, in which leaders come and go. -/
def Event.isLifecycle : Event ν → Bool
  | .startElection _ | .startPreVote _ | .stepDown _ | .deliver _ | .wait _ => true
  | .crash _ | .restart _ | .sendAppendEntries _ _ _ _ _ | .sendInstallSnapshot _ _ _ _ _ => true
  | _ => false

/-- What happens to the leaders of a cluster and to their observers. -/
inductive LifecycleEvent (ν : Type) where
  | event (event : Event ν) (isLifecycle : event.isLifecycle = true)
  | registerObserver (replayActive : Bool)
  | newSupervisor (heartbeatInterval responseTimeout : ℕ)

/-- One event. -/
def lifecycleStep (C : Config ν) (event : LifecycleEvent ν) (s : Cluster ν) : Op ν Unit :=
  match event with
  | .event event _ => step C event s
  | .registerObserver replayActive => registerLeadershipObserver {} replayActive s
  | .newSupervisor heartbeatInterval responseTimeout =>
      newSupervisor C heartbeatInterval responseTimeout s

/-- The state after a run. -/
def lifecycleRun (C : Config ν) (events : List (LifecycleEvent ν)) : Cluster ν :=
  runEvents (lifecycleStep C) events C.fresh

/-- No leader stands for an election that it does not win in the same call. -/
def KeepsAuthority (C : Config ν) (event : LifecycleEvent ν) (s : Cluster ν) : Prop :=
  match event with
  | .event (.startElection n) _ =>
      s.alive n = true → isVoter C s n = true → s.role n = .leader → SupersedesItself C n s
  | _ => True

theorem Books.register (books : Books s) {observer : LeadershipObserver ν} (replay : Bool)
    (start : observer.Accounts (fun _ => none) 0) (unseen : observer.events = [])
    (owner : replay = false → observer.supervisor = none) :
    ∃ t, registerLeadershipObserver observer replay s = .returns () t ∧ Books t := by
  obtain ⟨o, registers, accounts⟩ := books.accounts.registers (fun n t led => by
    obtain ⟨alive, leader, term⟩ := Cluster.leads_eq_some.mp led
    exact ⟨leader, term, alive⟩) observer replay start unseen owner
  refine ⟨_, registers, ⟨⟨books.accounts.active, books.accounts.bounded, books.accounts.distinct,
    fun o' member => ?_⟩, books.roles.live, books.roles.ballot, books.roles.recorded,
    books.roles.addressed⟩⟩
  rcases List.mem_append.mp member with old | new
  · exact books.accounts.observers o' old
  · rw [List.mem_singleton.mp new]
    exact accounts

/-- A supervisor is constructed at any time. -/
theorem Books.newSupervisor (books : Books s) {heartbeatInterval responseTimeout : ℕ}
    (positive : 0 < responseTimeout) (within : responseTimeout ≤ heartbeatInterval) :
    ∃ t, newSupervisor C heartbeatInterval responseTimeout s = .returns () t ∧ Books t := by
  unfold Raft.newSupervisor
  rw [if_neg (by omega)]
  refine books.register _ (.start _ rfl rfl fun v owner => ?_) rfl fun plain => ?_
  · cases owner
    rfl
  · cases plain

/-- **The step lemma.** -/
theorem lifecycleStep_books (books : Books s) (event : LifecycleEvent ν)
    (keeps : KeepsAuthority C event s) :
    (lifecycleStep C event s).Ensures Books fun _ _ => True := by
  cases event with
  | event event isLifecycle =>
      change (step C event s).Ensures Books fun _ _ => True
      unfold step
      split
      · exact ⟨books, trivial⟩
      unfold perform
      cases event with
      | startElection n => exact startElection_books books keeps
      | startPreVote n => exact startPreVote_books books n
      | stepDown n =>
          refine (stepDown_books books n).bind (fun _ _ _ after => after) fun _ => id
      | deliver delivery => exact deliver_books books delivery
      | wait elapsed => exact (sits_elapse s elapsed).books books
      | crash n => exact books.crash n
      | restart n => exact books.restart n
      | sendAppendEntries n peer prevLogIndex entries leaderCommit =>
          exact sendAppendEntries_books books n peer prevLogIndex entries leaderCommit
      | sendInstallSnapshot leader follower term snapshot requestId =>
          exact sendInstallSnapshot_books books leader follower term snapshot requestId
      | _ => cases isLifecycle
  | registerObserver replay =>
      obtain ⟨t, registers, after⟩ := books.register replay
        (.start {} rfl rfl fun v owner => by cases owner) rfl fun _ => rfl
      rw [lifecycleStep, registers]
      exact after
  | newSupervisor heartbeatInterval responseTimeout =>
      by_cases valid : 0 < responseTimeout ∧ responseTimeout ≤ heartbeatInterval
      · obtain ⟨t, constructs, after⟩ := books.newSupervisor (C := C) valid.1 valid.2
        rw [lifecycleStep, constructs]
        exact after
      · rw [lifecycleStep, newSupervisor, if_pos (by omega)]
        exact ⟨books, trivial⟩

/-- A new cluster has no leaders. -/
theorem fresh_books (C : Config ν) : Books C.fresh := by
  have timers : ∀ (nodes : List ν) (s : Cluster ν), Books s →
      Books (nodes.foldl (fun s n => resetElectionTimeout C n s) s) := by
    intro nodes
    induction nodes with
    | nil => exact fun _ => id
    | cons n rest ih => exact fun s books => ih _ ((sits_resetElectionTimeout n s).books books)
  refine timers C.nodeIds _ ⟨⟨fun n => rfl, fun n t g found => ?_, fun n m t u g found => ?_,
    fun o member => ?_⟩, fun n leader => ?_, fun n role => ?_, fun n leader => ?_,
    fun m member => ?_⟩
  · cases found
  · cases found
  · cases member
  · cases leader
  · exact absurd rfl role
  · cases leader
  · cases member

/-- **The leadership lifecycle.** In every run in which no leader stands for an
election that it does not win in the same call, the active generations are those
of the live leaders, in their terms; the observers see acquisitions and
retirements of a node in turn, and generations in increasing order; no call of an
observer raises, and the runtimes of a supervisor are those of the active
generations. A supervisor can be constructed at any time. -/
theorem leadership_lifecycle (C : Config ν) (events : List (LifecycleEvent ν))
    (keeps : EveryStep (lifecycleStep C) (KeepsAuthority C) events C.fresh) :
    (∀ n t, (∃ g, (lifecycleRun C events).activeLeaderGenerations.lookup n = some (t, g)) ↔
      (lifecycleRun C events).alive n = true ∧ (lifecycleRun C events).role n = .leader ∧
        (lifecycleRun C events).currentTerm n = t) ∧
    (∀ o ∈ (lifecycleRun C events).leadershipObservers,
      o.raised = none ∧ o.acquisitions.Pairwise (· < ·) ∧
        (∀ n, (o.eventsOf n).IsChain LeadershipLifecycleEvent.Precedes) ∧
        ∀ v ∈ o.supervisor, ∀ n, v.activeRuntime n =
          ((lifecycleRun C events).activeLeaderGenerations.lookup n).map
            fun held => ⟨n, held.1, held.2⟩) ∧
    ∀ heartbeatInterval responseTimeout, 0 < responseTimeout →
      responseTimeout ≤ heartbeatInterval →
      ∃ t, newSupervisor C heartbeatInterval responseTimeout (lifecycleRun C events) =
        .returns () t := by
  have books : Books (lifecycleRun C events) :=
    runEvents_invariant_of_everyStep (P := Books) (fun event s books keeps =>
      (lifecycleStep_books books event keeps).state) events C.fresh (fresh_books C) keeps
  refine ⟨fun n t => ?_, fun o member => ?_, fun interval timeout positive within => ?_⟩
  · rw [← Cluster.leads_eq_some, ← books.accounts.active n, Option.map_eq_some_iff]
    constructor
    · rintro ⟨g, found⟩
      exact ⟨(t, g), found, rfl⟩
    · rintro ⟨⟨t', g⟩, found, rfl⟩
      exact ⟨g, found⟩
  · have accounts := books.accounts.observers o member
    exact ⟨accounts.silent, accounts.increasing, accounts.alternates, accounts.supervised⟩
  · obtain ⟨t, constructs, -⟩ := books.newSupervisor (C := C) positive within
    exact ⟨t, constructs⟩

/-- Three nodes of fixed membership. -/
def trio : Config ℕ where
  nodeIds := [3, 4, 5]
  nonempty := by decide
  nodup := by decide

/-- A node is elected under a supervisor, and another one takes its place. -/
def succession : List (LifecycleEvent ℕ) :=
  [.newSupervisor 4 2, .event (.startElection 3) rfl, .event (.deliver ⟨0, 1⟩) rfl,
    .event (.deliver ⟨2, 1⟩) rfl, .event (.startElection 4) rfl, .event (.deliver ⟨3, 1⟩) rfl,
    .event (.deliver ⟨5, 1⟩) rfl, .registerObserver true]

theorem succession_accounted :
    (∃ g, (lifecycleRun trio succession).activeLeaderGenerations.lookup 4 = some (2, g)) ∧
      (∀ t g, (lifecycleRun trio succession).activeLeaderGenerations.lookup 3 ≠ some (t, g)) ∧
      ∃ t, newSupervisor trio 6 3 (lifecycleRun trio succession) = .returns () t := by
  have keeps : EveryStep (lifecycleStep trio) (KeepsAuthority trio) succession trio.fresh := by
    refine ⟨trivial, fun _ _ leader => ?_, trivial, trivial, fun _ _ leader => ?_, trivial,
      trivial, trivial, trivial⟩
    · exact absurd leader (by decide +kernel)
    · exact absurd leader (by decide +kernel)
  obtain ⟨active, -, constructs⟩ := leadership_lifecycle trio succession keeps
  refine ⟨(active 4 2).mpr (by decide +kernel), fun t g found => ?_,
    constructs 6 3 (by decide) (by decide)⟩
  exact absurd ((active 3 t).mp ⟨g, found⟩).2.1 (by decide +kernel)

/-- A leader stands for election and waits for the votes. -/
def reelection : List (LifecycleEvent ℕ) :=
  [.event (.startElection 3) rfl, .event (.deliver ⟨0, 1⟩) rfl, .event (.deliver ⟨2, 1⟩) rfl,
    .event (.startElection 3) rfl]

/-- The generation of the former leader is still active, and no supervisor can be
constructed over it. -/
theorem reelection_unaccounted :
    (lifecycleRun trio reelection).activeLeaderGenerations.lookup 3 = some (1, 1) ∧
      (lifecycleRun trio reelection).role 3 = .candidate ∧
      (lifecycleRun trio reelection).currentTerm 3 = 2 ∧
      (newSupervisor trio 4 2 (lifecycleRun trio reelection)).error? =
        some (.leaderRuntime 3) := by
  decide +kernel

end Events

end Distlab.Raft
