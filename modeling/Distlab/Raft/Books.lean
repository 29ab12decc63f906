import Distlab.Raft.Accounts
import Distlab.Raft.Operations

/-!
# The books of the leaders

Whenever a node becomes the leader of a term or ends to be it, the cluster tells
its observers. The invariant relates the active generations to the roles of the
nodes; every handler either leaves the leaders as they are or tells of the one
that it changes. Only an election that a leader starts does not.
-/

set_option autoImplicit false

namespace Distlab.Raft

open Foundations

variable {ν : Type}

/-! ## The invariant -/

/-- The term that a node leads in. -/
def Cluster.leads (s : Cluster ν) (n : ν) : Option ℕ :=
  if s.alive n = true ∧ s.role n = .leader then some (s.currentTerm n) else none

/-- A vote request goes to another node than the candidate, and a snapshot from
the leader of its term to another node. -/
def Addressed (leaders : Dict ℕ ν) (m : Message ν) : Prop :=
  match m.payload with
  | .requestVote _ => m.src ≠ m.dst
  | .installSnapshotRequest request =>
      request.leaderId ≠ request.followerId ∧
        leaders.lookup request.term = some request.leaderId
  | _ => True

/-- The roles of the nodes: a candidate or leader has voted for itself, and a
leader is alive and recorded. -/
structure Roles (s : Cluster ν) : Prop where
  live : ∀ n, s.role n = .leader → s.alive n = true
  ballot : ∀ n, s.role n ≠ .follower → s.votedFor n = some n
  recorded : ∀ n, s.role n = .leader → s.leadersByTerm.lookup (s.currentTerm n) = some n
  addressed : ∀ m ∈ s.network, Addressed s.leadersByTerm m

theorem Roles.leads_eq {s : Cluster ν} (roles : Roles s) (n : ν) :
    s.leads n = if s.role n = .leader then some (s.currentTerm n) else none := by
  by_cases leader : s.role n = .leader
  · simp [Cluster.leads, leader, roles.live n leader]
  · simp [Cluster.leads, leader]

theorem Cluster.leads_eq_some {s : Cluster ν} {n : ν} {t : ℕ} :
    s.leads n = some t ↔ s.alive n = true ∧ s.role n = .leader ∧ s.currentTerm n = t := by
  unfold Cluster.leads
  split
  next authority => simp [authority]
  next none =>
    constructor
    · intro found
      cases found
    · rintro ⟨alive, role, -⟩
      exact absurd ⟨alive, role⟩ none

/-! ## Steps that leave the leaders as they are -/

/-- The leaders of `s` are those of `s'`, in the same terms. -/
structure Sits (s s' : Cluster ν) : Prop where
  active : s'.activeLeaderGenerations = s.activeLeaderGenerations
  generation : s'.leadershipGeneration = s.leadershipGeneration
  observers : s'.leadershipObservers = s.leadershipObservers
  leaders : s'.leadersByTerm = s.leadersByTerm
  leads : ∀ n, s'.role n = .leader ↔ s.role n = .leader
  alive : ∀ n, s.role n = .leader → s'.alive n = s.alive n
  terms : ∀ n, s.role n = .leader → s'.currentTerm n = s.currentTerm n
  ballots : ∀ n, s'.role n ≠ .follower → s'.votedFor n = some n ∨
    (s.role n ≠ .follower ∧ s'.votedFor n = s.votedFor n)
  network : ∀ m ∈ s'.network, m ∈ s.network ∨ Addressed s.leadersByTerm m

namespace Sits

variable {s s' s'' : Cluster ν}

theorem refl (s : Cluster ν) : Sits s s where
  active := rfl
  generation := rfl
  observers := rfl
  leaders := rfl
  leads _ := Iff.rfl
  alive _ _ := rfl
  terms _ _ := rfl
  ballots _ role := .inr ⟨role, rfl⟩
  network _ := .inl

theorem trans (first : Sits s s') (second : Sits s' s'') : Sits s s'' where
  active := second.active.trans first.active
  generation := second.generation.trans first.generation
  observers := second.observers.trans first.observers
  leaders := second.leaders.trans first.leaders
  leads n := (second.leads n).trans (first.leads n)
  alive n leader := (second.alive n ((first.leads n).mpr leader)).trans (first.alive n leader)
  terms n leader := (second.terms n ((first.leads n).mpr leader)).trans (first.terms n leader)
  ballots n role := by
    rcases second.ballots n role with own | ⟨role', same⟩
    · exact .inl own
    · rw [same]
      exact first.ballots n role'
  network m member := by
    rcases second.network m member with old | new
    · exact first.network m old
    · rw [first.leaders] at new
      exact .inr new

theorem roles (sits : Sits s s') (before : Roles s) : Roles s' where
  live n leader := by
    have led := (sits.leads n).mp leader
    rw [sits.alive n led]
    exact before.live n led
  ballot n role := by
    rcases sits.ballots n role with own | ⟨role', same⟩
    · exact own
    · rw [same]
      exact before.ballot n role'
  recorded n leader := by
    have led := (sits.leads n).mp leader
    rw [sits.terms n led, sits.leaders]
    exact before.recorded n led
  addressed m member := by
    rw [sits.leaders]
    exact (sits.network m member).elim (before.addressed m) id

/-- A step of one node that is no leader, before or after it. -/
theorem of_node {n : ν} (led : s.role n ≠ .leader) (leads : s'.role n ≠ .leader)
    (ballot : s'.role n ≠ .follower → s'.votedFor n = some n ∨
      (s.role n ≠ .follower ∧ s'.votedFor n = s.votedFor n))
    (volatile : ∀ m, m ≠ n → s'.volatile m = s.volatile m)
    (persistent : ∀ m, m ≠ n → s'.persistent m = s.persistent m)
    (alive : ∀ m, m ≠ n → s'.alive m = s.alive m)
    (active : s'.activeLeaderGenerations = s.activeLeaderGenerations)
    (generation : s'.leadershipGeneration = s.leadershipGeneration)
    (observers : s'.leadershipObservers = s.leadershipObservers)
    (leaders : s'.leadersByTerm = s.leadersByTerm) (network : s'.network = s.network) :
    Sits s s' := by
  have role : ∀ m, m ≠ n → s'.role m = s.role m := by
    intro m other
    rw [Cluster.role, volatile m other, Cluster.role]
  refine ⟨active, generation, observers, leaders, fun m => ?_, fun m leader => ?_,
    fun m leader => ?_, fun m candidate => ?_, fun m member => .inl (network ▸ member)⟩
  · by_cases same : m = n
    · subst same
      exact ⟨fun leader => absurd leader leads, fun leader => absurd leader led⟩
    · rw [role m same]
  · exact alive m fun same => led (same ▸ leader)
  · rw [Cluster.currentTerm, persistent m fun same => led (same ▸ leader), Cluster.currentTerm]
  · by_cases same : m = n
    · subst same
      exact ballot candidate
    · rw [role m same] at candidate
      refine .inr ⟨candidate, ?_⟩
      rw [Cluster.votedFor, persistent m same, Cluster.votedFor]

/-- A step that keeps the roles, the terms and the votes. -/
theorem of_roles (role : ∀ n, s'.role n = s.role n)
    (persistent : ∀ n, s'.currentTerm n = s.currentTerm n ∧ s'.votedFor n = s.votedFor n)
    (alive : s'.alive = s.alive)
    (active : s'.activeLeaderGenerations = s.activeLeaderGenerations)
    (generation : s'.leadershipGeneration = s.leadershipGeneration)
    (observers : s'.leadershipObservers = s.leadershipObservers)
    (leaders : s'.leadersByTerm = s.leadersByTerm)
    (network : ∀ m ∈ s'.network, m ∈ s.network ∨ Addressed s.leadersByTerm m) : Sits s s' where
  active := active
  generation := generation
  observers := observers
  leaders := leaders
  leads n := by rw [role]
  alive n _ := congrFun alive n
  terms n _ := (persistent n).1
  ballots n candidate := .inr ⟨role n ▸ candidate, (persistent n).2⟩
  network := network

end Sits

variable [LinearOrder ν] {C : Config ν}

/-- The active generations and the observers account for the leaders. -/
structure Books (s : Cluster ν) : Prop where
  accounts : Accounts s.leads s
  roles : Roles s

section Books

variable {s s' : Cluster ν}

theorem Sits.accounts (sits : Sits s s') {leads : ν → Option ℕ} (before : Accounts leads s) :
    Accounts leads s' :=
  before.congr sits.active sits.generation sits.observers

/-- **Such a step keeps the books.** -/
theorem Sits.books (sits : Sits s s') (before : Books s) : Books s' := by
  have roles := sits.roles before.roles
  have same : s'.leads = s.leads := by
    funext n
    rw [roles.leads_eq, before.roles.leads_eq]
    by_cases leader : s.role n = .leader
    · rw [if_pos leader, if_pos ((sits.leads n).mpr leader), sits.terms n leader]
    · rw [if_neg leader, if_neg (mt (sits.leads n).mp leader)]
  exact ⟨same ▸ sits.accounts before.accounts, roles⟩

end Books

/-! ## Steps of the roles -/

section Steps

variable (n : ν) (s : Cluster ν)

omit [LinearOrder ν] in
theorem sits_record (entry : TraceRecord ν) : Sits s (s.record entry) :=
  .of_roles (fun _ => rfl) (fun _ => ⟨rfl, rfl⟩) rfl rfl rfl rfl rfl fun _ => .inl

theorem sits_send {src dst : ν} {payload : Payload ν} (addressed : ∀ ordinal,
    Addressed s.leadersByTerm ⟨src, dst, payload, ordinal⟩) : Sits s (s.send src dst payload) := by
  refine .of_roles (fun _ => rfl) (fun _ => ⟨rfl, rfl⟩) rfl rfl rfl rfl rfl fun m member => ?_
  rcases List.mem_append.mp member with old | new
  · exact .inl old
  · rw [List.mem_singleton.mp new]
    exact .inr (addressed _)

theorem sits_sendAll {src : ν} {payload : Payload ν} (dsts : List ν) (s : Cluster ν)
    (addressed : ∀ dst ∈ dsts, ∀ ordinal,
      Addressed s.leadersByTerm ⟨src, dst, payload, ordinal⟩) :
    Sits s (s.sendAll src dsts payload) := by
  induction dsts generalizing s with
  | nil => exact .refl s
  | cons dst rest ih =>
      have first := sits_send s (addressed dst List.mem_cons_self)
      refine first.trans (ih _ fun other member ordinal => ?_)
      rw [first.leaders]
      exact addressed other (List.mem_cons_of_mem _ member) ordinal

omit [LinearOrder ν] in
theorem sits_elapse (elapsed : ℕ) : Sits s (s.elapse elapsed) :=
  .of_roles (fun _ => rfl) (fun _ => ⟨rfl, rfl⟩) rfl rfl rfl rfl rfl fun _ => .inl

theorem sits_updateTimer (f : ElectionTimer → ElectionTimer) : Sits s (s.updateTimer n f) :=
  .of_roles (fun _ => rfl) (fun _ => ⟨rfl, rfl⟩) rfl rfl rfl rfl rfl fun _ => .inl

omit [LinearOrder ν] in
theorem sits_schedule {generation : ℕ} {deadline : Option ℕ} :
    Sits s (s.schedule n (.electionTimeout generation deadline)) := by
  refine .of_roles (fun _ => rfl) (fun _ => ⟨rfl, rfl⟩) rfl rfl rfl rfl rfl fun m member => ?_
  rcases List.mem_append.mp member with old | new
  · exact .inl old
  · rw [List.mem_singleton.mp new]
    exact .inr trivial

/-- A volatile write that keeps the role. -/
theorem sits_updateVolatile (f : Volatile ν → Volatile ν)
    (role : (f (s.volatile n)).role = (s.volatile n).role) : Sits s (s.updateVolatile n f) := by
  refine .of_roles (fun m => ?_) (fun _ => ⟨rfl, rfl⟩) rfl rfl rfl rfl rfl fun _ => .inl
  by_cases same : m = n
  · subst same
    simpa [Cluster.role, Cluster.updateVolatile] using role
  · simp [Cluster.role, Cluster.updateVolatile, same]

/-- A durable write that keeps the term and the vote. -/
theorem sits_updatePersistent (f : Persistent ν → Persistent ν)
    (term : (f (s.persistent n)).currentTerm = (s.persistent n).currentTerm)
    (vote : (f (s.persistent n)).votedFor = (s.persistent n).votedFor) :
    Sits s (s.updatePersistent n f) := by
  refine .of_roles (fun _ => rfl) (fun m => ?_) rfl rfl rfl rfl rfl fun _ => .inl
  by_cases same : m = n
  · subst same
    simpa [Cluster.currentTerm, Cluster.votedFor, Cluster.updatePersistent] using ⟨term, vote⟩
  · simp [Cluster.currentTerm, Cluster.votedFor, Cluster.updatePersistent, same]

theorem sits_clearPreVote : Sits s (clearPreVote n s) := sits_updateVolatile n s _ rfl

variable {n s}

theorem sits_retire (led : s.role n ≠ .leader) : Sits s (retire n s) :=
  .of_node led (by simp [retire, Cluster.role, Cluster.updateVolatile])
    (fun role => absurd (by simp [retire, Cluster.role, Cluster.updateVolatile]) role)
    (fun m other => by simp [retire, Cluster.updateVolatile, other]) (fun _ _ => rfl)
    (fun _ _ => rfl) rfl rfl rfl rfl rfl

theorem sits_adoptTerm (led : s.role n ≠ .leader) (term : ℕ) : Sits s (adoptTerm n term s) :=
  .of_node led
    (by simp [adoptTerm, retire, Cluster.role, Cluster.updateVolatile])
    (fun role => absurd (by simp [adoptTerm, retire, Cluster.role, Cluster.updateVolatile]) role)
    (fun m other => by
      simp [adoptTerm, retire, persistTermAndVote, Cluster.updateVolatile, Cluster.record,
        Cluster.updatePersistent, other])
    (fun m other => by
      simp [adoptTerm, retire, persistTermAndVote, Cluster.updateVolatile, Cluster.record,
        Cluster.updatePersistent, other])
    (fun _ _ => rfl) rfl rfl rfl rfl rfl

theorem sits_castVote (led : s.role n ≠ .leader) (term : ℕ) (candidate : ν) :
    Sits s (castVote n term candidate s) :=
  .of_node led
    (by simp [castVote, Cluster.role, Cluster.updateVolatile])
    (fun role => absurd (by simp [castVote, Cluster.role, Cluster.updateVolatile]) role)
    (fun m other => by
      simp [castVote, persistTermAndVote, Cluster.updateVolatile, Cluster.record,
        Cluster.updatePersistent, other])
    (fun m other => by
      simp [castVote, persistTermAndVote, Cluster.updateVolatile, Cluster.record,
        Cluster.updatePersistent, other])
    (fun _ _ => rfl) rfl rfl rfl rfl rfl

theorem sits_becomeCandidate (led : s.role n ≠ .leader) : Sits s (becomeCandidate n s) :=
  .of_node led
    (by simp [becomeCandidate, Cluster.role, Cluster.updateVolatile])
    (fun _ => .inl (by
      simp [becomeCandidate, persistTermAndVote, Cluster.votedFor, Cluster.updateVolatile,
        Cluster.record, Cluster.updatePersistent]))
    (fun m other => by
      simp [becomeCandidate, persistTermAndVote, Cluster.updateVolatile, Cluster.record,
        Cluster.updatePersistent, other])
    (fun m other => by
      simp [becomeCandidate, persistTermAndVote, Cluster.updateVolatile, Cluster.record,
        Cluster.updatePersistent, other])
    (fun _ _ => rfl) rfl rfl rfl rfl rfl

variable (n s)

theorem sits_disableElectionTimeout : Sits s (disableElectionTimeout n s) := by
  unfold disableElectionTimeout
  dsimp only
  set t := s.updateTimer n fun t => { t with generation := t.generation + 1 }
  have cleared : Sits t (if (t.volatile n).preVoteTerm.isSome then clearPreVote n t else t) := by
    split
    · exact sits_clearPreVote n t
    · exact .refl t
  generalize (if (t.volatile n).preVoteTerm.isSome then clearPreVote n t else t) = u at cleared ⊢
  refine (sits_updateTimer n s _).trans (cleared.trans ?_)
  split
  next candidate =>
    refine sits_retire fun leader => ?_
    rw [candidate] at leader
    cases leader
  next => exact .refl u

theorem sits_resetElectionTimeout : Sits s (resetElectionTimeout C n s) := by
  unfold resetElectionTimeout
  split
  · exact sits_disableElectionTimeout n s
  · split
    · exact .refl s
    · split
      · exact .refl s
      · exact (sits_updateTimer n s _).trans (sits_schedule n _)

end Steps

/-! ## Handlers that retire a leader -/

section Retiring

variable {s s' : Cluster ν} {n : ν}

/-- The leaders after a step of one node, when the cluster is told that the node
retired. -/
theorem Books.retires (books : Books s) {t : ℕ} (led : s.leads n = some t)
    (active : s'.activeLeaderGenerations = s.activeLeaderGenerations)
    (generation : s'.leadershipGeneration = s.leadershipGeneration)
    (observers : s'.leadershipObservers = s.leadershipObservers)
    (gone : s'.leads n = none) (others : ∀ m, m ≠ n → s'.leads m = s.leads m) :
    Accounts s'.leads (notifyLeaderRetired n t s') := by
  have leads : s'.leads = Function.update s.leads n none := by
    funext m
    by_cases same : m = n
    · subst same
      rw [gone, Function.update_self]
    · rw [others m same, Function.update_of_ne same]
  have told := (books.accounts.congr active generation observers).retired led
  rwa [← leads] at told

/-- What a notification leaves unchanged. -/
theorem leads_notifyLeaderRetired (t : ℕ) : (notifyLeaderRetired n t s).leads = s.leads := by
  obtain ⟨active, observers, told⟩ := notifyLeaderRetired_eq n t s
  rw [told]
  rfl

theorem Roles.notifyLeaderRetired (roles : Roles s) (t : ℕ) :
    Roles (notifyLeaderRetired n t s) := by
  obtain ⟨active, observers, told⟩ := notifyLeaderRetired_eq n t s
  rw [told]
  exact ⟨roles.live, roles.ballot, roles.recorded, roles.addressed⟩

/-- A leader falls back to follower, in a term that may be higher, and the cluster
is told. -/
theorem Books.fall (books : Books s) (leader : s.role n = .leader)
    (active : s'.activeLeaderGenerations = s.activeLeaderGenerations)
    (generation : s'.leadershipGeneration = s.leadershipGeneration)
    (observers : s'.leadershipObservers = s.leadershipObservers)
    (leaders : s'.leadersByTerm = s.leadersByTerm) (network : s'.network = s.network)
    (alive : ∀ m, m ≠ n → s'.alive m = s.alive m) (role : s'.role n = .follower)
    (volatile : ∀ m, m ≠ n → s'.volatile m = s.volatile m)
    (persistent : ∀ m, m ≠ n → s'.persistent m = s.persistent m) :
    Books (notifyLeaderRetired n (s.currentTerm n) s') := by
  have role_of : ∀ m, m ≠ n → s'.role m = s.role m := by
    intro m other
    rw [Cluster.role, volatile m other, Cluster.role]
  have not_same : ∀ m, s'.role m ≠ .follower → m ≠ n := by
    rintro m fallen rfl
    exact fallen role
  have roles : Roles s' := by
    refine ⟨fun m leads => ?_, fun m candidate => ?_, fun m leads => ?_, fun m member => ?_⟩
    · have other := not_same m (by rw [leads]; decide)
      rw [alive m other]
      exact books.roles.live m (role_of m other ▸ leads)
    · have other := not_same m candidate
      rw [Cluster.votedFor, persistent m other]
      exact books.roles.ballot m (role_of m other ▸ candidate)
    · have other := not_same m (by rw [leads]; decide)
      rw [Cluster.currentTerm, persistent m other, leaders]
      exact books.roles.recorded m (role_of m other ▸ leads)
    · rw [leaders]
      exact books.roles.addressed m (network ▸ member)
  have led : s.leads n = some (s.currentTerm n) := by
    rw [books.roles.leads_eq, if_pos leader]
  refine ⟨?_, roles.notifyLeaderRetired _⟩
  rw [leads_notifyLeaderRetired]
  refine books.retires led active generation observers ?_ fun m other => ?_
  · rw [roles.leads_eq, role]
    rfl
  · rw [roles.leads_eq, books.roles.leads_eq, role_of m other, Cluster.currentTerm,
      persistent m other, Cluster.currentTerm]

/-- `_advance_term`. -/
theorem Books.advanceTerm (books : Books s) (n : ν) (term : ℕ) (rearm : Bool) :
    Books (advanceTerm C n term rearm s) := by
  unfold Raft.advanceTerm
  split
  next => exact books
  next =>
    dsimp only
    have told : Books (if s.role n = .leader then
        notifyLeaderRetired n (s.currentTerm n) (clearPreVote n (adoptTerm n term s))
        else clearPreVote n (adoptTerm n term s)) := by
      split
      next leader =>
        refine books.fall leader rfl rfl rfl rfl rfl (fun _ _ => rfl) ?_ (fun m other => ?_)
          fun m other => ?_
        · simp [clearPreVote, adoptTerm, retire, Cluster.role, Cluster.updateVolatile]
        · simp [clearPreVote, adoptTerm, retire, persistTermAndVote, Cluster.updateVolatile,
            Cluster.record, Cluster.updatePersistent, other]
        · simp [clearPreVote, adoptTerm, retire, persistTermAndVote, Cluster.updateVolatile,
            Cluster.record, Cluster.updatePersistent, other]
      next led => exact ((sits_adoptTerm led term).trans (sits_clearPreVote n _)).books books
    split
    · exact (sits_resetElectionTimeout n _).books told
    · exact told

/-- `step_down`. -/
theorem stepDown_books (books : Books s) (n : ν) :
    (stepDown C n s).Ensures Books fun _ _ => True := by
  unfold stepDown
  split
  · exact ⟨books, trivial⟩
  · split
    next => exact books
    next leader =>
      rw [not_not] at leader
      refine (sits_resetElectionTimeout n _).books (books.fall leader rfl rfl rfl rfl rfl
        (fun _ _ => rfl) ?_ (fun m other => ?_) fun _ _ => rfl)
      · simp [clearPreVote, retire, Cluster.role, Cluster.updateVolatile]
      · simp [clearPreVote, retire, Cluster.updateVolatile, other]

/-- An observer of a retirement does not look at the volatile state. -/
theorem notifyLeaderRetired_updateVolatile (t : ℕ) (f : Volatile ν → Volatile ν) :
    (notifyLeaderRetired n t s).updateVolatile n f =
      notifyLeaderRetired n t (s.updateVolatile n f) := by
  unfold notifyLeaderRetired
  have same : (s.updateVolatile n f).activeLeaderGenerations = s.activeLeaderGenerations := rfl
  rw [same]
  split
  · rfl
  · split <;> rfl

/-- `handle_crash`. -/
theorem Books.crash (books : Books s) (n : ν) : Books (crash n s) := by
  unfold Raft.crash
  dsimp only
  split
  next leader =>
    rw [notifyLeaderRetired_updateVolatile]
    refine books.fall leader rfl rfl rfl rfl rfl (fun m other => ?_) ?_ (fun m other => ?_)
      fun _ _ => rfl
    · simp [Cluster.updateVolatile, other]
    · simp [Cluster.role, Cluster.updateVolatile]
    · simp [Cluster.updateVolatile, other]
  next led =>
    have follower : (({ s with alive := Function.update s.alive n false }).updateVolatile n
        fun _ => {}).role n = .follower := by
      simp [Cluster.role, Cluster.updateVolatile]
    refine Sits.books (s := s) (.of_node (n := n) led ?_ (fun role => absurd follower role)
      (fun m other => ?_) (fun _ _ => rfl) (fun m other => ?_) rfl rfl rfl rfl rfl) books
    · rw [follower]
      decide
    · simp [Cluster.updateVolatile, other]
    · simp [Cluster.updateVolatile, other]

/-- `handle_restart`. -/
theorem Books.restart (books : Books s) (n : ν) : Books (restart C n s) := by
  unfold Raft.restart
  refine ((sits_updateTimer n _ _).trans (sits_resetElectionTimeout n _)).books ?_
  have follower : (({ s with alive := Function.update s.alive n true }).updateVolatile n
      fun _ => {}).role n = .follower := by
    simp [Cluster.role, Cluster.updateVolatile]
  have active := books.accounts.active n
  split
  next absent =>
    rw [Cluster.activeGeneration, show s.activeLeaderGenerations.lookup n = none from absent,
      books.roles.leads_eq] at active
    have led : s.role n ≠ .leader := by
      intro leader
      rw [if_pos leader] at active
      cases active
    refine Sits.books (s := s) (.of_node (n := n) led ?_ (fun role => absurd follower role)
      (fun m other => ?_) (fun _ _ => rfl) (fun m other => ?_) rfl rfl rfl rfl rfl) books
    · rw [follower]
      decide
    · simp [Cluster.updateVolatile, other]
    · simp [Cluster.updateVolatile, other]
  next held found =>
    rw [Cluster.activeGeneration, show s.activeLeaderGenerations.lookup n = some held from found,
      Option.map_some] at active
    obtain ⟨-, leader, term⟩ := Cluster.leads_eq_some.mp active.symm
    rw [← term]
    refine books.fall leader rfl rfl rfl rfl rfl (fun m other => ?_) follower (fun m other => ?_)
      fun _ _ => rfl
    · simp [Cluster.updateVolatile, other]
    · simp [Cluster.updateVolatile, other]

end Retiring

end Distlab.Raft
