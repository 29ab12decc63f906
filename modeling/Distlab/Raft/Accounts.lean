import Mathlib.Data.List.Chain
import Distlab.Raft.Node

/-!
# Observers account for the leaders

The map of active generations accounts for a function from nodes to the terms
they lead in, and the observers account for the map: the events of a node
alternate, and a supervisor has the runtimes of the active generations.
-/

set_option autoImplicit false

namespace Distlab.Raft

open Foundations

variable {ν : Type} [LinearOrder ν]

/-! ## One observer -/

/-- The event `next` may follow the event `last` of its node: an acquisition is
retired once, with its own term and generation. -/
def LeadershipLifecycleEvent.Precedes (last next : LeadershipLifecycleEvent ν) : Prop :=
  match last.kind with
  | .acquired =>
      next.kind = .retired ∧ next.term = last.term ∧ next.generation = last.generation
  | .retired => next.kind = .acquired

/-- The events of a node, in order. -/
def LeadershipObserver.eventsOf (o : LeadershipObserver ν) (n : ν) :
    List (LeadershipLifecycleEvent ν) :=
  o.events.filter (·.nodeId = n)

/-- The generations that an observer saw acquired, in order. -/
def LeadershipObserver.acquisitions (o : LeadershipObserver ν) : List ℕ :=
  (o.events.filter (·.kind = .acquired)).map (·.generation)

/-- The last event of a node agrees with its active term and generation. -/
def Latest (active : Option (ℕ × ℕ)) (n : ν) (last : LeadershipLifecycleEvent ν) : Prop :=
  match active with
  | none => last.kind = .retired
  | some (term, generation) => last = ⟨.acquired, generation, n, term⟩

/-- The observer accounts for the active generations, the last of which is not
above `generation`. -/
structure LeadershipObserver.Accounts (active : ν → Option (ℕ × ℕ)) (generation : ℕ)
    (o : LeadershipObserver ν) : Prop where
  silent : o.raised = none
  bounded : ∀ e ∈ o.events, e.generation ≤ generation
  increasing : o.acquisitions.Pairwise (· < ·)
  alternates : ∀ n, (o.eventsOf n).IsChain LeadershipLifecycleEvent.Precedes
  latest : ∀ n, ∀ e ∈ (o.eventsOf n).getLast?, Latest (active n) n e
  supervised : ∀ v ∈ o.supervisor, ∀ n,
    v.activeRuntime n = (active n).map fun held => ⟨n, held.1, held.2⟩

/-! ### A call of the observer -/

namespace LeadershipObserver

@[simp] theorem events_notify (s : Cluster ν) (event : LeadershipLifecycleEvent ν)
    (o : LeadershipObserver ν) : (o.notify s event).events = o.events ++ [event] := by
  unfold notify
  dsimp only
  split
  · rfl
  · split <;> rfl

/-- The events of a node after a call. -/
theorem eventsOf_notify (s : Cluster ν) (event : LeadershipLifecycleEvent ν)
    (o : LeadershipObserver ν) (n : ν) : (o.notify s event).eventsOf n =
      if event.nodeId = n then o.eventsOf n ++ [event] else o.eventsOf n := by
  by_cases same : event.nodeId = n
  · simp [eventsOf, same]
  · simp [eventsOf, same]

/-- A call raises nothing when the supervisor handles the event. -/
theorem notify_handled {s : Cluster ν} {event : LeadershipLifecycleEvent ν}
    {o : LeadershipObserver ν} {P : LeaderRuntimeSupervisor ν → Prop} (silent : o.raised = none)
    (handles : ∀ v ∈ o.supervisor, ∃ v', v.handleLifecycleEvent s event = .ok v' ∧ P v') :
    (o.notify s event).raised = none ∧ ∀ v ∈ (o.notify s event).supervisor, P v := by
  unfold notify
  dsimp only
  split
  next absent =>
    refine ⟨silent, fun v found => ?_⟩
    rw [absent] at found
    cases found
  next v owner =>
    obtain ⟨v', handled, holds⟩ := handles v owner
    rw [handled]
    refine ⟨silent, fun v'' found => ?_⟩
    cases found
    exact holds

end LeadershipObserver

namespace LeadershipObserver.Accounts

variable {active : ν → Option (ℕ × ℕ)} {generation : ℕ} {o : LeadershipObserver ν}

theorem mono (accounts : o.Accounts active generation) {later : ℕ} (le : generation ≤ later) :
    o.Accounts active later :=
  { accounts with bounded := fun e member => (accounts.bounded e member).trans le }

/-- An observer that has seen nothing. -/
theorem start (o : LeadershipObserver ν) (events : o.events = []) (raised : o.raised = none)
    (supervised : ∀ v ∈ o.supervisor, v.runtimes = ∅) : o.Accounts (fun _ => none) 0 where
  silent := raised
  bounded e member := by
    rw [events] at member
    cases member
  increasing := by simp [acquisitions, events]
  alternates n := by simp [eventsOf, events]
  latest n e last := by simp [eventsOf, events] at last
  supervised v owner n := by simp [LeaderRuntimeSupervisor.activeRuntime, supervised v owner]

/-- The chain of a node goes on with an event that may follow its last one. -/
theorem alternates_append (accounts : o.Accounts active generation) {event :
    LeadershipLifecycleEvent ν} (next : ∀ last, Latest (active event.nodeId) event.nodeId last →
      last.Precedes event) :
    (o.eventsOf event.nodeId ++ [event]).IsChain LeadershipLifecycleEvent.Precedes := by
  refine (accounts.alternates _).append (.singleton event) fun last found e head => ?_
  cases head
  exact next last (accounts.latest _ last found)

/-- The last event of each node after a call. -/
theorem latest_notify (accounts : o.Accounts active generation) (s : Cluster ν)
    {event : LeadershipLifecycleEvent ν} {held : Option (ℕ × ℕ)}
    (here : Latest held event.nodeId event) (n : ν) :
    ∀ e ∈ ((o.notify s event).eventsOf n).getLast?,
      Latest (Function.update active event.nodeId held n) n e := by
  intro e last
  rw [eventsOf_notify] at last
  split at last
  next same =>
    subst same
    rw [List.getLast?_concat] at last
    cases last
    rwa [Function.update_self]
  next other =>
    rw [Function.update_of_ne (Ne.symm other)]
    exact accounts.latest n e last

/-- The chains of all nodes after a call. -/
theorem alternates_notify (accounts : o.Accounts active generation) (s : Cluster ν)
    {event : LeadershipLifecycleEvent ν}
    (next : ∀ last, Latest (active event.nodeId) event.nodeId last → last.Precedes event) (n : ν) :
    ((o.notify s event).eventsOf n).IsChain LeadershipLifecycleEvent.Precedes := by
  rw [eventsOf_notify]
  split
  next same =>
    subst same
    exact accounts.alternates_append next
  next => exact accounts.alternates n

/-- The bound of the generations after a call. -/
theorem bounded_notify (accounts : o.Accounts active generation) (s : Cluster ν)
    {event : LeadershipLifecycleEvent ν} {later : ℕ} (le : generation ≤ later)
    (bounded : event.generation ≤ later) :
    ∀ e ∈ (o.notify s event).events, e.generation ≤ later := by
  intro e member
  rw [events_notify] at member
  rcases List.mem_append.mp member with old | new
  · exact (accounts.bounded e old).trans le
  · rwa [List.mem_singleton.mp new]

/-- A supervisor starts the runtime of a new generation. -/
theorem starts (accounts : o.Accounts active generation) {s : Cluster ν} {n : ν} {t g : ℕ}
    (free : active n = none) (leads : s.role n = .leader) (term : s.currentTerm n = t)
    (alive : s.alive n = true) : ∀ v ∈ o.supervisor, ∃ v',
      v.handleLifecycleEvent s ⟨.acquired, g, n, t⟩ = .ok v' ∧ ∀ m, v'.activeRuntime m =
        (Function.update active n (some (t, g)) m).map fun held => ⟨m, held.1, held.2⟩ := by
  intro v owner
  have absent : v.runtimes.lookup n = none := by
    have owned := accounts.supervised v owner n
    rw [free] at owned
    simpa [LeaderRuntimeSupervisor.activeRuntime] using owned
  have handled : ∃ runtime : LeaderRuntime ν, runtime.identity = ⟨n, t, g⟩ ∧
      v.handleLifecycleEvent s ⟨.acquired, g, n, t⟩ =
        .ok { v with runtimes := v.runtimes.insert n runtime } := by
    refine ⟨⟨⟨n, t, g⟩, runtimeReplicator n v.membershipAware s, s.time + v.heartbeatInterval⟩,
      rfl, ?_⟩
    simp [LeaderRuntimeSupervisor.handleLifecycleEvent, LeaderRuntimeSupervisor.startRuntime,
      leads, term, absent, alive]
  obtain ⟨runtime, identity, handled⟩ := handled
  refine ⟨_, handled, fun m => ?_⟩
  by_cases same : m = n
  · subst same
    simp [LeaderRuntimeSupervisor.activeRuntime, identity]
  · have owned := accounts.supervised v owner m
    simpa [LeaderRuntimeSupervisor.activeRuntime, Dict.lookup_insert, same] using owned

/-- A supervisor stops the runtime of a retired generation. -/
theorem stops (accounts : o.Accounts active generation) (s : Cluster ν) {n : ν} {t g : ℕ}
    (held : active n = some (t, g)) : ∀ v ∈ o.supervisor, ∃ v',
      v.handleLifecycleEvent s ⟨.retired, g, n, t⟩ = .ok v' ∧ ∀ m, v'.activeRuntime m =
        (Function.update active n none m).map fun held => ⟨m, held.1, held.2⟩ := by
  intro v owner
  have owned := accounts.supervised v owner n
  rw [held] at owned
  obtain ⟨runtime, found, identity⟩ := Option.map_eq_some_iff.mp owned
  have retires : v.retireRuntime ⟨.retired, g, n, t⟩ =
      { v with runtimes := v.runtimes.erase n } := by
    simp [LeaderRuntimeSupervisor.retireRuntime, found, identity]
  refine ⟨_, rfl, fun m => ?_⟩
  rw [retires]
  by_cases same : m = n
  · subst same
    simp [LeaderRuntimeSupervisor.activeRuntime]
  · have owned := accounts.supervised v owner m
    simpa [LeaderRuntimeSupervisor.activeRuntime, Dict.lookup_erase, same] using owned

/-- **The observer is called with an acquisition.** -/
theorem acquired (accounts : o.Accounts active generation) {s : Cluster ν} {n : ν} {t g : ℕ}
    (later : generation < g) (free : active n = none) (leads : s.role n = .leader)
    (term : s.currentTerm n = t) (alive : s.alive n = true) :
    (o.notify s ⟨.acquired, g, n, t⟩).Accounts
      (Function.update active n (some (t, g))) g := by
  obtain ⟨silent, supervised⟩ :=
    notify_handled accounts.silent (accounts.starts (g := g) free leads term alive)
  refine ⟨silent, accounts.bounded_notify s later.le le_rfl, ?_,
    accounts.alternates_notify s fun last latest => ?_, accounts.latest_notify s rfl, supervised⟩
  · have grown : (o.notify s ⟨.acquired, g, n, t⟩).acquisitions = o.acquisitions ++ [g] := by
      simp [acquisitions]
    rw [grown]
    refine List.pairwise_append.mpr ⟨accounts.increasing, List.pairwise_singleton _ _, ?_⟩
    intro a member b last
    obtain ⟨e, found, rfl⟩ := List.mem_map.mp member
    rw [List.mem_singleton.mp last]
    exact (accounts.bounded e (List.mem_filter.mp found).1).trans_lt later
  · rw [free] at latest
    unfold LeadershipLifecycleEvent.Precedes
    rw [show last.kind = .retired from latest]

/-- **The observer is called with the retirement of an active generation.** -/
theorem retired (accounts : o.Accounts active generation) (s : Cluster ν) {n : ν} {t g : ℕ}
    (held : active n = some (t, g)) (bounded : g ≤ generation) :
    (o.notify s ⟨.retired, g, n, t⟩).Accounts (Function.update active n none) generation := by
  obtain ⟨silent, supervised⟩ := notify_handled accounts.silent (accounts.stops s held)
  refine ⟨silent, accounts.bounded_notify s le_rfl bounded, ?_,
    accounts.alternates_notify s fun last latest => ?_, accounts.latest_notify s rfl, supervised⟩
  · have kept : (o.notify s ⟨.retired, g, n, t⟩).acquisitions = o.acquisitions := by
      simp [acquisitions]
    rw [kept]
    exact accounts.increasing
  · rw [held] at latest
    rw [show last = ⟨.acquired, g, n, t⟩ from latest]
    exact ⟨rfl, rfl, rfl⟩

end LeadershipObserver.Accounts

/-! ## The cluster -/

/-- The active generation of each node. -/
def Cluster.activeGeneration (s : Cluster ν) (n : ν) : Option (ℕ × ℕ) :=
  s.activeLeaderGenerations.lookup n

/-- The active generations and the observers account for the terms that the
nodes lead in. -/
structure Accounts (leads : ν → Option ℕ) (s : Cluster ν) : Prop where
  active : ∀ n, (s.activeGeneration n).map (·.1) = leads n
  bounded : ∀ n t g, s.activeGeneration n = some (t, g) → 0 < g ∧ g ≤ s.leadershipGeneration
  distinct : ∀ n m t u g, s.activeGeneration n = some (t, g) →
    s.activeGeneration m = some (u, g) → n = m
  observers : ∀ o ∈ s.leadershipObservers,
    o.Accounts s.activeGeneration s.leadershipGeneration

namespace Accounts

variable {leads : ν → Option ℕ} {s s' : Cluster ν}

/-- A state with the same books. -/
theorem congr (accounts : Accounts leads s)
    (active : s'.activeLeaderGenerations = s.activeLeaderGenerations)
    (generation : s'.leadershipGeneration = s.leadershipGeneration)
    (observers : s'.leadershipObservers = s.leadershipObservers) : Accounts leads s' := by
  have same : s'.activeGeneration = s.activeGeneration := by
    funext n
    rw [Cluster.activeGeneration, active, Cluster.activeGeneration]
  constructor
  · rw [same]
    exact accounts.active
  · rw [same, generation]
    exact accounts.bounded
  · rw [same]
    exact accounts.distinct
  · rw [same, generation, observers]
    exact accounts.observers

omit [LinearOrder ν] in
theorem map_update {β γ : Type} [DecidableEq ν] (f : ν → Option β) (g : β → γ) (n m : ν)
    (b : Option β) : (Function.update f n b m).map g =
      Function.update (fun k => (f k).map g) n (b.map g) m := by
  by_cases same : m = n
  · subst same
    simp
  · simp [same]

/-- A node that led loses its generation. -/
theorem retired (accounts : Accounts leads s) {n : ν} {t : ℕ} (led : leads n = some t) :
    Accounts (Function.update leads n none) (notifyLeaderRetired n t s) := by
  have held := accounts.active n
  rw [led] at held
  obtain ⟨⟨t', g⟩, found, same⟩ := Option.map_eq_some_iff.mp held
  obtain rfl : t' = t := same
  have eq : notifyLeaderRetired n t' s = notifyObservers ⟨.retired, g, n, t'⟩
      { s with activeLeaderGenerations := s.activeLeaderGenerations.erase n } := by
    unfold notifyLeaderRetired
    rw [show s.activeLeaderGenerations.lookup n = some (t', g) from found]
    simp
  have active : (notifyLeaderRetired n t' s).activeGeneration =
      Function.update s.activeGeneration n none := by
    funext m
    rw [eq]
    by_cases same : m = n
    · subst same
      simp [notifyObservers, Cluster.activeGeneration]
    · simp [notifyObservers, Cluster.activeGeneration, same]
  have kept : ∀ m t g, (notifyLeaderRetired n t' s).activeGeneration m = some (t, g) →
      s.activeGeneration m = some (t, g) := by
    intro m t g found
    rw [active] at found
    by_cases same : m = n
    · subst same
      simp at found
    · rwa [Function.update_of_ne same] at found
  have generation : (notifyLeaderRetired n t' s).leadershipGeneration =
      s.leadershipGeneration := by
    rw [eq]
    rfl
  refine ⟨fun m => ?_, fun m t g found => ?_, fun m k t u g first second =>
    accounts.distinct m k t u g (kept m t g first) (kept k u g second), fun o member => ?_⟩
  · rw [active, map_update, Option.map_none]
    exact congrFun (congrArg (Function.update · n none) (funext accounts.active)) m
  · rw [generation]
    exact accounts.bounded m t g (kept m t g found)
  · rw [active, generation]
    rw [eq] at member
    obtain ⟨o', member', rfl⟩ := List.mem_map.mp member
    exact (accounts.observers o' member').retired _ found (accounts.bounded n t' g found).2

/-- A node without a generation acquires one. -/
theorem acquiresGeneration (accounts : Accounts leads s) {n : ν} {t : ℕ} (free : leads n = none)
    (role : s.role n = .leader) (term : s.currentTerm n = t) (alive : s.alive n = true) :
    Accounts (Function.update leads n (some t)) (acquireGeneration n t s) := by
  have none : s.activeGeneration n = none := by
    have held := accounts.active n
    rw [free] at held
    exact Option.map_eq_none_iff.mp held
  have active : (acquireGeneration n t s).activeGeneration =
      Function.update s.activeGeneration n (some (t, s.leadershipGeneration + 1)) := by
    funext m
    by_cases same : m = n
    · subst same
      simp [acquireGeneration, notifyObservers, Cluster.activeGeneration]
    · simp [acquireGeneration, notifyObservers, Cluster.activeGeneration, same]
  have generation : (acquireGeneration n t s).leadershipGeneration =
      s.leadershipGeneration + 1 := rfl
  have kept : ∀ m t' g, (acquireGeneration n t s).activeGeneration m = some (t', g) →
      (m = n ∧ g = s.leadershipGeneration + 1) ∨ s.activeGeneration m = some (t', g) := by
    intro m t' g found
    rw [active] at found
    by_cases same : m = n
    · subst same
      rw [Function.update_self] at found
      cases found
      exact .inl ⟨rfl, rfl⟩
    · rw [Function.update_of_ne same] at found
      exact .inr found
  refine ⟨fun m => ?_, fun m t' g found => ?_, fun m k t' u g first second => ?_,
    fun o member => ?_⟩
  · rw [active, map_update]
    exact congrFun (congrArg (Function.update · n (some t)) (funext accounts.active)) m
  · rw [generation]
    rcases kept m t' g found with ⟨_, rfl⟩ | old
    · exact ⟨Nat.succ_pos _, le_rfl⟩
    · exact ⟨(accounts.bounded m t' g old).1, (accounts.bounded m t' g old).2.trans (Nat.le_succ _)⟩
  · rcases kept m t' g first with ⟨rfl, new⟩ | old <;>
      rcases kept k u g second with ⟨rfl, new'⟩ | old'
    · rfl
    · exact absurd (accounts.bounded k u g old').2 (by omega)
    · exact absurd (accounts.bounded m t' g old).2 (by omega)
    · exact accounts.distinct m k t' u g old old'
  · rw [active, generation]
    obtain ⟨o', member', rfl⟩ := List.mem_map.mp member
    exact (accounts.observers o' member').acquired (Nat.lt_succ_self _) none role term alive

/-- A node acquires a generation of its term; an earlier one of the node is superseded. -/
theorem acquired (accounts : Accounts leads s) {n : ν} {t : ℕ} (role : s.role n = .leader)
    (term : s.currentTerm n = t) (alive : s.alive n = true) :
    Accounts (Function.update leads n (some t)) (notifyLeaderAcquired n t s) := by
  unfold notifyLeaderAcquired
  split
  next absent =>
    refine accounts.acquiresGeneration ?_ role term alive
    rw [← accounts.active, Cluster.activeGeneration, absent, Option.map_none]
  next existing generation found =>
    have led : leads n = some existing := by
      rw [← accounts.active, Cluster.activeGeneration, found, Option.map_some]
    split
    next same =>
      subst same
      rwa [Function.update_eq_self_iff.mpr led.symm]
    next =>
      have after := accounts.retired led
      obtain ⟨active, observers, eq⟩ := notifyLeaderRetired_eq n existing s
      have acquires : Accounts _ (acquireGeneration n t (notifyLeaderRetired n existing s)) :=
        after.acquiresGeneration (Function.update_self ..) (by rw [eq]; exact role)
          (by rw [eq]; exact term) (by rw [eq]; exact alive)
      rwa [Function.update_idem] at acquires

end Accounts

/-! ## Registration -/

section Registration

variable {s : Cluster ν}

theorem mem_replayedEvents {e : LeadershipLifecycleEvent ν} : e ∈ replayedEvents s ↔
    ∃ n t g, s.activeGeneration n = some (t, g) ∧ e = ⟨.acquired, g, n, t⟩ := by
  rw [replayedEvents, List.mem_insertionSort, List.mem_map]
  constructor
  · rintro ⟨⟨n, t, g⟩, entry, rfl⟩
    exact ⟨n, t, g, AList.mem_lookup_iff.mpr entry, rfl⟩
  · rintro ⟨n, t, g, found, rfl⟩
    exact ⟨⟨n, t, g⟩, AList.mem_lookup_iff.mp found, rfl⟩

/-- The generations are replayed in increasing order, each node once. -/
theorem Accounts.replayedEvents_pairwise {leads : ν → Option ℕ} (accounts : Accounts leads s) :
    (replayedEvents s).Pairwise fun a b =>
      a.generation < b.generation ∧ a.nodeId ≠ b.nodeId := by
  have node : ∀ e ∈ replayedEvents s,
      s.activeGeneration e.nodeId = some (e.term, e.generation) := by
    intro e member
    obtain ⟨n, t, g, found, rfl⟩ := mem_replayedEvents.mp member
    exact found
  have nodup : (replayedEvents s).Nodup := by
    refine (List.perm_insertionSort _ _).nodup_iff.mpr (List.Nodup.map ?_ ?_)
    · rintro ⟨n, t, g⟩ ⟨m, u, h⟩ same
      cases same
      rfl
    · exact s.activeLeaderGenerations.nodupKeys.nodup
  have sorted : (replayedEvents s).Pairwise fun a b => a.generation ≤ b.generation :=
    List.pairwise_insertionSort _ _
  refine (sorted.and nodup).imp_of_mem fun {a b} first second related => ?_
  obtain ⟨le, differ⟩ := related
  have here := node a first
  have there := node b second
  have other : a.nodeId ≠ b.nodeId := by
    intro same
    obtain ⟨n, t, g, found, rfl⟩ := mem_replayedEvents.mp first
    obtain ⟨m, u, h, found', rfl⟩ := mem_replayedEvents.mp second
    obtain rfl : n = m := same
    obtain ⟨rfl, rfl⟩ := Prod.mk.inj (Option.some.inj (found.symm.trans found'))
    exact differ rfl
  refine ⟨lt_of_le_of_ne le fun same => other ?_, other⟩
  rw [← same] at there
  exact accounts.distinct _ _ _ _ _ here there

/-- The replay brings an observer from the generations `active` to all of them. -/
theorem replayActive_accounts (final : ν → Option (ℕ × ℕ)) (last : ℕ)
    (events : List (LeadershipLifecycleEvent ν)) {active : ν → Option (ℕ × ℕ)} {generation : ℕ}
    {o : LeadershipObserver ν} (accounts : o.Accounts active generation)
    (ordered : events.Pairwise fun a b => a.generation < b.generation ∧ a.nodeId ≠ b.nodeId)
    (kinds : ∀ e ∈ events, e.kind = .acquired) (later : ∀ e ∈ events, generation < e.generation)
    (fresh : ∀ e ∈ events, active e.nodeId = none)
    (leads : ∀ e ∈ events, s.role e.nodeId = .leader ∧ s.currentTerm e.nodeId = e.term ∧
      s.alive e.nodeId = true)
    (bounded : generation ≤ last ∧ ∀ e ∈ events, e.generation ≤ last)
    (reached : ∀ e ∈ events, final e.nodeId = some (e.term, e.generation))
    (kept : ∀ n, (∀ e ∈ events, e.nodeId ≠ n) → final n = active n) :
    (replayActive s events o).Accounts final last := by
  induction events generalizing active generation o with
  | nil =>
      have same : final = active := funext fun n => kept n (by simp)
      rw [same]
      exact accounts.mono bounded.1
  | cons e rest ih =>
      obtain ⟨kind, g, n, t⟩ := e
      obtain rfl : kind = .acquired := kinds _ List.mem_cons_self
      obtain ⟨role, term, alive⟩ := leads _ List.mem_cons_self
      obtain ⟨first, ordered⟩ := List.pairwise_cons.mp ordered
      have called := accounts.acquired (later _ List.mem_cons_self) (fresh _ List.mem_cons_self)
        role term alive
      have goes : replayActive s (⟨.acquired, g, n, t⟩ :: rest) o =
          replayActive s rest (o.notify s ⟨.acquired, g, n, t⟩) := by
        rw [replayActive]
        simp [called.silent]
      rw [goes]
      refine ih called ordered (fun e member => kinds e (List.mem_cons_of_mem _ member))
        (fun e member => (first e member).1) (fun e member => ?_)
        (fun e member => leads e (List.mem_cons_of_mem _ member))
        ⟨bounded.2 _ List.mem_cons_self,
          fun e member => bounded.2 e (List.mem_cons_of_mem _ member)⟩
        (fun e member => reached e (List.mem_cons_of_mem _ member)) fun m absent => ?_
      · rw [Function.update_of_ne (first e member).2.symm]
        exact fresh e (List.mem_cons_of_mem _ member)
      · by_cases same : m = n
        · subst same
          rw [Function.update_self]
          exact reached _ List.mem_cons_self
        · rw [Function.update_of_ne same]
          refine kept m fun e member => ?_
          rcases List.mem_cons.mp member with rfl | old
          · exact Ne.symm same
          · exact absent e old

/-- **Registration** of a new observer raises nothing, and the observer accounts
for the active generations. An observer without replay has seen nothing, and
belongs to no supervisor. -/
theorem Accounts.registers {leads : ν → Option ℕ} (accounts : Accounts leads s)
    (authority : ∀ n t, leads n = some t →
      s.role n = .leader ∧ s.currentTerm n = t ∧ s.alive n = true)
    (o : LeadershipObserver ν) (replay : Bool) (start : o.Accounts (fun _ => none) 0)
    (unseen : o.events = []) (owner : replay = false → o.supervisor = none) :
    ∃ o', registerLeadershipObserver o replay s =
        .returns () { s with leadershipObservers := s.leadershipObservers ++ [o'] } ∧
      o'.Accounts s.activeGeneration s.leadershipGeneration := by
  have node : ∀ e ∈ replayedEvents s, leads e.nodeId = some e.term ∧
      s.activeGeneration e.nodeId = some (e.term, e.generation) := by
    intro e member
    obtain ⟨n, t, g, found, rfl⟩ := mem_replayedEvents.mp member
    refine ⟨?_, found⟩
    rw [← accounts.active, found, Option.map_some]
  cases replay with
  | false =>
      have plain : o.Accounts s.activeGeneration s.leadershipGeneration := by
        refine ⟨start.silent, ?_, start.increasing, start.alternates, fun n e last => ?_,
          fun v found => ?_⟩
        · simp [unseen]
        · simp [LeadershipObserver.eventsOf, unseen] at last
        · rw [owner rfl] at found
          cases found
      refine ⟨o, ?_, plain⟩
      simp [registerLeadershipObserver, plain.silent]
  | true =>
      have replayed := replayActive_accounts (s := s) s.activeGeneration s.leadershipGeneration
        (replayedEvents s) start
        accounts.replayedEvents_pairwise (fun e member => by
          obtain ⟨n, t, g, found, rfl⟩ := mem_replayedEvents.mp member
          rfl)
        (fun e member => (accounts.bounded _ _ _ (node e member).2).1) (fun _ _ => rfl)
        (fun e member => authority _ _ (node e member).1)
        ⟨Nat.zero_le _, fun e member => (accounts.bounded _ _ _ (node e member).2).2⟩
        (fun e member => (node e member).2) fun n absent => by
          cases found : s.activeGeneration n with
          | none => rfl
          | some held =>
              exact absurd rfl (absent ⟨.acquired, held.2, n, held.1⟩
                (mem_replayedEvents.mpr ⟨n, held.1, held.2, found, rfl⟩))
      refine ⟨_, ?_, replayed⟩
      simp [registerLeadershipObserver, replayed.silent]

end Registration

end Distlab.Raft
