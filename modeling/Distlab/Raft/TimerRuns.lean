import Distlab.Raft.TimerQueue

/-!
# Election timers in runs

Every call of a driver keeps the timers sound: an operation settles them, a
delivery takes a timeout out of the queue and settles them, and a crash leaves a
timer that only a restart can use again.
-/

set_option autoImplicit false

namespace Distlab.Raft

open Foundations Simulation

variable {ν : Type} [LinearOrder ν] {C : Config ν} {n m : ν} {s t : Cluster ν}
  {gone : ν → Set ℕ}

/-- A node does not accept a timeout of the generation again. -/
structure Stale (s : Cluster ν) (n : ν) (generation : ℕ) : Prop where
  past : generation ≤ (s.timer n).generation
  newer : s.alive n = true → generation < (s.timer n).generation

/-- The timers of a deployment and its queue fit together, and the generations that
are listed as gone stay so. -/
structure TimersSound (C : Config ν) (gone : ν → Set ℕ) (system : Deployment ν) : Prop where
  clock : system.cluster.time = system.simulator.time
  onTime : ∀ delivery ∈ system.simulator.queue.events, OnTime system.simulator.time delivery
  timers : ∀ n ∈ C.nodeIds, TimerSound C n system.cluster system.simulator.queue.events
  stale : ∀ n ∈ C.nodeIds, ∀ generation ∈ gone n, Stale system.cluster n generation

/-! ## Operations -/

omit [LinearOrder ν] in
theorem Stale.atTime {generation : ℕ} (stale : Stale s n generation) (time : ℕ) :
    Stale { s with time := time } n generation := ⟨stale.past, stale.newer⟩

omit [LinearOrder ν] in
/-- A generation that is over stays over: a node that comes back to life has a new one. -/
theorem Stale.step {generation : ℕ} (stale : Stale s n generation) (touched : Touched n s t)
    (alive : t.alive n = true →
      s.alive n = true ∨ (s.timer n).generation < (t.timer n).generation) :
    Stale t n generation where
  past := stale.past.trans touched.later
  newer awake := by
    rcases alive awake with before | newer
    · exact (stale.newer before).trans_le touched.later
    · exact stale.past.trans_lt newer

/-- What an operation sends reaches the queue: if it settles the timers, or the
queue no longer matters to them, the timers are sound. -/
theorem TimersSound.follow {system : Deployment ν}
    (clock : system.cluster.time = system.simulator.time)
    (onTime : ∀ delivery ∈ system.simulator.queue.events, OnTime system.simulator.time delivery)
    (past : ∀ n ∈ C.nodeIds, ∀ delivery ∈ system.simulator.queue.events, ∀ generation,
      (envelope delivery).timesOut n generation = true →
        generation ≤ (system.cluster.timer n).generation)
    (stale : ∀ n ∈ C.nodeIds, ∀ generation ∈ gone n, Stale system.cluster n generation)
    (touched : ∀ n ∈ C.nodeIds, Touched n system.cluster t)
    (settled : ∀ n ∈ C.nodeIds, t.alive n = true →
      Kept C n system.cluster t ∧
          Arms C n system.cluster (system.simulator.queue.events.map envelope) ∨
        Rearmed C n system.cluster t) : TimersSound C gone (system.follow t) := by
  obtain ⟨m, member⟩ := List.exists_mem_of_ne_nil _ C.nonempty
  obtain ⟨time, _, sent, network, timely⟩ := touched m member
  have new : t.network.drop system.cluster.network.length = sent := by
    rw [network, List.drop_left]
  have carried : Carries sent system.simulator (transmit sent system.simulator) := by
    refine carries_transmit fun message listed generation deadline payload => ?_
    obtain ⟨own, due, _⟩ := timely message listed generation deadline payload
    rw [clock] at due
    exact ⟨own, due⟩
  obtain ⟨added, perm, meets, counted⟩ := carried.added
  unfold Deployment.follow
  rw [new]
  refine ⟨?_, fun delivery listed => ?_, fun n member => ?_, fun n member generation listed => ?_⟩
  · exact time.trans (clock.trans carried.time.symm)
  · rw [carried.time]
    rcases List.mem_append.mp (perm.mem_iff.mp listed) with fresh | old
    · exact (meets delivery fresh).2
    · exact onTime delivery old
  · exact TimerSound.step (past n member) (touched n member) network (settled n member) perm
      (fun delivery fresh => (meets delivery fresh).1) (counted n)
  · refine (stale n member generation listed).step (touched n member) fun alive => ?_
    rcases settled n member alive with ⟨kept, _⟩ | rearmed
    · exact .inl (kept.alive ▸ alive)
    · exact .inr rearmed.newer

theorem Deployment.perform_state (system : Deployment ν)
    (op : Cluster ν → Op ν Unit) :
    (system.perform op).state = system.follow (op system.cluster).state := by
  unfold Deployment.perform
  split
  next returned =>
    rw [returned]
    rfl
  next raised =>
    rw [raised]
    rfl

/-- An operation that settles the timers keeps them sound. -/
theorem TimersSound.perform {system : Deployment ν} (sound : TimersSound C gone system)
    (op : Cluster ν → Op ν Unit)
    (settles : ∀ n ∈ C.nodeIds, Settles C n system.cluster (op system.cluster)) :
    TimersSound C gone (system.perform op).state := by
  rw [Deployment.perform_state]
  refine .follow sound.clock sound.onTime (fun n member => (sound.timers n member).past)
    sound.stale
    (fun n member => (settles n member).state.touched) fun n member alive => ?_
  rcases (settles n member).state with kept | rearmed
  · exact .inl ⟨kept, (sound.timers n member).armed (kept.alive ▸ alive)⟩
  · exact .inr rearmed

/-- A crash keeps the timers of the other nodes, and every generation. -/
theorem shifts_crash (m : ν) (s : Cluster ν) : Shifts C n m s (crash m s) := by
  unfold crash
  dsimp only
  set halted : Cluster ν := { s with alive := Function.update s.alive m false }
  have stopped : Shifts C n m s halted := by
    refine ⟨.of_same rfl rfl rfl, fun other => ⟨.of_same rfl rfl rfl, rfl, ?_, Iff.rfl⟩⟩
    exact Function.update_of_ne other _ _
  have noted : Quiet halted (if halted.role m = .leader then
      notifyLeaderRetired m (halted.currentTerm m) halted else halted) := by
    split
    · exact quiet_notifyLeaderRetired m _
    · exact .refl halted
  exact (stopped.trans noted.kept.shifts).trans (shifts_updateVolatile _)

theorem alive_crash (m : ν) (s : Cluster ν) : (crash m s).alive m = false := by
  unfold crash
  dsimp only
  set halted : Cluster ν := { s with alive := Function.update s.alive m false }
  have stopped : halted.alive m = false := Function.update_self m false s.alive
  split
  · rw [Cluster.updateVolatile, (quiet_notifyLeaderRetired m _).alive]
    exact stopped
  · exact stopped

theorem TimersSound.crash {system : Deployment ν} (sound : TimersSound C gone system) (m : ν) :
    TimersSound C gone (system.follow (crash m system.cluster)) := by
  have shifts := fun n => shifts_crash (C := C) (n := n) m system.cluster
  refine .follow sound.clock sound.onTime (fun n member => (sound.timers n member).past)
    sound.stale
    (fun n _ => (shifts n).touched) fun n member alive => ?_
  have other : n ≠ m := by
    rintro rfl
    rw [alive_crash] at alive
    cases alive
  have kept := (shifts n).others other
  exact .inl ⟨kept, (sound.timers n member).armed (kept.alive ▸ alive)⟩

/-! ## Deliveries -/

/-- Without a message that times nothing out, the rest is armed alike. -/
theorem Arms.tail {message : Message ν} {rest : List (Message ν)}
    (arms : Arms C n t (message :: rest))
    (other : message.timesOut n (t.timer n).generation = false) : Arms C n t rest := by
  unfold Arms at arms ⊢
  rw [List.countP_cons, other, if_neg Bool.false_ne_true, Nat.add_zero] at arms
  split at arms
  next waits =>
    obtain ⟨once, due, deadline, all⟩ := arms
    rw [if_pos waits]
    exact ⟨once, due, deadline, fun message member => all message (List.mem_cons_of_mem _ member)⟩
  next waits =>
    rw [if_neg waits]
    exact arms

/-- A timeout of the present timer is for a node that waits, at its deadline. -/
theorem Arms.timesOut {message : Message ν} {sent : List (Message ν)} (arms : Arms C n t sent)
    (member : message ∈ sent) (times : message.timesOut n (t.timer n).generation = true) :
    Waits C n t ∧ message.payload.deadline = (t.timer n).deadline := by
  unfold Arms at arms
  split at arms
  next waits =>
    obtain ⟨_, due, deadline, all⟩ := arms
    exact ⟨waits, (all message member times).trans deadline.symm⟩
  next => exact absurd times (List.countP_eq_zero.mp arms message member)

section Timed

variable (timed : Timed C)

include timed

/-- **The present timeout of a waiting node** arms its timer anew when it is
delivered. -/
theorem rearms_handle {message : Message ν} {due : ℕ} (member : n ∈ C.nodeIds)
    (alive : s.alive n = true) (waits : Waits C n s) (own : message.src = message.dst)
    (times : message.timesOut n (s.timer n).generation = true)
    (carries : message.payload.deadline = some due) (deadline : (s.timer n).deadline = some due)
    (due' : due ≤ s.time) :
    (Deployment.handle C message s).Ensures (Rearmed C n s) fun _ _ => True := by
  obtain ⟨dst, deadline', payload⟩ := Message.timesOut_eq_true.mp times
  obtain rfl : deadline' = some due := by
    rw [payload] at carries
    exact carries
  obtain ⟨timeout, timer⟩ := timed n member
  have valid : validEnvelope C message = true := by
    unfold validEnvelope
    rw [payload]
    simp [claimedSource, dst, own, member]
  unfold Deployment.handle
  rw [if_pos valid]
  unfold handleMessage
  rw [payload]
  dsimp only
  rw [dst]
  have handled := resets_handleElectionTimeout (C := C) (n := n) (m := n)
    (s := s.record (.deliver message)) timer alive waits deadline due'
  refine handled.mono (fun t resets => ?_) fun _ _ => id
  exact (quiet_record _).kept (C := C).toTouched.rearmed (resets.rearms rfl)

omit timed [LinearOrder ν] in
/-- What taking the next message leaves: the rest of the queue, at its time. -/
theorem Deployment.takeNext_eq_some {system taken : Deployment ν}
    {first : ScheduledDelivery ν (Payload ν)} (taking : system.takeNext = some (first, taken)) :
    taken.cluster = { system.cluster with time := first.time } ∧
      taken.simulator.time = first.time ∧
      system.simulator.queue.events = first :: taken.simulator.queue.events ∧
      ∀ later ∈ taken.simulator.queue.events, first.time ≤ later.time := by
  unfold Deployment.takeNext at taking
  split at taking
  next => cases taking
  next popped =>
    cases taking
    obtain ⟨events, time, later⟩ := Simulator.pop_eq_some popped
    exact ⟨rfl, time, events, later⟩

/-- **One delivery** keeps the timers sound. -/
theorem TimersSound.receive {system taken : Deployment ν}
    {first : ScheduledDelivery ν (Payload ν)} (sound : TimersSound C gone system)
    (taking : system.takeNext = some (first, taken)) :
    TimersSound C gone (Deployment.receive C first.message taken).state := by
  obtain ⟨cluster, sim⟩ := taken
  obtain ⟨rfl, time, events, later⟩ := Deployment.takeNext_eq_some taking
  dsimp only at time events later
  have here : first ∈ system.simulator.queue.events := by
    rw [events]
    exact List.mem_cons_self
  have stays : ∀ delivery ∈ sim.queue.events, delivery ∈ system.simulator.queue.events := by
    intro delivery member
    rw [events]
    exact List.mem_cons_of_mem _ member
  have onTime : ∀ delivery ∈ sim.queue.events, OnTime sim.time delivery := by
    intro delivery member
    refine ⟨?_, (sound.onTime delivery (stays delivery member)).due⟩
    rw [time]
    exact later delivery member
  have past : ∀ n ∈ C.nodeIds, ∀ delivery ∈ sim.queue.events, ∀ generation,
      (envelope delivery).timesOut n generation = true →
        generation ≤ (system.cluster.timer n).generation := fun n member delivery listed =>
    (sound.timers n member).past delivery (stays delivery listed)
  have armed : ∀ n ∈ C.nodeIds, system.cluster.alive n = true →
      Arms C n { system.cluster with time := first.time }
        (envelope first :: sim.queue.events.map envelope) := by
    intro n member alive
    have arms := (sound.timers n member).armed alive
    rwa [events, List.map_cons] at arms
  have rest : ∀ n ∈ C.nodeIds, system.cluster.alive n = true →
      (envelope first).timesOut n (system.cluster.timer n).generation = false →
      Arms C n { system.cluster with time := first.time } (sim.queue.events.map envelope) :=
    fun n member alive other => (armed n member alive).tail other
  unfold Deployment.receive
  split
  next dead =>
    -- The message of a crashed node is discarded.
    refine ⟨time.symm, onTime, fun n member => ⟨past n member, fun alive => ?_⟩, fun n member
      generation listed => (sound.stale n member generation listed).atTime _⟩
    refine rest n member alive ?_
    by_contra times
    obtain ⟨dst, _⟩ := Message.timesOut_eq_true.mp (Bool.not_eq_false _ ▸ times)
    rw [← dst] at alive
    exact dead alive
  next live =>
    rw [Deployment.perform_state]
    refine .follow time.symm onTime past (fun n member generation listed =>
      (sound.stale n member generation listed).atTime _)
        (fun n _ => (settled_handle timed _).state.touched)
      fun n member alive => ?_
    cases times : (envelope first).timesOut n (system.cluster.timer n).generation with
    | true =>
        obtain ⟨dst, deadline, payload⟩ := Message.timesOut_eq_true.mp times
        have awake : system.cluster.alive n = true := by
          rw [← dst]
          exact not_not.mp live
        obtain ⟨waits, present⟩ :=
          (armed n member awake).timesOut List.mem_cons_self times
        obtain ⟨own, due⟩ := (sound.onTime first here).due _ _ payload
        have carries : (envelope first).payload.deadline = some first.time := by
          rw [payload]
          exact due
        exact .inr (rearms_handle (s := { system.cluster with time := first.time }) timed member
          awake waits own times carries (present.symm.trans carries) le_rfl).state
    | false =>
        rcases (settled_handle (C := C) (n := n) timed _).state with kept | rearmed
        · exact .inl ⟨kept, rest n member (kept.alive ▸ alive) times⟩
        · exact .inr rearmed

/-! ## Calls -/

omit timed in
/-- A change that keeps the clock and the queue. -/
theorem TimersSound.configure {system : Deployment ν} (sound : TimersSound C gone system)
    {change : Simulator ν (Payload ν) → Simulator ν (Payload ν)}
    (time : (change system.simulator).time = system.simulator.time)
    (queue : (change system.simulator).queue = system.simulator.queue) :
    TimersSound C gone (system.configure change).state where
  clock := sound.clock.trans time.symm
  onTime := by
    simpa only [Deployment.configure, Outcome.state, time, queue] using sound.onTime
  timers := by
    simpa only [Deployment.configure, Outcome.state, queue] using sound.timers
  stale := sound.stale

omit timed in
/-- The clock does not run past a queued message. -/
theorem TimersSound.reachTime {system : Deployment ν} (sound : TimersSound C gone system)
    (deadline : ℕ) : TimersSound C gone (system.reachTime deadline) := by
  unfold Deployment.reachTime
  split
  next => exact sound
  next idle =>
    obtain ⟨_, none⟩ := not_or.mp idle
    refine ⟨rfl, fun delivery member => ⟨?_, (sound.onTime delivery member).due⟩, fun n member =>
      ⟨(sound.timers n member).past, (sound.timers n member).armed⟩, fun n member generation
      listed => (sound.stale n member generation listed).atTime _⟩
    show deadline ≤ delivery.time
    have ordered := system.simulator.queue.ordered
    cases listed : system.simulator.queue.events with
    | nil =>
        rw [listed] at member
        cases member
    | cons head rest =>
        rw [listed] at none ordered member
        have beyond : deadline < head.time := by simpa using none
        rcases List.mem_cons.mp member with rfl | later
        · exact beyond.le
        · exact beyond.le.trans ((List.pairwise_cons.mp ordered).1 delivery later).time_le

theorem TimersSound.deliverNext {system : Deployment ν}
    {first : Outcome (Error ν) (Deployment ν) Unit} (sound : TimersSound C gone system)
    (next : Deployment.deliverNext C system = some first) : TimersSound C gone first.state := by
  unfold Deployment.deliverNext at next
  split at next
  next => cases next
  next taking =>
    cases next
    exact sound.receive timed taking

theorem TimersSound.operation {system : Deployment ν} {event : Event ν}
    (sound : TimersSound C gone system) (still : event.simulates = false)
    (offered : event.needsTransition = true → C.reconfigures = true) :
    TimersSound C gone (system.perform (step C event)).state := by
  cases unknown : event.node.filter (· ∉ C.nodeIds) with
  | some stranger =>
      refine sound.perform _ fun n _ => ?_
      unfold step
      rw [unknown]
      exact ⟨.refl _, trivial⟩
  | none =>
      have performed : step C event = Raft.perform C event := by
        funext s
        unfold step
        rw [unknown]
      rw [performed]
      by_cases crashes : ∃ m, event = .crash m
      · obtain ⟨m, rfl⟩ := crashes
        rw [Deployment.perform_state]
        exact sound.crash m
      · refine sound.perform _ fun n member => ?_
        refine settles_perform timed member ?_ still offered fun m same => crashes ⟨m, same⟩
        cases called : event.node with
        | none => rfl
        | some m =>
            rw [called] at unknown
            simpa using unknown

/-- **One call** keeps the timers sound. -/
theorem TimersSound.call {system : Deployment ν} (sound : TimersSound C gone system)
    (event : Call ν) : TimersSound C gone (Deployment.call C event system).state := by
  cases event with
  | operation event =>
      unfold Deployment.call
      dsimp only
      split
      next => exact sound
      next allowed =>
        obtain ⟨still, offered⟩ := not_or.mp allowed
        refine sound.operation timed (by simpa using still) fun needs => ?_
        by_contra fixed
        exact offered ⟨needs, fixed⟩
  | beginJointConsensus leader newVoters =>
      unfold Deployment.call
      dsimp only
      split
      next reconfigures =>
        exact sound.perform _ fun n member =>
          settles_beginJointConsensus timed member reconfigures leader newVoters
      next => exact sound
  | finalizeMembership leader =>
      unfold Deployment.call
      dsimp only
      split
      next reconfigures =>
        exact sound.perform _ fun n member =>
          settles_finalizeMembership timed member reconfigures leader
      next => exact sound
  | advancePeer i peer matchIndex =>
      have quiet : Quietly system.cluster
          (.returns () (advancePeer i peer matchIndex system.cluster) : Op ν Unit) :=
        quiet_updateReplicator i _
      exact sound.perform (fun s => .returns () (advancePeer i peer matchIndex s))
        fun n _ => quiet.settles
  | backtrackPeer i peer =>
      have quiet : Quietly system.cluster
          (.returns () (backtrackPeer i peer system.cluster) : Op ν Unit) :=
        quiet_updateReplicator i _
      exact sound.perform (fun s => .returns () (backtrackPeer i peer s))
        fun n _ => quiet.settles
  | run maxEvents =>
      unfold Deployment.call
      dsimp only
      split
      next => exact sound
      next ended =>
        exact drain_invariant (P := TimersSound C gone)
          (fun s first sound next => sound.deliverNext timed next) sound ended
      next ended =>
        exact drain_invariant (P := TimersSound C gone)
          (fun s first sound next => sound.deliverNext timed next) sound ended
  | reachTime deadline => exact sound.reachTime deadline
  | blockLink src dst => exact sound.configure rfl rfl
  | healLink src dst => exact sound.configure rfl rfl
  | partition left right => exact sound.configure rfl rfl
  | healPartition left right => exact sound.configure rfl rfl
  | setLinkDelay src dst extraDelay => exact sound.configure rfl rfl
  | clearLinkDelay src dst => exact sound.configure rfl rfl

/-! ## Runs -/

omit timed in
/-- A node that did nothing has nothing to give up with its timer. -/
theorem volatile_resetElectionTimeout_of_idle (idle : s.volatile m = {}) :
    (resetElectionTimeout C m s).volatile = s.volatile := by
  unfold resetElectionTimeout
  split
  · unfold disableElectionTimeout
    simp [Cluster.updateTimer, Cluster.role, idle]
  · split
    · rfl
    · split <;> rfl

/-- The first timers of the nodes. -/
theorem rearmed_startTimers {nodes : List ν} (members : ∀ m ∈ nodes, m ∈ C.nodeIds)
    (idle : s.volatile = fun _ => {}) :
    (n ∈ nodes → Rearmed C n s (nodes.foldl (fun s m => resetElectionTimeout C m s) s)) ∧
      (n ∉ nodes → Kept C n s (nodes.foldl (fun s m => resetElectionTimeout C m s) s)) := by
  refine resets_foldl (P := fun s => s.volatile = fun _ => {}) idle fun m member s idle => ?_
  obtain ⟨timeout, timer⟩ := timed m (members m member)
  have follows : s.role m ≠ .leader := by simp [Cluster.role, idle]
  exact ⟨(volatile_resetElectionTimeout_of_idle (congrFun idle m)).trans idle,
    resets_resetElectionTimeout timer follows⟩

theorem timersSound_start (faultPlan : FaultPlan ν) (persistent : ν → Persistent ν)
    (configuration : VotingConfiguration ν) (applier : StateMachineApplier ν)
    (images : ν → KVImage) :
    TimersSound C (fun _ => ∅)
      (Deployment.start C faultPlan persistent configuration applier images) := by
  have armed : ∀ n ∈ C.nodeIds, Rearmed C n (Config.over persistent configuration applier images)
      (startTimers C (Config.over persistent configuration applier images)) := fun n member =>
    (rearmed_startTimers timed (fun _ => id) rfl).1 member
  refine .follow rfl (fun delivery member => ?_) (fun n _ delivery member => ?_)
    (fun n _ generation listed => absurd listed (Set.notMem_empty generation))
    (fun n member => (armed n member).toTouched) fun n member _ => .inr (armed n member)
  · exact absurd member List.not_mem_nil
  · exact absurd member List.not_mem_nil

theorem timersSound_after {system : Deployment ν} (sound : TimersSound C gone system)
    (calls : List (Call ν)) : TimersSound C gone (Deployment.after C calls system) :=
  runEvents_invariant (fun event _ sound => sound.call timed event) calls system sound

omit timed in
/-- From here on the generations that are over now stay over. -/
theorem TimersSound.since {system : Deployment ν} (sound : TimersSound C gone system) :
    TimersSound C (fun n => { generation | Stale system.cluster n generation }) system :=
  { sound with stale := fun _ _ _ stale => stale }

/-! ## Timeouts -/

/-- The delivery is the timeout of the node's present generation and deadline. -/
def Presents (n : ν) (s : Cluster ν) (delivery : ScheduledDelivery ν (Payload ν)) : Bool :=
  (envelope delivery).timesOut n (s.timer n).generation &&
    decide (delivery.message.payload.deadline = (s.timer n).deadline)

/-- The delivery is the present timeout of a live node that waits for it. -/
def Awaited (C : Config ν) (s : Cluster ν) (delivery : ScheduledDelivery ν (Payload ν)) : Prop :=
  let n := delivery.message.dst
  n ∈ C.nodeIds ∧ s.alive n = true ∧ Waits C n s ∧ Presents n s delivery = true

/-- The delivery changes nothing: it is discarded, or its handler only left a record. -/
def Rejects (C : Config ν) (message : Simulation.Message ν (Payload ν)) (system : Deployment ν) :
    Prop :=
  ∃ trace, Deployment.receive C message system =
    .returns () { system with cluster := { system.cluster with trace := trace } }

omit timed in
/-- A node that waits has its timeout in the queue, once. -/
theorem TimersSound.presents {system : Deployment ν} (sound : TimersSound C gone system)
    (member : n ∈ C.nodeIds) (alive : system.cluster.alive n = true)
    (waits : Waits C n system.cluster) :
    system.simulator.queue.events.countP (Presents n system.cluster) = 1 ∧
      ∃ due, (system.cluster.timer n).deadline = some due ∧ system.cluster.time ≤ due := by
  have arms := (sound.timers n member).armed alive
  rw [Arms, if_pos waits, List.countP_map] at arms
  obtain ⟨once, due, deadline, all⟩ := arms
  refine ⟨?_, due, deadline, ?_⟩
  · rw [← once]
    refine List.countP_congr fun delivery listed => ?_
    unfold Presents
    rw [Bool.and_eq_true, decide_eq_true_eq]
    refine ⟨And.left, fun times => ⟨times, ?_⟩⟩
    rw [deadline]
    exact all _ (List.mem_map_of_mem listed) times
  · obtain ⟨delivery, listed, times⟩ := List.countP_pos_iff.mp (once ▸ Nat.one_pos)
    obtain ⟨_, deadline', payload⟩ := Message.timesOut_eq_true.mp times
    have carried := all _ (List.mem_map_of_mem listed) times
    rw [payload] at carried
    have onTime := sound.onTime delivery listed
    obtain rfl : due = delivery.time := by
      have := (onTime.due _ _ payload).2
      rw [show deadline' = some due from carried] at this
      exact Option.some.inj this
    rw [sound.clock]
    exact onTime.future

omit timed in
/-- A queued timeout that no node waits for is over. -/
theorem TimersSound.stale_of_not_awaited {system : Deployment ν}
    (sound : TimersSound C gone system) {delivery : ScheduledDelivery ν (Payload ν)}
    {generation : ℕ} (listed : delivery ∈ system.simulator.queue.events)
    (member : n ∈ C.nodeIds) (times : (envelope delivery).timesOut n generation = true)
    (other : ¬ Awaited C system.cluster delivery) : Stale system.cluster n generation where
  past := (sound.timers n member).past delivery listed generation times
  newer alive := by
    refine lt_of_le_of_ne ((sound.timers n member).past delivery listed generation times) ?_
    rintro rfl
    obtain ⟨rfl, _⟩ := Message.timesOut_eq_true.mp times
    obtain ⟨waits, deadline⟩ := ((sound.timers _ member).armed alive).timesOut
      (List.mem_map_of_mem listed) times
    refine other ⟨member, alive, waits, ?_⟩
    unfold Presents
    rw [Bool.and_eq_true, decide_eq_true_eq]
    exact ⟨times, deadline⟩

omit timed in
/-- **A timeout that is over is rejected.** -/
theorem Stale.rejects {system : Deployment ν} {message : Simulation.Message ν (Payload ν)}
    {generation : ℕ} {deadline : Option ℕ}
    (payload : message.payload = .electionTimeout generation deadline)
    (stale : message.dst ∈ C.nodeIds → Stale system.cluster message.dst generation) :
    Rejects C message system := by
  unfold Rejects Deployment.receive
  split
  next => exact ⟨_, rfl⟩
  next live =>
    have alive : system.cluster.alive message.dst = true := not_not.mp live
    have handled : Deployment.handle C ⟨message.src, message.dst, message.payload, message.ordinal⟩
        system.cluster = .returns () (system.cluster.record
          (.deliver ⟨message.src, message.dst, message.payload, message.ordinal⟩)) := by
      unfold Deployment.handle
      dsimp only
      split
      next valid =>
        have member : message.dst ∈ C.nodeIds := by
          unfold validEnvelope at valid
          rw [payload] at valid
          simp only [decide_eq_true_eq] at valid
          exact valid.2.1
        unfold handleMessage
        rw [payload]
        exact handleElectionTimeout_rejects ((stale member).newer alive).ne
      next => rfl
    unfold Deployment.perform
    rw [handled]
    refine ⟨(system.cluster.record (.deliver
      ⟨message.src, message.dst, message.payload, message.ordinal⟩)).trace, ?_⟩
    simp [Deployment.follow, Cluster.record, transmit]

/-- **Election timers are neither lost nor doubled.** In every run of a cluster with
election timeouts, between any two events: each live node that waits has exactly one
timeout in the queue with its timer's generation and deadline, and the deadline is not
over; every other timeout in the queue is rejected whenever it is delivered; and a
timeout moves no node that leads or does not vote. A run stops between any two
events, since `Simulator.run` can be called for one event at a time. -/
theorem election_timers_kept (faultPlan : FaultPlan ν) (persistent : ν → Persistent ν)
    (configuration : VotingConfiguration ν) (applier : StateMachineApplier ν)
    (images : ν → KVImage) (calls : List (Call ν)) :
    let system := Deployment.after C calls
      (Deployment.start C faultPlan persistent configuration applier images)
    (∀ n ∈ C.nodeIds, system.cluster.alive n = true → Waits C n system.cluster →
      system.simulator.queue.events.countP (Presents n system.cluster) = 1 ∧
        ∃ due, (system.cluster.timer n).deadline = some due ∧ system.cluster.time ≤ due) ∧
    (∀ delivery ∈ system.simulator.queue.events, (envelope delivery).IsTimeout →
      ¬ Awaited C system.cluster delivery → ∀ later taken,
        (Deployment.after C later system).takeNext = some (delivery, taken) →
          Rejects C delivery.message taken) ∧
    ∀ delivery taken, system.takeNext = some (delivery, taken) →
      (envelope delivery).IsTimeout → ¬ Waits C delivery.message.dst system.cluster →
        (Deployment.receive C delivery.message taken).state.cluster.volatile =
          system.cluster.volatile := by
  intro system
  have sound := timersSound_after timed
    (timersSound_start timed faultPlan persistent configuration applier images) calls
  have rejected : ∀ delivery ∈ system.simulator.queue.events, (envelope delivery).IsTimeout →
      ¬ Awaited C system.cluster delivery → ∀ later taken,
        (Deployment.after C later system).takeNext = some (delivery, taken) →
          Rejects C delivery.message taken := by
    rintro delivery listed ⟨generation, deadline, payload⟩ other later taken taking
    refine Stale.rejects payload fun member => ?_
    have times : (envelope delivery).timesOut delivery.message.dst generation = true :=
      Message.timesOut_eq_true.mpr ⟨rfl, deadline, payload⟩
    have gone := sound.stale_of_not_awaited listed member times other
    have kept := (timersSound_after timed sound.since later).stale _ member generation gone
    rw [(Deployment.takeNext_eq_some taking).1]
    exact kept.atTime _
  refine ⟨fun n member alive waits => sound.presents member alive waits, rejected, ?_⟩
  intro delivery taken taking timeout idle
  obtain ⟨cluster, _, events, _⟩ := Deployment.takeNext_eq_some taking
  have listed : delivery ∈ system.simulator.queue.events := by
    rw [events]
    exact List.mem_cons_self
  obtain ⟨trace, received⟩ := rejected delivery listed timeout (fun awaited => idle awaited.2.2.1)
    [] taken taking
  rw [received]
  simp [cluster]

end Timed

/-! ## A takeover -/

/-- Two nodes of which one times out before the other. -/
def duel : Config ℕ where
  nodeIds := [8, 9]
  nonempty := by decide
  nodup := by decide
  electionTimeout n := some (n - 3)

/-- The first node won the election, and the other voted for it. -/
def duelWon : List (Call ℕ) := [.run 9]

/-- The voter armed its timer twice; one of its queued timeouts is the present one. -/
theorem duel_timer_kept :
    let system := Deployment.after duel duelWon
      (Deployment.start duel {} (fun _ => {}) duel.initialConfiguration {} fun _ => {})
    system.simulator.queue.events.countP (Presents 9 system.cluster) = 1 :=
  ((election_timers_kept (C := duel) (fun _ _ => ⟨_, rfl⟩) {} (fun _ => {})
    duel.initialConfiguration {} (fun _ => {}) duelWon).1 9 (by decide) (by decide +kernel)
    (by decide +kernel)).1

end Distlab.Raft
