import Distlab.MultiPaxos.HandlerCosts

/-!
# Quiescence

The weights of the queued messages and the potential of the cluster fall with
every delivery, so `Simulator.run` ends: with an empty queue, or with a safety
violation that a handler raised. The start may be any state that calls of a
driver reach.
-/

set_option autoImplicit false

namespace Distlab.MultiPaxos

open Foundations Paxos Simulation

variable {ν : Type} {α : Type} {M : Membership ν} {s t : Cluster ν α}
  {system : Deployment ν α}

/-! ## The rank of a deployment -/

/-- The weight of the queued messages. -/
def load (events : List (ScheduledDelivery ν (Payload ν α))) : ℕ :=
  (events.map fun event => event.message.payload.weight).sum

/-- What is left to deliver, at most. -/
def Deployment.rank (M : Membership ν) (system : Deployment ν α) : ℕ :=
  load system.simulator.queue.events + potential M system.cluster

/-- The queued messages are for nodes of the cluster, whose volatile state is
regular. -/
structure Deployment.Sound (M : Membership ν) (system : Deployment ν α) : Prop where
  members : ∀ event ∈ system.simulator.queue.events, event.message.dst ∈ M.nodeIds
  regular : Regular M system.cluster

theorem load_perm {first second : List (ScheduledDelivery ν (Payload ν α))}
    (perm : first.Perm second) : load first = load second :=
  (perm.map _).sum_nat

theorem load_append (first second : List (ScheduledDelivery ν (Payload ν α))) :
    load (first ++ second) = load first + load second := by
  simp only [load, List.map_append, List.sum_append]

theorem load_copies {message : Simulation.Message ν (Payload ν α)}
    {copies : List (ScheduledDelivery ν (Payload ν α))}
    (same : ∀ copy ∈ copies, copy.message = message) :
    load copies = copies.length * message.payload.weight := by
  induction copies with
  | nil => simp [load]
  | cons copy rest ih =>
      have ih := ih fun other member => same other (List.mem_cons_of_mem _ member)
      simp only [load, List.map_cons, List.sum_cons, List.length_cons] at ih ⊢
      rw [ih, same copy List.mem_cons_self, Nat.add_comm, ← Nat.succ_mul]

/-- A message that is queued at most twice adds at most twice its weight. -/
theorem load_queues {message : Simulation.Message ν (Payload ν α)}
    {sim sim' : Simulator ν (Payload ν α)} (queues : Simulator.Queues message sim sim') :
    load sim'.queue.events ≤ load sim.queue.events + 2 * message.payload.weight := by
  obtain ⟨copies, few, same, perm⟩ := queues.copies
  rw [load_perm perm, load_append, load_copies fun copy member => (same copy member).1]
  have := Nat.mul_le_mul_right message.payload.weight few
  omega

theorem members_queues {message : Simulation.Message ν (Payload ν α)}
    {sim sim' : Simulator ν (Payload ν α)} (queues : Simulator.Queues message sim sim')
    (member : message.dst ∈ M.nodeIds)
    (members : ∀ event ∈ sim.queue.events, event.message.dst ∈ M.nodeIds) :
    ∀ event ∈ sim'.queue.events, event.message.dst ∈ M.nodeIds := by
  obtain ⟨copies, _, same, perm⟩ := queues.copies
  intro event queued
  rcases List.mem_append.mp (perm.mem_iff.mp queued) with new | old
  · rw [(same event new).1]
    exact member
  · exact members event old

variable [LinearOrder ν]

/-! ## Transmission -/

theorem transmitMessage_queues (message : Message ν α) (sim : Simulator ν (Payload ν α)) :
    ∃ ordinal, Simulator.Queues ⟨message.src, message.dst, message.payload, ordinal⟩ sim
      (transmitMessage message sim) := by
  unfold transmitMessage
  split
  next => exact ⟨0, Simulator.schedule_queues _⟩
  next => exact ⟨_, Simulator.send_queues _ _ _ _⟩

theorem transmit_spec (messages : List (Message ν α)) (sim : Simulator ν (Payload ν α))
    (sent : ∀ m ∈ messages, m.dst ∈ M.nodeIds)
    (members : ∀ event ∈ sim.queue.events, event.message.dst ∈ M.nodeIds) :
    (∀ event ∈ (transmit messages sim).queue.events, event.message.dst ∈ M.nodeIds) ∧
      load (transmit messages sim).queue.events ≤ load sim.queue.events + outlay messages := by
  induction messages generalizing sim with
  | nil => exact ⟨members, le_rfl⟩
  | cons message rest ih =>
      obtain ⟨ordinal, queues⟩ := transmitMessage_queues message sim
      have first := load_queues queues
      have kept := members_queues queues (sent message List.mem_cons_self) members
      obtain ⟨members', loaded⟩ :=
        ih (transmitMessage message sim)
          (fun m member => sent m (List.mem_cons_of_mem _ member)) kept
      refine ⟨members', le_trans loaded ?_⟩
      simp only [outlay, List.map_cons, List.sum_cons] at first ⊢
      omega

/-- A deployment follows an operation at the price of the operation's budget. -/
theorem Deployment.Sound.follow (sound : system.Sound M) {budget : ℕ}
    (spends : Spends M budget system.cluster t) :
    (system.follow t).Sound M ∧ (system.follow t).rank M ≤ system.rank M + budget := by
  obtain ⟨sent, network, members, paid⟩ := spends.pays
  have new : t.network.drop system.cluster.network.length = sent := by
    rw [network, List.drop_left]
  obtain ⟨queued, loaded⟩ := transmit_spec sent system.simulator members sound.members
  refine ⟨⟨?_, spends.regular⟩, ?_⟩
  · rw [Deployment.follow, new]
    exact queued
  · rw [Deployment.follow, Deployment.rank, Deployment.rank, new]
    dsimp only
    omega

theorem Deployment.perform_ensures {op : Cluster ν α → Op ν α Unit}
    {P : Cluster ν α → Prop} {E : Error ν → Prop}
    (ensures : (op system.cluster).Ensures P fun e _ => E e) :
    (system.perform op).Ensures (fun after => ∃ t, P t ∧ after = system.follow t)
      fun e _ => E e := by
  unfold Deployment.perform
  cases done : op system.cluster with
  | returns _ t =>
      rw [done] at ensures
      exact ⟨t, ensures, rfl⟩
  | raises e t =>
      rw [done] at ensures
      exact ⟨⟨t, ensures.1, rfl⟩, ensures.2⟩

variable [DecidableEq α]

/-! ## Deliveries -/

omit [DecidableEq α] in
theorem onNode_member {β : Type} {n : ν} (member : n ∈ M.nodeIds)
    {op : Cluster ν α → Op ν α β} {P : Cluster ν α → Prop} {E : Error ν → Cluster ν α → Prop}
    (ensures : (op s).Ensures P E) : (onNode M n op s).Ensures P E := by
  unfold onNode
  rw [if_pos member]
  exact ensures.bind (fun _ _ _ holds => holds) fun _ => id

/-- A delivery costs less than the message was worth. -/
theorem Deployment.Sound.receive (sound : system.Sound M)
    {message : Simulation.Message ν (Payload ν α)} (member : message.dst ∈ M.nodeIds) :
    (Deployment.receive M message system).Ensures
      (fun after => after.Sound M ∧
        after.rank M ≤ system.rank M + (message.payload.weight - 1)) fun e _ => e.IsSafety := by
  unfold Deployment.receive
  split
  next => exact ⟨sound, Nat.le_add_right _ _⟩
  next =>
    have handled := onNode_member member (handleMessage_spends sound.regular member
      ⟨message.src, message.dst, message.payload⟩)
    refine (Deployment.perform_ensures handled).mono (fun after reached => ?_) fun _ _ => id
    obtain ⟨t, spends, rfl⟩ := reached
    exact sound.follow spends

/-- **Every delivery lowers the rank.** -/
theorem Deployment.Sound.deliverNext (sound : system.Sound M)
    {first : Outcome (Error ν) (Deployment ν α) Unit}
    (delivers : Deployment.deliverNext M system = some first) :
    first.Ensures (fun after => after.Sound M ∧ after.rank M < system.rank M)
      fun e _ => e.IsSafety := by
  unfold Deployment.deliverNext at delivers
  split at delivers
  next => cases delivers
  next event sim popped =>
    obtain ⟨events, _, _⟩ := Simulator.pop_eq_some popped
    have member : event.message.dst ∈ M.nodeIds :=
      sound.members event (events ▸ List.mem_cons_self)
    have rest : Deployment.Sound M (⟨system.cluster, sim⟩ : Deployment ν α) := by
      refine ⟨fun later queued => sound.members later ?_, sound.regular⟩
      rw [events]
      exact List.mem_cons_of_mem _ queued
    have worth : system.rank M = event.message.payload.weight +
        Deployment.rank M (⟨system.cluster, sim⟩ : Deployment ν α) := by
      simp only [Deployment.rank, events, load, List.map_cons, List.sum_cons]
      omega
    have positive := event.message.payload.weight_pos
    cases delivers
    refine (rest.receive member).mono (fun after kept => ⟨kept.1, ?_⟩) fun _ _ => id
    have := kept.2
    omega

/-- A deployment without a next delivery has an empty queue. -/
theorem deliverNext_eq_none (none : Deployment.deliverNext M system = none) :
    system.simulator.queue.events = [] := by
  unfold Deployment.deliverNext at none
  split at none
  next popped => exact Simulator.pop_eq_none.mp popped
  next => cases none

/-! ## Calls -/

/-- Some budget pays for the step. -/
def Affords (M : Membership ν) (s t : Cluster ν α) : Prop := ∃ budget, Spends M budget s t

omit [DecidableEq α] in
theorem prepareLeadership_affords (regular : Regular M s) {self : ν}
    (member : self ∈ M.nodeIds) (roundNumber : Option ℕ) :
    (prepareLeadership M self roundNumber s).Ensures (Affords M s) fun _ _ => True := by
  have stays : Affords M s s := ⟨0, regular.spends⟩
  unfold prepareLeadership
  split
  next => exact ⟨stays, trivial⟩
  next =>
    cases promisedBallot M self s with
    | error violation => exact ⟨stays, trivial⟩
    | ok promised =>
        dsimp only [check, Outcome.bind_returns]
        generalize roundNumber.getD _ = round
        split
        next => exact ⟨stays, trivial⟩
        next =>
          have numbered : Spends M 0 s (s.updateDurable self fun d =>
              { d with lastRound := round }) := Spends.of_same regular rfl rfl
          have leads := numbered.trans (Spends.updateVolatile (M := M) 0
            numbered.regular member (g := fun w =>
              { w with
                leaderBallot := some ⟨round, self⟩
                promises := ∅
                pending := ∅
                acceptedBy := ∅ })
            ⟨(numbered.regular self).attempts, fun _ leads => by cases leads; exact member⟩
            (by simp [nodePotential]))
          have prepared := receivePrepare_spends leads.regular member ⟨round, self⟩ member
          refine (prepared.mono (fun t after => leads.trans after) fun _ _ _ => trivial).bind
            (fun _ t _ after => ?_) fun t after => ⟨_, after⟩
          exact ⟨_, after.trans (Spends.sendAll after.regular self (fun _ => peers_mem) _)⟩

/-- A leader's own acceptor answers a request, then the request goes to its peers. -/
theorem request_affords {started : ℕ} (spends : Spends M started s t) {self : ν}
    (member : self ∈ M.nodeIds) {request : LeaderAccept ν α}
    (proposer : request.ballot.proposerId ∈ M.nodeIds) :
    ((receiveAccept M self request t).bind fun _ u =>
      .returns () (u.sendAll self (M.peers self) (.leaderAccept request))).Ensures
      (Affords M s) fun _ _ => True := by
  have accepted := receiveAccept_spends spends.regular member proposer
  refine (accepted.mono (fun u after => spends.trans after) fun _ _ _ => trivial).bind
    (fun _ u _ after => ?_) fun u after => ⟨_, after⟩
  exact ⟨_, after.trans (Spends.sendAll after.regular self (fun _ => peers_mem) _)⟩

theorem propose_affords (regular : Regular M s) {self : ν} (member : self ∈ M.nodeIds)
    (slot : ℕ) (value : α) :
    (propose M self slot value s).Ensures (Affords M s) fun _ _ => True := by
  have stays : Affords M s s := ⟨0, regular.spends⟩
  unfold propose
  split
  next => exact ⟨stays, trivial⟩
  next =>
    split
    next => exact ⟨stays, trivial⟩
    next ballot leads =>
      split
      next => exact ⟨stays, trivial⟩
      next =>
        split
        next => exact ⟨stays, trivial⟩
        next =>
          cases adoptedValue s self slot with
          | error violation => exact ⟨stays, trivial⟩
          | ok adopted =>
              dsimp only [check, Outcome.bind_returns]
              generalize valueToPropose adopted value = chosenValue
              have started := Spends.updateVolatile _ regular member (g := fun w =>
                  { w with
                    pending := w.pending.insert slot chosenValue
                    acceptedBy := w.acceptedBy.insert slot ∅ })
                ⟨(regular self).attempts, (regular self).leader⟩ (Nat.le_add_left _ _)
              exact request_affords started member ((regular self).leader ballot leads)

theorem retryProposal_affords (regular : Regular M s) {self : ν} (member : self ∈ M.nodeIds)
    (slot : ℕ) : (retryProposal M self slot s).Ensures (Affords M s) fun _ _ => True := by
  have stays : Affords M s s := ⟨0, regular.spends⟩
  unfold retryProposal
  split
  next => exact ⟨stays, trivial⟩
  next ballot leads =>
    split
    next => exact ⟨stays, trivial⟩
    next =>
      cases promisedBallot M self s with
      | error violation => exact ⟨stays, trivial⟩
      | ok promised =>
          dsimp only [check, Outcome.bind_returns]
          split
          next => exact ⟨stays, trivial⟩
          next =>
            split
            next => exact ⟨stays, trivial⟩
            next value pending =>
              exact request_affords regular.spends member ((regular self).leader ballot leads)

omit [DecidableEq α] in
theorem recoverDecisions_affords (regular : Regular M s) {self : ν} (member : self ∈ M.nodeIds)
    (startSlot : ℕ) :
    (recoverDecisions M self startSlot s).Ensures (Affords M s) fun _ _ => True := by
  have stays : Affords M s s := ⟨0, regular.spends⟩
  unfold recoverDecisions
  split
  next => exact ⟨stays, trivial⟩
  next =>
    split
    next => exact stays
    next =>
      split
      next => exact ⟨stays, trivial⟩
      next =>
        split
        next => exact stays
        next =>
          have started := Spends.updateVolatile _ regular member (g := fun w =>
              { w with
                recoveryGeneration := w.recoveryGeneration + 1
                recoveryAttempt := 0
                recovery := some startSlot })
            ⟨Nat.zero_le _, (regular self).leader⟩ (Nat.le_add_left _ _)
          exact (retryRecovery_spends started.regular member).mono
            (fun t after => ⟨_, started.trans after⟩) fun _ _ _ => trivial

omit [DecidableEq α] in
/-- A crash and a restart forget the volatile state. -/
theorem lifecycle_affords (regular : Regular M s) {n : ν} (member : n ∈ M.nodeIds)
    (alive : ν → Bool) : Affords M s (handleCrash n { s with alive := alive }) := by
  have marked : Spends M 0 s { s with alive := alive } := Spends.of_same regular rfl rfl
  have forgets := Spends.updateVolatile _ marked.regular member
    (g := fun w => { recoveryGeneration := w.recoveryGeneration + 1 })
    ⟨Nat.zero_le _, fun _ leads => by cases leads⟩ (Nat.le_add_left _ _)
  exact ⟨_, marked.trans forgets⟩

omit [DecidableEq α] in
theorem Deployment.Sound.onNode_sound {β : Type} (sound : system.Sound M) {n : ν}
    (op : Cluster ν α → Op ν α β)
    (affords : n ∈ M.nodeIds →
      (op system.cluster).Ensures (Affords M system.cluster) fun _ _ => True) :
    (system.perform (onNode M n op)).state.Sound M := by
  have kept : (onNode M n op system.cluster).Ensures (Affords M system.cluster)
      fun _ _ => True := by
    by_cases member : n ∈ M.nodeIds
    · exact onNode_member member (affords member)
    · unfold onNode
      rw [if_neg member]
      exact ⟨⟨0, sound.regular.spends⟩, trivial⟩
  obtain ⟨t, ⟨budget, spends⟩, reached⟩ := (Deployment.perform_ensures kept).state
  rw [reached]
  exact (sound.follow spends).1

omit [LinearOrder ν] [DecidableEq α] in
theorem Deployment.Sound.fresh (learn : Bool) (faultPlan : FaultPlan ν) :
    (Deployment.fresh learn faultPlan : Deployment ν α).Sound M where
  members := by simp [Deployment.fresh]
  regular _ := ⟨Nat.zero_le _, fun _ leads => by cases leads⟩

/-- The constructor of a cluster forgets the volatile state. -/
theorem reconstruct_volatile {learn : Bool} {value : Unit}
    (built : reconstruct M learn s = .returns value t) : Regular M t := by
  unfold reconstruct at built
  dsimp only at built
  split at built
  next => cases built
  next =>
    split at built
    next => cases built
    next =>
      cases built
      exact fun _ => ⟨Nat.zero_le _, fun _ leads => by cases leads⟩

/-- **A call leaves a sound deployment.** -/
theorem Deployment.Sound.call (sound : system.Sound M) (event : Call ν α) :
    (Deployment.call M event system).state.Sound M := by
  cases event with
  | prepareLeadership n roundNumber =>
      exact sound.onNode_sound _ fun member =>
        prepareLeadership_affords sound.regular member roundNumber
  | propose n slot value =>
      exact sound.onNode_sound _ fun member => propose_affords sound.regular member slot value
  | retryProposal n slot =>
      exact sound.onNode_sound _ fun member => retryProposal_affords sound.regular member slot
  | recoverDecisions n startSlot =>
      exact sound.onNode_sound _ fun member =>
        recoverDecisions_affords sound.regular member startSlot
  | crash n =>
      exact sound.onNode_sound (fun s => .returns () (crash n s)) fun member =>
        lifecycle_affords sound.regular member _
  | restart n =>
      exact sound.onNode_sound (fun s => .returns () (restart n s)) fun member =>
        lifecycle_affords sound.regular member _
  | send src dst payload delay =>
      unfold Deployment.call
      dsimp only
      split
      next member =>
        exact ⟨members_queues (Simulator.send_queues src dst payload delay) member sound.members,
          sound.regular⟩
      next => exact sound
  | run maxEvents =>
      unfold Deployment.call
      dsimp only
      split
      next => exact sound
      next delivered after ended =>
        exact drain_invariant (P := Deployment.Sound M)
          (fun s first sound delivers => (sound.deliverNext delivers).state.1) sound ended
      next error after ended =>
        exact drain_invariant (P := Deployment.Sound M)
          (fun s first sound delivers => (sound.deliverNext delivers).state.1) sound ended
  | reconstruct learn faultPlan =>
      unfold Deployment.call
      dsimp only
      split
      next value t built => exact ⟨by simp, reconstruct_volatile built⟩
      next => exact sound
  | blockLink | healLink | partition | healPartition | setLinkDelay | clearLinkDelay =>
      exact ⟨sound.members, sound.regular⟩

/-- **Quiescence.** From every state that a driver reaches with any calls, under
any fault plan, `Simulator.run` without `max_events` ends, however many more
passes its loop is given: either it returns with an empty queue, after at most as
many deliveries as the state's rank says, or a handler raised a safety violation. -/
theorem quiescence (M : Membership ν) (learn : Bool) (faultPlan : FaultPlan ν)
    (calls : List (Call ν α)) :
    let system := Deployment.after M learn faultPlan calls
    ∃ outcome,
      (∀ fuel, system.rank M < fuel → Deployment.run M none fuel system = some outcome) ∧
      match outcome with
      | .returns delivered final =>
          final.simulator.queue.events = [] ∧ delivered ≤ system.rank M
      | .raises error _ => error.IsSafety := by
  intro system
  have sound : system.Sound M :=
    runEvents_invariant (P := Deployment.Sound M) (fun event _ sound => sound.call event)
      calls _ (Deployment.Sound.fresh learn faultPlan)
  obtain ⟨outcome, ended, meets⟩ :=
    drain_of_rank (P := Deployment.Sound M) (E := Error.IsSafety) (Deployment.rank M)
      (fun s first sound delivers => sound.deliverNext delivers) 0 sound
      (Nat.lt_succ_self (system.rank M))
  refine ⟨outcome, fun fuel enough => drain_mono ended enough, ?_⟩
  cases outcome with
  | raises error final => exact meets
  | returns delivered final =>
      obtain ⟨empty, _, counted⟩ := meets
      exact ⟨deliverNext_eq_none empty, by omega⟩

end Distlab.MultiPaxos
