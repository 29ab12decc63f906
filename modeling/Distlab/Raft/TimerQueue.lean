import Distlab.Raft.ElectionTimers

/-!
# Queued timeouts

The simulator queues every timeout that an operation sends, once, for its
deadline. So the queue holds one timeout of each live node that waits for one, and
what an operation does to a timer it does to the timeouts in the queue.
-/

set_option autoImplicit false

namespace Distlab.Raft

open Foundations Simulation

variable {ν : Type} [LinearOrder ν] {C : Config ν} {n : ν} {s t : Cluster ν}

/-- The cluster's message in a delivery. -/
def envelope (delivery : ScheduledDelivery ν (Payload ν)) : Message ν :=
  ⟨delivery.message.src, delivery.message.dst, delivery.message.payload, delivery.message.ordinal⟩

/-- The delivery is not over, and a timeout is due at its deadline, at its own node. -/
structure OnTime (now : ℕ) (delivery : ScheduledDelivery ν (Payload ν)) : Prop where
  future : now ≤ delivery.time
  due : ∀ generation deadline,
    delivery.message.payload = .electionTimeout generation deadline →
      delivery.message.src = delivery.message.dst ∧ deadline = some delivery.time

omit [LinearOrder ν] in
theorem OnTime.earlier {now before : ℕ} {delivery : ScheduledDelivery ν (Payload ν)}
    (onTime : OnTime now delivery) (le : before ≤ now) : OnTime before delivery :=
  ⟨le.trans onTime.future, onTime.due⟩

/-! ## Messages on the way to the queue -/

/-- The simulator queues the messages: each timeout once, for its deadline. -/
structure Carries (sent : List (Message ν)) (sim sim' : Simulator ν (Payload ν)) : Prop where
  time : sim'.time = sim.time
  added : ∃ added : List (ScheduledDelivery ν (Payload ν)),
    sim'.queue.events.Perm (added ++ sim.queue.events) ∧
    (∀ delivery ∈ added, envelope delivery ∈ sent ∧ OnTime sim.time delivery) ∧
    ∀ n generation, (added.map envelope).countP (·.timesOut n generation) =
      sent.countP (·.timesOut n generation)

theorem Carries.nil (sim : Simulator ν (Payload ν)) : Carries [] sim sim where
  time := rfl
  added := ⟨[], .refl _, by simp, fun _ _ => rfl⟩

theorem Carries.append {first second : List (Message ν)}
    {sim sim' sim'' : Simulator ν (Payload ν)} (carries : Carries first sim sim')
    (carries' : Carries second sim' sim'') : Carries (first ++ second) sim sim'' where
  time := carries'.time.trans carries.time
  added := by
    obtain ⟨early, perm, meets, counted⟩ := carries.added
    obtain ⟨late, perm', meets', counted'⟩ := carries'.added
    refine ⟨early ++ late, ?_, fun delivery member => ?_, fun n generation => ?_⟩
    · refine perm'.trans ((perm.append_left late).trans ?_)
      rw [← List.append_assoc]
      exact List.perm_append_comm.append_right _
    · rcases List.mem_append.mp member with before | after
      · obtain ⟨source, onTime⟩ := meets delivery before
        exact ⟨List.mem_append_left _ source, onTime⟩
      · obtain ⟨source, onTime⟩ := meets' delivery after
        rw [carries.time] at onTime
        exact ⟨List.mem_append_right _ source, onTime⟩
    · rw [List.map_append, List.countP_append, List.countP_append, counted, counted']

/-- A message that is no timeout times nothing out. -/
theorem Message.timesOut_eq_false {message : Message ν} (other : ¬ message.IsTimeout)
    (n : ν) (generation : ℕ) : message.timesOut n generation = false := by
  by_contra times
  obtain ⟨_, deadline, payload⟩ := Message.timesOut_eq_true.mp (Bool.not_eq_false _ ▸ times)
  exact other ⟨generation, deadline, payload⟩

/-- A timeout among an operation's messages is for its own node and a time to come. -/
def Timely (now : ℕ) (message : Message ν) : Prop :=
  ∀ generation deadline, message.payload = .electionTimeout generation deadline →
    message.src = message.dst ∧ ∃ due, deadline = some due ∧ now ≤ due

theorem carries_transmitMessage {message : Message ν} {sim : Simulator ν (Payload ν)}
    (timely : Timely sim.time message) : Carries [message] sim (transmitMessage message sim) := by
  by_cases timeout : message.IsTimeout
  · obtain ⟨generation, deadline, payload⟩ := timeout
    obtain ⟨own, due, rfl, future⟩ := timely generation deadline payload
    unfold transmitMessage
    rw [payload]
    refine ⟨rfl, [_], sim.schedule_perm _ _, fun delivery member => ?_, fun n generation => ?_⟩
    · obtain rfl := List.mem_singleton.mp member
      refine ⟨List.mem_singleton.mpr ?_, Nat.le_add_right _ _, fun generation' deadline' same => ?_⟩
      · unfold envelope
        rw [← payload]
      · cases same
        exact ⟨own, by simp [Nat.add_sub_cancel' future]⟩
    · unfold envelope
      rw [← payload]
      rfl
  · have sent : transmitMessage message sim = sim.dispatch
        ⟨message.src, message.dst, message.payload, message.ordinal⟩ 1 := by
      unfold transmitMessage
      split
      next generation deadline payload => exact absurd ⟨generation, deadline, payload⟩ timeout
      next => rfl
    rw [sent]
    obtain ⟨time, copies, _, copied, perm⟩ := Simulator.dispatch_queues sim
      ⟨message.src, message.dst, message.payload, message.ordinal⟩ 1
    have same : ∀ copy ∈ copies, envelope copy = message := fun copy member => by
      unfold envelope
      rw [(copied copy member).1]
    refine ⟨time, copies, perm, fun copy member => ⟨?_, (copied copy member).2, ?_⟩,
      fun n generation => ?_⟩
    · rw [same copy member]
      exact List.mem_singleton_self message
    · intro generation deadline payload
      rw [(copied copy member).1] at payload
      exact absurd ⟨generation, deadline, payload⟩ timeout
    · rw [List.countP_singleton, Message.timesOut_eq_false timeout, if_neg (by simp),
        List.countP_eq_zero]
      intro queued member
      obtain ⟨copy, listed, rfl⟩ := List.mem_map.mp member
      rw [same copy listed, Message.timesOut_eq_false timeout]
      simp

theorem carries_transmit {sent : List (Message ν)} {sim : Simulator ν (Payload ν)}
    (timely : ∀ message ∈ sent, Timely sim.time message) :
    Carries sent sim (transmit sent sim) := by
  unfold transmit
  induction sent generalizing sim with
  | nil => exact .nil sim
  | cons message rest ih =>
      have first := carries_transmitMessage (timely message List.mem_cons_self)
      refine first.append (ih fun other member => ?_)
      rw [first.time]
      exact timely other (List.mem_cons_of_mem _ member)

/-! ## Sound timers -/

/-- The queue as a timer sees it: no timeout is from a later generation, and while
the node is alive its present timeout is there if the node waits for it. -/
structure TimerSound (C : Config ν) (n : ν) (s : Cluster ν)
    (events : List (ScheduledDelivery ν (Payload ν))) : Prop where
  past : ∀ delivery ∈ events, ∀ generation,
    (envelope delivery).timesOut n generation = true → generation ≤ (s.timer n).generation
  armed : s.alive n = true → Arms C n s (events.map envelope)

/-- What is carried to the queue is armed as it was sent. -/
theorem Arms.of_carried {sent queued : List (Message ν)} (arms : Arms C n t sent)
    (counted : ∀ generation, queued.countP (·.timesOut n generation) =
      sent.countP (·.timesOut n generation))
    (source : ∀ message ∈ queued, message ∈ sent) : Arms C n t queued := by
  unfold Arms at arms ⊢
  rw [counted]
  split at arms
  next waits =>
    obtain ⟨once, due, deadline, all⟩ := arms
    rw [if_pos waits]
    exact ⟨once, due, deadline, fun message member => all message (source message member)⟩
  next waits =>
    rw [if_neg waits]
    exact arms

/-- **One step of the timers.** While its operation runs, a node that stays alive
keeps its timer, with the timeout that the queue holds, or arms it anew. -/
theorem TimerSound.step {events events' added : List (ScheduledDelivery ν (Payload ν))}
    {sent : List (Message ν)}
    (past : ∀ delivery ∈ events, ∀ generation,
      (envelope delivery).timesOut n generation = true → generation ≤ (s.timer n).generation)
    (touched : Touched n s t) (network : t.network = s.network ++ sent)
    (settled : t.alive n = true →
      Kept C n s t ∧ Arms C n s (events.map envelope) ∨ Rearmed C n s t)
    (perm : events'.Perm (added ++ events))
    (source : ∀ delivery ∈ added, envelope delivery ∈ sent)
    (counted : ∀ generation, (added.map envelope).countP (·.timesOut n generation) =
      sent.countP (·.timesOut n generation)) : TimerSound C n t events' where
  past delivery member generation times := by
    rcases List.mem_append.mp (perm.mem_iff.mp member) with new | old
    · by_contra beyond
      have none := touched.countP_eq_zero network (.inr (Nat.lt_of_not_le beyond))
      exact List.countP_eq_zero.mp none _ (source delivery new) times
    · exact (past delivery old generation times).trans touched.later
  armed alive := by
    have queued : (events'.map envelope).Perm (added.map envelope ++ events.map envelope) := by
      rw [← List.map_append]
      exact perm.map envelope
    rcases settled alive with ⟨kept, arms⟩ | rearmed
    · have silent : (added.map envelope).countP
          (·.timesOut n (t.timer n).generation) = 0 := by
        rw [counted, kept.timer]
        exact touched.countP_eq_zero network (.inl le_rfl)
      exact ((arms.of_kept kept).append silent).perm
        (List.perm_append_comm.trans queued.symm)
    · have fresh : Arms C n t (added.map envelope) :=
        (rearmed.arms sent network).of_carried counted fun message member => by
          obtain ⟨delivery, listed, rfl⟩ := List.mem_map.mp member
          exact source delivery listed
      refine (fresh.append (List.countP_eq_zero.mpr fun message member times => ?_)).perm
        queued.symm
      obtain ⟨delivery, listed, rfl⟩ := List.mem_map.mp member
      have before := past delivery listed _ times
      have newer := rearmed.newer
      omega

end Distlab.Raft
