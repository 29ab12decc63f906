import Mathlib.Data.Finset.Prod
import Mathlib.Data.List.Sort
import Distlab.Foundations.Dict

/-!
# The simulator's event queue

`Simulator` delivers its queued messages in the order of their time; messages of
one time are in the order in which they were scheduled. A message that is sent
over a link meets the link's state and the fault plan first, which may drop it,
delay it or queue it twice. A message that is scheduled meets neither.

The handlers and the state of the nodes belong to the modelled protocols.
-/

set_option autoImplicit false

namespace Distlab.Simulation

open Foundations

/-! ## Fault plans -/

/-- `FaultAction`. -/
inductive FaultAction where
  | deliver
  | drop
  | delay
  | duplicate
  deriving DecidableEq

/-- `FaultRule`. -/
structure FaultRule (ν : Type) where
  action : FaultAction
  src : Option ν := none
  dst : Option ν := none
  ordinal : Option ℕ := none
  payloadType : Option String := none
  extraDelay : ℕ := 0

/-- `FaultPlan`. -/
structure FaultPlan (ν : Type) where
  rules : List (FaultRule ν) := []

/-- `Message`. -/
structure Message (ν : Type) (π : Type) where
  src : ν
  dst : ν
  payload : π
  ordinal : ℕ
  deriving DecidableEq

/-- The name of a payload's type, which fault rules select by. -/
class PayloadType (π : Type) where
  typeName : π → String

variable {ν : Type} {π : Type}

section Rules

variable [DecidableEq ν] [PayloadType π]

/-- `FaultRule.matches`. -/
def FaultRule.matchesMessage (rule : FaultRule ν) (message : Message ν π) : Bool :=
  rule.src.all (· = message.src) && rule.dst.all (· = message.dst) &&
    rule.ordinal.all (· = message.ordinal) &&
    rule.payloadType.all (· = PayloadType.typeName message.payload)

/-- `FaultPlan.action_for`. -/
def FaultPlan.actionFor (plan : FaultPlan ν) (message : Message ν π) : FaultRule ν :=
  (plan.rules.find? (·.matchesMessage message)).getD { action := .deliver }

end Rules

/-! ## The queue -/

/-- `_ScheduledDelivery`. -/
structure ScheduledDelivery (ν : Type) (π : Type) where
  time : ℕ
  sequence : ℕ
  message : Message ν π

namespace ScheduledDelivery

/-- The order of deliveries: by time, then by sequence. -/
def Before (first second : ScheduledDelivery ν π) : Prop :=
  first.time < second.time ∨ first.time = second.time ∧ first.sequence ≤ second.sequence

instance : DecidableRel (Before (ν := ν) (π := π)) :=
  fun _ _ => inferInstanceAs (Decidable (_ ∨ _))

instance : Std.Total (Before (ν := ν) (π := π)) where
  total first second := by
    unfold Before
    omega

instance : IsTrans (ScheduledDelivery ν π) Before where
  trans first second third := by
    unfold Before
    omega

theorem Before.time_le {first second : ScheduledDelivery ν π} (before : first.Before second) :
    first.time ≤ second.time := by
  unfold Before at before
  omega

end ScheduledDelivery

/-- The queue, which the source keeps as a heap: the deliveries in their order. -/
structure EventQueue (ν : Type) (π : Type) where
  events : List (ScheduledDelivery ν π)
  ordered : events.Pairwise ScheduledDelivery.Before

namespace EventQueue

/-- The queue without deliveries. -/
def empty : EventQueue ν π := ⟨[], .nil⟩

/-- `heapq.heappush`. -/
def push (queue : EventQueue ν π) (delivery : ScheduledDelivery ν π) : EventQueue ν π :=
  ⟨queue.events.orderedInsert ScheduledDelivery.Before delivery,
    queue.ordered.orderedInsert delivery queue.events⟩

/-- `heapq.heappop`. -/
def pop : EventQueue ν π → Option (ScheduledDelivery ν π × EventQueue ν π)
  | ⟨[], _⟩ => none
  | ⟨first :: rest, ordered⟩ => some (first, ⟨rest, ordered.of_cons⟩)

@[simp] theorem empty_events : (empty : EventQueue ν π).events = [] := rfl

theorem push_perm (queue : EventQueue ν π) (delivery : ScheduledDelivery ν π) :
    (queue.push delivery).events.Perm (delivery :: queue.events) :=
  List.perm_orderedInsert _ delivery queue.events

theorem pop_eq_none {queue : EventQueue ν π} : queue.pop = none ↔ queue.events = [] := by
  obtain ⟨events, ordered⟩ := queue
  cases events with
  | nil => exact iff_of_true rfl rfl
  | cons first rest => exact iff_of_false (by simp [pop]) (by simp)

theorem pop_eq_some {queue rest : EventQueue ν π} {first : ScheduledDelivery ν π}
    (popped : queue.pop = some (first, rest)) :
    queue.events = first :: rest.events ∧ ∀ later ∈ rest.events, first.Before later := by
  obtain ⟨events, ordered⟩ := queue
  cases events with
  | nil => cases popped
  | cons head tail =>
      cases popped
      exact ⟨rfl, (List.pairwise_cons.mp ordered).1⟩

end EventQueue

/-! ## The simulator -/

/-- The network and the clock of `Simulator`. -/
structure Simulator (ν : Type) (π : Type) where
  time : ℕ := 0
  sequence : ℕ := 0
  queue : EventQueue ν π := .empty
  sendOrdinals : ν → ν → ℕ := fun _ _ => 0
  blockedLinks : Finset (ν × ν) := ∅
  linkDelays : Dict (ν × ν) ℕ := ∅
  faultPlan : FaultPlan ν := {}

namespace Simulator

/-- `_schedule`. -/
def schedule (message : Message ν π) (delay : ℕ) (sim : Simulator ν π) : Simulator ν π :=
  { sim with
    sequence := sim.sequence + 1
    queue := sim.queue.push ⟨sim.time + delay, sim.sequence + 1, message⟩ }

/-- The next delivery, at its time. -/
def pop (sim : Simulator ν π) : Option (ScheduledDelivery ν π × Simulator ν π) :=
  match sim.queue.pop with
  | none => none
  | some (first, rest) => some (first, { sim with time := first.time, queue := rest })

section Links

variable [DecidableEq ν]

/-- `block_link`. -/
def blockLink (src dst : ν) (sim : Simulator ν π) : Simulator ν π :=
  { sim with blockedLinks := insert (src, dst) sim.blockedLinks }

/-- `heal_link`. -/
def healLink (src dst : ν) (sim : Simulator ν π) : Simulator ν π :=
  { sim with blockedLinks := sim.blockedLinks.erase (src, dst) }

/-- `partition`. -/
def partition (left right : Finset ν) (sim : Simulator ν π) : Simulator ν π :=
  { sim with blockedLinks := sim.blockedLinks ∪ (left ×ˢ right ∪ right ×ˢ left) }

/-- `heal_partition`. -/
def healPartition (left right : Finset ν) (sim : Simulator ν π) : Simulator ν π :=
  { sim with blockedLinks := sim.blockedLinks \ (left ×ˢ right ∪ right ×ˢ left) }

/-- `set_link_delay`. -/
def setLinkDelay (src dst : ν) (extraDelay : ℕ) (sim : Simulator ν π) : Simulator ν π :=
  { sim with linkDelays := sim.linkDelays.insert (src, dst) extraDelay }

/-- `clear_link_delay`. -/
def clearLinkDelay (src dst : ν) (sim : Simulator ν π) : Simulator ν π :=
  { sim with linkDelays := sim.linkDelays.erase (src, dst) }

end Links

section Sending

variable [DecidableEq ν] [PayloadType π]

/-- The part of `send` after the message has its ordinal. -/
def dispatch (message : Message ν π) (delay : ℕ) (sim : Simulator ν π) : Simulator ν π :=
  let key := (message.src, message.dst)
  if key ∈ sim.blockedLinks then sim
  else
    let rule := sim.faultPlan.actionFor message
    let effectiveDelay := delay + (sim.linkDelays.lookup key).getD 0
    match rule.action with
    | .drop => sim
    | .deliver => sim.schedule message effectiveDelay
    | .delay => sim.schedule message (effectiveDelay + rule.extraDelay)
    | .duplicate =>
        (sim.schedule message effectiveDelay).schedule message (effectiveDelay + rule.extraDelay)

/-- `send`. -/
def send (src dst : ν) (payload : π) (delay : ℕ) (sim : Simulator ν π) : Simulator ν π :=
  let ordinal := sim.sendOrdinals src dst + 1
  dispatch ⟨src, dst, payload, ordinal⟩ delay
    { sim with
      sendOrdinals :=
        Function.update sim.sendOrdinals src (Function.update (sim.sendOrdinals src) dst ordinal) }

end Sending

/-! ## What an operation queues -/

/-- The simulator queued at most two more copies of a message, none of them
before the present time. -/
structure Queues (message : Message ν π) (sim sim' : Simulator ν π) : Prop where
  time : sim'.time = sim.time
  copies : ∃ copies : List (ScheduledDelivery ν π), copies.length ≤ 2 ∧
    (∀ copy ∈ copies, copy.message = message ∧ sim.time ≤ copy.time) ∧
    sim'.queue.events.Perm (copies ++ sim.queue.events)

variable {sim : Simulator ν π} {message : Message ν π}

@[simp] theorem schedule_time (delay : ℕ) : (sim.schedule message delay).time = sim.time := rfl

theorem schedule_perm (sim : Simulator ν π) (message : Message ν π) (delay : ℕ) :
    (sim.schedule message delay).queue.events.Perm
      (⟨sim.time + delay, sim.sequence + 1, message⟩ :: sim.queue.events) :=
  sim.queue.push_perm _

theorem schedule_queues (delay : ℕ) : Queues message sim (sim.schedule message delay) where
  time := rfl
  copies := by
    refine ⟨[_], by simp, ?_, sim.schedule_perm message delay⟩
    intro copy member
    rw [List.mem_singleton.mp member]
    exact ⟨rfl, Nat.le_add_right _ _⟩

variable [DecidableEq ν] [PayloadType π]

/-- **A message that is sent is queued at most twice.** -/
theorem dispatch_queues (sim : Simulator ν π) (message : Message ν π) (delay : ℕ) :
    Queues message sim (sim.dispatch message delay) := by
  have dropped : Queues message sim sim := ⟨rfl, [], Nat.zero_le _, by simp, .refl _⟩
  unfold dispatch
  dsimp only
  split
  next => exact dropped
  next =>
    split
    next => exact dropped
    next => exact schedule_queues _
    next => exact schedule_queues _
    next =>
      refine ⟨rfl, [_, _], le_refl _, ?_,
        (schedule_perm _ message _).trans ((sim.schedule_perm message _).cons _)⟩
      intro copy member
      rcases List.mem_pair.mp member with rfl | rfl <;> exact ⟨rfl, Nat.le_add_right _ _⟩

theorem send_queues (src dst : ν) (payload : π) (delay : ℕ) :
    Queues ⟨src, dst, payload, sim.sendOrdinals src dst + 1⟩ sim (sim.send src dst payload delay) :=
  have sent := dispatch_queues { sim with
    sendOrdinals := Function.update sim.sendOrdinals src
      (Function.update (sim.sendOrdinals src) dst (sim.sendOrdinals src dst + 1)) }
    ⟨src, dst, payload, sim.sendOrdinals src dst + 1⟩ delay
  ⟨sent.time, sent.copies⟩

omit [DecidableEq ν] [PayloadType π] in
theorem pop_eq_none : sim.pop = none ↔ sim.queue.events = [] := by
  rw [← EventQueue.pop_eq_none, pop]
  split
  next none => exact iff_of_true rfl none
  next first rest some => exact iff_of_false (by simp) (by simp [some])

omit [DecidableEq ν] [PayloadType π] in
theorem pop_eq_some {sim' : Simulator ν π} {first : ScheduledDelivery ν π}
    (popped : sim.pop = some (first, sim')) :
    sim.queue.events = first :: sim'.queue.events ∧ sim'.time = first.time ∧
      ∀ later ∈ sim'.queue.events, first.time ≤ later.time := by
  unfold pop at popped
  split at popped
  next => cases popped
  next rest found =>
    cases popped
    obtain ⟨events, before⟩ := EventQueue.pop_eq_some found
    exact ⟨events, rfl, fun later member => (before later member).time_le⟩

end Simulator

end Distlab.Simulation
