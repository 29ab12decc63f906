import Distlab.Simulation.Slices

/-!
# The order of deliveries

Along every run the times of the deliveries never decrease, deliveries of one time come in
the order in which they were scheduled, and what was scheduled is delivered or discarded
once: the numbers of the queued deliveries are distinct, an action only adds later ones, and
a delivery is taken off the queue before its record is written. Only a message that no
handler is registered for is taken off without a record, by the run that raises for it.
-/

set_option autoImplicit false

namespace Distlab.Simulation

open Foundations

variable {ν π ρ σ ε : Type}

/-! ## What the trace says of the queue -/

/-- The delivery that a "schedule" record shows: its time, its number and its message. -/
def TraceRecord.scheduled? (entry : TraceRecord ν π ρ) : Option (ℕ × ℕ × Message ν π) :=
  match entry.event with
  | .schedule message deliveryTime sequence => some (deliveryTime, sequence, message)
  | _ => none

/-- The time and the message that a "deliver" or a "discard-crashed" record shows. -/
def TraceRecord.settled? (entry : TraceRecord ν π ρ) : Option (ℕ × Message ν π) :=
  match entry.event with
  | .deliver message => some (entry.time, message)
  | .discardCrashed message => some (entry.time, message)
  | _ => none

namespace ScheduledDelivery

/-- What the record of its scheduling shows. -/
def asScheduled (event : ScheduledDelivery ν (Packet ν π)) : ℕ × ℕ × Message ν π :=
  (event.time, event.sequence, details event.message)

/-- What the record of its delivery shows. -/
def asSettled (event : ScheduledDelivery ν (Packet ν π)) : ℕ × Message ν π :=
  (event.time, details event.message)

/-- An earlier time, or the same time and scheduled earlier. -/
def InOrder (first second : ScheduledDelivery ν (Packet ν π)) : Prop :=
  first.time < second.time ∨ first.time = second.time ∧ first.sequence < second.sequence

end ScheduledDelivery

open ScheduledDelivery

/-- What a simulator did from one state to another: the deliveries that it took off the queue,
those that it scheduled, and those that it recorded as delivered or discarded. -/
structure Took (events scheduled : List (ScheduledDelivery ν (Packet ν π)))
    (settled : List (ℕ × Message ν π)) (s t : TracedSimulator ν π ρ σ) : Prop where
  sequence : t.net.sequence = s.net.sequence + scheduled.length
  numbers : scheduled.map (·.sequence) = List.range' (s.net.sequence + 1) scheduled.length
  queue : (events ++ t.net.queue.events).Perm (s.net.queue.events ++ scheduled)
  records : ∃ records, t.trace = s.trace ++ records ∧
    records.filterMap (·.scheduled?) = scheduled.map asScheduled ∧
    records.filterMap (·.settled?) = settled

/-- What an action does: it schedules from the present time on. -/
structure Extends (scheduled : List (ScheduledDelivery ν (Packet ν π)))
    (settled : List (ℕ × Message ν π)) (s t : TracedSimulator ν π ρ σ) : Prop
    extends Took [] scheduled settled s t where
  time : t.net.time = s.net.time
  times : ∀ event ∈ scheduled, s.net.time ≤ event.time

section Composition

variable {s t u : TracedSimulator ν π ρ σ}
  {events events' scheduled scheduled' : List (ScheduledDelivery ν (Packet ν π))}
  {settled settled' : List (ℕ × Message ν π)}

theorem Took.refl (s : TracedSimulator ν π ρ σ) : Took [] [] [] s s :=
  ⟨rfl, rfl, .of_eq (List.append_nil _).symm, [], (List.append_nil _).symm, rfl, rfl⟩

theorem Took.trans (first : Took events scheduled settled s t)
    (second : Took events' scheduled' settled' t u) :
    Took (events ++ events') (scheduled ++ scheduled') (settled ++ settled') s u where
  sequence := by
    rw [second.sequence, first.sequence, List.length_append, Nat.add_assoc]
  numbers := by
    rw [List.map_append, first.numbers, second.numbers, first.sequence, List.length_append,
      Nat.add_right_comm, List.range'_append_1]
  queue := by
    rw [List.append_assoc, ← List.append_assoc s.net.queue.events]
    exact (second.queue.append_left events).trans
      (.trans (.of_eq (List.append_assoc _ _ _).symm) (first.queue.append_right scheduled'))
  records := by
    obtain ⟨records, trace, shown, settles⟩ := first.records
    obtain ⟨records', trace', shown', settles'⟩ := second.records
    refine ⟨records ++ records', ?_, ?_, ?_⟩
    · rw [trace', trace, List.append_assoc]
    · rw [List.filterMap_append, shown, shown', List.map_append]
    · rw [List.filterMap_append, settles, settles']

theorem Extends.refl (s : TracedSimulator ν π ρ σ) : Extends [] [] s s :=
  ⟨.refl s, rfl, fun _ member => absurd member List.not_mem_nil⟩

theorem Extends.trans (first : Extends scheduled settled s t)
    (second : Extends scheduled' settled' t u) :
    Extends (scheduled ++ scheduled') (settled ++ settled') s u where
  toTook := first.toTook.trans second.toTook
  time := second.time.trans first.time
  times := by
    intro event member
    rcases List.mem_append.mp member with member | member
    · exact first.times event member
    · exact first.time.symm.le.trans (second.times event member)

end Composition

/-! ## Actions -/

section Actions

variable {s t u : TracedSimulator ν π ρ σ}

/-- An action schedules, and delivers nothing. -/
def Adds (s t : TracedSimulator ν π ρ σ) : Prop := ∃ scheduled, Extends scheduled [] s t

theorem Adds.refl (s : TracedSimulator ν π ρ σ) : Adds s s := ⟨[], .refl s⟩

theorem Adds.trans (first : Adds s t) (second : Adds t u) : Adds s u := by
  obtain ⟨scheduled, first⟩ := first
  obtain ⟨scheduled', second⟩ := second
  exact ⟨scheduled ++ scheduled', first.trans second⟩

/-- A record that is not of a scheduling. -/
theorem record_extends {event : TraceEvent ν π ρ} {settled : List (ℕ × Message ν π)}
    (quiet : TraceRecord.scheduled? ⟨s.net.time, event⟩ = none)
    (shows : (TraceRecord.settled? ⟨s.net.time, event⟩).toList = settled) :
    Extends [] settled s (s.record event) where
  sequence := rfl
  numbers := rfl
  queue := .of_eq (List.append_nil _).symm
  records := by
    refine ⟨[⟨s.net.time, event⟩], rfl, by simp [quiet], ?_⟩
    rw [← shows]
    cases settles : TraceRecord.settled? ⟨s.net.time, event⟩ <;> simp [settles]
  time := rfl
  times := fun _ member => absurd member List.not_mem_nil

/-- A record that is of neither. -/
theorem record_adds {event : TraceEvent ν π ρ}
    (quiet : TraceRecord.scheduled? ⟨s.net.time, event⟩ = none)
    (unsettled : TraceRecord.settled? ⟨s.net.time, event⟩ = none) : Adds s (s.record event) :=
  ⟨[], record_extends quiet (congrArg Option.toList unsettled)⟩

theorem schedule_adds (message : Message ν (Packet ν π)) (delay : ℕ) :
    Adds s (s.schedule message delay) := by
  refine ⟨[⟨s.net.time + delay, s.net.sequence + 1, message⟩], ?_⟩
  exact {
    sequence := rfl
    numbers := rfl
    queue := (s.net.schedule_perm message delay).trans
      (List.perm_append_singleton _ s.net.queue.events).symm
    records := ⟨[_], rfl, rfl, rfl⟩
    time := rfl
    times := fun event member => by
      rw [List.mem_singleton.mp member]
      exact Nat.le_add_right _ _ }

/-- A change that the queue, the clock and the trace do not see. -/
theorem adds_of_same (time : t.net.time = s.net.time) (sequence : t.net.sequence = s.net.sequence)
    (queue : t.net.queue = s.net.queue) (trace : t.trace = s.trace) : Adds s t := by
  refine ⟨[], ⟨⟨sequence, rfl, ?_, [], ?_, rfl, rfl⟩, time, by simp⟩⟩
  · rw [queue, List.nil_append, List.append_nil]
  · rw [trace, List.append_nil]

variable [DecidableEq ν] [PayloadType π]

theorem dispatch_adds (s : TracedSimulator ν π ρ σ) (message : Message ν (Packet ν π))
    (delay : ℕ) : Adds s (s.dispatch message delay) := by
  unfold TracedSimulator.dispatch
  dsimp only
  split
  next => exact (record_adds rfl rfl).trans (record_adds rfl rfl)
  next =>
    have sent : Adds s (s.record (.send (details message)
        (.fault (s.net.faultPlan.actionFor message).action))) := record_adds rfl rfl
    refine sent.trans ?_
    split
    next => exact record_adds rfl rfl
    next => exact schedule_adds message _
    next => exact schedule_adds message _
    next =>
      exact ((schedule_adds message _).trans (schedule_adds message _)).trans (record_adds rfl rfl)

theorem send_adds (registered : ν → Bool) (src dst : ν) (payload : π) (delay : ℤ)
    (deliveryDst : Option ν) (s : TracedSimulator ν π ρ σ) :
    Adds s (s.send registered src dst payload delay deliveryDst).state := by
  unfold TracedSimulator.send
  split
  next => exact .refl s
  next =>
    split
    next => exact .refl s
    next =>
      dsimp only [Outcome.state_returns]
      refine Adds.trans ?_ (dispatch_adds _ _ _)
      exact adds_of_same rfl rfl rfl rfl

theorem perform_adds (registered : ν → Bool) (action : SimAction ν π ρ σ)
    (s : TracedSimulator ν π ρ σ) : Adds s (action.perform registered s).state := by
  cases action with
  | send src dst payload delay deliveryDst => exact send_adds registered src dst payload delay _ s
  | schedule message delay => exact schedule_adds message delay
  | record note => exact record_adds rfl rfl
  | assign state => exact adds_of_same rfl rfl rfl rfl
  | configure alive blockedLinks linkDelays => exact adds_of_same rfl rfl rfl rfl

/-- **Whatever a handler does, it only adds later deliveries.** -/
theorem execute_adds (registered : ν → Bool) (program : Program ν π ρ σ ε)
    (s : TracedSimulator ν π ρ σ) : Adds s (program.execute registered s).state := by
  induction program generalizing s with
  | done => exact .refl s
  | raise error => exact .refl s
  | act action next ih => exact (perform_adds registered action s).trans (ih _ _ _)

end Actions

/-! ## Numbers -/

/-- The queued deliveries have distinct numbers, all of them given out. -/
structure Numbered (s : TracedSimulator ν π ρ σ) : Prop where
  distinct : (s.net.queue.events.map (·.sequence)).Nodup
  given : ∀ event ∈ s.net.queue.events, event.sequence ≤ s.net.sequence

section Numbers

variable {s t : TracedSimulator ν π ρ σ}
  {events scheduled : List (ScheduledDelivery ν (Packet ν π))} {settled : List (ℕ × Message ν π)}

/-- The numbers of what was scheduled are new. -/
theorem Took.new (took : Took events scheduled settled s t)
    {event : ScheduledDelivery ν (Packet ν π)} (member : event ∈ scheduled) :
    s.net.sequence < event.sequence ∧ event.sequence ≤ t.net.sequence := by
  have number : event.sequence ∈ scheduled.map (·.sequence) := List.mem_map_of_mem member
  rw [took.numbers, List.mem_range'_1] at number
  rw [took.sequence]
  omega

/-- What was taken and what is queued now have distinct numbers. -/
theorem Took.distinct (took : Took events scheduled settled s t) (numbered : Numbered s) :
    ((events ++ t.net.queue.events).map (·.sequence)).Nodup := by
  rw [(took.queue.map _).nodup_iff, List.map_append]
  refine List.nodup_append.mpr ⟨numbered.distinct, ?_, ?_⟩
  · rw [took.numbers]
    exact List.nodup_range'
  · intro number queued number' new same
    obtain ⟨event, member, rfl⟩ := List.mem_map.mp queued
    obtain ⟨event', member', rfl⟩ := List.mem_map.mp new
    have old := numbered.given event member
    have later := (took.new member').1
    omega

theorem Took.numbered (took : Took events scheduled settled s t) (numbered : Numbered s) :
    Numbered t where
  distinct := by
    have distinct := took.distinct numbered
    rw [List.map_append] at distinct
    exact (List.nodup_append.mp distinct).2.1
  given := by
    intro event member
    have whence := took.queue.subset (List.mem_append_right events member)
    rcases List.mem_append.mp whence with queued | new
    · have old := numbered.given event queued
      have grows := took.sequence
      omega
    · exact (took.new new).2

end Numbers

/-! ## Order -/

/-- Everything that is queued, or will be, comes after a delivery. -/
structure Beyond (event : ScheduledDelivery ν (Packet ν π)) (s : TracedSimulator ν π ρ σ) :
    Prop where
  queued : ∀ later ∈ s.net.queue.events, event.InOrder later
  time : event.time ≤ s.net.time
  sequence : event.sequence ≤ s.net.sequence

/-- Deliveries in order, which come after all before the first state and before all after the
second. -/
structure InTurn (events : List (ScheduledDelivery ν (Packet ν π)))
    (s t : TracedSimulator ν π ρ σ) : Prop where
  ordered : events.Pairwise InOrder
  behind : ∀ event ∈ events, Beyond event t
  ahead : ∀ event, Beyond event s → (∀ later ∈ events, event.InOrder later) ∧ Beyond event t

section Order

variable {s t u : TracedSimulator ν π ρ σ} {event : ScheduledDelivery ν (Packet ν π)}
  {events events' scheduled : List (ScheduledDelivery ν (Packet ν π))}
  {settled : List (ℕ × Message ν π)}

theorem InTurn.refl (s : TracedSimulator ν π ρ σ) : InTurn [] s s where
  ordered := .nil
  behind := fun _ member => absurd member List.not_mem_nil
  ahead := fun _ beyond => ⟨fun _ member => absurd member List.not_mem_nil, beyond⟩

theorem InTurn.trans (first : InTurn events s t) (second : InTurn events' t u) :
    InTurn (events ++ events') s u where
  ordered := by
    refine List.pairwise_append.mpr ⟨first.ordered, second.ordered, ?_⟩
    intro event member later member'
    exact (second.ahead event (first.behind event member)).1 later member'
  behind := by
    intro event member
    rcases List.mem_append.mp member with member | member
    · exact (second.ahead event (first.behind event member)).2
    · exact second.behind event member
  ahead := by
    intro event beyond
    obtain ⟨before, beyond⟩ := first.ahead event beyond
    obtain ⟨before', beyond⟩ := second.ahead event beyond
    refine ⟨fun later member => ?_, beyond⟩
    rcases List.mem_append.mp member with member | member
    · exact before later member
    · exact before' later member

/-- What is scheduled during a delivery, even without a delay, comes after it. -/
theorem Extends.inTurn (extended : Extends scheduled settled s t) : InTurn [] s t where
  ordered := .nil
  behind := fun _ member => absurd member List.not_mem_nil
  ahead := by
    refine fun event beyond => ⟨fun _ member => absurd member List.not_mem_nil, ?_, ?_, ?_⟩
    · intro later member
      rcases List.mem_append.mp (extended.queue.subset member) with queued | new
      · exact beyond.queued later queued
      · have number := (extended.new new).1
        have time := extended.times later new
        have earlier := beyond.time
        have given := beyond.sequence
        unfold InOrder
        omega
    · exact extended.time.symm ▸ beyond.time
    · exact beyond.sequence.trans (extended.sequence ▸ Nat.le_add_right _ _)

/-- A clock that is set forward. -/
theorem InTurn.atTime {time : ℕ} (turn : InTurn events s t) (forward : t.net.time ≤ time) :
    InTurn events s (t.atTime time) where
  ordered := turn.ordered
  behind := fun event member =>
    have beyond := turn.behind event member
    ⟨beyond.queued, beyond.time.trans forward, beyond.sequence⟩
  ahead := fun event beyond =>
    have ⟨before, beyond⟩ := turn.ahead event beyond
    ⟨before, beyond.queued, beyond.time.trans forward, beyond.sequence⟩

/-- What the next delivery is. -/
theorem pop_spec (popped : s.pop = some (event, t)) :
    s.net.queue.events = event :: t.net.queue.events ∧ t.net.time = event.time ∧
      t.net.sequence = s.net.sequence ∧ t.trace = s.trace ∧
        ∀ later ∈ t.net.queue.events, event.Before later := by
  unfold TracedSimulator.pop Simulator.pop at popped
  cases next : s.net.queue.pop with
  | none => simp [next] at popped
  | some first =>
      obtain ⟨first, rest⟩ := first
      rw [next] at popped
      cases popped
      obtain ⟨queue, before⟩ := EventQueue.pop_eq_some next
      exact ⟨queue, rfl, rfl, rfl, before⟩

theorem pop_took (popped : s.pop = some (event, t)) : Took [event] [] [] s t := by
  obtain ⟨queue, time, sequence, trace, before⟩ := pop_spec popped
  refine ⟨sequence, rfl, ?_, [], ?_, rfl, rfl⟩
  · rw [queue, List.append_nil, List.singleton_append]
  · rw [trace, List.append_nil]

theorem pop_inTurn (numbered : Numbered s) (popped : s.pop = some (event, t)) :
    InTurn [event] s t := by
  obtain ⟨queue, time, sequence, trace, before⟩ := pop_spec popped
  have distinct := numbered.distinct
  rw [queue, List.map_cons, List.nodup_cons] at distinct
  have first : event ∈ s.net.queue.events := queue ▸ List.mem_cons_self
  have beyond : Beyond event t := by
    refine ⟨fun later member => ?_, time.ge, (numbered.given event first).trans_eq sequence.symm⟩
    have other : event.sequence ≠ later.sequence := by
      intro same
      exact distinct.1 (same ▸ List.mem_map_of_mem member)
    have earlier := before later member
    unfold Before at earlier
    unfold InOrder
    omega
  refine ⟨List.pairwise_singleton _ _, fun e member => ?_, fun e ahead => ⟨?_, ?_, ?_, ?_⟩⟩
  · rw [List.mem_singleton.mp member]
    exact beyond
  · intro later member
    rw [List.mem_singleton.mp member]
    exact ahead.queued event first
  · intro later member
    exact ahead.queued later (queue ▸ List.mem_cons_of_mem event member)
  · have next := ahead.queued event first
    unfold InOrder at next
    omega
  · exact ahead.sequence.trans_eq sequence.symm

end Order

/-! ## Runs -/

section Runs

variable [NodeName ν] {handlers : Handlers ν π ρ σ ε} {s t : TracedSimulator ν π ρ σ}
  {ran : Ran ν π ρ σ ε}

/-- The deliveries that a run recorded: all that it took off the queue, but the one for which
no handler is registered. -/
structure Settles (handlers : Handlers ν π ρ σ ε) (ran : Ran ν π ρ σ ε)
    (settled : List (ScheduledDelivery ν (Packet ν π))) : Prop where
  all : (∀ node, ran.outcome.error? ≠ some (.noHandler node)) → settled = ran.events
  butLast : ∀ node, ran.outcome.error? = some (.noHandler node) →
    ∃ last : ScheduledDelivery ν (Packet ν π), endpoint last.message = node ∧
      handlers node = none ∧ ran.events = settled ++ [last]

/-- A run that took its deliveries in order, and recorded them. -/
structure Orderly (handlers : Handlers ν π ρ σ ε) (s : TracedSimulator ν π ρ σ)
    (ran : Ran ν π ρ σ ε) : Prop where
  took : ∃ scheduled settled, Settles handlers ran settled ∧
    Took ran.events scheduled (settled.map asSettled) s ran.final
  inTurn : InTurn ran.events s ran.final

theorem settles_of_returns {events : List (ScheduledDelivery ν (Packet ν π))} :
    Settles handlers ⟨events, .returns () t⟩ events :=
  ⟨fun _ => rfl, fun _ missing => by cases missing⟩

theorem Settles.after {settled : List (ScheduledDelivery ν (Packet ν π))}
    (settles : Settles handlers ran settled) (events : List (ScheduledDelivery ν (Packet ν π))) :
    Settles handlers (ran.after events) (events ++ settled) where
  all := fun handled => congrArg (events ++ ·) (settles.all handled)
  butLast := by
    intro node missing
    obtain ⟨last, destination, unregistered, taken⟩ := settles.butLast node missing
    refine ⟨last, destination, unregistered, ?_⟩
    rw [Ran.after, taken, List.append_assoc]

/-- A run that does nothing. -/
theorem orderly_nil (s : TracedSimulator ν π ρ σ) : Orderly handlers s ⟨[], .returns () s⟩ :=
  ⟨⟨[], [], settles_of_returns, .refl s⟩, .refl s⟩

/-- A run after another that returned. -/
theorem Orderly.after {events : List (ScheduledDelivery ν (Packet ν π))}
    (first : Orderly handlers s ⟨events, .returns () t⟩) (second : Orderly handlers t ran) :
    Orderly handlers s (ran.after events) where
  took := by
    obtain ⟨scheduled, settled, settles, took⟩ := first.took
    obtain ⟨scheduled', settled', settles', took'⟩ := second.took
    have same : settled = events := settles.all fun _ missing => by cases missing
    subst same
    refine ⟨scheduled ++ scheduled', settled ++ settled', settles'.after settled, ?_⟩
    rw [List.map_append]
    exact took.trans took'
  inTurn := first.inTurn.trans second.inTurn

theorem Orderly.numbered (orderly : Orderly handlers s ran) (numbered : Numbered s) :
    Numbered ran.final := by
  obtain ⟨scheduled, settled, -, took⟩ := orderly.took
  exact took.numbered numbered

theorem Orderly.atTime {events : List (ScheduledDelivery ν (Packet ν π))} {time : ℕ}
    (orderly : Orderly handlers s ⟨events, .returns () t⟩) (forward : t.net.time ≤ time) :
    Orderly handlers s ⟨events, .returns () (t.atTime time)⟩ where
  took := by
    obtain ⟨scheduled, settled, settles, took⟩ := orderly.took
    exact ⟨scheduled, settled, ⟨settles.all, settles.butLast⟩, took.sequence, took.numbers,
      took.queue, took.records⟩
  inTurn := orderly.inTurn.atTime forward

variable [DecidableEq ν] [PayloadType π] {event : ScheduledDelivery ν (Packet ν π)}
  {goes : ℕ → ScheduledDelivery ν (Packet ν π) → Bool} {fuel delivered : ℕ}

/-- What a delivery does once it is off the queue: it is recorded, unless it has no handler. -/
theorem deliverMessage_extends (handlers : Handlers ν π ρ σ ε)
    (message : Message ν (Packet ν π)) (t : TracedSimulator ν π ρ σ) :
    (∃ scheduled, Extends scheduled [(t.net.time, details message)] t
        (deliverMessage handlers message t).state ∧
      ∀ node, (deliverMessage handlers message t).error? ≠ some (.noHandler node)) ∨
    handlers (endpoint message) = none ∧
      deliverMessage handlers message t = .raises (.noHandler (endpoint message)) t := by
  unfold deliverMessage
  split
  next => exact .inl ⟨[], record_extends rfl rfl, fun _ missing => by cases missing⟩
  next =>
    split
    next unregistered => exact .inr ⟨unregistered, rfl⟩
    next handler registered =>
      dsimp only
      generalize handler message (t.record (.deliver (details message))) = program
      have delivers : Extends [] [(t.net.time, details message)] t
          (t.record (.deliver (details message))) := record_extends rfl rfl
      obtain ⟨scheduled, adds⟩ := execute_adds (fun n => (handlers n).isSome) program
        (t.record (.deliver (details message)))
      have extended := delivers.trans adds
      cases executed : program.execute (fun n => (handlers n).isSome)
          (t.record (.deliver (details message))) with
      | returns value u =>
          rw [executed] at extended
          exact .inl ⟨_, extended, fun _ missing => by cases missing⟩
      | raises error u =>
          rw [executed] at extended
          exact .inl ⟨_, extended, fun _ missing => by cases missing⟩

/-- **One delivery.** -/
theorem delivery_orderly (numbered : Numbered s) (popped : s.pop = some (event, t)) :
    Orderly handlers s ⟨[event], deliverMessage handlers event.message t⟩ := by
  have took := pop_took popped
  have turn := pop_inTurn numbered popped
  have time := (pop_spec popped).2.1
  rcases deliverMessage_extends handlers event.message t with
    ⟨scheduled, extended, handled⟩ | ⟨unregistered, raised⟩
  · rw [time] at extended
    exact {
      took := ⟨scheduled, [event],
        ⟨fun _ => rfl, fun node missing => absurd missing (handled node)⟩,
        took.trans extended.toTook⟩
      inTurn := turn.trans extended.inTurn }
  · rw [raised]
    refine ⟨⟨[], [], ⟨fun handled => absurd rfl (handled _), ?_⟩, took⟩, turn⟩
    intro node missing
    cases missing
    exact ⟨event, rfl, unregistered, rfl⟩

/-- **A loop, with any condition.** -/
theorem drain_orderly (numbered : Numbered s)
    (ended : drain handlers goes fuel delivered s = some ran) : Orderly handlers s ran := by
  induction fuel generalizing delivered s ran with
  | zero => cases ended
  | succ fuel ih =>
      cases round handlers goes delivered s with
      | empty empty =>
          rw [drain_of_empty empty] at ended
          cases ended
          exact orderly_nil s
      | stops popped stops =>
          rw [drain_of_stops popped stops] at ended
          cases ended
          exact orderly_nil s
      | raises popped on raised =>
          rw [drain_of_raises popped on raised] at ended
          cases ended
          rw [← raised]
          exact delivery_orderly numbered popped
      | returns popped on returned =>
          rw [drain_of_returns popped on returned] at ended
          obtain ⟨rest, ended', rfl⟩ := Option.map_eq_some_iff.mp ended
          have first : Orderly handlers s _ := delivery_orderly numbered popped
          rw [returned] at first
          exact first.after (ih (first.numbered numbered) ended')

theorem deliverMessage_time (handlers : Handlers ν π ρ σ ε) (message : Message ν (Packet ν π))
    (t : TracedSimulator ν π ρ σ) :
    (deliverMessage handlers message t).state.net.time = t.net.time := by
  rcases deliverMessage_extends handlers message t with ⟨scheduled, extended, -⟩ | ⟨-, raised⟩
  · exact extended.time
  · rw [raised]
    rfl

/-- A loop that delivers nothing after a deadline ends no later. -/
theorem drain_time_le {deadline : ℕ}
    (due : ∀ delivered event, goes delivered event = true → event.time ≤ deadline)
    (now : s.net.time ≤ deadline) (ended : drain handlers goes fuel delivered s = some ran) :
    ran.final.net.time ≤ deadline := by
  induction fuel generalizing delivered s ran with
  | zero => cases ended
  | succ fuel ih =>
      cases round handlers goes delivered s with
      | empty empty =>
          rw [drain_of_empty empty] at ended
          cases ended
          exact now
      | stops popped stops =>
          rw [drain_of_stops popped stops] at ended
          cases ended
          exact now
      | @raises event t u error popped on raised =>
          rw [drain_of_raises popped on raised] at ended
          cases ended
          have time := deliverMessage_time handlers event.message t
          rw [raised, (pop_spec popped).2.1] at time
          exact time.trans_le (due _ _ on)
      | @returns event t u popped on returned =>
          rw [drain_of_returns popped on returned] at ended
          obtain ⟨rest, ended', rfl⟩ := Option.map_eq_some_iff.mp ended
          have time := deliverMessage_time handlers event.message t
          rw [returned, (pop_spec popped).2.1] at time
          have now : u.net.time ≤ deadline := time.trans_le (due _ _ on)
          have last : rest.final.net.time ≤ deadline := ih now ended'
          exact last

/-- **One slice.** -/
theorem runSlice_orderly {slice : Slice} (numbered : Numbered s)
    (ended : runSlice handlers fuel slice s = some ran) : Orderly handlers s ran := by
  have refused : ∀ error : RunError ν ε, (∀ node, error ≠ .noHandler node) →
      Orderly handlers s ⟨[], .raises error s⟩ := by
    intro error other
    refine ⟨⟨[], [], ⟨fun _ => rfl, fun node missing => ?_⟩, .refl s⟩, .refl s⟩
    exact absurd (Option.some.inj missing) (other node)
  cases slice with
  | run maxEvents =>
      rw [runSlice, run] at ended
      split at ended
      next =>
        cases ended
        exact refused _ fun _ other => by cases other
      next => exact drain_orderly numbered ended
  | untilTime deadline =>
      rw [runSlice, runUntilTime] at ended
      split at ended
      next =>
        cases ended
        exact refused _ fun _ other => by cases other
      next admissible =>
        obtain ⟨drained, ended', rfl⟩ := Option.map_eq_some_iff.mp ended
        have orderly := drain_orderly numbered ended'
        have forward : drained.final.net.time ≤ deadline.toNat := by
          refine drain_time_le (fun _ event due => ?_) (by omega) ended'
          have due := of_decide_eq_true due
          omega
        obtain ⟨events, outcome⟩ := drained
        cases outcome with
        | raises error u => exact orderly
        | returns value u => exact orderly.atTime forward

/-- **Slices, one after another.** -/
theorem runSlices_orderly {slices : List Slice} (numbered : Numbered s)
    (ended : runSlices handlers fuel slices s = some ran) : Orderly handlers s ran := by
  induction slices generalizing s ran with
  | nil =>
      cases ended
      exact orderly_nil s
  | cons slice slices ih =>
      cases first : runSlice handlers fuel slice s with
      | none => simp [runSlices, first] at ended
      | some part =>
          have orderly := runSlice_orderly numbered first
          obtain ⟨events, outcome⟩ := part
          cases outcome with
          | raises error u =>
              rw [runSlices_of_raises first rfl] at ended
              cases ended
              exact orderly
          | returns value u =>
              rw [runSlices_of_returns first rfl] at ended
              obtain ⟨rest, ended', rfl⟩ := Option.map_eq_some_iff.mp ended
              exact orderly.after (ih (orderly.numbered numbered) ended')

/-- A run without a bound leaves nothing queued, where it returns. -/
theorem exhaust_empties (ended : exhaust handlers fuel s = some ran)
    (returned : ran.outcome.error? = none) : ran.final.net.queue.events = [] := by
  induction fuel generalizing s ran with
  | zero => cases ended
  | succ fuel ih =>
      cases round handlers (fun _ _ => true) 0 s with
      | empty empty =>
          rw [exhaust_of_empty empty] at ended
          cases ended
          exact Simulator.pop_eq_none.mp (Option.map_eq_none_iff.mp empty)
      | stops _ stops => cases stops
      | raises popped _ raised =>
          rw [exhaust_of_raises popped raised] at ended
          cases ended
          cases returned
      | returns popped _ handled =>
          rw [exhaust_of_returns popped handled] at ended
          obtain ⟨rest, ended', rfl⟩ := Option.map_eq_some_iff.mp ended
          have returned' : rest.outcome.error? = none := returned
          have last : rest.final.net.queue.events = [] := ih ended' returned'
          exact last

end Runs

/-! ## Reachable simulators -/

section Reachable

variable [DecidableEq ν] [PayloadType π] [NodeName ν]

/-- The simulators that a fresh one becomes, by what its callers do and by runs, whether or not
these raise. -/
inductive Reaches (ε : Type) : TracedSimulator ν π ρ σ → Prop
  | initial (faultPlan : FaultPlan ν) (state : σ) :
      Reaches ε { net := { faultPlan := faultPlan }, state := state }
  | execute {s : TracedSimulator ν π ρ σ} (reached : Reaches ε s) (registered : ν → Bool)
      (program : Program ν π ρ σ ε) : Reaches ε (program.execute registered s).state
  | slices {s : TracedSimulator ν π ρ σ} (reached : Reaches ε s) {handlers : Handlers ν π ρ σ ε}
      {slices : List Slice} {fuel : ℕ} {ran : Ran ν π ρ σ ε}
      (ended : runSlices handlers fuel slices s = some ran) : Reaches ε ran.final

theorem Reaches.numbered {s : TracedSimulator ν π ρ σ} (reached : Reaches ε s) : Numbered s := by
  induction reached with
  | initial faultPlan state => exact ⟨.nil, fun _ member => absurd member List.not_mem_nil⟩
  | execute _ registered program ih =>
      obtain ⟨scheduled, extended⟩ := execute_adds registered program _
      exact extended.numbered ih
  | slices _ ended ih => exact (runSlices_orderly ih ended).numbered ih

variable {start : TracedSimulator ν π ρ σ}

/-- **Slices equal one run, and every run delivers in order and once.** From any simulator that
is reached, slices with admissible arguments and a last `run()` end if and only if one `run()`
ends; they then deliver the same, record the same and leave the handlers in the same state.
Whatever the slices, what they deliver is in order, was scheduled, and is recorded, once;
after the last `run()` nothing is left to deliver. -/
theorem slices_equal_run (reached : Reaches ε start) (handlers : Handlers ν π ρ σ ε)
    (slices : List Slice) (admissible : Admissible handlers slices start) :
    ((∃ fuel ran, runSlices handlers fuel (slices ++ [.run none]) start = some ran) ↔
      ∃ fuel whole, run handlers fuel none start = some whole) ∧
    (∀ fuel fuel' ran whole, runSlices handlers fuel (slices ++ [.run none]) start = some ran →
      run handlers fuel' none start = some whole →
        ran.Agrees whole ∧ ran.final.trace = whole.final.trace ∧
          ran.final.state = whole.final.state ∧
            (ran.outcome.error? = none → ran.final.net.queue.events = [])) ∧
    ∀ (others : List Slice) (fuel : ℕ) (ran : Ran ν π ρ σ ε),
      runSlices handlers fuel others start = some ran →
        ran.events.Pairwise InOrder ∧
          ((ran.events ++ ran.final.net.queue.events).map (·.sequence)).Nodup ∧
            ∃ scheduled settled, Settles handlers ran settled ∧
              Took ran.events scheduled (settled.map asSettled) start ran.final := by
  refine ⟨⟨?_, ?_⟩, ?_, ?_⟩
  · rintro ⟨fuel, ran, ended⟩
    obtain ⟨fuel', whole, ended', -⟩ := whole_of_runSlices admissible ended
    exact ⟨fuel', whole, ended'⟩
  · rintro ⟨fuel, whole, ended⟩
    exact ⟨fuel, runSlices_of_whole admissible ended⟩
  · intro fuel fuel' ran whole ended ended'
    obtain ⟨fuel'', whole', ended'', agrees⟩ := whole_of_runSlices admissible ended
    obtain rfl := exhaust_unique ended'' ended'
    refine ⟨agrees, agrees.trace_eq, agrees.state_eq, fun returned => ?_⟩
    obtain ⟨time, final⟩ := agrees.final
    rw [final]
    exact exhaust_empties ended'' (agrees.error ▸ returned)
  · intro others fuel ran ended
    have orderly := runSlices_orderly reached.numbered ended
    obtain ⟨scheduled, settled, settles, took⟩ := orderly.took
    exact ⟨orderly.inTurn.ordered, took.distinct reached.numbered, scheduled, settled, settles,
      took⟩

end Reachable

/-! ## Two parties that count down -/

/-- Two parties. -/
inductive Party where
  | near
  | far
  deriving DecidableEq

instance : NodeName Party := ⟨fun _ => true⟩

/-- How many answers are left. -/
structure Countdown where
  rounds : ℕ

instance : PayloadType Countdown := ⟨fun _ => "Countdown"⟩

/-- Every message is counted, and answered without a delay up to the last round. -/
def countdown : Handlers Party Countdown Unit ℕ Unit := fun _ => some fun message s =>
  match message.payload.payload.rounds with
  | 0 => .act (.assign (s.state + 1)) fun _ _ => .done
  | rounds + 1 => .act (.assign (s.state + 1)) fun _ _ =>
      .act (.send message.dst message.src ⟨rounds⟩ 0 none) fun _ _ => .done

/-- One message, on a network that sends every message twice. -/
def started : TracedSimulator Party Countdown Unit ℕ :=
  (Program.execute (fun _ => true)
    (.act (.send .near .far ⟨1⟩ 2 none) fun _ _ => .done : Program Party Countdown Unit ℕ Unit)
    { net := { faultPlan := ⟨[{ action := .duplicate, extraDelay := 3 }]⟩ }, state := 0 }).state

theorem slices_equal_run_countdown :
    ((runSlices countdown 9 ([.untilTime 3, .run (some 1)] ++ [.run none]) started).map
      fun ran => (ran.events.map (·.time), ran.final.state)) = some ([2, 2, 5, 5, 5, 8], 6) ∧
    ∀ fuel fuel' ran whole,
      runSlices countdown fuel ([.untilTime 3, .run (some 1)] ++ [.run none]) started = some ran →
        run countdown fuel' none started = some whole → ran.Agrees whole := by
  have reached : Reaches Unit started := .execute (.initial _ _) _ _
  have admissible : Admissible countdown [.untilTime 3, .run (some 1)] started := by
    have early : (started.net.time : ℤ) ≤ 3 := by decide
    refine ⟨early, fun _ _ _ _ => ⟨?_, fun _ _ _ _ => trivial⟩⟩
    intro bound member
    cases member
    decide
  refine ⟨by decide +kernel, fun fuel fuel' ran whole ended ended' => ?_⟩
  exact ((slices_equal_run reached countdown _ admissible).2.1 fuel fuel' ran whole ended ended').1

end Distlab.Simulation
