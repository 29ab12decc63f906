import Distlab.Simulation.Tracing

/-!
# Slices of a run

A run in slices delivers what one run delivers. The loop with any condition is the
beginning of the loop without one, and the clock does not matter to a loop, which sets it
to the time of each delivery: it shows only in a run that delivers nothing.
-/

set_option autoImplicit false

namespace Distlab.Simulation

open Foundations

variable {ν π ρ σ ε : Type}

/-- The simulator at another time. -/
def TracedSimulator.atTime (time : ℕ) (s : TracedSimulator ν π ρ σ) : TracedSimulator ν π ρ σ :=
  { s with net := { s.net with time := time } }

/-- Two runs with the same deliveries and the same end, up to the clock. -/
structure Ran.Agrees (ran ran' : Ran ν π ρ σ ε) : Prop where
  events : ran.events = ran'.events
  error : ran.outcome.error? = ran'.outcome.error?
  final : ∃ time, ran.final = ran'.final.atTime time

namespace Ran

variable {ran ran' ran'' : Ran ν π ρ σ ε}

theorem Agrees.refl (ran : Ran ν π ρ σ ε) : ran.Agrees ran := ⟨rfl, rfl, ran.final.net.time, rfl⟩

theorem Agrees.symm (agrees : ran.Agrees ran') : ran'.Agrees ran := by
  obtain ⟨events, error, time, final⟩ := agrees
  refine ⟨events.symm, error.symm, ran'.final.net.time, ?_⟩
  rw [final]
  rfl

theorem Agrees.trans (agrees : ran.Agrees ran') (agrees' : ran'.Agrees ran'') :
    ran.Agrees ran'' := by
  obtain ⟨events, error, time, final⟩ := agrees
  obtain ⟨events', error', time', final'⟩ := agrees'
  refine ⟨events.trans events', error.trans error', time, ?_⟩
  rw [final, final']
  rfl

/-- Runs that agree record the same and leave the handlers in the same state. -/
theorem Agrees.trace_eq (agrees : ran.Agrees ran') : ran.final.trace = ran'.final.trace := by
  obtain ⟨time, final⟩ := agrees.final
  rw [final]
  rfl

theorem Agrees.state_eq (agrees : ran.Agrees ran') : ran.final.state = ran'.final.state := by
  obtain ⟨time, final⟩ := agrees.final
  rw [final]
  rfl

theorem Agrees.after (agrees : ran.Agrees ran')
    (events : List (ScheduledDelivery ν (Packet ν π))) :
    (ran.after events).Agrees (ran'.after events) :=
  ⟨congrArg (events ++ ·) agrees.events, agrees.error, agrees.final⟩

@[simp] theorem after_nil (ran : Ran ν π ρ σ ε) : ran.after [] = ran := rfl

@[simp] theorem map_after_nil (last : Option (Ran ν π ρ σ ε)) :
    last.map (Ran.after []) = last := by
  have same : (Ran.after [] : Ran ν π ρ σ ε → _) = id := funext after_nil
  rw [same, Option.map_id, id]

end Ran

variable [DecidableEq ν] [PayloadType π] [NodeName ν] {handlers : Handlers ν π ρ σ ε}
  {goes : ℕ → ScheduledDelivery ν (Packet ν π) → Bool} {fuel delivered : ℕ}
  {s t : TracedSimulator ν π ρ σ} {event : ScheduledDelivery ν (Packet ν π)}
  {events : List (ScheduledDelivery ν (Packet ν π))}

/-- `run()`, whatever the number of deliveries before. -/
abbrev exhaust (handlers : Handlers ν π ρ σ ε) (fuel : ℕ) (s : TracedSimulator ν π ρ σ) :
    Option (Ran ν π ρ σ ε) :=
  run handlers fuel none s

/-! ## One round of a loop -/

theorem drain_of_empty (empty : s.pop = none) :
    drain handlers goes (fuel + 1) delivered s = some ⟨[], .returns () s⟩ := by
  rw [drain, empty]

theorem drain_of_stops (popped : s.pop = some (event, t)) (stops : goes delivered event = false) :
    drain handlers goes (fuel + 1) delivered s = some ⟨[], .returns () s⟩ := by
  simp [drain, popped, stops]

theorem drain_of_raises {u : TracedSimulator ν π ρ σ} {error : RunError ν ε}
    (popped : s.pop = some (event, t)) (on : goes delivered event = true)
    (raised : deliverMessage handlers event.message t = .raises error u) :
    drain handlers goes (fuel + 1) delivered s = some ⟨[event], .raises error u⟩ := by
  simp [drain, popped, on, raised]

theorem drain_of_returns {u : TracedSimulator ν π ρ σ} (popped : s.pop = some (event, t))
    (on : goes delivered event = true)
    (returned : deliverMessage handlers event.message t = .returns () u) :
    drain handlers goes (fuel + 1) delivered s =
      (drain handlers goes fuel (delivered + 1) u).map (.after [event]) := by
  simp [drain, popped, on, returned]

/-- How a round of a loop ends. -/
inductive Round (handlers : Handlers ν π ρ σ ε)
    (goes : ℕ → ScheduledDelivery ν (Packet ν π) → Bool) (delivered : ℕ)
    (s : TracedSimulator ν π ρ σ) : Prop
  | empty (empty : s.pop = none)
  | stops {event : ScheduledDelivery ν (Packet ν π)} {t : TracedSimulator ν π ρ σ}
      (popped : s.pop = some (event, t)) (stops : goes delivered event = false)
  | raises {event : ScheduledDelivery ν (Packet ν π)} {t u : TracedSimulator ν π ρ σ}
      {error : RunError ν ε} (popped : s.pop = some (event, t)) (on : goes delivered event = true)
      (raised : deliverMessage handlers event.message t = .raises error u)
  | returns {event : ScheduledDelivery ν (Packet ν π)} {t u : TracedSimulator ν π ρ σ}
      (popped : s.pop = some (event, t)) (on : goes delivered event = true)
      (returned : deliverMessage handlers event.message t = .returns () u)

theorem round (handlers : Handlers ν π ρ σ ε)
    (goes : ℕ → ScheduledDelivery ν (Packet ν π) → Bool) (delivered : ℕ)
    (s : TracedSimulator ν π ρ σ) : Round handlers goes delivered s := by
  cases popped : s.pop with
  | none => exact .empty popped
  | some next =>
      obtain ⟨event, t⟩ := next
      cases on : goes delivered event with
      | false => exact .stops popped on
      | true =>
          cases handled : deliverMessage handlers event.message t with
          | raises error u => exact .raises popped on handled
          | returns _ u => exact .returns popped on handled

/-! ## The loop without a condition -/

/-- The number of deliveries before does not matter to it. -/
theorem drain_true (delivered : ℕ) (fuel : ℕ) (s : TracedSimulator ν π ρ σ) :
    drain handlers (fun _ _ => true) fuel delivered s = exhaust handlers fuel s := by
  suffices same : ∀ delivered', drain handlers (fun _ _ => true) fuel delivered s =
      drain handlers (fun _ _ => true) fuel delivered' s from same 0
  induction fuel generalizing delivered s with
  | zero => exact fun _ => rfl
  | succ fuel ih =>
      intro delivered'
      have round' := round handlers (fun _ _ => true) delivered s
      cases round' with
      | empty empty => rw [drain_of_empty empty, drain_of_empty empty]
      | stops _ stops => cases stops
      | raises popped on raised =>
          exact (drain_of_raises popped on raised).trans (drain_of_raises popped on raised).symm
      | returns popped on returned =>
          rw [drain_of_returns popped on returned]
          exact (congrArg _ (ih (delivered + 1) _ (delivered' + 1))).trans
            (drain_of_returns popped on returned).symm

theorem exhaust_of_empty (empty : s.pop = none) :
    exhaust handlers (fuel + 1) s = some ⟨[], .returns () s⟩ := by
  rw [← drain_true 0]
  exact drain_of_empty empty

theorem exhaust_of_raises {u : TracedSimulator ν π ρ σ} {error : RunError ν ε}
    (popped : s.pop = some (event, t))
    (raised : deliverMessage handlers event.message t = .raises error u) :
    exhaust handlers (fuel + 1) s = some ⟨[event], .raises error u⟩ := by
  have on : (fun _ _ => true : ℕ → ScheduledDelivery ν (Packet ν π) → Bool) 0 event = true := rfl
  rw [← drain_true 0]
  exact drain_of_raises popped on raised

theorem exhaust_of_returns {u : TracedSimulator ν π ρ σ} (popped : s.pop = some (event, t))
    (returned : deliverMessage handlers event.message t = .returns () u) :
    exhaust handlers (fuel + 1) s = (exhaust handlers fuel u).map (.after [event]) := by
  have on : (fun _ _ => true : ℕ → ScheduledDelivery ν (Packet ν π) → Bool) 0 event = true := rfl
  rw [← drain_true 0, ← drain_true 1]
  exact drain_of_returns popped on returned

/-- More fuel does not change a run that ends. -/
theorem exhaust_mono {ran : Ran ν π ρ σ ε} (ended : exhaust handlers fuel s = some ran)
    (more : ℕ) : exhaust handlers (fuel + more) s = some ran := by
  induction fuel generalizing s ran with
  | zero => cases ended
  | succ fuel ih =>
      rw [Nat.succ_add]
      cases round handlers (fun _ _ => true) 0 s with
      | empty empty =>
          rw [exhaust_of_empty empty] at ended ⊢
          exact ended
      | stops _ stops => cases stops
      | raises popped _ raised =>
          rw [exhaust_of_raises popped raised] at ended ⊢
          exact ended
      | returns popped _ returned =>
          rw [exhaust_of_returns popped returned] at ended ⊢
          obtain ⟨rest, ended', rfl⟩ := Option.map_eq_some_iff.mp ended
          rw [ih ended', Option.map_some]

/-- Runs that end, end alike, whatever their fuel. -/
theorem exhaust_unique {fuel' : ℕ} {ran ran' : Ran ν π ρ σ ε}
    (ended : exhaust handlers fuel s = some ran) (ended' : exhaust handlers fuel' s = some ran') :
    ran = ran' := by
  have more := exhaust_mono ended fuel'
  rw [Nat.add_comm, exhaust_mono ended' fuel] at more
  exact (Option.some.inj more).symm

/-- The clock shows only in a run that delivers nothing. -/
theorem exhaust_atTime {ran : Ran ν π ρ σ ε} (ended : exhaust handlers fuel s = some ran)
    (time : ℕ) : ∃ ran', exhaust handlers fuel (s.atTime time) = some ran' ∧ ran'.Agrees ran := by
  have pop : ∀ event t, s.pop = some (event, t) → (s.atTime time).pop = some (event, t) := by
    intro event t popped
    unfold TracedSimulator.pop Simulator.pop at popped ⊢
    unfold TracedSimulator.atTime
    dsimp only
    cases next : s.net.queue.pop with
    | none =>
        rw [next] at popped
        cases popped
    | some first =>
        rw [next] at popped
        exact popped
  cases fuel with
  | zero => cases ended
  | succ fuel =>
      cases round handlers (fun _ _ => true) 0 s with
      | empty empty =>
          have empty' : (s.atTime time).pop = none := by
            unfold TracedSimulator.pop Simulator.pop at empty ⊢
            unfold TracedSimulator.atTime
            dsimp only
            cases next : s.net.queue.pop with
            | none => rfl
            | some first =>
                rw [next] at empty
                cases empty
          rw [exhaust_of_empty empty] at ended
          cases ended
          exact ⟨_, exhaust_of_empty empty', rfl, rfl, time, rfl⟩
      | stops _ stops => cases stops
      | raises popped _ raised =>
          rw [exhaust_of_raises popped raised] at ended
          exact ⟨ran, (exhaust_of_raises (pop _ _ popped) raised).trans ended, .refl ran⟩
      | returns popped _ returned =>
          rw [exhaust_of_returns popped returned] at ended
          exact ⟨ran, (exhaust_of_returns (pop _ _ popped) returned).trans ended, .refl ran⟩

/-! ## The loop with a condition -/

/-- The loop with any condition begins the loop without one: a loop that returns leaves the
rest to do, and one that raises ends both. -/
theorem drain_begins {ran : Ran ν π ρ σ ε}
    (ended : drain handlers goes fuel delivered s = some ran) :
    (∀ error u, ran.outcome = .raises error u → exhaust handlers fuel s = some ran) ∧
      ∀ u, ran.outcome = .returns () u → ∀ more,
        exhaust handlers (ran.events.length + more) s =
          (exhaust handlers more u).map (.after ran.events) := by
  induction fuel generalizing delivered s ran with
  | zero => cases ended
  | succ fuel ih =>
      cases round handlers goes delivered s with
      | empty empty =>
          rw [drain_of_empty empty] at ended
          cases ended
          refine ⟨fun error u raised => (by cases raised), fun u returned more => ?_⟩
          cases returned
          rw [List.length_nil, Nat.zero_add, Ran.map_after_nil]
      | stops popped stops =>
          rw [drain_of_stops popped stops] at ended
          cases ended
          refine ⟨fun error u raised => (by cases raised), fun u returned more => ?_⟩
          cases returned
          rw [List.length_nil, Nat.zero_add, Ran.map_after_nil]
      | raises popped on raised =>
          rw [drain_of_raises popped on raised] at ended
          cases ended
          exact ⟨fun _ _ _ => exhaust_of_raises popped raised, fun u returned => by cases returned⟩
      | @returns event t u popped on returned =>
          rw [drain_of_returns popped on returned] at ended
          obtain ⟨rest, ended', rfl⟩ := Option.map_eq_some_iff.mp ended
          obtain ⟨raises, returns⟩ := ih ended'
          constructor
          · intro error u raised
            rw [exhaust_of_returns popped returned, raises error u raised, Option.map_some]
          · intro u returned' more
            have length : (rest.after [event]).events.length + more =
                (rest.events.length + more) + 1 := by
              simp only [Ran.after, List.length_append, List.length_singleton]
              omega
            rw [length, exhaust_of_returns popped returned, returns u returned' more,
              Option.map_map]
            rfl

/-- Where the loop with a condition runs out of fuel, the loop without one does. -/
theorem drain_eq_none (out : drain handlers goes fuel delivered s = none) :
    exhaust handlers fuel s = none := by
  induction fuel generalizing delivered s with
  | zero => rfl
  | succ fuel ih =>
      cases round handlers goes delivered s with
      | empty empty => rw [drain_of_empty empty] at out; cases out
      | stops popped stops => rw [drain_of_stops popped stops] at out; cases out
      | raises popped on raised => rw [drain_of_raises popped on raised] at out; cases out
      | returns popped on returned =>
          rw [drain_of_returns popped on returned] at out
          rw [exhaust_of_returns popped returned, ih (Option.map_eq_none_iff.mp out),
            Option.map_none]

/-! ## One slice -/

/-- The arguments that a slice accepts. -/
def Slice.Admissible (s : TracedSimulator ν π ρ σ) : Slice → Prop
  | .run maxEvents => ∀ bound ∈ maxEvents, 0 ≤ bound
  | .untilTime deadline => s.net.time ≤ deadline

/-- How a slice with an admissible argument ends. -/
inductive Sliced (handlers : Handlers ν π ρ σ ε) (fuel : ℕ) (s : TracedSimulator ν π ρ σ) :
    Ran ν π ρ σ ε → Prop
  /-- It raises where the whole run does. -/
  | raised {ran : Ran ν π ρ σ ε} {error : RunError ν ε} {u : TracedSimulator ν π ρ σ}
      (outcome : ran.outcome = .raises error u) (whole : exhaust handlers fuel s = some ran) :
      Sliced handlers fuel s ran
  /-- It leaves the rest of the whole run to do, perhaps at a later clock. -/
  | returned {events : List (ScheduledDelivery ν (Packet ν π))} {u : TracedSimulator ν π ρ σ}
      (time : ℕ) (rest : ∀ more, exhaust handlers (events.length + more) s =
        (exhaust handlers more u).map (.after events)) :
      Sliced handlers fuel s ⟨events, .returns () (u.atTime time)⟩

/-- The loop of a slice that is admissible. -/
theorem runSlice_of_admissible (handlers : Handlers ν π ρ σ ε) {slice : Slice} (fuel : ℕ)
    (admissible : slice.Admissible s) :
    (∃ goes, runSlice handlers fuel slice s = drain handlers goes fuel 0 s) ∨
      ∃ goes deadline, runSlice handlers fuel slice s =
        (drain handlers goes fuel 0 s).map (atDeadline deadline) := by
  cases slice with
  | run maxEvents =>
      have accepted : ¬ maxEvents.any (· < 0) = true := by
        cases maxEvents with
        | none => exact Bool.false_ne_true
        | some bound => simpa using admissible bound rfl
      exact .inl ⟨_, if_neg accepted⟩
  | untilTime deadline => exact .inr ⟨_, _, if_neg (not_lt.mpr admissible)⟩

theorem runSlice_sliced {slice : Slice} {ran : Ran ν π ρ σ ε} (admissible : slice.Admissible s)
    (ended : runSlice handlers fuel slice s = some ran) : Sliced handlers fuel s ran := by
  rcases runSlice_of_admissible handlers fuel admissible with
    ⟨goes, loop⟩ | ⟨goes, deadline, loop⟩
  · rw [loop] at ended
    obtain ⟨raises, returns⟩ := drain_begins ended
    obtain ⟨events, outcome⟩ := ran
    cases outcome with
    | raises error u => exact .raised rfl (raises error u rfl)
    | returns value u => exact .returned u.net.time (returns u rfl)
  · rw [loop] at ended
    obtain ⟨drained, ended', rfl⟩ := Option.map_eq_some_iff.mp ended
    obtain ⟨raises, returns⟩ := drain_begins ended'
    obtain ⟨events, outcome⟩ := drained
    cases outcome with
    | raises error u => exact .raised rfl (raises error u rfl)
    | returns value u => exact .returned deadline (returns u rfl)

theorem runSlice_eq_none {slice : Slice} (admissible : slice.Admissible s)
    (out : runSlice handlers fuel slice s = none) : exhaust handlers fuel s = none := by
  rcases runSlice_of_admissible handlers fuel admissible with
    ⟨goes, loop⟩ | ⟨goes, deadline, loop⟩
  · exact drain_eq_none (loop.symm.trans out)
  · exact drain_eq_none (Option.map_eq_none_iff.mp (loop.symm.trans out))

/-! ## Slices and one run -/

theorem runSlices_of_raises {slice : Slice} {slices : List Slice} {ran : Ran ν π ρ σ ε}
    {error : RunError ν ε} {u : TracedSimulator ν π ρ σ}
    (ended : runSlice handlers fuel slice s = some ran) (raised : ran.outcome = .raises error u) :
    runSlices handlers fuel (slice :: slices) s = some ran := by
  simp [runSlices, ended, raised]

theorem runSlices_of_returns {slice : Slice} {slices : List Slice} {ran : Ran ν π ρ σ ε}
    {u : TracedSimulator ν π ρ σ} (ended : runSlice handlers fuel slice s = some ran)
    (returned : ran.outcome = .returns () u) :
    runSlices handlers fuel (slice :: slices) s =
      (runSlices handlers fuel slices u).map (.after ran.events) := by
  simp [runSlices, ended, returned]

/-- `run()` alone, as a sequence of one slice. -/
theorem runSlices_singleton (fuel : ℕ) (s : TracedSimulator ν π ρ σ) :
    runSlices handlers fuel [.run none] s = exhaust handlers fuel s := by
  change _ = runSlice handlers fuel (.run none) s
  cases ended : runSlice handlers fuel (.run none) s with
  | none => simp [runSlices, ended]
  | some ran =>
      obtain ⟨events, outcome⟩ := ran
      cases outcome with
      | raises error u => exact runSlices_of_raises ended rfl
      | returns value u =>
          rw [runSlices_of_returns ended rfl]
          simp [runSlices, Ran.after]

/-- Every slice is admissible in the state in which it starts. -/
def Admissible (handlers : Handlers ν π ρ σ ε) : List Slice → TracedSimulator ν π ρ σ → Prop
  | [], _ => True
  | slice :: slices, s => slice.Admissible s ∧
      ∀ fuel events t, runSlice handlers fuel slice s = some ⟨events, .returns () t⟩ →
        Admissible handlers slices t

/-- Slices that end, end as one run does. -/
theorem whole_of_runSlices {slices : List Slice} {ran : Ran ν π ρ σ ε}
    (admissible : Admissible handlers slices s)
    (ended : runSlices handlers fuel (slices ++ [.run none]) s = some ran) :
    ∃ fuel' whole, exhaust handlers fuel' s = some whole ∧ ran.Agrees whole := by
  induction slices generalizing s ran with
  | nil =>
      rw [List.nil_append, runSlices_singleton] at ended
      exact ⟨fuel, ran, ended, .refl ran⟩
  | cons slice slices ih =>
      rw [List.cons_append] at ended
      obtain ⟨here, later⟩ := admissible
      cases first : runSlice handlers fuel slice s with
      | none => simp [runSlices, first] at ended
      | some part =>
          cases runSlice_sliced here first with
          | raised outcome whole =>
              rw [runSlices_of_raises first outcome] at ended
              cases ended
              exact ⟨fuel, ran, whole, .refl ran⟩
          | @returned events u time rest =>
              rw [runSlices_of_returns first rfl] at ended
              obtain ⟨last, ended', rfl⟩ := Option.map_eq_some_iff.mp ended
              obtain ⟨fuel', whole, ended'', agrees⟩ := ih (later _ _ _ first) ended'
              -- the clock of `run_until_time` is the only difference to the start of the rest
              obtain ⟨whole', ended', agrees'⟩ := exhaust_atTime ended'' u.net.time
              refine ⟨events.length + fuel', whole'.after events, ?_,
                (agrees.trans agrees'.symm).after events⟩
              rw [rest fuel']
              exact congrArg (Option.map (Ran.after events)) ended'

/-- Where one run ends, slices end. -/
theorem runSlices_of_whole {slices : List Slice} {whole : Ran ν π ρ σ ε}
    (admissible : Admissible handlers slices s) (ended : exhaust handlers fuel s = some whole) :
    ∃ ran, runSlices handlers fuel (slices ++ [.run none]) s = some ran := by
  induction slices generalizing s whole with
  | nil => exact ⟨whole, (runSlices_singleton fuel s).trans ended⟩
  | cons slice slices ih =>
      rw [List.cons_append]
      obtain ⟨here, later⟩ := admissible
      cases first : runSlice handlers fuel slice s with
      | none =>
          rw [runSlice_eq_none here first] at ended
          cases ended
      | some part =>
          cases runSlice_sliced here first with
          | raised outcome whole => exact ⟨part, runSlices_of_raises first outcome⟩
          | @returned events u time rest =>
              have more := exhaust_mono ended events.length
              rw [Nat.add_comm, rest fuel] at more
              obtain ⟨rest', ended', -⟩ := Option.map_eq_some_iff.mp more
              obtain ⟨rest'', ended'', -⟩ := exhaust_atTime ended' time
              obtain ⟨last, ended⟩ := ih (later _ _ _ first) ended''
              refine ⟨last.after events, ?_⟩
              rw [runSlices_of_returns first rfl, ended, Option.map_some]

end Distlab.Simulation
