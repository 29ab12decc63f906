import Distlab.Foundations.Outcome
import Distlab.Simulation.Queue

/-!
# The simulator with its trace and its handlers

`Simulator` records what it does with every message. A message may name another endpoint
than its destination; the fault plan, the links and the trace see the message without it.
A handler is a deterministic program that sends, schedules, records and changes state, and
looks at the simulator between any two of these actions.
-/

set_option autoImplicit false

namespace Distlab.Simulation

open Foundations

/-! ## Messages and records -/

/-- The payload of a message, and its `delivery_dst`. -/
structure Packet (ν : Type) (π : Type) where
  payload : π
  deliveryDst : Option ν := none

/-- The fault rules select by the type of the payload. -/
instance {ν π : Type} [PayloadType π] : PayloadType (Packet ν π) :=
  ⟨fun packet => PayloadType.typeName packet.payload⟩

/-- The names of the nodes, of which the empty one counts as no name. -/
class NodeName (ν : Type) where
  truthy : ν → Bool

section Messages

variable {ν π : Type}

/-- What the trace shows of a message. -/
def details (message : Message ν (Packet ν π)) : Message ν π :=
  ⟨message.src, message.dst, message.payload.payload, message.ordinal⟩

/-- `message.delivery_dst or message.dst`. -/
def endpoint [NodeName ν] (message : Message ν (Packet ν π)) : ν :=
  (message.payload.deliveryDst.filter NodeName.truthy).getD message.dst

end Messages

/-- The action that a "send" record shows. -/
inductive SendAction where
  | fault (action : FaultAction)
  /-- "partition-drop" -/
  | partitionDrop
  deriving DecidableEq

/-- The kind of a record and its details; `other` is what a protocol or an action on the
network records. -/
inductive TraceEvent (ν π ρ : Type) where
  | send (message : Message ν π) (action : SendAction)
  | partitionDrop (message : Message ν π)
  | drop (message : Message ν π)
  | schedule (message : Message ν π) (deliveryTime sequence : ℕ)
  | duplicate (message : Message ν π) (extraDelay : ℕ)
  | discardCrashed (message : Message ν π)
  | deliver (message : Message ν π)
  | other (note : ρ)

/-- `TraceRecord`. -/
structure TraceRecord (ν π ρ : Type) where
  time : ℕ
  event : TraceEvent ν π ρ

/-- `Simulator`: its network and clock, its trace, the liveness of the nodes, and what the
handlers keep. -/
structure TracedSimulator (ν π ρ σ : Type) where
  net : Simulator ν (Packet ν π) := {}
  trace : List (TraceRecord ν π ρ) := []
  alive : ν → Bool := fun _ => true
  state : σ

/-- What `send` raises. -/
inductive SendError where
  /-- `ValueError`: "delay must be non-negative". -/
  | negativeDelay
  /-- `ValueError`: "unknown delivery endpoint ...". -/
  | unknownEndpoint
  deriving DecidableEq

namespace TracedSimulator

variable {ν π ρ σ : Type}

/-- `_record`. -/
def record (event : TraceEvent ν π ρ) (s : TracedSimulator ν π ρ σ) : TracedSimulator ν π ρ σ :=
  { s with trace := s.trace ++ [⟨s.net.time, event⟩] }

/-- `_schedule`. -/
def schedule (message : Message ν (Packet ν π)) (delay : ℕ) (s : TracedSimulator ν π ρ σ) :
    TracedSimulator ν π ρ σ :=
  record (.schedule (details message) (s.net.time + delay) (s.net.sequence + 1))
    { s with net := s.net.schedule message delay }

section Sending

variable [DecidableEq ν] [PayloadType π]

/-- The part of `send` after the message has its ordinal. -/
def dispatch (message : Message ν (Packet ν π)) (delay : ℕ) (s : TracedSimulator ν π ρ σ) :
    TracedSimulator ν π ρ σ :=
  let key := (message.src, message.dst)
  if key ∈ s.net.blockedLinks then
    (s.record (.send (details message) .partitionDrop)).record (.partitionDrop (details message))
  else
    let rule := s.net.faultPlan.actionFor message
    let effectiveDelay := delay + (s.net.linkDelays.lookup key).getD 0
    let s := s.record (.send (details message) (.fault rule.action))
    match rule.action with
    | .drop => s.record (.drop (details message))
    | .deliver => s.schedule message effectiveDelay
    | .delay => s.schedule message (effectiveDelay + rule.extraDelay)
    | .duplicate =>
        ((s.schedule message effectiveDelay).schedule message
          (effectiveDelay + rule.extraDelay)).record
            (.duplicate (details message) rule.extraDelay)

/-- `send`. -/
def send (registered : ν → Bool) (src dst : ν) (payload : π) (delay : ℤ)
    (deliveryDst : Option ν) (s : TracedSimulator ν π ρ σ) :
    Outcome SendError (TracedSimulator ν π ρ σ) Unit :=
  if delay < 0 then .raises .negativeDelay s
  else if deliveryDst.any (!registered ·) then .raises .unknownEndpoint s
  else
    let ordinal := s.net.sendOrdinals src dst + 1
    let sendOrdinals := Function.update s.net.sendOrdinals src
      (Function.update (s.net.sendOrdinals src) dst ordinal)
    let s := { s with net := { s.net with sendOrdinals := sendOrdinals } }
    .returns () (s.dispatch ⟨src, dst, ⟨payload, deliveryDst⟩, ordinal⟩ delay.toNat)

end Sending

end TracedSimulator

/-! ## Handlers -/

/-- What a handler, or a caller of the simulator, does with it. Crashes, restarts and
changes of links set the network and record. -/
inductive SimAction (ν π ρ σ : Type) where
  | send (src dst : ν) (payload : π) (delay : ℤ) (deliveryDst : Option ν)
  | schedule (message : Message ν (Packet ν π)) (delay : ℕ)
  | record (note : ρ)
  | assign (state : σ)
  | configure (alive : ν → Bool) (blockedLinks : Finset (ν × ν)) (linkDelays : Dict (ν × ν) ℕ)

/-- A deterministic program: it looks at the simulator after each action, and at what the
action raised. -/
inductive Program (ν π ρ σ ε : Type) where
  | done
  | raise (error : ε)
  | act (action : SimAction ν π ρ σ)
      (next : Option SendError → TracedSimulator ν π ρ σ → Program ν π ρ σ ε)

/-- The handlers of the registered nodes: what one does with a message, from the simulator
that delivers it. -/
abbrev Handlers (ν π ρ σ ε : Type) : Type :=
  ν → Option (Message ν (Packet ν π) → TracedSimulator ν π ρ σ → Program ν π ρ σ ε)

/-- What a run raises. -/
inductive RunError (ν ε : Type) where
  /-- `ValueError`: "max_events must be non-negative". -/
  | negativeEvents
  /-- `ValueError`: "deadline cannot be earlier than current simulator time". -/
  | deadline
  /-- `KeyError`: "no handler registered for node ...". -/
  | noHandler (node : ν)
  /-- What a handler raises. -/
  | handler (error : ε)
  deriving DecidableEq

section Handlers

variable {ν π ρ σ ε : Type} [DecidableEq ν] [PayloadType π]

/-- One action. -/
def SimAction.perform (registered : ν → Bool) (action : SimAction ν π ρ σ)
    (s : TracedSimulator ν π ρ σ) : Outcome SendError (TracedSimulator ν π ρ σ) Unit :=
  match action with
  | .send src dst payload delay deliveryDst =>
      s.send registered src dst payload delay deliveryDst
  | .schedule message delay => .returns () (s.schedule message delay)
  | .record note => .returns () (s.record (.other note))
  | .assign state => .returns () { s with state := state }
  | .configure alive blockedLinks linkDelays =>
      .returns () { s with
        alive := alive
        net := { s.net with blockedLinks := blockedLinks, linkDelays := linkDelays } }

/-- The actions of a program. -/
def Program.execute (registered : ν → Bool) : Program ν π ρ σ ε → TracedSimulator ν π ρ σ →
    Outcome ε (TracedSimulator ν π ρ σ) Unit
  | .done, s => .returns () s
  | .raise error, s => .raises error s
  | .act action next, s =>
      execute registered
        (next (action.perform registered s).error? (action.perform registered s).state)
        (action.perform registered s).state

/-- What a handler raises leaves the run. -/
def raiseFromHandler : Outcome ε (TracedSimulator ν π ρ σ) Unit →
    Outcome (RunError ν ε) (TracedSimulator ν π ρ σ) Unit
  | .returns _ s => .returns () s
  | .raises error s => .raises (.handler error) s

variable [NodeName ν] (handlers : Handlers ν π ρ σ ε)

/-- The body of both loops, with a message that was popped. -/
def deliverMessage (message : Message ν (Packet ν π)) (s : TracedSimulator ν π ρ σ) :
    Outcome (RunError ν ε) (TracedSimulator ν π ρ σ) Unit :=
  if s.alive message.dst = false then .returns () (s.record (.discardCrashed (details message)))
  else
    match handlers (endpoint message) with
    | none => .raises (.noHandler (endpoint message)) s
    | some handler =>
        let s := s.record (.deliver (details message))
        raiseFromHandler ((handler message s).execute (fun n => (handlers n).isSome) s)

/-- The next delivery, at its time. -/
def TracedSimulator.pop (s : TracedSimulator ν π ρ σ) :
    Option (ScheduledDelivery ν (Packet ν π) × TracedSimulator ν π ρ σ) :=
  s.net.pop.map fun popped => (popped.1, { s with net := popped.2 })

end Handlers

/-! ## Runs -/

/-- What a run takes off the queue, in order, and how it ends; the number of the deliveries
is what the source returns. -/
structure Ran (ν π ρ σ ε : Type) where
  events : List (ScheduledDelivery ν (Packet ν π))
  outcome : Outcome (RunError ν ε) (TracedSimulator ν π ρ σ) Unit

namespace Ran

variable {ν π ρ σ ε : Type}

/-- The run with deliveries before it. -/
def after (events : List (ScheduledDelivery ν (Packet ν π))) (ran : Ran ν π ρ σ ε) :
    Ran ν π ρ σ ε :=
  ⟨events ++ ran.events, ran.outcome⟩

/-- The state in which a run ends. -/
def final (ran : Ran ν π ρ σ ε) : TracedSimulator ν π ρ σ := ran.outcome.state

end Ran

section Runs

variable {ν π ρ σ ε : Type} [DecidableEq ν] [PayloadType π] [NodeName ν]
  (handlers : Handlers ν π ρ σ ε)

/-- The loop of `run` and of `run_until_time`, on fuel, with the number of deliveries so
far; `goes` is its condition, and `none` says that the fuel ran out. -/
def drain (goes : ℕ → ScheduledDelivery ν (Packet ν π) → Bool) :
    ℕ → ℕ → TracedSimulator ν π ρ σ → Option (Ran ν π ρ σ ε)
  | 0, _, _ => none
  | fuel + 1, delivered, s =>
      match s.pop with
      | none => some ⟨[], .returns () s⟩
      | some (event, popped) =>
          if goes delivered event then
            match deliverMessage handlers event.message popped with
            | .raises error t => some ⟨[event], .raises error t⟩
            | .returns _ t => (drain goes fuel (delivered + 1) t).map (.after [event])
          else some ⟨[], .returns () s⟩

/-- `run`. -/
def run (fuel : ℕ) (maxEvents : Option ℤ) (s : TracedSimulator ν π ρ σ) :
    Option (Ran ν π ρ σ ε) :=
  if maxEvents.any (· < 0) then some ⟨[], .raises .negativeEvents s⟩
  else drain handlers (fun delivered _ => maxEvents.all ((delivered : ℤ) < ·)) fuel 0 s

/-- The clock at a deadline. -/
def atDeadline (deadline : ℕ) (ran : Ran ν π ρ σ ε) : Ran ν π ρ σ ε :=
  match ran.outcome with
  | .raises _ _ => ran
  | .returns _ s => ⟨ran.events, .returns () { s with net := { s.net with time := deadline } }⟩

/-- `run_until_time`. -/
def runUntilTime (fuel : ℕ) (deadline : ℤ) (s : TracedSimulator ν π ρ σ) :
    Option (Ran ν π ρ σ ε) :=
  if deadline < s.net.time then some ⟨[], .raises .deadline s⟩
  else
    (drain handlers (fun _ event => (event.time : ℤ) ≤ deadline) fuel 0 s).map
      (atDeadline deadline.toNat)

/-- A slice of a run. -/
inductive Slice where
  /-- `run(max_events=...)` -/
  | run (maxEvents : Option ℤ)
  /-- `run_until_time(...)` -/
  | untilTime (deadline : ℤ)
  deriving DecidableEq

/-- One slice. -/
def runSlice (fuel : ℕ) : Slice → TracedSimulator ν π ρ σ → Option (Ran ν π ρ σ ε)
  | .run maxEvents, s => run handlers fuel maxEvents s
  | .untilTime deadline, s => runUntilTime handlers fuel deadline s

/-- Slices one after another, up to the first that raises. -/
def runSlices (fuel : ℕ) : List Slice → TracedSimulator ν π ρ σ → Option (Ran ν π ρ σ ε)
  | [], s => some ⟨[], .returns () s⟩
  | slice :: rest, s => do
      let ran ← runSlice handlers fuel slice s
      match ran.outcome with
      | .raises _ _ => some ran
      | .returns _ t => (runSlices fuel rest t).map (.after ran.events)

end Runs

end Distlab.Simulation
