import Distlab.MultiPaxos.StateMachine

/-!
# The client of a Multi-Paxos cluster

`MultiPaxosClient` over one journal: `submit`, `poll` and `execute`. A run of an
application is a list of calls, of the client, the state machine and the
cluster. Values enter through the client alone.
-/

set_option autoImplicit false

namespace Distlab.MultiPaxos

open Foundations Paxos Clients

/-- `ClientStatus`. -/
inductive ClientStatus where
  | submitted
  | pending
  | chosen
  | applied
  | completed
  | conflict
  | leadershipUnavailable
  | quorumUnavailable
  deriving DecidableEq

/-- `ClientResult`. -/
structure ClientResult (ν : Type) where
  status : ClientStatus
  request : MultiPaxosRequest
  nodeId : ν
  slot : Option ℕ
  ballot : Option (ProposalNumber ν)
  value : Option String
  authorityBallot : Option (ProposalNumber ν)

variable {ν : Type}

/-! ## The journal -/

namespace ClientJournal

/-- The requests that were registered. -/
def registered (journal : ClientJournal) : Set MultiPaxosRequest :=
  {r | journal.requests.lookup r.operationId = some r}

/-- `register`. It looks through the registered requests in their order. -/
def register (request : MultiPaxosRequest) (journal : ClientJournal) :
    Except (ApplicationError ν) ClientJournal :=
  match journal.requests.values.reverse.find? fun previous =>
      previous.identity = request.identity ∨ previous.operationId = request.operationId with
  | some previous => if previous ≠ request then .error (.conflict .reused) else .ok journal
  | none => do
      let history ← match request.operation.history? with
        | some operation =>
            (journal.history.invoke request.operationId request.clientId operation).mapError
              .history
        | none => .ok journal.history
      return { history := history, requests := journal.requests.insert request.operationId request }

end ClientJournal

variable [LinearOrder ν] (M : Membership ν)

/-! ## What a client sees of a node -/

/-- `leadership_accepted`. -/
def leadershipAccepted (s : Cluster ν Value) (n : ν) : List (SlotAcceptedValue ν Value) :=
  (s.volatile n).promises.sortedValues.flatMap (·.accepted)

/-- `pending_proposals`. -/
def pendingProposals (s : Cluster ν Value) (n : ν) : List (LeaderAccept ν Value) :=
  match (s.volatile n).leaderBallot with
  | none => []
  | some ballot =>
      ((s.volatile n).pending.sortedItems (· ≤ ·)).map fun item => ⟨item.1, ballot, item.2⟩

/-- The slots and values a node knows of. -/
def localRecords (s : Cluster ν Value) (n : ν) : List (ℕ × Value) :=
  (s.durable n).acceptHistory.map (fun r => (r.slot, r.value)) ++
    (leadershipAccepted s n).map (fun r => (r.slot, r.value)) ++
    (learnedDecisions s n).map fun r => (r.slot, r.value)

/-- `_high_water`. -/
def highWater (s : Cluster ν Value) (n : ν) : ℕ :=
  ((localRecords s n).map Prod.fst).foldl max 0

/-- The value is another request with the request's identity or operation id. -/
def conflictsWith (request : MultiPaxosRequest) : Value → Bool
  | .request command =>
      (command.identity = request.identity ∨ command.operationId = request.operationId) ∧
        command ≠ request
  | _ => false

/-- `_check_local_identity` raises. -/
def conflictsLocally (request : MultiPaxosRequest) (s : Cluster ν Value) (n : ν) : Bool :=
  (localRecords s n).any fun record => conflictsWith request record.2

/-- `_authorized`. -/
def authorized (n : ν) (expectedBallot : Option (ProposalNumber ν)) (s : Cluster ν Value) :
    Check ν Bool :=
  if s.alive n ∧ hasLeaderAuthority M s n then do
    let promised ← promisedBallot M n s
    return (s.volatile n).leaderBallot = promised ∧
      (expectedBallot = none ∨ (s.volatile n).leaderBallot = expectedBallot)
  else return false

namespace Application

/-! ## Calls of the client -/

/-- `_authorized`, as a check. -/
def requireAuthority (n : ν) (expectedBallot : Option (ProposalNumber ν)) (a : Application ν) :
    AppOp ν Bool :=
  require (protocolCheck (authorized M n expectedBallot a.cluster)) a

/-- `_result`. -/
def reply (status : ClientStatus) (n : ν) (request : MultiPaxosRequest) (slot : Option ℕ)
    (value : Option String) (ballot : Option (ProposalNumber ν)) (a : Application ν) :
    AppOp ν (ClientResult ν) :=
  (requireAuthority M n none a).bind fun authority a =>
    let leaderBallot := (a.cluster.volatile n).leaderBallot
    .returns ⟨status, request, n, slot, ballot.orElse fun _ => leaderBallot, value,
      if authority then leaderBallot else none⟩ a

/-- Publish the response of an applied request in the history. -/
def acknowledgeResponse (request : MultiPaxosRequest) (result : Option String)
    (journal : ClientJournal) : Except (ApplicationError ν) ClientJournal :=
  match request.operation.history? with
  | none => .ok journal
  | some _ =>
      match journal.history.completed request.operationId with
      | none => do
          let history ← (journal.history.respond request.operationId result).mapError .history
          return { journal with history := history }
      | some completion =>
          if completion.result ≠ result then .error .resultChanged else .ok journal

/-- The journal is written back. -/
def setJournal (journal : ClientJournal) (a : Application ν) : Application ν :=
  { a with journal := journal }

/-- What `poll` does once the request is in the table of the node. -/
def observeApplied (n : ν) (request : MultiPaxosRequest) (record : AppliedRequest)
    (acknowledge : Bool) (a : Application ν) : AppOp ν (ClientResult ν) :=
  if record.request ≠ request then reply M .conflict n request none none none a
  else
    (require (appliedOf M n a) a).bind fun applied a =>
      match applied[record.slot - 1]? with
      | none => .raises .completionUnmatched a
      | some decision =>
          if decision.value ≠ .request request then .raises .completionUnmatched a
          else
            (require (if acknowledge then acknowledgeResponse request record.result a.journal
                else .ok a.journal) a).bind fun journal a =>
              reply M (if acknowledge then .completed else .applied) n request (some record.slot)
                record.result (some decision.proposal) (a.setJournal journal)

/-- `poll`. -/
def poll (n : ν) (request : MultiPaxosRequest) (expectedBallot : Option (ProposalNumber ν))
    (apply acknowledge : Bool) (a : Application ν) : AppOp ν (ClientResult ν) :=
  if a.journal.requests.lookup request.operationId ≠ some request then .raises .notRegistered a
  else if n ∉ M.nodeIds then .raises (.protocol (.unknownNode n)) a
  else
    (requireAuthority M n expectedBallot a).bind fun authority a =>
      if ¬ authority then reply M .leadershipUnavailable n request none none none a
      else if conflictsLocally request a.cluster n then
        reply M .conflict n request none none none a
      else
        (if apply then (applyReady M n a).bind fun _ a => .returns () a
          else .returns () a : AppOp ν Unit).bind fun _ a =>
          (clientRequests M n a).bind fun requests a =>
            match requests.lookup request.identity with
            | some record => observeApplied M n request record acknowledge a
            | none =>
                match (learnedDecisions a.cluster n).find? (·.value = .request request) with
                | some decision =>
                    reply M .chosen n request (some decision.slot) none (some decision.proposal) a
                | none => reply M .pending n request none none none a

/-- What `submit` does for a request the node has neither applied nor learned. -/
def sendRequest (n : ν) (request : MultiPaxosRequest) (slot : Option ℕ) (a : Application ν) :
    AppOp ν (ClientResult ν) :=
  match (pendingProposals a.cluster n).find? (·.value = .request request) with
  | some pending =>
      (protocol (retryProposal M n pending.slot) a).bind fun _ a =>
        reply M .pending n request (some pending.slot) none none a
  | none =>
      let proposedSlot := slot.getD (highWater a.cluster n + 1)
      if (pendingProposals a.cluster n).any (·.slot = proposedSlot) then
        reply M .pending n request (some proposedSlot) none none a
      else
        (protocol (propose M n proposedSlot (.request request)) a).bind fun _ a =>
          reply M .submitted n request (some proposedSlot) none none a

/-- `submit`. -/
def submit (n : ν) (request : MultiPaxosRequest) (slot : Option ℕ) (a : Application ν) :
    AppOp ν (ClientResult ν) :=
  if slot = some 0 then .raises .slotNotPositive a
  else if n ∉ M.nodeIds then .raises (.protocol (.unknownNode n)) a
  else
    match (a.journal.register request : Except (ApplicationError ν) ClientJournal) with
    | .error (.conflict _) => reply M .conflict n request none none none a
    | .error e => .raises e a
    | .ok journal =>
        let a := a.setJournal journal
        if conflictsLocally request a.cluster n then reply M .conflict n request none none none a
        else
          (requireAuthority M n none a).bind fun authority a =>
            if ¬ authority then reply M .leadershipUnavailable n request none none none a
            else
              (poll M n request none false false a).bind fun observed a =>
                if observed.status = .applied ∨ observed.status = .chosen then
                  .returns observed a
                else sendRequest M n request slot a

/-- The slots `_repair_prefix` goes through: at most sixteen, up to the high water mark. -/
def repairSlots (first highest : ℕ) : List ℕ :=
  List.range' first (min (highest + 1) (first + 16) - first)

/-- `_repair_prefix`. -/
def repairPrefix (n : ν) (a : Application ν) : AppOp ν Unit :=
  (requireAuthority M n none a).bind fun authority a =>
    if ¬ authority then .returns () a
    else
      (require (appliedOf M n a) a).bind fun applied a =>
        let pending := (pendingProposals a.cluster n).map (·.slot)
        Outcome.forEach (repairSlots (applied.length + 1) (highWater a.cluster n))
          (fun slot a =>
            if (learnedDecision a.cluster n slot).isSome then .returns () a
            else if slot ∈ pending then protocol (retryProposal M n slot) a
            -- Only a hole without an accepted record gets the no-op.
            else protocol (propose M n slot .noop) a) a

/-- `Simulator.run`: the messages at these positions are delivered. -/
def deliverAll (positions : List ℕ) (a : Application ν) : AppOp ν Unit :=
  Outcome.forEach positions (fun position => protocol (step M (.deliver position))) a

/-- `apply_ready` on every node that is alive. -/
def applyEverywhere (a : Application ν) : AppOp ν Unit :=
  Outcome.forEach M.nodeIds (fun peer a =>
    if a.cluster.alive peer then (applyReady M peer a).bind fun _ a => .returns () a
    else .returns () a) a

/-- The rounds of `execute`; each delivers the messages at its positions. -/
def executeRounds (n : ν) (request : MultiPaxosRequest) :
    List (List ℕ) → ClientResult ν → Application ν → AppOp ν (ClientResult ν)
  | [], result, a =>
      if result.status = .submitted ∨ result.status = .pending then
        reply M .quorumUnavailable n request result.slot none none a
      else .returns result a
  | positions :: rounds, result, a =>
      if result.status = .leadershipUnavailable ∨ result.status = .conflict then
        .returns result a
      else
        (repairPrefix M n a).bind fun _ a =>
          (deliverAll M positions a).bind fun _ a =>
            (applyEverywhere M a).bind fun _ a =>
              (poll M n request none true true a).bind fun polled a =>
                if polled.status = .completed ∨ polled.status = .conflict ∨
                    polled.status = .leadershipUnavailable then
                  .returns polled a
                else
                  (submit M n request none a).bind fun result a =>
                    executeRounds n request rounds result a

/-- `execute`, with what the simulator delivers in each round. -/
def execute (n : ν) (request : MultiPaxosRequest) (rounds : List (List ℕ)) (a : Application ν) :
    AppOp ν (ClientResult ν) :=
  (submit M n request none a).bind fun result a => executeRounds M n request rounds result a

/-! ## Runs -/

/-- The calls on an application. -/
inductive Call (ν : Type) where
  | prepareLeadership (node : ν) (roundNumber : Option ℕ)
  | retryProposal (node : ν) (slot : ℕ)
  | recoverDecisions (node : ν) (startSlot : ℕ)
  | deliver (position : ℕ)
  | crash (node : ν)
  | restart (node : ν)
  | reconstruct
  | applyReady (node : ν)
  | state (node : ν)
  | clientRequests (node : ν)
  | assertSafety
  | submit (node : ν) (request : MultiPaxosRequest) (slot : Option ℕ)
  | poll (node : ν) (request : MultiPaxosRequest) (expectedBallot : Option (ProposalNumber ν))
      (apply acknowledge : Bool)
  | execute (node : ν) (request : MultiPaxosRequest) (rounds : List (List ℕ))

/-- A call whose value the run does not use. -/
def discard {β : Type*} (outcome : AppOp ν β) : AppOp ν Unit :=
  outcome.bind fun _ a => .returns () a

/-- A lifecycle event of a node of the cluster. -/
def lifecycle (n : ν) (change : Application ν → Application ν) (a : Application ν) :
    AppOp ν Unit :=
  if n ∈ M.nodeIds then .returns () (change a) else .raises (.unknownNode n) a

/-- One call. -/
def perform (call : Call ν) (a : Application ν) : AppOp ν Unit :=
  match call with
  | .prepareLeadership n roundNumber => protocol (step M (.prepareLeadership n roundNumber)) a
  | .retryProposal n slot => protocol (step M (.retryProposal n slot)) a
  | .recoverDecisions n startSlot => protocol (step M (.recoverDecisions n startSlot)) a
  | .deliver position => protocol (step M (.deliver position)) a
  | .crash n => lifecycle M n (crash n) a
  | .restart n => lifecycle M n (restart n) a
  | .reconstruct => reconstruct M a
  | .applyReady n => discard (applyReady M n a)
  | .state n => discard (stateOf M n a)
  | .clientRequests n => discard (clientRequests M n a)
  | .assertSafety => require (assertSafety M a) a
  | .submit n request slot => discard (submit M n request slot a)
  | .poll n request expectedBallot apply acknowledge =>
      discard (poll M n request expectedBallot apply acknowledge a)
  | .execute n request rounds => discard (execute M n request rounds a)

/-- The application after a list of calls. A call that raises leaves the state in
which it raised. -/
def after (calls : List (Call ν)) : Application ν := runEvents (perform M) calls fresh

end Application

end Distlab.MultiPaxos
