import Distlab.Service.ServiceRuns

/-!
# The calls of the service are moves

Every call is a sequence of moves: the cluster goes through stages in which nothing is
appended but barriers and the requests of pending writes, or the history records one event.
A write is answered from what a node has applied, and a read by the linearizable reader.
-/

set_option autoImplicit false

namespace Distlab.Service

open Foundations Raft Clients OperationHistory

variable {ν : Type} [LinearOrder ν] {C : Config ν} {owner : String × ℕ → String}
  {S S' : LeaderKVService ν} {s t u : Cluster ν} {c' : KVClientHistory}

/-! ## Moves -/

/-- What the service may append: barriers, and the requests of the pending writes. -/
def permit (c : KVClientHistory) : Permit ν := ⟨Entered c.pendingWrites.lookup, True⟩

/-- A read was invoked for the key. -/
def Asks (c : KVClientHistory) (id key : String) : Prop :=
  ∃ invocation, c.history.invocationsById.lookup id = some invocation ∧
    invocation.operation = .get key

/-- One move of the service. -/
inductive ServiceMove (C : Config ν) (owner : String × ℕ → String) (S : LeaderKVService ν) :
    LeaderKVService ν → Prop
  | stages {t : Cluster ν} (stages : Stages C (permit S.clients) S.cluster t) :
      ServiceMove C owner S { S with cluster := t }
  | invokeWrite {id clientId : String} {requestId : ℕ} {operation : KVOperation}
      {request : ClientRequest} {c' : KVClientHistory} (owns : owner (clientId, requestId) = id)
      (returned : S.clients.invokeWrite id clientId requestId operation = .returns request c') :
      ServiceMove C owner S { S with clients := c' }
  | completeWrite {id : String} {n : ν} {c' : KVClientHistory} (member : n ∈ C.nodeIds)
      (returned : S.clients.completeWrite id (S.cluster.kv n).requests = .returns () c') :
      ServiceMove C owner S { S with clients := c' }
  | invokeRead {id clientId key : String} {c' : KVClientHistory}
      (returned : S.clients.invokeRead id clientId key = .returns () c') :
      ServiceMove C owner S { S with clients := c' }
  | answerRead {i : ℕ} {r : LeaderReplicator ν} {id key : String} {attempts : ℕ}
      {schedules : ν → List (List Delivery)} {value : Option String} {t : Cluster ν}
      {c' : KVClientHistory} (asks : Asks S.clients id key)
      (probing : Probing r.leader r.term i S.cluster)
      (read : linearizableGet C i r key attempts schedules S.cluster = .returns value t)
      (returned : S.clients.respondRead id value = .returns value c') :
      ServiceMove C owner S ⟨t, c'⟩
  | abandonRead {id clientId key : String} {c' : KVClientHistory}
      (returned : S.clients.abandonLinearizableRead id clientId key = .returns () c') :
      ServiceMove C owner S { S with clients := c' }

/-- Any number of moves. -/
def ServiceMoves (C : Config ν) (owner : String × ℕ → String) :
    LeaderKVService ν → LeaderKVService ν → Prop :=
  Relation.ReflTransGen (ServiceMove C owner)

/-- Every outcome of the call is reached in moves. -/
abbrev Moving {β : Type} (C : Config ν) (owner : String × ℕ → String) (S : LeaderKVService ν)
    (op : ServiceOp ν β) : Prop :=
  op.Ensures (ServiceMoves C owner S) fun _ _ => True

section Rules

variable {β γ : Type} {op : ServiceOp ν β} {next : β → LeaderKVService ν → ServiceOp ν γ}

theorem ServiceMoves.refl (S : LeaderKVService ν) : ServiceMoves C owner S S :=
  Relation.ReflTransGen.refl

theorem ServiceMove.moves (move : ServiceMove C owner S S') : ServiceMoves C owner S S' :=
  .single move

theorem Moving.bind (first : Moving C owner S op)
    (rest : ∀ b S', op = .returns b S' → Moving C owner S' (next b S')) :
    Moving C owner S (op.bind next) :=
  Outcome.Ensures.bind first (fun b S' returned moves =>
    (rest b S' returned).mono (fun _ after => Relation.ReflTransGen.trans moves after)
      fun _ _ => id) fun _ => id

theorem Moving.raised (error : ServiceError ν) (S : LeaderKVService ν) :
    Moving C owner S (.raises error S : ServiceOp ν β) := ⟨.refl S, trivial⟩

theorem Moving.returned (b : β) (S : LeaderKVService ν) :
    Moving C owner S (.returns b S : ServiceOp ν β) := ServiceMoves.refl S

theorem Moving.forget (moving : Moving C owner S op) : Moving C owner S (forget op) :=
  moving.bind fun _ S' _ => .returned () S'

omit [LinearOrder ν] in
theorem onCluster_eq_returns {op : Cluster ν → ClusterOp ν β} {b : β} :
    onCluster op S = .returns b S' ↔
      ∃ t, op S.cluster = .returns b t ∧ S' = { S with cluster := t } := by
  unfold onCluster
  cases op S.cluster <;> simp [eq_comm]

omit [LinearOrder ν] in
theorem onClients_eq_returns {op : KVClientHistory → ClientOp β} {b : β} :
    onClients op S = .returns b S' ↔
      ∃ c', op S.clients = .returns b c' ∧ S' = { S with clients := c' } := by
  unfold onClients
  cases op S.clients <;> simp [eq_comm]

theorem moving_onCluster {op : Cluster ν → ClusterOp ν β}
    (reaching : Reaching C (permit S.clients) S.cluster (op S.cluster)) :
    Moving C owner S (onCluster op S) := by
  unfold onCluster
  cases outcome : op S.cluster with
  | returns b t =>
      rw [outcome] at reaching
      exact ServiceMove.moves (.stages reaching)
  | raises error t =>
      rw [outcome] at reaching
      exact ⟨ServiceMove.moves (.stages reaching.1), trivial⟩

/-- A call on the clients that raises without effect, or is a move. -/
theorem moving_onClients {op : KVClientHistory → ClientOp β}
    (moves : (∃ error, op S.clients = .raises error S.clients) ∨
      ∃ b c', op S.clients = .returns b c' ∧ ServiceMove C owner S { S with clients := c' }) :
    Moving C owner S (onClients op S) := by
  unfold onClients
  obtain ⟨error, raised⟩ | ⟨b, c', returned, move⟩ := moves
  · rw [raised]
    exact .raised _ S
  · rw [returned]
    exact ServiceMove.moves move

theorem moving_require (checked : Except (ServiceError ν) β) :
    Moving C owner S (require checked S) := by
  cases checked with
  | ok b => exact ServiceMoves.refl S
  | error error => exact .raised error S

end Rules

/-! ## Calls of the clients -/

section Clients

variable (exact : S.clients.Exact)
include exact

theorem moving_invokeWrite {id clientId : String} {requestId : ℕ} {operation : KVOperation}
    (owns : owner (clientId, requestId) = id) :
    Moving C owner S (onClients (·.invokeWrite id clientId requestId operation) S) := by
  refine moving_onClients ?_
  obtain raised | ⟨c', returned, -⟩ := exact.invokeWrite id clientId requestId operation
  · exact .inl raised
  · exact .inr ⟨_, c', returned, .invokeWrite owns returned⟩

theorem moving_completeWrite {id : String} {n : ν} (member : n ∈ C.nodeIds) :
    Moving C owner S (onClients (·.completeWrite id (S.cluster.kv n).requests) S) := by
  refine moving_onClients ?_
  obtain raised | ⟨c', _, returned, -⟩ := exact.completeWrite id (S.cluster.kv n).requests
  · exact .inl raised
  · exact .inr ⟨_, c', returned, .completeWrite member returned⟩

theorem moving_invokeRead {id clientId key : String} :
    Moving C owner S (onClients (·.invokeRead id clientId key) S) := by
  refine moving_onClients ?_
  obtain raised | ⟨c', returned, -⟩ := exact.invokeRead id clientId key
  · exact .inl raised
  · exact .inr ⟨_, c', returned, .invokeRead returned⟩

theorem moving_abandonRead {id clientId key : String} :
    Moving C owner S (onClients (·.abandonLinearizableRead id clientId key) S) := by
  refine moving_onClients ?_
  obtain raised | ⟨c', returned, -⟩ := exact.abandonLinearizableRead id clientId key
  · exact .inl raised
  · exact .inr ⟨_, c', returned, .abandonRead returned⟩

omit [LinearOrder ν] exact in
theorem Asks.openWrite {c : KVClientHistory} {id key : String} (asks : Asks c id key) :
    c.history.openWrite id = none := by
  obtain ⟨invocation, invoked, get⟩ := asks
  refine openWrite_of_read invoked ?_
  rw [get]
  rfl

omit [LinearOrder ν] in
/-- A read that was just invoked. -/
theorem asks_of_invokeRead {id clientId key : String}
    (returned : S.clients.invokeRead id clientId key = .returns () c') :
    c'.Exact ∧ Asks c' id key := by
  obtain ⟨exact', -, invoked⟩ :=
    Outcome.holds_of_returns (exact.invokeRead id clientId key) returned
  obtain ⟨-, -, -, same⟩ := invoke_eq_ok.mp invoked
  refine ⟨exact', ⟨id, clientId, .get key, S.clients.history.sequence⟩, ?_, rfl⟩
  rw [same]
  exact AList.lookup_insert _

omit [LinearOrder ν] in
/-- A write that was just completed was pending, and it had been applied. -/
theorem completes_of_completeWrite {id : String} {clientRequests : Dict (String × ℕ) KVOperation}
    (returned : S.clients.completeWrite id clientRequests = .returns () c') :
    ∃ request, c'.Exact ∧ S.clients.pendingWrites.lookup id = some request ∧
      clientRequests.lookup (request.clientId, request.requestId) = some request.operation ∧
      c'.pendingWrites = S.clients.pendingWrites.erase id ∧
      ∃ responded, respond id none S.clients.history = .ok responded ∧
        retireClientRequestId id responded = .ok c'.history := by
  obtain ⟨error, raised⟩ | ⟨c'', request, returned', completes⟩ :=
    exact.completeWrite id clientRequests
  · rw [raised] at returned
    cases returned
  · rw [returned'] at returned
    cases returned
    exact ⟨request, completes⟩

omit [LinearOrder ν] in
/-- A read that may be retried through the service. -/
theorem asks_of_requireRetriedRead {id clientId key : String}
    (required : (requireRetriedRead id clientId key S.clients : Except (ServiceError ν) Unit) =
      .ok ()) : Asks S.clients id key := by
  unfold requireRetriedRead at required
  split at required
  · cases required
  next matching => exact exact.open_of_matchingRead matching

/-- **The answer of a read** that the reader has returned. -/
theorem moves_answer {i : ℕ} {r : LeaderReplicator ν} {id key : String} {attempts : ℕ}
    {schedules : ν → List (List Delivery)} {value : Option String} (asks : Asks S.clients id key)
    (before : Stages C (permit S.clients) S.cluster u) (probing : Probing r.leader r.term i u)
    (read : linearizableGet C i r key attempts schedules u = .returns value t)
    (stages : Stages C (permit S.clients) S.cluster t) :
    (onClients (·.respondRead id value) { S with cluster := t }).Ensures
      (ServiceMoves C owner S) fun _ _ => True := by
  unfold onClients
  dsimp only
  obtain ⟨error, raised⟩ | ⟨c', returned, -⟩ := exact.respondRead id value asks.openWrite
  · rw [raised]
    exact ⟨ServiceMove.moves (.stages stages), trivial⟩
  · rw [returned]
    have moved : ServiceMoves C owner S { S with cluster := u } :=
      ServiceMove.moves (.stages before)
    exact moved.tail (.answerRead asks probing read returned)

end Clients

/-! ## Calls of the service -/

/-- A state in which a call may begin. -/
structure Ready (C : Config ν) (S : LeaderKVService ν) : Prop where
  votes : VoteInv C S.cluster
  stable : S.cluster.transitions = []
  exact : S.clients.Exact

section Service

variable (fixed : C.kind = .fixed)
include fixed

/-- Only a node that leads applies entries for a read. -/
theorem reaching_get {i : ℕ} {r : LeaderReplicator ν} {key : String} {attempts : ℕ}
    {schedules : ν → List (List Delivery)} {P : Permit ν} (tends : P.tends) (votes : VoteInv C s) :
    Reaching C P s (linearizableGet C i r key attempts schedules s) := by
  by_cases leads : s.role r.leader = .leader
  · exact reaching_linearizableGet tends fixed (votes.leads r.leader leads).1
  have refused : ∃ error, linearizableGet C i r key attempts schedules s = .raises error s := by
    unfold linearizableGet confirmAuthority requireReadLeader
    split
    · exact ⟨_, rfl⟩
    split
    · exact ⟨_, rfl⟩
    split
    · exact ⟨_, rfl⟩
    · exact ⟨_, rfl⟩
  obtain ⟨error, raised⟩ := refused
  rw [raised]
  exact .raised error s

/-- A read through the reader of a replicator. -/
theorem moving_readThrough {i : ℕ} {r : LeaderReplicator ν} {id key : String} {attempts : ℕ}
    {schedules : ν → List (List Delivery)} (votes : VoteInv C S.cluster) (exact : S.clients.Exact)
    (asks : Asks S.clients id key) (found : S.cluster.replicators[i]? = some r)
    (plain : r.snapshotTransport = false) :
    Moving C owner S (readThrough C i r id key attempts schedules S) := by
  have reaching : Reaching C (permit S.clients) S.cluster
      (linearizableGet C i r key attempts schedules S.cluster) := reaching_get fixed trivial votes
  unfold readThrough onCluster
  dsimp only
  cases outcome : linearizableGet C i r key attempts schedules S.cluster with
  | returns value t =>
      rw [outcome] at reaching
      exact moves_answer exact asks (.refl _) ⟨r, found, rfl, rfl, plain⟩ outcome reaching
  | raises error t =>
      rw [outcome] at reaching
      exact ⟨ServiceMove.moves (.stages reaching.1), trivial⟩

variable {identity : LeaderRuntimeIdentity ν} {attempts : ℕ}
  {barrierSchedules schedules : ν → List (List Delivery)}

/-- **A read of the service.** -/
theorem moving_completeRead {id key : String} (exact : S.clients.Exact)
    (asks : Asks S.clients id key) :
    Moving C owner S (completeRead C identity id key attempts barrierSchedules schedules S) := by
  have reaching : Reaching C (permit S.clients) S.cluster
      (serviceRead C identity key attempts barrierSchedules schedules S.cluster) :=
    reaching_serviceRead trivial fixed trivial
  unfold completeRead
  dsimp only
  split
  · exact .raised _ S
  unfold onCluster
  cases outcome : serviceRead C identity key attempts barrierSchedules schedules S.cluster with
  | raises error t =>
      rw [outcome] at reaching
      exact ⟨ServiceMove.moves (.stages reaching.1), trivial⟩
  | returns value t =>
      rw [outcome] at reaching
      dsimp only [Outcome.bind_returns]
      cases required : requireGeneration identity.leaderId identity.generation t with
      | error error => exact ⟨ServiceMove.moves (.stages reaching), trivial⟩
      | ok current =>
          dsimp only [require, Outcome.bind_returns]
          obtain ⟨i, r, u, before, probing, -, read⟩ :=
            serviceRead_returns (P := permit S.clients) trivial fixed trivial outcome
          exact Outcome.Ensures.bind (moves_answer exact asks before probing read reaching)
            (fun _ _ _ after => after) fun _ after => after

omit fixed in
/-- The answer of a write. -/
theorem moving_answerWrite {id : String} (exact : S.clients.Exact)
    (member : identity.leaderId ∈ C.nodeIds) :
    Moving C owner S (answerWrite identity id S) := by
  unfold answerWrite
  refine (moving_require _).bind fun _ S' required => ?_
  obtain ⟨-, rfl⟩ := require_eq_returns.mp required
  exact moving_completeWrite exact member

/-- **A write of the service** whose request is pending. -/
theorem moving_commitWrite {id : String} {request : ClientRequest} (ready : Ready C S)
    (pending : S.clients.pendingWrites.lookup id = some request) :
    Moving C owner S (commitWrite C identity id request attempts schedules S) := by
  unfold commitWrite
  dsimp only
  split
  · exact .raised _ S
  refine (moving_require _).bind fun _ S' required => ?_
  obtain ⟨guarded, rfl⟩ := require_eq_returns.mp required
  obtain ⟨-, -, -, leads, -⟩ := requireGeneration_ok guarded
  have member := (ready.votes.leads _ leads).1
  have applies : ∀ s, Reaching C (permit S.clients) s
      (uncaught (kvApplyCommitted identity.leaderId s)) := fun s =>
    reaching_uncaught (Stage.staged (.apply identity.leaderId member))
  refine (moving_onCluster (applies _)).bind fun _ S' returned => ?_
  obtain ⟨t, -, rfl⟩ := onCluster_eq_returns.mp returned
  have answers : ∀ u, Moving C owner { S with cluster := u }
      (answerWrite identity id { S with cluster := u }) := fun u =>
    moving_answerWrite ready.exact member
  split
  · split
    · exact .raised _ _
    refine (answers t).bind fun _ S' _ => ?_
    exact (moving_require _).bind fun _ S'' _ => .returned _ S''
  · have commits : Reaching C (permit S.clients) t
        (commitRequest C identity request attempts schedules t) :=
      reaching_commitRequest trivial fixed trivial ⟨id, pending⟩
    refine Moving.bind (moving_onCluster commits) fun _ S' returned => ?_
    obtain ⟨u, -, rfl⟩ := onCluster_eq_returns.mp returned
    split
    · exact .raised _ _
    · exact (answers u).bind fun _ S' _ => .returned _ S'

/-- **A new write of the service.** -/
theorem moving_write {leaderId : ν} {generation requestId : ℕ} {id clientId : String}
    {operation : KVOperation} (ready : Ready C S) (owns : owner (clientId, requestId) = id) :
    Moving C owner S (write C leaderId generation id clientId requestId operation attempts schedules
      S) := by
  unfold write
  refine (moving_require _).bind fun identity S' required => ?_
  obtain ⟨-, rfl⟩ := require_eq_returns.mp required
  refine (moving_invokeWrite ready.exact owns).bind fun request S' invoked => ?_
  obtain ⟨c', returned, rfl⟩ := onClients_eq_returns.mp invoked
  obtain ⟨_, raised⟩ | ⟨_, returned', exact', written, -⟩ :=
    ready.exact.invokeWrite id clientId requestId operation
  · rw [raised] at returned
    cases returned
  rw [returned'] at returned
  cases returned
  refine moving_commitWrite fixed ⟨ready.votes, ready.stable, exact'⟩ ?_
  rw [written]
  exact AList.lookup_insert _

omit fixed [LinearOrder ν] in
theorem retryWrite_returns {id : String} {request : ClientRequest}
    (returned : onClients (·.retryWrite id) S = .returns request S') :
    S' = S ∧ S.clients.pendingWrites.lookup id = some request := by
  obtain ⟨c', retried, rfl⟩ := onClients_eq_returns.mp returned
  unfold KVClientHistory.retryWrite KVClientHistory.pendingWrite at retried
  split at retried
  · cases retried
  next pending =>
    cases retried
    exact ⟨rfl, pending⟩

omit fixed in
theorem moving_retry (id : String) : Moving C owner S (onClients (·.retryWrite id) S) := by
  unfold onClients KVClientHistory.retryWrite
  dsimp only
  cases S.clients.pendingWrite id with
  | none => exact .raised _ S
  | some request => exact .returned request S

theorem moving_retryWrite {leaderId : ν} {generation : ℕ} {id : String} (ready : Ready C S) :
    Moving C owner S (retryWrite C leaderId generation id attempts schedules S) := by
  unfold retryWrite
  refine (moving_require _).bind fun identity S' required => ?_
  obtain ⟨-, rfl⟩ := require_eq_returns.mp required
  refine (moving_retry id).bind fun request S' retried => ?_
  obtain ⟨rfl, pending⟩ := retryWrite_returns retried
  exact moving_commitWrite fixed ready pending

/-- **A new read of the service.** -/
theorem moving_linearizableRead {leaderId : ν} {generation : ℕ} {id clientId key : String}
    (ready : Ready C S) :
    Moving C owner S (linearizableRead C leaderId generation id clientId key attempts
      barrierSchedules schedules S) := by
  unfold linearizableRead
  split
  · exact .raised _ S
  refine (moving_require _).bind fun identity S' required => ?_
  obtain ⟨-, rfl⟩ := require_eq_returns.mp required
  refine (moving_invokeRead ready.exact).bind fun _ S' invoked => ?_
  obtain ⟨c', returned, rfl⟩ := onClients_eq_returns.mp invoked
  obtain ⟨exact', asks⟩ := asks_of_invokeRead ready.exact returned
  exact moving_completeRead fixed exact' asks

theorem moving_retryLinearizableRead {leaderId : ν} {generation : ℕ} {id clientId key : String}
    (ready : Ready C S) :
    Moving C owner S (retryLinearizableRead C leaderId generation id clientId key attempts
      barrierSchedules schedules S) := by
  unfold retryLinearizableRead
  refine (moving_require _).bind fun identity S' required => ?_
  obtain ⟨-, rfl⟩ := require_eq_returns.mp required
  refine (moving_require _).bind fun _ S' required => ?_
  obtain ⟨pending, rfl⟩ := require_eq_returns.mp required
  exact moving_completeRead fixed ready.exact (asks_of_requireRetriedRead ready.exact pending)

omit fixed [LinearOrder ν] in
theorem served_mono {Q Q' : Command ν → Prop} (weaker : ∀ command, Q command → Q' command)
    {event : Event ν} (served : event.Served Q) : event.Served Q' := by
  cases event with
  | appendCurrentTerm n command => exact weaker command served
  | applyCommitted n => exact served
  | _ => trivial

/-- An event of the cluster that appends what is entered. -/
theorem moving_event {event : Event ν} (ready : Ready C S) (continues : event.Continues)
    (protocol : event.Protocol (C := C))
    (served : event.Served (Entered S.clients.pendingWrites.lookup)) :
    Moving C owner S (onCluster (fun s => uncaught (step C event s)) S) :=
  moving_onCluster (reaching_uncaught
    (staged_step trivial fixed ready.stable continues protocol served))

/-- **Every call is a sequence of moves.** -/
theorem moving_serviceStep {call : ServiceCall ν} (ready : Ready C S) (fair : call.Fair C owner S) :
    Moving C owner S (serviceStep C call S) := by
  cases call with
  | cluster event =>
      obtain ⟨continues, protocol, served⟩ := fair
      refine moving_event fixed ready continues protocol (served_mono ?_ served)
      intro command
      refine Entered.mono fun id request entered => ?_
      cases entered
  | invokeWrite id clientId requestId operation =>
      exact (moving_invokeWrite ready.exact fair).forget
  | appendRequest n id =>
      refine (moving_retry id).bind fun request S' retried => ?_
      obtain ⟨rfl, pending⟩ := retryWrite_returns retried
      exact moving_event fixed ready trivial (.inl fixed) ⟨id, pending⟩
  | completeWrite id n =>
      refine (moving_retry id).bind fun request S' retried => ?_
      obtain ⟨rfl, pending⟩ := retryWrite_returns retried
      split
      · exact .raised _ _
      · next member => exact moving_completeWrite ready.exact (not_not.mp member)
  | read i id clientId key attempts schedules =>
      unfold serviceStep
      dsimp only
      split
      · exact .returned () S
      next r found =>
      refine (moving_invokeRead ready.exact).bind fun _ S' invoked => ?_
      obtain ⟨c', returned, rfl⟩ := onClients_eq_returns.mp invoked
      obtain ⟨exact', asks⟩ := asks_of_invokeRead ready.exact returned
      have reads : Moving C owner { S with clients := c' }
          (readThrough C i r id key attempts schedules { S with clients := c' }) :=
        moving_readThrough fixed ready.votes exact' asks found (fair r found)
      exact reads.forget
  | retryRead i id clientId key attempts schedules =>
      unfold serviceStep
      dsimp only
      split
      · exact .returned () S
      next r found =>
      split
      · exact .raised _ S
      next required =>
      have asks : Asks S.clients id key :=
        ready.exact.open_of_matchingRead
          (KVClientHistory.requireMatchingRead_of_required required)
      exact (moving_readThrough fixed ready.votes ready.exact asks found (fair r found)).forget
  | abandonRead id clientId key => exact moving_abandonRead ready.exact
  | write => exact (moving_write fixed ready fair).forget
  | retryWrite => exact (moving_retryWrite fixed ready).forget
  | linearizableRead => exact (moving_linearizableRead fixed ready).forget
  | retryLinearizableRead => exact (moving_retryLinearizableRead fixed ready).forget
  | linearizableBarrier =>
      refine Moving.forget (moving_onCluster ?_)
      exact reaching_linearizableBarrier trivial fixed trivial

/-- **The run lemma.** What every move keeps holds after every run of calls. -/
theorem serviceRun_invariant {P : LeaderKVService ν → Prop} (ready : ∀ S, P S → Ready C S)
    (keeps : ∀ S S', P S → ServiceMove C owner S S' → P S') {calls : List (ServiceCall ν)}
    (holds : P S) (fair : EveryStep (serviceStep C) (ServiceCall.Fair C owner) calls S) :
    P (runEvents (serviceStep C) calls S) := by
  refine runEvents_invariant_of_everyStep (fun call S holds fairly => ?_) calls S holds fair
  have moves : ServiceMoves C owner S (serviceStep C call S).state :=
    Outcome.Ensures.state (moving_serviceStep fixed (ready S holds) fairly)
  have kept : ∀ S', ServiceMoves C owner S S' → P S' := by
    intro S' moves
    induction moves with
    | refl => exact holds
    | tail _ move ih => exact keeps _ _ ih move
  exact kept _ moves

end Service

end Distlab.Service
