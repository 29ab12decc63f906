import Distlab.Foundations.SlottedOrders
import Distlab.Raft.CommitFrontier
import Distlab.Service.ServiceMoves

/-!
# The chronicle of the service

A run of the service has a chronicle: the request of each write, and how far the frontier of
the committed log had come when each event of the history was recorded. The log agrees with
the history. The request of a write stands beyond the frontier of its invocation, an
answered write was executed before the frontier of its answer, and an answered read saw the
state of some index between its two frontiers.
-/

set_option autoImplicit false

namespace Distlab.Service

open Foundations Foundations.Linearizability Raft LeaderLogs Deduplication Clients OperationHistory

variable {ν : Type} {log : List (LogEntry (Command ν))}

/-- What a run wrote down beside the history. -/
structure Chronicle where
  /-- The request of each write. -/
  ledger : String → Option ClientRequest
  /-- The frontier of the committed log before the event of a number. -/
  frontier : ℕ → ℕ

/-- The log agrees with the history. -/
structure Chronicle.Agrees (D : Chronicle) (h : OperationHistory)
    (log : List (LogEntry (Command ν))) : Prop where
  appended : ∀ id request invocation, D.ledger id = some request →
    h.invocationsById.lookup id = some invocation →
    ∀ entry ∈ log.take (D.frontier invocation.sequence), ∀ operation,
      entry.command ≠ .clientRequest request.clientId request.requestId operation
  written : ∀ id invocation completion, h.invocationsById.lookup id = some invocation →
    h.completions.lookup id = some completion → invocation.operation.isWrite →
    ∃ request, D.ledger id = some request ∧
      (imageOf (log.take (D.frontier completion.sequence))).seen request.clientId
        request.requestId = some request.operation
  read : ∀ id invocation completion key, h.invocationsById.lookup id = some invocation →
    h.completions.lookup id = some completion → invocation.operation = .get key →
    ∃ k, D.frontier invocation.sequence ≤ k ∧ k ≤ D.frontier completion.sequence ∧
      completion.result = (imageOf (log.take k)).state key

namespace Chronicle.Agrees

variable {D D' : Chronicle} {h h' : OperationHistory}

/-- The log agrees with what has the same invocations and answers. -/
theorem congr (agrees : D.Agrees h log) (invocations : h'.invocationsById = h.invocationsById)
    (completions : h'.completions = h.completions) : D.Agrees h' log := by
  constructor
  · rw [invocations]
    exact agrees.appended
  · rw [invocations, completions]
    exact agrees.written
  · rw [invocations, completions]
    exact agrees.read

/-- Only the frontiers of the recorded events matter. -/
theorem move (agrees : D.Agrees h log) (wellFormed : h.WellFormed) (same : D'.ledger = D.ledger)
    (kept : ∀ n < h.sequence, D'.frontier n = D.frontier n) : D'.Agrees h log := by
  have before : ∀ id invocation, h.invocationsById.lookup id = some invocation →
      D'.frontier invocation.sequence = D.frontier invocation.sequence :=
    fun id invocation invoked => kept _ (wellFormed.invocation_lt invoked)
  have answered : ∀ id completion, h.completions.lookup id = some completion →
      D'.frontier completion.sequence = D.frontier completion.sequence :=
    fun id completion found => kept _ (wellFormed.completion_lt found)
  constructor
  · intro id request invocation listed invoked
    rw [before id invocation invoked]
    exact agrees.appended id request invocation (same ▸ listed) invoked
  · intro id invocation completion invoked found write
    rw [answered id completion found, same]
    exact agrees.written id invocation completion invoked found write
  · intro id invocation completion key invoked found get
    rw [before id invocation invoked, answered id completion found]
    exact agrees.read id invocation completion key invoked found get

/-- An operation is invoked: if it is a write, its request is not in the log before the
frontier. -/
theorem invoke (agrees : D.Agrees h log) (wellFormed : h.WellFormed) {id clientId : String}
    {operation : HistoryOperation}
    (returned : OperationHistory.invoke id clientId operation h = .ok h')
    (others : ∀ other, other ≠ id → D'.ledger other = D.ledger other)
    (kept : D'.frontier = D.frontier)
    (fresh : ∀ request, D'.ledger id = some request → ∀ entry ∈ log.take (D.frontier h.sequence),
      ∀ operation, entry.command ≠ .clientRequest request.clientId request.requestId operation) :
    D'.Agrees h' log := by
  obtain ⟨-, -, unknown, rfl⟩ := invoke_eq_ok.mp returned
  have unanswered : h.completions.lookup id = none := by
    cases found : h.completions.lookup id with
    | none => rfl
    | some completion =>
        obtain ⟨_, invoked, -⟩ := wellFormed.answers id completion found
        exact absurd (AList.lookup_isSome.mp (Option.isSome_of_mem invoked)) unknown
  have old : ∀ other completion, h.completions.lookup other = some completion → other ≠ id := by
    rintro other completion found rfl
    rw [unanswered] at found
    cases found
  constructor
  · intro other request invocation listed invoked
    rw [kept]
    by_cases same : other = id
    · subst same
      obtain rfl := Option.some.inj ((AList.lookup_insert _).symm.trans invoked)
      exact fresh request listed
    · rw [others other same] at listed
      exact agrees.appended other request invocation listed
        ((AList.lookup_insert_ne same).symm.trans invoked)
  · intro other invocation completion invoked found write
    have different := old other completion found
    rw [kept, others other different]
    exact agrees.written other invocation completion
      ((AList.lookup_insert_ne different).symm.trans invoked) found write
  · intro other invocation completion key invoked found get
    have different := old other completion found
    rw [kept]
    exact agrees.read other invocation completion key
      ((AList.lookup_insert_ne different).symm.trans invoked) found get

/-- An operation is answered: a write has been executed before the frontier, and a read saw
the state of an index beyond the frontier of its invocation. -/
theorem respond (agrees : D.Agrees h log) {id : String} {result : HistoryResult}
    (returned : OperationHistory.respond id result h = .ok h')
    (writes : ∀ invocation, h.invocationsById.lookup id = some invocation →
      invocation.operation.isWrite → ∃ request, D.ledger id = some request ∧
        (imageOf (log.take (D.frontier h.sequence))).seen request.clientId request.requestId =
          some request.operation)
    (reads : ∀ invocation key, h.invocationsById.lookup id = some invocation →
      invocation.operation = .get key → ∃ k, D.frontier invocation.sequence ≤ k ∧
        k ≤ D.frontier h.sequence ∧ result = (imageOf (log.take k)).state key) :
    D.Agrees h' log := by
  obtain ⟨_, -, -, -, -, rfl⟩ := respond_eq_ok.mp returned
  constructor
  · exact agrees.appended
  · intro other invocation completion invoked found write
    by_cases same : other = id
    · subst same
      obtain rfl := Option.some.inj ((AList.lookup_insert _).symm.trans found)
      exact writes invocation invoked write
    · exact agrees.written other invocation completion invoked
        ((AList.lookup_insert_ne same).symm.trans found) write
  · intro other invocation completion key invoked found get
    by_cases same : other = id
    · subst same
      obtain rfl := Option.some.inj ((AList.lookup_insert _).symm.trans found)
      exact reads invocation key invoked get
    · exact agrees.read other invocation completion key invoked
        ((AList.lookup_insert_ne same).symm.trans found) get

end Chronicle.Agrees

variable [LinearOrder ν] {C : Config ν} {owner : String × ℕ → String}
  {S S' : LeaderKVService ν} {t : Cluster ν} {c' : KVClientHistory} {A A' : Logs ν}
  {D D' : Chronicle} {K : ℕ}

/-- The chronicle of a state whose frontier is the index. -/
structure Chronicled (C : Config ν) (owner : String × ℕ → String) (S : LeaderKVService ν)
    (A : Logs ν) (D : Chronicle) (K : ℕ) : Prop where
  audited : Audited C S.cluster A
  stable : S.cluster.transitions = []
  exact : S.clients.Exact
  front : Frontier C S.cluster A (Entered D.ledger) K
  pending : ∀ id request, S.clients.pendingWrites.lookup id = some request →
    D.ledger id = some request
  owned : ∀ id request, D.ledger id = some request →
    owner (request.clientId, request.requestId) = id
  invoked : ∀ id request, D.ledger id = some request → ∃ invocation,
    S.clients.history.invocationsById.lookup id = some invocation ∧
      invocation.operation = .write request.operation
  reaches : Reaches D.frontier S.clients.history.sequence K
  agrees : ∀ log, Decides C A log → D.Agrees S.clients.history log

namespace Chronicled

/-! ## Moves -/

section Moves

variable (known : Chronicled C owner S A D K)
include known

theorem wellFormed : S.clients.history.WellFormed := known.exact.wellFormed

/-- A node has applied the requests that the committed log has seen up to its last index. -/
theorem requests_eq {n : ν} (decides : Decides C A log) (member : n ∈ C.nodeIds)
    (clientId : String) (requestId : ℕ) :
    (S.cluster.kv n).requests.lookup (clientId, requestId) =
      (imageOf (log.take (S.cluster.applier.lastApplied n))).seen clientId requestId := by
  obtain ⟨issued, effects, refined⟩ := (known.front.covers log decides).refines
  have view := (refined.reached.converging.nodes n member).upToDate
  exact congrFun (congrFun (congrArg Image.seen view) clientId) requestId

/-- **The cluster goes through stages**, and the frontier moves on. -/
theorem stages (fixed : C.kind = .fixed)
    (stages : Stages C (permit S.clients) S.cluster t) :
    ∃ A' K', A.Extends A' ∧ K ≤ K' ∧ Chronicled C owner { S with cluster := t } A'
      ⟨D.ledger, advance D.frontier S.clients.history.sequence K'⟩ K' := by
  obtain ⟨A', K', grows, further, audited, front, -⟩ := known.front.stages known.audited fixed
    stages fun command => Entered.mono known.pending
  refine ⟨A', K', grows, further, audited, stages.transitions.trans known.stable, known.exact,
    front, known.pending, known.owned, known.invoked, known.reaches.advance further,
    fun log decides => ?_⟩
  have earlier := decides.earlier grows known.audited.archived.logs.sound
  exact (known.agrees log earlier).move known.wellFormed rfl fun n early => advance_of_lt early

/-- **A read is invoked.** -/
theorem invokeRead {id clientId key : String}
    (returned : S.clients.invokeRead id clientId key = .returns () c') :
    Chronicled C owner { S with clients := c' } A D K := by
  obtain ⟨exact, pending, invoked⟩ :=
    Outcome.holds_of_returns (known.exact.invokeRead id clientId key) returned
  obtain ⟨-, -, unknown, same⟩ := invoke_eq_ok.mp invoked
  have kept : ∀ other, other ≠ id → c'.history.invocationsById.lookup other =
      S.clients.history.invocationsById.lookup other := fun other different => by
    rw [same]
    exact AList.lookup_insert_ne different
  have listed : ∀ request, D.ledger id ≠ some request := by
    intro request found
    obtain ⟨invocation, present, -⟩ := known.invoked id request found
    exact unknown (AList.lookup_isSome.mp (Option.isSome_of_mem present))
  refine ⟨known.audited, known.stable, exact, known.front, ?_, known.owned, ?_,
    known.reaches.wait ?_, fun log decides => ?_⟩
  · rw [pending]
    exact known.pending
  · intro other request found
    have different : other ≠ id := by
      rintro rfl
      exact listed request found
    rw [kept other different]
    exact known.invoked other request found
  · rw [same]
    exact Nat.le_succ _
  · exact (known.agrees log decides).invoke known.wellFormed invoked (fun _ _ => rfl) rfl
      fun request found => absurd found (listed request)

/-- **A write is invoked.** Its request is new to the log. -/
theorem invokeWrite {id clientId : String} {requestId : ℕ} {operation : KVOperation}
    {request : ClientRequest} (owns : owner (clientId, requestId) = id)
    (returned : S.clients.invokeWrite id clientId requestId operation = .returns request c') :
    ∃ D', Chronicled C owner { S with clients := c' } A D' K := by
  obtain ⟨exact, pending, h, invoked, attached⟩ := Outcome.holds_of_returns
    (known.exact.invokeWrite id clientId requestId operation) returned
  obtain ⟨_, -, -, -, -, -, marked⟩ := attachClientRequestId_eq_ok.mp attached
  have invocations : c'.history.invocationsById = h.invocationsById := by rw [marked]
  obtain ⟨-, -, unknown, same⟩ := invoke_eq_ok.mp invoked
  have fresh : D.ledger id = none := by
    cases found : D.ledger id with
    | none => rfl
    | some request =>
        obtain ⟨invocation, present, -⟩ := known.invoked id request found
        exact absurd (AList.lookup_isSome.mp (Option.isSome_of_mem present)) unknown
  let request : ClientRequest := ⟨clientId, requestId, operation⟩
  let ledger := Function.update D.ledger id (some request)
  have here : ledger id = some request := Function.update_self ..
  have elsewhere : ∀ other, other ≠ id → ledger other = D.ledger other := fun other different =>
    Function.update_of_ne different ..
  have more : ∀ other old, D.ledger other = some old → ledger other = some old := by
    intro other old found
    refine (elsewhere other ?_).trans found
    rintro rfl
    rw [fresh] at found
    cases found
  refine ⟨⟨ledger, D.frontier⟩, known.audited, known.stable, exact,
    known.front.mono fun command => Entered.mono more, ?_, ?_, ?_,
    known.reaches.wait ?_, fun log decides => ?_⟩
  · intro other old found
    rw [pending, Dict.lookup_insert] at found
    split at found
    · next equal =>
      subst equal
      exact here.trans found
    · exact more other old (known.pending other old found)
  · intro other old found
    by_cases equal : other = id
    · subst equal
      obtain rfl := Option.some.inj (here.symm.trans found)
      exact owns
    · exact known.owned other old ((elsewhere other equal).symm.trans found)
  · intro other old found
    rw [invocations, same]
    by_cases equal : other = id
    · subst equal
      obtain rfl := Option.some.inj (here.symm.trans found)
      exact ⟨_, AList.lookup_insert _, rfl⟩
    · rw [AList.lookup_insert_ne equal]
      exact known.invoked other old ((elsewhere other equal).symm.trans found)
  · rw [marked, same]
    exact Nat.le_succ _
  · have agrees : (⟨ledger, D.frontier⟩ : Chronicle).Agrees h log := by
      refine (known.agrees log decides).invoke known.wellFormed invoked elsewhere rfl
        fun new listed entry member change equal => ?_
      -- An entry with the identity would be one of the operation, which is new.
      obtain rfl := Option.some.inj (here.symm.trans listed)
      rw [known.reaches.here] at member
      have entered := (known.front.covers log decides).allowed entry member
      rw [equal] at entered
      obtain ⟨other, found⟩ := entered
      obtain rfl : owner (clientId, requestId) = other := known.owned other _ found
      rw [owns, fresh] at found
      cases found
    exact agrees.congr invocations (by rw [marked])

/-- **A write is completed** from what a node has applied. -/
theorem completeWrite {id : String} {n : ν} (member : n ∈ C.nodeIds)
    (returned : S.clients.completeWrite id (S.cluster.kv n).requests = .returns () c') :
    Chronicled C owner { S with clients := c' } A D K := by
  obtain ⟨request, exact, waiting, applied, pending, h, responded, retired⟩ :=
    completes_of_completeWrite known.exact returned
  obtain ⟨_, _, _, -, -, -, -, marked⟩ := retireClientRequestId_eq_ok.mp retired
  obtain ⟨_, -, -, -, -, same⟩ := respond_eq_ok.mp responded
  have listed := known.pending id request waiting
  obtain ⟨invocation, invoked, write⟩ := known.invoked id request listed
  refine ⟨known.audited, known.stable, exact, known.front, ?_, known.owned, ?_,
    known.reaches.wait ?_, fun log decides => ?_⟩
  · intro other old found
    rw [pending, Dict.lookup_erase] at found
    split at found
    · cases found
    · exact known.pending other old found
  · rw [marked, same]
    exact known.invoked
  · rw [marked, same]
    exact Nat.le_succ _
  · refine ((known.agrees log decides).respond responded (fun other invoked' _ => ?_)
      fun other key invoked' get => ?_).congr (by rw [marked]) (by rw [marked])
    · refine ⟨request, listed, ?_⟩
      rw [known.reaches.here]
      refine seen_of_prefix ((List.take_prefix_take_left (known.front.within.applied n)).map _) ?_
      exact (known.requests_eq decides member _ _).symm.trans applied
    · obtain rfl := Option.some.inj (invoked.symm.trans invoked')
      rw [write] at get
      cases get

/-- A read is abandoned. -/
theorem abandonRead {id clientId key : String}
    (returned : S.clients.abandonLinearizableRead id clientId key = .returns () c') :
    Chronicled C owner { S with clients := c' } A D K := by
  obtain ⟨exact, pending, abandoned⟩ :=
    Outcome.holds_of_returns (known.exact.abandonLinearizableRead id clientId key) returned
  obtain ⟨_, -, -, -, -, same⟩ := abandon_eq_ok.mp abandoned
  refine ⟨known.audited, known.stable, exact, known.front, ?_, known.owned, ?_, ?_,
    fun log decides => ?_⟩
  · rw [pending]
    exact known.pending
  · rw [same]
    exact known.invoked
  · rw [same]
    exact known.reaches
  · exact (known.agrees log decides).congr (by rw [same]) (by rw [same])

/-- **A read is answered** by the linearizable reader: it has applied what any node had
applied when it began. -/
theorem answerRead (fixed : C.kind = .fixed) {i : ℕ} {r : LeaderReplicator ν} {id key : String}
    {attempts : ℕ} {schedules : ν → List (List Delivery)} {value : Option String}
    (asks : Asks S.clients id key) (probing : Probing r.leader r.term i S.cluster)
    (read : linearizableGet C i r key attempts schedules S.cluster = .returns value t)
    (returned : S.clients.respondRead id value = .returns value c') :
    ∃ A' D' K', A.Extends A' ∧ Chronicled C owner ⟨t, c'⟩ A' D' K' := by
  obtain ⟨reads, evidence, u, records, confirmed, applied⟩ := linearizableGet_returns read
  obtain ⟨staged, member, fresh⟩ := known.audited.applyConfirmed (P := permit S.clients) trivial
    fixed probing confirmed applied
  obtain ⟨A', K', grows, -, later⟩ := known.stages fixed staged
  obtain ⟨exact, pending, responded⟩ :=
    Outcome.holds_of_returns (known.exact.respondRead id value asks.openWrite) returned
  obtain ⟨_, -, -, -, -, same⟩ := respond_eq_ok.mp responded
  obtain ⟨invocation, invoked, get⟩ := asks
  refine ⟨A', _, K', grows, later.audited, later.stable, exact, later.front, ?_, later.owned, ?_,
    later.reaches.wait ?_, fun log decides => ?_⟩
  · rw [pending]
    exact later.pending
  · rw [same]
    exact later.invoked
  · rw [same]
    exact Nat.le_succ _
  · refine (later.agrees log decides).respond responded (fun other invoked' write => ?_)
      fun other key' invoked' get' => ?_
    · obtain rfl := Option.some.inj (invoked.symm.trans invoked')
      rw [get] at write
      cases write
    · obtain rfl := Option.some.inj (invoked.symm.trans invoked')
      obtain rfl := HistoryOperation.get.inj (get.symm.trans get')
      refine ⟨t.applier.lastApplied r.leader, ?_, ?_, ?_⟩
      · dsimp only
        rw [advance_of_lt (known.wellFormed.invocation_lt invoked)]
        exact (known.reaches.le _).trans (fresh K known.front.backed)
      · exact (later.front.within.applied r.leader).trans (later.reaches.here).ge
      · obtain ⟨issued, effects, refined⟩ := (later.front.covers log decides).refines
        have view := (refined.reached.converging.nodes r.leader member).upToDate
        rw [reads]
        exact congrFun (congrArg Image.state view) key

/-- **Every move keeps a chronicle.** -/
theorem move (fixed : C.kind = .fixed) (move : ServiceMove C owner S S') :
    ∃ A' D' K', A.Extends A' ∧ Chronicled C owner S' A' D' K' := by
  have same : A.Extends A := .refl A
  cases move with
  | stages stages =>
      obtain ⟨A', K', grows, -, later⟩ := known.stages fixed stages
      exact ⟨A', _, K', grows, later⟩
  | invokeWrite owns returned =>
      obtain ⟨D', later⟩ := known.invokeWrite owns returned
      exact ⟨A, D', K, same, later⟩
  | completeWrite member returned => exact ⟨A, D, K, same, known.completeWrite member returned⟩
  | invokeRead returned => exact ⟨A, D, K, same, known.invokeRead returned⟩
  | answerRead asks probing read returned => exact known.answerRead fixed asks probing read returned
  | abandonRead returned => exact ⟨A, D, K, same, known.abandonRead returned⟩

theorem ready : Ready C S := ⟨known.audited.archived.votes, known.stable, known.exact⟩

/-- **Every run from here keeps a chronicle**, with an archive that extends this one. -/
theorem run (fixed : C.kind = .fixed) {calls : List (ServiceCall ν)}
    (fair : EveryStep (serviceStep C) (ServiceCall.Fair C owner) calls S) :
    ∃ A' D' K', A.Extends A' ∧
      Chronicled C owner (runEvents (serviceStep C) calls S) A' D' K' := by
  refine serviceRun_invariant
    (P := fun S => ∃ A' D' K', A.Extends A' ∧ Chronicled C owner S A' D' K') fixed
    (fun S reached => ?_) (fun S S' reached move => ?_) ⟨A, D, K, .refl A, known⟩ fair
  · obtain ⟨_, _, _, -, before⟩ := reached
    exact before.ready
  · obtain ⟨A₁, D₁, K₁, grows, before⟩ := reached
    obtain ⟨A₂, D₂, K₂, further, later⟩ := before.move fixed move
    exact ⟨A₂, D₂, K₂, grows.trans further, later⟩

end Moves

end Chronicled

/-- A new service has an empty chronicle. -/
theorem exists_chronicled_fresh (fixed : C.kind = .fixed) :
    ∃ A D K, Chronicled C owner ⟨C.fresh, {}⟩ A D K := by
  obtain ⟨A, audited, front⟩ :
      ∃ A, Audited C C.fresh A ∧ Frontier C C.fresh A (Entered fun _ => none) 0 :=
    exists_frontier_fresh fixed
  refine ⟨A, ⟨fun _ => none, fun _ => 0⟩, 0, audited, transitions_startTimers _,
    KVClientHistory.exact_empty, front, nofun, nofun, nofun, .start,
    fun log _ => ⟨nofun, nofun, nofun⟩⟩

/-- **Every run of the service has a chronicle.** -/
theorem exists_chronicled (fixed : C.kind = .fixed) {calls : List (ServiceCall ν)}
    (fair : EveryStep (serviceStep C) (ServiceCall.Fair C owner) calls ⟨C.fresh, {}⟩) :
    ∃ A D K, Chronicled C owner (runService C calls) A D K := by
  obtain ⟨A, D, K, known⟩ : ∃ A D K, Chronicled C owner ⟨C.fresh, {}⟩ A D K :=
    exists_chronicled_fresh fixed
  obtain ⟨A', D', K', -, later⟩ := known.run fixed fair
  exact ⟨A', D', K', later⟩

end Distlab.Service
