import Distlab.Clients.MultiKeyLocality
import Distlab.Foundations.ExecutedRequests
import Distlab.Foundations.SlottedOrders
import Distlab.Service.Chronicle

/-!
# The leader service is linearizable

The committed log has a slot for each of its entries up to the frontier. A write stands where
its request is executed, and a read where the state is the one that it saw. The chronicle of
the run says that this order is one in time, so it explains the history of the clients.
-/

set_option autoImplicit false

namespace Distlab.Service

open Foundations Foundations.Linearizability Raft LeaderLogs Deduplication Clients OperationHistory

variable {ν : Type} {log : List (LogEntry (Command ν))} {k : ℕ} {request : ClientRequest}

/-! ## The slots of the log -/

/-- The entry at a position executes the request. -/
abbrev Executing (log : List (LogEntry (Command ν))) (k : ℕ) (request : ClientRequest) : Prop :=
  Executes (log.map (·.command.request)) k request.clientId request.requestId request.operation

/-- The command of an entry that executes a request. -/
theorem Executing.found (executes : Executing log k request) : ∃ entry, log[k]? = some entry ∧
    entry.command = .clientRequest request.clientId request.requestId request.operation := by
  have asked := executes.entry
  rw [List.getElem?_map] at asked
  obtain ⟨entry, found, same⟩ := Option.map_eq_some_iff.mp asked
  refine ⟨entry, found, ?_⟩
  cases command : entry.command with
  | clientRequest clientId requestId operation =>
      rw [command] at same
      cases same
      rfl
  | _ =>
      rw [command] at same
      cases same

/-- What an executed request does to the state. -/
theorem Executing.state (executes : Executing log k request) :
    (imageOf (log.take (k + 1))).state =
      request.operation.execute (imageOf (log.take k)).state := by
  unfold imageOf
  rw [List.map_take, List.map_take]
  exact Executes.state executes

open Classical in
/-- The operation whose request an entry executes. -/
noncomputable def writer (owner : String × ℕ → String) (log : List (LogEntry (Command ν)))
    (k : ℕ) : Option String :=
  if executes : ∃ request, Executing log k request then
    some (owner (executes.choose.clientId, executes.choose.requestId))
  else none

theorem writer_eq_some {owner : String × ℕ → String} {id : String} :
    writer owner log k = some id ↔ ∃ request, Executing log k request ∧
      owner (request.clientId, request.requestId) = id := by
  unfold writer
  split
  · next executes =>
    have chosen := executes.choose_spec
    constructor
    · intro wrote
      exact ⟨_, chosen, Option.some.inj wrote⟩
    · rintro ⟨request, executes', rfl⟩
      have same := Option.some.inj (chosen.entry.symm.trans executes'.entry)
      obtain ⟨clientId, requestId, -⟩ := Request.identified.inj same
      rw [clientId, requestId]
  · next none =>
    constructor
    · intro wrote
      cases wrote
    · rintro ⟨request, executes, -⟩
      exact absurd ⟨request, executes⟩ none

/-- The reads that were answered, in the order of their invocations. -/
def answeredReads (h : OperationHistory) : List String :=
  (h.completedOperations.filter fun item => ¬ item.invocation.operation.isWrite).map
    CompletedOperation.operationId

theorem mem_answeredReads {h : OperationHistory} (wellFormed : h.WellFormed) {id : String} :
    id ∈ answeredReads h ↔ ∃ invocation completion key,
      h.invocationsById.lookup id = some invocation ∧ h.completions.lookup id = some completion ∧
        invocation.operation = .get key := by
  unfold answeredReads
  constructor
  · intro listed
    obtain ⟨item, member, rfl⟩ := List.mem_map.mp listed
    obtain ⟨completed, read⟩ := List.mem_filter.mp member
    obtain ⟨invoked, answered⟩ := (mem_completedOperations wellFormed).mp completed
    cases operation : item.invocation.operation with
    | get key => exact ⟨_, _, key, invoked, answered, operation⟩
    | write change => simp [operation, HistoryOperation.isWrite] at read
  · rintro ⟨invocation, completion, key, invoked, answered, get⟩
    have named := wellFormed.invocationKey id invocation invoked
    refine List.mem_map.mpr ⟨⟨invocation, completion⟩, List.mem_filter.mpr ⟨?_, ?_⟩, named⟩
    · rw [mem_completedOperations wellFormed]
      dsimp only [CompletedOperation.operationId]
      rw [named]
      exact ⟨invoked, answered⟩
    · simp [get, HistoryOperation.isWrite]

theorem nodup_answeredReads {h : OperationHistory} (wellFormed : h.WellFormed) :
    (answeredReads h).Nodup :=
  (nodup_completedOperations wellFormed).sublist (List.filter_sublist.map _)

/-- A read was not answered before one that was invoked earlier. -/
theorem inTurn_answeredReads {h : OperationHistory} (wellFormed : h.WellFormed) :
    (answeredReads h).Pairwise fun a b => ¬ h.extendedObservation.Precedes b a := by
  have sorted : h.completedOperations.Pairwise fun a b =>
      a.invocation.sequence ≤ b.invocation.sequence :=
    List.pairwise_insertionSort _ _
  refine List.pairwise_map.mpr ((sorted.filter _).imp_of_mem ?_)
  intro a b first second earlier precedes
  obtain ⟨invoked, -⟩ :=
    (mem_completedOperations wellFormed).mp (List.mem_of_mem_filter first)
  obtain ⟨invoked', answered⟩ :=
    (mem_completedOperations wellFormed).mp (List.mem_of_mem_filter second)
  have before := (precedes_iff answered invoked).mp precedes
  obtain ⟨_, same, late, -⟩ := wellFormed.answers _ _ answered
  obtain rfl := Option.some.inj (invoked'.symm.trans same)
  omega

/-- The slots of the log up to the frontier. -/
noncomputable def slots (owner : String × ℕ → String) (log : List (LogEntry (Command ν))) (K : ℕ)
    (h : OperationHistory) (stamp : String → ℕ) : Slots String (String → HistoryResult) where
  length := K
  states k := (imageOf (log.take k)).state
  writer k := if k < K then writer owner log k else none
  reads := answeredReads h
  stamp := stamp

section Explains

variable [LinearOrder ν] {C : Config ν} {owner : String × ℕ → String} {S : LeaderKVService ν}
  {A : Logs ν} {D : Chronicle} {K : ℕ} {stamp : String → ℕ} {id : String}
  (known : Chronicled C owner S A D K) (decides : Decides C A log)
include known decides

/-- **A slot has the write whose request the ledger has.** -/
theorem slots_writer : (slots owner log K S.clients.history stamp).writer k = some id ↔
    ∃ request, k < K ∧ Executing log k request ∧ D.ledger id = some request := by
  have covers := known.front.covers log decides
  have split : (slots owner log K S.clients.history stamp).writer k = some id ↔
      k < K ∧ writer owner log k = some id := by
    dsimp only [slots]
    split <;> simp [*]
  rw [split, writer_eq_some]
  constructor
  · rintro ⟨within, request, executes, rfl⟩
    obtain ⟨entry, found, command⟩ := executes.found
    rw [← List.getElem?_take_of_lt within] at found
    have entered := covers.allowed entry (List.mem_of_getElem? found)
    rw [command] at entered
    obtain ⟨id, listed⟩ := entered
    have owned := known.owned id _ listed
    dsimp only at owned
    rw [owned]
    exact ⟨request, within, executes, listed⟩
  · rintro ⟨request, within, executes, listed⟩
    exact ⟨within, request, executes, known.owned id request listed⟩

/-- An entry that executes no request leaves the state alone. -/
theorem state_of_idle (within : k < K) (idle : writer owner log k = none) :
    (imageOf (log.take (k + 1))).state = (imageOf (log.take k)).state := by
  have covers := known.front.covers log decides
  obtain ⟨entry, found⟩ : ∃ entry, log[k]? = some entry :=
    ⟨_, List.getElem?_eq_getElem (within.trans_le covers.within)⟩
  have inside : entry ∈ log.take K := by
    refine List.mem_of_getElem? (i := k) ?_
    rw [List.getElem?_take_of_lt within, found]
  have entered := covers.allowed entry inside
  unfold imageOf
  rw [List.map_take, List.map_take]
  have asked : (log.map (·.command.request))[k]? = some entry.command.request := by
    rw [List.getElem?_map, found]
    rfl
  refine Deduplication.state_of_idle asked ?_ ?_
  · intro operation same
    cases command : entry.command with
    | operation change =>
        rw [command] at entered
        exact entered
    | _ =>
        rw [command] at same
        cases same
  · intro clientId requestId operation _ executes
    have wrote : writer owner log k = some (owner (clientId, requestId)) :=
      writer_eq_some.mpr ⟨⟨clientId, requestId, operation⟩, executes, rfl⟩
    rw [idle] at wrote
    cases wrote

omit decides in
/-- A write takes effect where its request is executed. -/
theorem storeStep_of_executes (executes : Executing log k request)
    (listed : D.ledger id = some request) :
    S.clients.history.storeStep id (imageOf (log.take k)).state =
      some (imageOf (log.take (k + 1))).state := by
  obtain ⟨invocation, invoked, write⟩ := known.invoked id request listed
  rw [executes.state, storeStep, invoked, Option.map_some, write]
  cases request.operation <;> rfl

/-- **An answered write has been executed** between its two frontiers. -/
theorem exists_executes_of_answered {invocation : Invocation} {completion : Completion}
    (invoked : S.clients.history.invocationsById.lookup id = some invocation)
    (answered : S.clients.history.completions.lookup id = some completion)
    (write : invocation.operation.isWrite) :
    ∃ k request, k < D.frontier completion.sequence ∧ Executing log k request ∧
      D.ledger id = some request := by
  obtain ⟨request, listed, seen⟩ :=
    (known.agrees log decides).written id invocation completion invoked answered write
  unfold imageOf at seen
  rw [List.map_take] at seen
  obtain ⟨k, earlier, executes⟩ := exists_executes seen
  exact ⟨k, request, earlier, executes, listed⟩

/-- **The slots explain the history.** -/
theorem explains_slots
    (stamped : ∀ id invocation completion key,
      S.clients.history.invocationsById.lookup id = some invocation →
      S.clients.history.completions.lookup id = some completion →
      invocation.operation = .get key →
      D.frontier invocation.sequence ≤ stamp id ∧ stamp id ≤ D.frontier completion.sequence ∧
        completion.result = (imageOf (log.take (stamp id))).state key) :
    (slots owner log K S.clients.history stamp).Explains S.clients.history.extendedObservation
      S.clients.history.storeStep D.frontier := by
  have wellFormed := known.wellFormed
  have agrees := known.agrees log decides
  have numbered : ∀ {id invocation}, S.clients.history.invocationsById.lookup id = some invocation →
      S.clients.history.extendedObservation.invoked id = invocation.sequence := by
    intro id invocation invoked
    dsimp only [extendedObservation, invokedAt]
    rw [invoked]
    rfl
  have timed : ∀ {id time}, time ∈ S.clients.history.extendedObservation.responded id →
      ∃ completion, S.clients.history.completions.lookup id = some completion ∧
        completion.sequence = time := fun answer => Option.map_eq_some_iff.mp answer
  have reads : ∀ {id}, id ∈ answeredReads S.clients.history → ∃ invocation completion key,
      S.clients.history.invocationsById.lookup id = some invocation ∧
      S.clients.history.completions.lookup id = some completion ∧
      invocation.operation = .get key := (mem_answeredReads wellFormed).mp
  refine
    { monotone := known.reaches.monotone
      writes := ?_
      idle := ?_
      once := ?_
      effective := ?_
      writtenAfter := ?_
      writtenBefore := ?_
      distinct := nodup_answeredReads wellFormed
      apart := ?_
      answered := ?_
      within := ?_
      sees := ?_
      readAfter := ?_
      readBefore := ?_
      inTurn := inTurn_answeredReads wellFormed
      complete := ?_ }
  · intro k id wrote
    obtain ⟨request, within, executes, listed⟩ := (slots_writer known decides).mp wrote
    exact ⟨within, storeStep_of_executes known executes listed⟩
  · intro k within idle
    refine state_of_idle known decides within ?_
    dsimp only [slots] at idle within
    rwa [if_pos within] at idle
  · intro j k id wrote wrote'
    obtain ⟨request, -, executes, listed⟩ := (slots_writer known decides).mp wrote
    obtain ⟨_, -, executes', listed'⟩ := (slots_writer known decides).mp wrote'
    obtain rfl := Option.some.inj (listed.symm.trans listed')
    exact executes.unique executes'
  · intro k id wrote
    obtain ⟨request, -, -, listed⟩ := (slots_writer known decides).mp wrote
    obtain ⟨invocation, invoked, write⟩ := known.invoked id request listed
    by_cases answered : id ∈ S.clients.history.completions
    · exact .inl (isSome_respondedAt.mpr answered)
    · refine .inr ⟨answered, invocation, invoked, ?_⟩
      rw [write]
      rfl
  · intro k id wrote
    obtain ⟨request, -, executes, listed⟩ := (slots_writer known decides).mp wrote
    obtain ⟨invocation, invoked, write⟩ := known.invoked id request listed
    obtain ⟨entry, found, command⟩ := executes.found
    rw [numbered invoked]
    by_contra early
    rw [← List.getElem?_take_of_lt (not_le.mp early)] at found
    exact agrees.appended id request invocation listed invoked entry (List.mem_of_getElem? found) _
      command
  · intro k id wrote time answer
    obtain ⟨request, -, executes, listed⟩ := (slots_writer known decides).mp wrote
    obtain ⟨invocation, invoked, write⟩ := known.invoked id request listed
    obtain ⟨completion, answered, rfl⟩ := timed answer
    obtain ⟨k', _, earlier, executes', listed'⟩ :=
      exists_executes_of_answered known decides invoked answered (by rw [write]; rfl)
    obtain rfl := Option.some.inj (listed.symm.trans listed')
    rwa [executes.unique executes']
  · intro k id wrote read
    obtain ⟨request, -, -, listed⟩ := (slots_writer known decides).mp wrote
    obtain ⟨invocation, invoked, write⟩ := known.invoked id request listed
    obtain ⟨_, _, key, invoked', -, get⟩ := reads read
    obtain rfl := Option.some.inj (invoked.symm.trans invoked')
    rw [write] at get
    cases get
  · intro id read
    obtain ⟨_, completion, _, -, answered, -⟩ := reads read
    exact isSome_respondedAt.mpr (AList.lookup_isSome.mp (Option.isSome_of_mem answered))
  · intro id read
    obtain ⟨invocation, completion, key, invoked, answered, get⟩ := reads read
    obtain ⟨-, before, -⟩ := stamped id invocation completion key invoked answered get
    exact before.trans (known.reaches.le _)
  · intro id read
    obtain ⟨invocation, completion, key, invoked, answered, get⟩ := reads read
    obtain ⟨-, -, result⟩ := stamped id invocation completion key invoked answered get
    dsimp only [slots]
    rw [storeStep, invoked, Option.map_some, get]
    dsimp only
    rw [answered, Option.any_some, if_pos (decide_eq_true result)]
  · intro id read
    obtain ⟨invocation, completion, key, invoked, answered, get⟩ := reads read
    obtain ⟨after, -⟩ := stamped id invocation completion key invoked answered get
    rwa [numbered invoked]
  · intro id read time answer
    obtain ⟨invocation, completion, key, invoked, answered, get⟩ := reads read
    obtain ⟨-, before, -⟩ := stamped id invocation completion key invoked answered get
    obtain ⟨completion', answered', rfl⟩ := timed answer
    obtain rfl := Option.some.inj (answered.symm.trans answered')
    exact before
  · intro id answer
    obtain ⟨completion, answered⟩ := Option.isSome_iff_exists.mp
      (AList.lookup_isSome.mpr (isSome_respondedAt.mp answer))
    obtain ⟨invocation, invoked, -⟩ := wellFormed.answers id completion answered
    cases operation : invocation.operation with
    | get key =>
        exact .inl ((mem_answeredReads wellFormed).mpr
          ⟨invocation, completion, key, invoked, answered, operation⟩)
    | write change =>
        obtain ⟨k, request, earlier, executes, listed⟩ :=
          exists_executes_of_answered known decides invoked answered (by rw [operation]; rfl)
        refine .inr ⟨k, (slots_writer known decides).mpr ⟨request, ?_, executes, listed⟩⟩
        exact earlier.trans_le (known.reaches.le _)

omit decides in
/-- **A service with a chronicle is linearizable.** -/
theorem Chronicled.linearizes : ∃ order, S.clients.history.LinearizesGlobally order := by
  obtain ⟨log, decides⟩ := known.audited.archived.logs.exists_decides
  have agrees := known.agrees log decides
  have stamps : ∀ id, ∃ k, ∀ invocation completion key,
      S.clients.history.invocationsById.lookup id = some invocation →
      S.clients.history.completions.lookup id = some completion →
      invocation.operation = .get key →
      D.frontier invocation.sequence ≤ k ∧ k ≤ D.frontier completion.sequence ∧
        completion.result = (imageOf (log.take k)).state key := by
    intro id
    by_cases read : id ∈ answeredReads S.clients.history
    · obtain ⟨invocation, completion, key, invoked, answered, get⟩ :=
        (mem_answeredReads known.wellFormed).mp read
      obtain ⟨k, saw⟩ := agrees.read id invocation completion key invoked answered get
      refine ⟨k, fun invocation' completion' key' invoked' answered' get' => ?_⟩
      obtain rfl := Option.some.inj (invoked.symm.trans invoked')
      obtain rfl := Option.some.inj (answered.symm.trans answered')
      obtain rfl := HistoryOperation.get.inj (get.symm.trans get')
      exact saw
    · refine ⟨0, fun invocation completion key invoked answered get => absurd ?_ read⟩
      exact (mem_answeredReads known.wellFormed).mpr
        ⟨invocation, completion, key, invoked, answered, get⟩
  choose stamp stamped using stamps
  exact ⟨_, (explains_slots known decides stamped).linearizes⟩

end Explains

/-- **The leader service is linearizable.** In every run of a cluster of fixed membership, in
which clients write and read through the service or on their own with linearizable reads,
while the driver crashes nodes, loses messages, elects leaders and makes snapshots as it
likes, the history of the clients has one global order over one key/value map: with every
answered operation, with some of the unanswered writes, and in time. Each request identity
belongs to one operation. -/
theorem service_linearizable [LinearOrder ν] {C : Config ν} (fixed : C.kind = .fixed)
    (owner : String × ℕ → String) (calls : List (ServiceCall ν))
    (fair : EveryStep (serviceStep C) (ServiceCall.Fair C owner) calls ⟨C.fresh, {}⟩) :
    ∃ order, (runService C calls).clients.history.LinearizesGlobally order := by
  obtain ⟨A, D, K, known⟩ := exists_chronicled fixed fair
  exact known.linearizes

/-- A leader crashes before a write that it has appended is replicated. The client tries it
again with the next leader and reads. -/
def failover : List (ServiceCall ℕ) :=
  [.cluster (.startElection 0), .cluster (.deliver ⟨0, 0⟩), .cluster (.deliver ⟨2, 0⟩),
    .write 0 1 "a" "alice" 1 (.put "key" "value") 1 fun _ => [[]],
    .cluster (.crash 0), .cluster (.startElection 1), .cluster (.deliver ⟨6, 0⟩),
    .cluster (.deliver ⟨7, 0⟩),
    .retryWrite 1 2 "a" 1 fun peer => if peer = 2 then [[⟨9, 0⟩, ⟨10, 0⟩]] else [[]],
    .linearizableRead 1 2 "b" "bob" "key" 1 (fun _ => [])
      fun peer => if peer = 2 then [[⟨12, 0⟩, ⟨13, 0⟩]] else [[]]]

/-- The read sees the write, and the history is linearizable. -/
theorem failover_linearizes :
    (runService threeNodes failover).clients.history.completions.lookup "b" =
        some ⟨"b", some "value", 3⟩ ∧
      ∃ order, (runService threeNodes failover).clients.history.LinearizesGlobally order :=
  ⟨by decide +kernel, service_linearizable rfl (fun _ => "a") failover
    ⟨⟨trivial, trivial, trivial⟩, ⟨trivial, trivial, trivial⟩, ⟨trivial, trivial, trivial⟩, rfl,
      ⟨trivial, trivial, trivial⟩, ⟨trivial, trivial, trivial⟩, ⟨trivial, trivial, trivial⟩,
      ⟨trivial, trivial, trivial⟩, trivial, trivial, trivial⟩⟩

end Distlab.Service
