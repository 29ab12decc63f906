import Distlab.Service.ServiceLinearizability

/-!
# Overtaken writes

The KV store drops a request whose id is below one that the client has used before, and the
client waits for its request to be applied. So a pending write can be completed with a node
that has applied the index of a committed entry of its request, unless the node had applied
a later request of the client by then. Once a node has applied a later request without it
the write is lost: no node applies it in any later state, and it stays pending whatever the
client and the driver do.
-/

set_option autoImplicit false

namespace Distlab.Service

open Foundations Raft LeaderLogs Deduplication Clients OperationHistory

variable {ν : Type} [LinearOrder ν] {C : Config ν} {owner : String × ℕ → String}
  {S S' : LeaderKVService ν} {A A' : Logs ν} {D : Chronicle} {K : ℕ} {n : ν} {id : String}
  {request : ClientRequest}

/-- A node has applied a later request of the client and not this one. -/
structure Overtaken (s : Cluster ν) (n : ν) (request : ClientRequest) : Prop where
  later : ∃ requestId operation, request.requestId < requestId ∧
    (s.kv n).requests.lookup (request.clientId, requestId) = some operation
  missing : (s.kv n).requests.lookup (request.clientId, request.requestId) = none

/-- The request is not executed at any index of the committed log. -/
def Passed (C : Config ν) (A : Logs ν) (request : ClientRequest) : Prop :=
  ∀ log, Decides C A log → (imageOf log).seen request.clientId request.requestId = none

/-- What the committed log has passed stays so as it grows. -/
theorem Passed.extend (passed : Passed C A request) (grows : A.Extends A')
    (sound : A.Sound (rules C)) : Passed C A' request :=
  fun log decides => passed log (decides.earlier grows sound)

namespace Chronicled

variable (known : Chronicled C owner S A D K)
include known

/-- **The committed log passes an overtaken request.** -/
theorem passed (member : n ∈ C.nodeIds) (overtaken : Overtaken S.cluster n request) :
    Passed C A request := by
  intro log decides
  obtain ⟨requestId, operation, overtook, applied⟩ := overtaken.later
  rw [known.requests_eq decides member] at applied
  have missing := overtaken.missing
  rw [known.requests_eq decides member] at missing
  cases seen : (imageOf log).seen request.clientId request.requestId with
  | none => rfl
  | some change =>
      have found := seen_of_overtaken ((List.take_prefix _ log).map _) overtook applied seen
      exact absurd (found.symm.trans missing) (Option.some_ne_none change)

/-- No node has applied a request that the committed log passes. -/
theorem unapplied (passed : Passed C A request) (member : n ∈ C.nodeIds) :
    (S.cluster.kv n).requests.lookup (request.clientId, request.requestId) = none := by
  obtain ⟨log, decides⟩ := known.audited.archived.logs.exists_decides
  rw [known.requests_eq decides member]
  cases seen : (imageOf (log.take (S.cluster.applier.lastApplied n))).seen request.clientId
      request.requestId with
  | none => rfl
  | some change =>
      have found := seen_of_prefix ((List.take_prefix _ log).map _) seen
      exact absurd (found.symm.trans (passed log decides)) (Option.some_ne_none change)

/-- The requests of one identity that nodes have applied are one request. -/
theorem operation_eq {log : List (LogEntry (Command ν))} (decides : Decides C A log)
    {first second : LogEntry (Command ν)} {clientId : String} {requestId : ℕ}
    {operation operation' : KVOperation} (listed : first ∈ log.take K)
    (listed' : second ∈ log.take K)
    (command : first.command = .clientRequest clientId requestId operation)
    (command' : second.command = .clientRequest clientId requestId operation') :
    operation = operation' := by
  have covers := known.front.covers log decides
  have entered := covers.allowed first listed
  have entered' := covers.allowed second listed'
  rw [command] at entered
  rw [command'] at entered'
  obtain ⟨id, found⟩ := entered
  obtain ⟨id', found'⟩ := entered'
  have owns := known.owned id _ found
  have owns' := known.owned id' _ found'
  dsimp only at owns owns'
  obtain rfl := owns.symm.trans owns'
  exact (ClientRequest.mk.inj (Option.some.inj (found.symm.trans found'))).2.2

/-- **A node has the request of an entry that it has applied**, or it was overtaken. -/
theorem applied_or_overtaken (member : n ∈ C.nodeIds) {log : List (LogEntry (Command ν))}
    (decides : Decides C A log) {index : ℕ} {entry : LogEntry (Command ν)}
    (positive : 0 < index) (found : log[index - 1]? = some entry)
    (reached : index ≤ S.cluster.applier.lastApplied n)
    (command : entry.command =
      .clientRequest request.clientId request.requestId request.operation) :
    (S.cluster.kv n).requests.lookup (request.clientId, request.requestId) =
        some request.operation ∨ Overtaken S.cluster n request := by
  have listed : entry ∈ log.take (S.cluster.applier.lastApplied n) := by
    refine List.mem_of_getElem? (i := index - 1) ?_
    rw [List.getElem?_take_of_lt (by omega)]
    exact found
  have within : log.take (S.cluster.applier.lastApplied n) ⊆ log.take K :=
    List.take_subset_take_left log (known.front.within.applied n)
  have asked : (request.clientId, request.requestId) ∈
      requested ((log.take (S.cluster.applier.lastApplied n)).map (·.command.request)) := by
    refine mem_requested.mpr ⟨request.operation, List.mem_map.mpr ⟨entry, listed, ?_⟩⟩
    rw [command]
    rfl
  have seen := known.requests_eq decides member request.clientId
  cases applied : (S.cluster.kv n).requests.lookup (request.clientId, request.requestId) with
  | none =>
      have missing := (seen _).symm.trans applied
      obtain ⟨higher, change, above, later⟩ := exists_later_seen asked missing
      exact .inr ⟨⟨higher, change, above, (seen higher).trans later⟩, applied⟩
  | some operation =>
      refine .inl (congrArg some ?_)
      have executed := (seen _).symm.trans applied
      unfold imageOf at executed
      rw [List.map_take] at executed
      obtain ⟨k, below, executes⟩ := exists_executes executed
      have executing : Executing log k ⟨request.clientId, request.requestId, operation⟩ := executes
      obtain ⟨other, found', command'⟩ := executing.found
      rw [← List.getElem?_take_of_lt below] at found'
      exact known.operation_eq decides (within (List.mem_of_getElem? found')) (within listed)
        command' command

/-- **A write that no node has applied stays pending.** -/
theorem pending_of_move (pending : S.clients.pendingWrites.lookup id = some request)
    (unapplied : ∀ n ∈ C.nodeIds,
      (S.cluster.kv n).requests.lookup (request.clientId, request.requestId) = none)
    (move : ServiceMove C owner S S') :
    S'.clients.pendingWrites.lookup id = some request := by
  cases move with
  | stages stages => exact pending
  | @invokeWrite other clientId requestId operation _ c' _ returned =>
      obtain ⟨-, inserted, h, invoked, -⟩ := Outcome.holds_of_returns
        (known.exact.invokeWrite other clientId requestId operation) returned
      obtain ⟨-, -, unknown, -⟩ := invoke_eq_ok.mp invoked
      have different : id ≠ other := by
        rintro rfl
        obtain ⟨invocation, present, -⟩ := known.invoked id request (known.pending id _ pending)
        exact unknown (AList.lookup_isSome.mp (Option.isSome_of_mem present))
      rw [inserted, Dict.lookup_insert, if_neg different]
      exact pending
  | @completeWrite other m c' member returned =>
      obtain ⟨done, -, waiting, applied, erased, -⟩ :=
        completes_of_completeWrite known.exact returned
      have different : id ≠ other := by
        rintro rfl
        obtain rfl := Option.some.inj (waiting.symm.trans pending)
        exact Option.some_ne_none _ (applied.symm.trans (unapplied m member))
      rw [erased, Dict.lookup_erase, if_neg different]
      exact pending
  | invokeRead returned =>
      obtain ⟨-, same, -⟩ :=
        Outcome.holds_of_returns (known.exact.invokeRead _ _ _) returned
      exact same ▸ pending
  | answerRead asks _ _ returned =>
      obtain ⟨-, same, -⟩ :=
        Outcome.holds_of_returns (known.exact.respondRead _ _ asks.openWrite) returned
      exact same ▸ pending
  | abandonRead returned =>
      obtain ⟨-, same, -⟩ :=
        Outcome.holds_of_returns (known.exact.abandonLinearizableRead _ _ _) returned
      exact same ▸ pending

end Chronicled

/-- **A write completes where its entry is applied, or it was overtaken there.** In every run
of a cluster of fixed membership, once some node has committed an entry of the request of a
pending write, the client can complete the write with each node that has applied up to the
entry's index, from entries or from a snapshot, unless the node had applied a later request of
the client by then. -/
theorem applied_write_completes_or_overtaken (fixed : C.kind = .fixed)
    (owner : String × ℕ → String) (calls later : List (ServiceCall ν))
    (fair : EveryStep (serviceStep C) (ServiceCall.Fair C owner) (calls ++ later) ⟨C.fresh, {}⟩)
    {m : ν} {index : ℕ} {entry : LogEntry (Command ν)}
    (stored : ((runService C calls).cluster.logView m).entryAt index = some entry)
    (committed : index ≤ (runService C calls).cluster.commitIndex m)
    (command : entry.command =
      .clientRequest request.clientId request.requestId request.operation)
    (pending : (runService C (calls ++ later)).clients.pendingWrites.lookup id = some request)
    (member : n ∈ C.nodeIds)
    (reached : index ≤ (runService C (calls ++ later)).cluster.applier.lastApplied n) :
    (∃ c', (runService C (calls ++ later)).clients.completeWrite id
        ((runService C (calls ++ later)).cluster.kv n).requests = .returns () c') ∨
      Overtaken (runService C (calls ++ later)).cluster n request := by
  obtain ⟨A, D, K, known⟩ := exists_chronicled fixed fair.append_left
  obtain ⟨A', D', K', grows, known'⟩ := known.run fixed fair.append_right
  obtain ⟨log, decides⟩ := known'.audited.archived.logs.exists_decides
  -- The entry is final where it was committed, so the log of the later state has it.
  have archived := known.audited.archived
  have final := archived.final_of_committed committed stored
  have found := (decides.earlier grows archived.logs.sound).getElem? final
  have positive := Nat.zero_lt_of_lt (RaftLogView.lt_of_entryAt stored)
  rw [runService, runEvents_append] at pending reached ⊢
  obtain applied | overtaken :=
    known'.applied_or_overtaken member decides positive found reached command
  · exact .inl (known'.exact.completeWrite_returns pending applied)
  · exact .inr overtaken

/-- A client appends its request on its own, and the leader commits and applies it. -/
def alone : List (ServiceCall ℕ) :=
  [.cluster (.startElection 0), .cluster (.deliver ⟨0, 0⟩), .cluster (.deliver ⟨2, 0⟩),
    .invokeWrite "solo" "erin" 1 (.put "clock" "noon"), .appendRequest 0 "solo",
    .cluster (.newReplicator 0 false false),
    .cluster (.replicate 0 1 none [[⟨3, 0⟩, ⟨4, 0⟩], [⟨5, 0⟩, ⟨6, 0⟩]]),
    .cluster (.advanceCommitIndex 0), .cluster (.kvApplyCommitted 0)]

/-- The leader compacts its log. -/
def compacts : ServiceCall ℕ := .cluster (.compactSnapshot 0)

/-- The write can be completed with the leader, whose log has the entry no longer. -/
theorem alone_completes :
    ((runService threeNodes (alone ++ [compacts])).cluster.logView 0).entryAt 1 = none ∧
      ∃ c', (runService threeNodes (alone ++ [compacts])).clients.completeWrite "solo"
        ((runService threeNodes (alone ++ [compacts])).cluster.kv 0).requests =
          .returns () c' := by
  have stored : ((runService threeNodes alone).cluster.logView 0).entryAt 1 =
      some ⟨1, .clientRequest "erin" 1 (.put "clock" "noon")⟩ := by decide +kernel
  have pending : (runService threeNodes (alone ++ [compacts])).clients.pendingWrites.lookup
      "solo" = some ⟨"erin", 1, .put "clock" "noon"⟩ := by decide +kernel
  refine ⟨by decide +kernel, ?_⟩
  obtain completes | overtaken :=
    applied_write_completes_or_overtaken (n := 0) rfl (fun _ => "solo")
    alone [compacts]
    ⟨⟨trivial, trivial, trivial⟩, ⟨trivial, trivial, trivial⟩, ⟨trivial, trivial, trivial⟩, rfl,
      trivial, ⟨trivial, trivial, trivial⟩, ⟨trivial, trivial, trivial⟩,
      ⟨trivial, trivial, trivial⟩, ⟨trivial, trivial, trivial⟩, ⟨trivial, trivial, trivial⟩,
      trivial⟩
    stored (by decide +kernel) rfl pending (by decide) (by decide +kernel)
  · exact completes
  · refine absurd overtaken.missing ?_
    decide +kernel

/-- A pending write whose request the committed log has passed. -/
def Lost (C : Config ν) (owner : String × ℕ → String) (id : String) (request : ClientRequest)
    (S : LeaderKVService ν) : Prop :=
  ∃ A D K, Chronicled C owner S A D K ∧ Passed C A request ∧
    S.clients.pendingWrites.lookup id = some request

namespace Lost

theorem ready (lost : Lost C owner id request S) : Ready C S := by
  obtain ⟨A, D, K, known, -⟩ := lost
  exact known.ready

/-- **A lost write stays lost.** -/
theorem move (fixed : C.kind = .fixed) (lost : Lost C owner id request S)
    (move : ServiceMove C owner S S') : Lost C owner id request S' := by
  obtain ⟨A, D, K, known, passed, pending⟩ := lost
  obtain ⟨A', D', K', grows, later⟩ := known.move fixed move
  refine ⟨A', D', K', later, passed.extend grows known.audited.archived.logs.sound, ?_⟩
  exact known.pending_of_move pending (fun n member => known.unapplied passed member) move

/-- A run of calls from a state in which the write is lost. -/
theorem run (fixed : C.kind = .fixed) (lost : Lost C owner id request S)
    {calls : List (ServiceCall ν)}
    (fair : EveryStep (serviceStep C) (ServiceCall.Fair C owner) calls S) :
    Lost C owner id request (runEvents (serviceStep C) calls S) :=
  serviceRun_invariant fixed (fun _ lost => lost.ready) (fun _ _ lost move => lost.move fixed move)
    lost fair

end Lost

/-- **An overtaken write is lost.** In every run of a cluster of fixed membership, a pending
write whose request is missing on a node that has applied a later request of its client is
pending for good: whatever the clients and the driver do afterwards, retries included, no
node ever applies the request, and the write is neither answered nor dropped. -/
theorem overtaken_write_lost (fixed : C.kind = .fixed) (owner : String × ℕ → String)
    (calls later : List (ServiceCall ν))
    (fair : EveryStep (serviceStep C) (ServiceCall.Fair C owner) (calls ++ later) ⟨C.fresh, {}⟩)
    (pending : (runService C calls).clients.pendingWrites.lookup id = some request)
    (member : n ∈ C.nodeIds) (overtaken : Overtaken (runService C calls).cluster n request) :
    (runService C (calls ++ later)).clients.pendingWrites.lookup id = some request ∧
      (runService C (calls ++ later)).clients.history.completions.lookup id = none ∧
      ∀ m ∈ C.nodeIds, ((runService C (calls ++ later)).cluster.kv m).requests.lookup
        (request.clientId, request.requestId) = none := by
  obtain ⟨A, D, K, known⟩ := exists_chronicled fixed fair.append_left
  have lost : Lost C owner id request (runService C calls) :=
    ⟨A, D, K, known, known.passed member overtaken, pending⟩
  obtain ⟨A', D', K', known', passed, pending'⟩ := lost.run fixed fair.append_right
  rw [runService, runEvents_append]
  refine ⟨pending', ?_, fun m member => known'.unapplied passed member⟩
  obtain ⟨unanswered, -⟩ := openWrite_eq_some.mp ((known'.exact.open_eq id).symm.trans pending')
  exact AList.lookup_eq_none.mpr unanswered

/-- A client has two writes open. The later one is committed first. -/
def outpaced : List (ServiceCall ℕ) :=
  [.cluster (.startElection 0), .cluster (.deliver ⟨0, 0⟩), .cluster (.deliver ⟨2, 0⟩),
    .invokeWrite "slow" "carol" 1 (.put "lamp" "on"),
    .write 0 1 "quick" "carol" 2 (.put "lamp" "off") 1
      fun peer => if peer = 1 then [[⟨3, 0⟩, ⟨4, 0⟩]] else [[]]]

/-- The service tries the earlier one again, and its entry is committed. -/
def secondTry : ServiceCall ℕ :=
  .retryWrite 0 1 "slow" 1 fun peer => if peer = 1 then [[⟨5, 0⟩, ⟨6, 0⟩]] else [[]]

/-- The entry is applied without an effect, and the write stays open. -/
theorem outpaced_write_stays_open :
    (runService threeNodes (outpaced ++ [secondTry])).cluster.applier.lastApplied 0 = 2 ∧
      (runService threeNodes (outpaced ++ [secondTry])).clients.history.completions.lookup
        "slow" = none := by
  have pending : (runService threeNodes outpaced).clients.pendingWrites.lookup "slow" =
      some ⟨"carol", 1, .put "lamp" "on"⟩ := by decide +kernel
  have overtaken : Overtaken (runService threeNodes outpaced).cluster 0
      ⟨"carol", 1, .put "lamp" "on"⟩ :=
    ⟨⟨2, .put "lamp" "off", by decide, by decide +kernel⟩, by decide +kernel⟩
  refine ⟨by decide +kernel, ?_⟩
  exact (overtaken_write_lost rfl (fun key => if key.2 = 1 then "slow" else "quick") outpaced
    [secondTry] ⟨⟨trivial, trivial, trivial⟩, ⟨trivial, trivial, trivial⟩,
      ⟨trivial, trivial, trivial⟩, rfl, rfl, trivial, trivial⟩ pending (by decide) overtaken).2.1

end Distlab.Service
