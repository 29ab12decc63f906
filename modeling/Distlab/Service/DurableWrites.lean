import Distlab.Service.ServiceLinearizability

/-!
# Durable writes

A client is answered once its request is executed within the frontier of the committed log.
What lies there was chosen by a majority, and it stays chosen. So the entry of an answered
write is stored by a majority in every later state, and every node that applies its index,
from entries or from a snapshot, has applied the request.
-/

set_option autoImplicit false

namespace Distlab.Service

open Foundations Raft LeaderLogs Deduplication Clients OperationHistory

variable {ν : Type} [LinearOrder ν] {C : Config ν} {owner : String × ℕ → String}
  {S : LeaderKVService ν} {A : Logs ν} {D : Chronicle} {K k T : ℕ} {id : String}
  {part : List (LogEntry (Command ν))} {entry : LogEntry (Command ν)} {request : ClientRequest}

/-- The request is safe at the index, where it has the entry. -/
structure Durable (C : Config ν) (s : Cluster ν) (index : ℕ) (entry : LogEntry (Command ν))
    (request : ClientRequest) : Prop where
  stored : ∃ nodes, Majority C nodes ∧ ∀ v ∈ nodes, (s.logView v).Covers index entry
  applied : ∀ n ∈ C.nodeIds, index ≤ s.applier.lastApplied n →
    (s.kv n).requests.lookup (request.clientId, request.requestId) = some request.operation

namespace Chronicled

variable (known : Chronicled C owner S A D K)
include known

/-- The committed log is chosen up to the frontier. -/
theorem exists_safe : ∃ T part, A.Safe (rules C) T part ∧ part.length = K := by
  obtain rfl | ⟨T, -, reach, within, chosen⟩ := known.front.backed
  · exact ⟨0, [], .inl rfl, rfl⟩
  · refine ⟨T, (A.leaderLog T).take K,
      .inr ⟨T, le_rfl, reach, chosen, List.take_prefix_take_left within⟩, ?_⟩
    obtain ⟨-, -, nodes, decides, matched⟩ := chosen
    obtain ⟨v, member, -⟩ := (rules C).common decides decides
    have sound := known.audited.archived.logs.sound
    exact List.length_take_of_le (within.trans ((matched v member).trans (sound.within v T)))

/-- **What is chosen and executed is durable.** -/
theorem durable (safe : A.Safe (rules C) T part) (found : part[k]? = some entry)
    (executes : Executing part k request) : Durable C S.cluster (k + 1) entry request := by
  have archived := known.audited.archived
  refine ⟨?_, fun n member reached => ?_⟩
  · obtain none | ⟨nodes, majority, stored⟩ := archived.logs.sound.exists_quorum_of_safe safe
    · rw [none] at found
      cases found
    · exact ⟨nodes, majority, fun v voter =>
        archived.covers_of_part ((List.take_prefix _ part).trans (stored v voter)) k.succ_pos found⟩
  · obtain ⟨log, decides⟩ := archived.logs.exists_decides
    rw [known.requests_eq decides member]
    unfold imageOf
    rw [List.map_take]
    exact (executes.of_prefix ((decides T part safe).map _)).seen reached

/-- An answered write is executed in what is chosen. -/
theorem exists_executes_of_safe (safe : A.Safe (rules C) T part) (reaches : part.length = K)
    {invocation : Invocation} {completion : Completion}
    (invoked : S.clients.history.invocationsById.lookup id = some invocation)
    (answered : S.clients.history.completions.lookup id = some completion)
    (write : invocation.operation.isWrite) :
    ∃ k request, Executing part k request ∧ D.ledger id = some request := by
  obtain ⟨log, decides⟩ := known.audited.archived.logs.exists_decides
  obtain ⟨k, request, earlier, executes, listed⟩ :=
    exists_executes_of_answered known decides invoked answered write
  refine ⟨k, request, executes.restrict ((decides T part safe).map _) ?_, listed⟩
  rw [List.length_map, reaches]
  exact earlier.trans_le (known.reaches.le _)

end Chronicled

/-- **An answered write is durable.** In every run of a cluster of fixed membership, the
request of a write that the client has been answered has an index and an entry for good.
Whatever happens afterwards, crashes and lost messages included, the logs of a majority of
the nodes have the entry there or are compacted up to it, and a node that has applied the
index, after a restart or from a snapshot, has applied the request. -/
theorem answered_write_durable (fixed : C.kind = .fixed) (owner : String × ℕ → String)
    (calls : List (ServiceCall ν))
    (fair : EveryStep (serviceStep C) (ServiceCall.Fair C owner) calls ⟨C.fresh, {}⟩)
    {change : KVOperation} {invocation : Invocation} {completion : Completion}
    (invoked : (runService C calls).clients.history.invocationsById.lookup id = some invocation)
    (answered : (runService C calls).clients.history.completions.lookup id = some completion)
    (write : invocation.operation = .write change) :
    ∃ index entry request, request.operation = change ∧
      owner (request.clientId, request.requestId) = id ∧
      entry.command = .clientRequest request.clientId request.requestId request.operation ∧
      ∀ later, EveryStep (serviceStep C) (ServiceCall.Fair C owner) later (runService C calls) →
        Durable C (runEvents (serviceStep C) later (runService C calls)).cluster index entry
          request := by
  obtain ⟨A, D, K, known⟩ := exists_chronicled fixed fair
  obtain ⟨T, part, safe, reaches⟩ := known.exists_safe
  obtain ⟨k, request, executes, listed⟩ :=
    known.exists_executes_of_safe safe reaches invoked answered (by rw [write]; rfl)
  obtain ⟨entry, found, command⟩ := executes.found
  refine ⟨k + 1, entry, request, ?_, known.owned id request listed, command, fun later fair => ?_⟩
  · obtain ⟨invocation', invoked', write'⟩ := known.invoked id request listed
    obtain rfl := Option.some.inj (invoked.symm.trans invoked')
    exact HistoryOperation.write.inj (write'.symm.trans write)
  · obtain ⟨A', D', K', grows, known'⟩ := known.run fixed fair
    exact known'.durable (grows.safe known.audited.archived.logs.sound le_rfl safe) found executes

/-- A client writes through the leader, which commits with one of the other nodes. -/
def acknowledged : List (ServiceCall ℕ) :=
  [.cluster (.startElection 0), .cluster (.deliver ⟨0, 0⟩), .cluster (.deliver ⟨2, 0⟩),
    .write 0 1 "unlock" "dave" 1 (.put "door" "open") 1
      fun peer => if peer = 1 then [[⟨3, 0⟩, ⟨4, 0⟩]] else [[]]]

/-- The leader crashes, and the write is still there. -/
theorem acknowledged_write_survives : ∃ index entry request,
    request.operation = .put "door" "open" ∧
      Durable threeNodes (runService threeNodes (acknowledged ++ [.cluster (.crash 0)])).cluster
        index entry request := by
  have invoked : (runService threeNodes acknowledged).clients.history.invocationsById.lookup
      "unlock" = some ⟨"unlock", "dave", .write (.put "door" "open"), 0⟩ := by decide +kernel
  have answered : (runService threeNodes acknowledged).clients.history.completions.lookup
      "unlock" = some ⟨"unlock", none, 1⟩ := by decide +kernel
  obtain ⟨index, entry, request, change, -, -, durable⟩ :=
    answered_write_durable rfl (fun _ => "unlock") acknowledged
      ⟨⟨trivial, trivial, trivial⟩, ⟨trivial, trivial, trivial⟩, ⟨trivial, trivial, trivial⟩, rfl,
        trivial⟩ invoked answered rfl
  refine ⟨index, entry, request, change, ?_⟩
  exact durable [.cluster (.crash 0)] ⟨⟨trivial, trivial, trivial⟩, trivial⟩

end Distlab.Service
