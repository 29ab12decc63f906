import Distlab.MultiPaxos.ClientLinearizability

/-!
# Answers of Multi-Paxos are durable

An answer is published from what a node has applied, which is a part of the agreed values.
These only grow, and a state machine is the replay of what its node has applied. So the
request of an answered operation keeps its slot, and every state machine that reaches the
slot, whichever crashes and reconstructions are before it, has the same answer.
-/

set_option autoImplicit false

namespace Distlab.MultiPaxos

open Foundations Deduplication Paxos Clients

variable {ν : Type} {values longer : List Value} {j k : ℕ} {request other : MultiPaxosRequest}
  {result result' : Option String}

namespace AnsweredAt

/-- What is answered within a part of the values is answered by this part. -/
theorem restrict (part : values <+: longer) (below : k < values.length)
    (answered : AnsweredAt longer k request result) : AnsweredAt values k request result := by
  have within : k < (asks values).length := by rwa [asks, List.length_map]
  have executes : Executing values k request :=
    Executes.restrict (part.map _) within answered.executes
  obtain ⟨rest, rfl⟩ := part
  refine ⟨?_, executes, ?_⟩
  · rw [← List.getElem?_append_left below]
    exact answered.value
  · rw [← List.take_append_of_le_length below.le]
    exact answered.result

/-- **A request is answered once.** -/
theorem unique (identity : other.identity = request.identity)
    (first : AnsweredAt values j other result') (second : AnsweredAt values k request result) :
    other = request ∧ result' = result := by
  have executes := first.executes
  unfold Executing at executes
  rw [identity] at executes
  obtain rfl := executes.unique second.executes
  have same := Option.some.inj (first.value.symm.trans second.value)
  obtain rfl := Value.request.inj same
  exact ⟨rfl, first.result.trans second.result.symm⟩

end AnsweredAt

namespace Application

variable [LinearOrder ν] {M : Membership ν} {a : Application ν}

/-- The request is chosen for the slot, and every state machine that has applied the slot
has the answer. -/
structure Settled (a : Application ν) (slot : ℕ) (request : MultiPaxosRequest)
    (result : Option String) : Prop where
  chosen : a.chosenValue slot = some (.request request)
  applied : ∀ n machine, a.machine n = some machine → slot ≤ machine.appliedThrough →
    ∃ record, machine.image.requests.lookup request.identity = some record ∧
      record.request = request ∧ record.result = result

/-- **What is answered among the agreed values is settled.** -/
theorem Sound.settled (sound : Sound M a) (answered : AnsweredAt a.agreed k request result) :
    Settled a (k + 1) request result := by
  refine ⟨?_, fun n machine runs reached => ?_⟩
  · rw [← agreed_getElem? a (List.getElem?_eq_some_iff.mp answered.value).1]
    exact answered.value
  obtain ⟨through, replayed⟩ := sound.machine n machine runs
  have below : k < ((a.applied n).map (·.value)).length := by
    rw [List.length_map, ← through]
    exact reached
  have here := answered.restrict (sound.applied_agreed n) below
  -- The machine has seen the request, so its table has a record.
  have seen : machine.image.view.seen request.identity () = some request.operation := by
    have asked : asks ((a.applied n).map (·.value)) = askedBy (a.applied n) := by
      rw [asks, askedBy, List.map_map]
      rfl
    have found : (Deduplication.replay ClientOperation.execute
        ((asks ((a.applied n).map (·.value))).take (asks ((a.applied n).map (·.value))).length)
        initialView).seen request.identity () = some request.operation :=
      here.executes.seen here.executes.lt_length
    rw [List.take_length, asked] at found
    rw [view_replay replayed]
    exact found
  obtain ⟨record, found, -⟩ := Option.map_eq_some_iff.mp seen
  obtain ⟨j, recorded⟩ := answeredAt_of_replay replayed found
  obtain ⟨image, replayed', holds⟩ := sound.replay_ok n
  obtain rfl := Except.ok.inj (replayed.symm.trans replayed')
  exact ⟨record, found, recorded.unique (holds _ _ found).2 here⟩

/-- **An answered operation of Multi-Paxos is durable.** After any calls, the request of an
operation that was answered is chosen for a slot. It stays so after any further calls, with
any losses, crashes, leaders and reconstructions, and every state machine that has applied
the slot by then gives the client the same answer. -/
theorem answered_operation_durable (M : Membership ν) (calls : List (Call ν))
    (recordable : ∀ call ∈ calls, call.Recordable) {id : String} {completion : Completion}
    (answered : (after M calls).journal.history.completions.lookup id = some completion) :
    ∃ slot, ∃ request ∈ (after M calls).journal.registered, request.operationId = id ∧
      ∀ more, Settled (after M (calls ++ more)) slot request completion.result := by
  obtain ⟨frontier, known⟩ := exists_chronicled (M := M) recordable
  obtain ⟨request, registered, named, k, -, here⟩ := known.answered id completion answered
  refine ⟨k + 1, request, registered, named, fun more => ?_⟩
  have later := after_follows M calls more
  exact later.sound.settled (here.of_prefix later.agreed)

/-- A client writes with a leader, which learns with one of the other nodes. -/
def writeOnce : List (Call ℕ) :=
  [.prepareLeadership 14 none, .deliver 0, .deliver 2,
    .execute 14 ⟨"edsger", 1, "latch", .put "gate" "shut", by decide, by decide, by decide⟩
      [[3, 5, 7]]]

/-- The write keeps its slot. -/
theorem write_once_settled : ∃ slot request, request.operationId = "latch" ∧
    ∀ more, Settled (after jury (writeOnce ++ more)) slot request none := by
  have answered : (after jury writeOnce).journal.history.completions.lookup "latch" =
      some ⟨"latch", none, 1⟩ := by decide +kernel
  obtain ⟨slot, request, -, named, settled⟩ := answered_operation_durable jury writeOnce
    (by simp [writeOnce, Call.Recordable, Recordable, ClientOperation.history?]) answered
  exact ⟨slot, request, named, settled⟩

end Application

end Distlab.MultiPaxos
