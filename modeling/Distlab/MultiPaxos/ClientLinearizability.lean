import Distlab.Clients.MultiKeyLocality
import Distlab.MultiPaxos.ClientChronicle
import Distlab.MultiPaxos.Oracle

/-!
# The clients of Multi-Paxos are linearizable

The agreed values have a slot each. An operation stands where its request is executed, a read
only if it was answered. The chronicle of the run says that this order is one in time, so it
explains the history of the clients.
-/

set_option autoImplicit false

namespace Distlab.MultiPaxos

open Foundations Foundations.Linearizability Deduplication Paxos Clients OperationHistory

variable {ν : Type}

/-- What an executed request does to the state. -/
theorem Executing.state {values : List Value} {k : ℕ} {request : MultiPaxosRequest}
    (executes : Executing values k request) :
    (imageAfter (values.take (k + 1))).state =
      request.operation.execute (imageAfter (values.take k)).state := by
  unfold imageAfter asks
  rw [List.map_take, List.map_take]
  exact Executes.state executes

namespace Application

/-! ## The slots of the agreed values -/

/-- The operation was answered, or it is a write that may have taken effect. -/
def Effective (h : OperationHistory) (id : String) : Prop :=
  (h.extendedObservation.responded id).isSome ∨ h.extendedObservation.optional id

open Classical in
/-- The operation whose request is executed at a position. -/
noncomputable def performer (a : Application ν) (k : ℕ) : Option String :=
  if performs : ∃ r ∈ a.journal.registered, Executing a.agreed k r ∧
      Effective a.journal.history r.operationId then
    some performs.choose.operationId
  else none

/-- The slots of the agreed values. Reads are agreed too. -/
noncomputable def slots (a : Application ν) : Slots String (String → HistoryResult) where
  length := a.agreed.length
  states k := (imageAfter (a.agreed.take k)).state
  writer := a.performer
  reads := []
  stamp _ := 0

section Explains

variable [LinearOrder ν] {M : Membership ν} {a : Application ν} {frontier : ℕ → ℕ}
  {r : MultiPaxosRequest} {id : String} {k : ℕ} (known : Chronicled M a frontier)
include known

theorem performer_eq_some : a.performer k = some id ↔ ∃ r ∈ a.journal.registered,
    Executing a.agreed k r ∧ Effective a.journal.history id ∧ r.operationId = id := by
  unfold performer
  split
  · next performs =>
    obtain ⟨member, executes, effective⟩ := performs.choose_spec
    constructor
    · intro same
      obtain rfl := Option.some.inj same
      exact ⟨_, member, executes, effective, rfl⟩
    · rintro ⟨r, member', executes', -, rfl⟩
      have asked := Option.some.inj (executes.entry.symm.trans executes'.entry)
      obtain ⟨identity, -⟩ := Request.identified.inj asked
      rw [known.sound.distinct.identity _ member _ member' identity]
  · next none =>
    constructor
    · intro same
      cases same
    · rintro ⟨r, member, executes, effective, rfl⟩
      exact absurd ⟨r, member, executes, effective⟩ none

/-- The value that executes a registered request carries it. -/
theorem value_of_executing (member : r ∈ a.journal.registered)
    (executes : Executing a.agreed k r) : a.agreed[k]? = some (.request r) := by
  have asked := executes.entry
  rw [asks, List.getElem?_map] at asked
  obtain ⟨value, found, same⟩ := Option.map_eq_some_iff.mp asked
  have carries := known.sound.carries_agreed (List.mem_of_getElem? found)
  cases value with
  | request r' =>
      obtain ⟨identity, -⟩ := Request.identified.inj same
      rwa [known.sound.distinct.identity r' carries r member identity] at found
  | command operation => cases carries
  | noop => cases same

/-- A write takes effect where its request is executed, and a read saw the state there. -/
theorem storeStep_of_executing (member : r ∈ a.journal.registered)
    (executes : Executing a.agreed k r) (effective : Effective a.journal.history r.operationId) :
    a.journal.history.storeStep r.operationId (imageAfter (a.agreed.take k)).state =
      some (imageAfter (a.agreed.take (k + 1))).state := by
  obtain ⟨invocation, invoked, recorded⟩ := known.invoked r member
  rw [executes.state, storeStep, invoked, Option.map_some]
  cases operation : r.operation with
  | put key value =>
      rw [operation] at recorded
      rw [← Option.some.inj recorded]
      rfl
  | delete key =>
      rw [operation] at recorded
      rw [← Option.some.inj recorded]
      rfl
  | append key suffix =>
      rw [operation] at recorded
      cases recorded
  | get key =>
      rw [operation] at recorded
      have get : invocation.operation = .get key := (Option.some.inj recorded).symm
      rw [get]
      obtain answer | ⟨-, invocation', invoked', write⟩ := effective
      · obtain ⟨time, answer⟩ := Option.isSome_iff_exists.mp answer
        obtain ⟨completion, found, -⟩ := Option.map_eq_some_iff.mp answer
        obtain ⟨r', member', named, k', -, answered⟩ := known.answered _ completion found
        obtain rfl := known.sound.distinct.operationId r' member' r member named
        obtain rfl := answered.executes.unique executes
        have result := answered.result
        rw [operation] at result
        dsimp only
        rw [found, Option.any_some]
        exact if_pos (decide_eq_true result)
      · obtain rfl := Option.some.inj (invoked.symm.trans invoked')
        rw [get] at write
        cases write

/-- Where nothing takes effect the state stays. -/
theorem state_of_idle (within : k < a.agreed.length) (idle : a.performer k = none) :
    (imageAfter (a.agreed.take (k + 1))).state = (imageAfter (a.agreed.take k)).state := by
  have found : a.agreed[k]? = some a.agreed[k] := List.getElem?_eq_getElem within
  have asked : (asks a.agreed)[k]? = some a.agreed[k].asked := by
    rw [asks, List.getElem?_map, found]
    rfl
  have carries := known.sound.carries_agreed (List.getElem_mem within)
  by_cases executes : ∃ r ∈ a.journal.registered, Executing a.agreed k r
  · -- A read that was not answered leaves the state alone.
    obtain ⟨r, member, executes⟩ := executes
    have silent : ¬ Effective a.journal.history r.operationId := by
      intro effective
      have performs := (performer_eq_some known).mpr ⟨r, member, executes, effective, rfl⟩
      rw [idle] at performs
      cases performs
    obtain ⟨invocation, invoked, recorded⟩ := known.invoked r member
    rw [executes.state]
    cases operation : r.operation with
    | get key => rfl
    | append key suffix =>
        rw [operation] at recorded
        cases recorded
    | put | delete =>
        refine absurd ?_ silent
        by_cases answered : r.operationId ∈ a.journal.history.completions
        · exact .inl (isSome_respondedAt.mpr answered)
        · refine .inr ⟨answered, invocation, invoked, ?_⟩
          rw [operation] at recorded
          rw [← Option.some.inj recorded]
          rfl
  · unfold imageAfter asks
    rw [List.map_take, List.map_take]
    refine Deduplication.state_of_idle asked ?_ ?_
    · intro operation same
      cases value : a.agreed[k] with
      | command change =>
          rw [value] at carries
          exact carries
      | request r =>
          rw [value] at same
          cases same
      | noop =>
          rw [value] at same
          cases same
    · intro identity _ operation same executes'
      cases value : a.agreed[k] with
      | request r =>
          rw [value] at carries same
          obtain ⟨rfl, -, rfl⟩ := Request.identified.inj same
          exact executes ⟨r, carries, executes'⟩
      | command change =>
          rw [value] at same
          cases same
      | noop =>
          rw [value] at same
          cases same

/-- **The slots explain the history.** -/
theorem explains_slots : a.slots.Explains a.journal.history.extendedObservation
    a.journal.history.storeStep frontier := by
  have performs : ∀ {k id}, a.slots.writer k = some id ↔ ∃ r ∈ a.journal.registered,
      Executing a.agreed k r ∧ Effective a.journal.history id ∧ r.operationId = id :=
    performer_eq_some known
  refine
    { monotone := known.reaches.monotone
      writes := ?_
      idle := fun k within idle => state_of_idle known within idle
      once := ?_
      effective := ?_
      writtenAfter := ?_
      writtenBefore := ?_
      distinct := .nil
      apart := fun _ _ _ => List.not_mem_nil
      answered := nofun
      within := nofun
      sees := nofun
      readAfter := nofun
      readBefore := nofun
      inTurn := .nil
      complete := ?_ }
  · intro k id wrote
    obtain ⟨r, member, executes, effective, rfl⟩ := performs.mp wrote
    have within : k < (asks a.agreed).length := executes.lt_length
    rw [asks, List.length_map] at within
    exact ⟨within, storeStep_of_executing known member executes effective⟩
  · intro j k id first second
    obtain ⟨r, member, executes, -, named⟩ := performs.mp first
    obtain ⟨r', member', executes', -, named'⟩ := performs.mp second
    obtain rfl := known.sound.distinct.operationId r member r' member' (named.trans named'.symm)
    exact executes.unique executes'
  · intro k id wrote
    obtain ⟨-, -, -, effective, -⟩ := performs.mp wrote
    exact effective
  · intro k id wrote
    obtain ⟨r, member, executes, -, rfl⟩ := performs.mp wrote
    obtain ⟨invocation, invoked, -⟩ := known.invoked r member
    have numbered : a.journal.history.extendedObservation.invoked r.operationId =
        invocation.sequence := by
      dsimp only [extendedObservation, invokedAt]
      rw [invoked]
      rfl
    rw [numbered]
    by_contra early
    have found := value_of_executing known member executes
    rw [← List.getElem?_take_of_lt (not_le.mp early)] at found
    exact known.later r member invocation invoked (List.mem_of_getElem? found)
  · intro k id wrote time answer
    obtain ⟨r, member, executes, -, rfl⟩ := performs.mp wrote
    obtain ⟨completion, found, rfl⟩ := Option.map_eq_some_iff.mp answer
    obtain ⟨r', member', named, k', earlier, answered⟩ := known.answered _ completion found
    obtain rfl := known.sound.distinct.operationId r' member' r member named
    rwa [← answered.executes.unique executes]
  · intro id answer
    obtain ⟨time, responded⟩ := Option.isSome_iff_exists.mp answer
    obtain ⟨completion, found, -⟩ := Option.map_eq_some_iff.mp responded
    obtain ⟨r, member, named, k, -, answered⟩ := known.answered _ completion found
    exact .inr ⟨k, performs.mpr ⟨r, member, answered.executes, .inl answer, named⟩⟩

end Explains

/-- **The clients of Multi-Paxos are linearizable.** After any calls, with any deliveries,
losses, crashes, leaders and reconstructions between them, the history of the clients has one
global order over one key/value map: with every answered operation, with some of the
unanswered writes, and in time. The requests are of the kinds that the history records. -/
theorem multipaxos_client_linearizable [LinearOrder ν] (M : Membership ν) (calls : List (Call ν))
    (recordable : ∀ call ∈ calls, call.Recordable) :
    ∃ order, (after M calls).journal.history.LinearizesGlobally order := by
  obtain ⟨frontier, known⟩ := exists_chronicled (M := M) recordable
  have start : (after M calls).slots.states 0 = fun _ => none := rfl
  have explains := (explains_slots known).linearizes
  rw [start] at explains
  exact ⟨_, explains⟩

/-- A leader crashes once another node has accepted a write. That node takes over and reads. -/
def readAfterCrash : List (Call ℕ) :=
  [.prepareLeadership 14 none, .deliver 0, .deliver 2,
    .submit 14 ⟨"ada", 1, "raise", .put "flag" "up", by decide, by decide, by decide⟩ none,
    .deliver 3, .crash 14, .prepareLeadership 15 none, .deliver 7, .deliver 8,
    .execute 15 ⟨"grace", 1, "look", .get "flag", by decide, by decide, by decide⟩
      [[10, 12, 15, 16]]]

/-- The read sees the write, which was not answered, and the history is linearizable. -/
theorem read_after_crash_linearizes :
    (after jury readAfterCrash).journal.history.completions.lookup "look" =
        some ⟨"look", some "up", 2⟩ ∧
      ∃ order, (after jury readAfterCrash).journal.history.LinearizesGlobally order :=
  ⟨by decide +kernel, multipaxos_client_linearizable jury readAfterCrash
    (by simp [readAfterCrash, Call.Recordable, Recordable, ClientOperation.history?])⟩

end Application

end Distlab.MultiPaxos
