import Distlab.Clients.OperationHistory
import Distlab.Foundations.Deduplication
import Distlab.Foundations.Outcome
import Distlab.Paxos.ProposalNumber

/-!
# The requests of clients and what applying them does

`_apply_decision` executes a request unless the table has its identity, and
keeps what a read returned. Over the image of a decision log stands the replay
of `Foundations.Deduplication`, at identities that are each executed at most
once.
-/

set_option autoImplicit false

namespace Distlab.MultiPaxos

open Foundations Paxos Clients

/-- `Put | Delete | Get | Append`. -/
inductive ClientOperation where
  | put (key value : String)
  | delete (key : String)
  | get (key : String)
  | append (key suffix : String)
  deriving DecidableEq

namespace ClientOperation

/-- The key of an operation. -/
def key : ClientOperation → String
  | .put key _ | .delete key | .get key | .append key _ => key

/-- The operation as the history has it; it has no `Append`. -/
def history? : ClientOperation → Option HistoryOperation
  | .put key value => some (.write (.put key value))
  | .delete key => some (.write (.delete key))
  | .get key => some (.get key)
  | .append _ _ => none

end ClientOperation

/-- `MultiPaxosRequest`, with the conditions of its `__post_init__`. -/
structure MultiPaxosRequest where
  clientId : String
  requestId : ℕ
  operationId : String
  operation : ClientOperation
  client : clientId ≠ ""
  named : operationId ≠ ""
  keyed : operation.key ≠ ""
  deriving DecidableEq

/-- The identity of a request: its client and its id. -/
abbrev RequestIdentity := String × ℕ

/-- `identity`. -/
def MultiPaxosRequest.identity (r : MultiPaxosRequest) : RequestIdentity :=
  (r.clientId, r.requestId)

/-- The values of slots. -/
inductive Value where
  | request (request : MultiPaxosRequest)
  /-- A bare operation. -/
  | command (operation : ClientOperation)
  /-- `None`, or any other payload. -/
  | noop
  deriving DecidableEq

/-- `AppliedRequest`. -/
structure AppliedRequest where
  request : MultiPaxosRequest
  slot : ℕ
  result : Option String
  deriving DecidableEq

/-- What a `ClientRequestConflict` reports. -/
inductive RequestConflict where
  /-- "conflicting Multi-Paxos request identity" -/
  | identity
  /-- "conflicting Multi-Paxos operation_id" -/
  | operationId
  /-- "request/history identity reused with different content" -/
  | reused
  /-- "conflicting locally known request identity" -/
  | locallyKnown
  deriving DecidableEq

/-- The key/value state and the request table that decisions lead to. -/
structure KVImage where
  kv : Dict String String := ∅
  requests : Dict RequestIdentity AppliedRequest := ∅

/-! ## Application -/

/-- `apply_multipaxos_command` on an operation. -/
def applyMultipaxosCommand (operation : ClientOperation) (kv : Dict String String) :
    Dict String String :=
  match operation with
  | .put key value => kv.insert key value
  | .delete key => kv.erase key
  | .get _ => kv
  | .append key suffix => kv.insert key ((kv.lookup key).getD "" ++ suffix)

/-- What the first application of an operation returns. -/
def resultOf (operation : ClientOperation) (kv : Dict String String) : Option String :=
  match operation with
  | .get key => kv.lookup key
  | _ => none

variable {ν : Type}

/-- `_apply_decision`. It raises before it writes anything. -/
def applyDecision (image : KVImage) (decision : SlotLearnedDecision ν Value) :
    Except RequestConflict KVImage :=
  match decision.value with
  | .noop => .ok image
  | .command operation => .ok { image with kv := applyMultipaxosCommand operation image.kv }
  | .request r =>
      match image.requests.lookup r.identity with
      | some previous => if previous.request ≠ r then .error .identity else .ok image
      | none =>
          if image.requests.values.any (·.request.operationId = r.operationId) then
            .error .operationId
          else
            .ok {
              kv := applyMultipaxosCommand r.operation image.kv
              requests := image.requests.insert r.identity
                ⟨r, decision.slot, resultOf r.operation image.kv⟩ }

/-- `_replay`. -/
def replay (applied : List (SlotLearnedDecision ν Value)) : Except RequestConflict KVImage :=
  applied.foldlM applyDecision {}

theorem replay_append_singleton (applied : List (SlotLearnedDecision ν Value))
    (decision : SlotLearnedDecision ν Value) :
    replay (applied ++ [decision]) =
      (replay applied).bind fun image => applyDecision image decision := by
  rw [replay, List.foldlM_append]
  simp only [List.foldlM_cons, List.foldlM_nil, bind_pure]
  rfl

/-! ## The requests of a journal -/

/-- The requests a value may carry. -/
def Value.Carries (registered : Set MultiPaxosRequest) : Value → Prop
  | .request r => r ∈ registered
  | .command _ => False
  | .noop => True

theorem Value.Carries.mono {registered more : Set MultiPaxosRequest} (subset : registered ⊆ more)
    {value : Value} (carries : value.Carries registered) : value.Carries more := by
  cases value with
  | request r => exact subset carries
  | command operation => exact carries
  | noop => trivial

/-- Distinct requests have distinct identities and distinct operation ids. -/
structure Distinct (registered : Set MultiPaxosRequest) : Prop where
  identity : ∀ r ∈ registered, ∀ r' ∈ registered, r.identity = r'.identity → r = r'
  operationId : ∀ r ∈ registered, ∀ r' ∈ registered, r.operationId = r'.operationId → r = r'

/-- The entries of the request table stand at their identities. -/
def KVImage.Holds (registered : Set MultiPaxosRequest) (image : KVImage) : Prop :=
  ∀ identity entry, image.requests.lookup identity = some entry →
    entry.request ∈ registered ∧ entry.request.identity = identity

section Registered

variable {registered : Set MultiPaxosRequest} (distinct : Distinct registered)

include distinct

/-- A registered request never conflicts with the table. -/
theorem applyDecision_ok {image : KVImage} (holds : image.Holds registered)
    {decision : SlotLearnedDecision ν Value} (carries : decision.value.Carries registered) :
    ∃ after, applyDecision image decision = .ok after ∧ after.Holds registered := by
  unfold applyDecision
  cases value : decision.value with
  | noop => exact ⟨image, rfl, holds⟩
  | command operation =>
      rw [value] at carries
      exact carries.elim
  | request r =>
      rw [value] at carries
      dsimp only
      cases found : image.requests.lookup r.identity with
      | some previous =>
          obtain ⟨member, same⟩ := holds _ previous found
          have equal : previous.request = r := distinct.identity _ member _ carries same
          exact ⟨image, if_neg (not_not.mpr equal), holds⟩
      | none =>
          have unused :
              image.requests.values.any (·.request.operationId = r.operationId) = false := by
            rw [List.any_eq_false]
            intro entry member clash
            obtain ⟨identity, entered⟩ := Dict.mem_values.mp member
            obtain ⟨known, same⟩ := holds identity entry entered
            have equal := distinct.operationId _ known _ carries (of_decide_eq_true clash)
            rw [← same, equal, found] at entered
            cases entered
          dsimp only
          rw [unused]
          refine ⟨_, rfl, fun identity entry entered => ?_⟩
          rcases Dict.of_lookup_insert entered with ⟨rfl, rfl⟩ | ⟨_, old⟩
          · exact ⟨carries, rfl⟩
          · exact holds identity entry old

/-- The replay of decisions that carry registered requests raises nothing. -/
theorem replay_ok {applied : List (SlotLearnedDecision ν Value)}
    (carries : ∀ d ∈ applied, d.value.Carries registered) :
    ∃ image, replay applied = .ok image ∧ image.Holds registered := by
  induction applied using List.reverseRecOn with
  | nil => exact ⟨{}, rfl, fun identity entry found => by simp at found⟩
  | append_singleton applied decision ih =>
      obtain ⟨image, replayed, holds⟩ :=
        ih fun d member => carries d (List.mem_append_left _ member)
      rw [replay_append_singleton, replayed]
      exact applyDecision_ok distinct holds
        (carries decision (List.mem_append_right _ List.mem_cons_self))

end Registered

/-! ## The image as a replay of requests with identities -/

/-- The key/value state as a map. -/
abbrev KVMap := String → Option String

/-- An operation on the map. -/
def ClientOperation.execute (operation : ClientOperation) (state : KVMap) : KVMap :=
  match operation with
  | .put key value => Function.update state key (some value)
  | .delete key => Function.update state key none
  | .get _ => state
  | .append key suffix => Function.update state key (some ((state key).getD "" ++ suffix))

/-- What a value asks for. Each identity has one request. -/
def Value.asked : Value → Deduplication.Request RequestIdentity Unit ClientOperation
  | .request r => .identified r.identity () r.operation
  | .command operation => .plain operation
  | .noop => .nothing

/-- The map and the executed requests of an image. -/
def KVImage.view (image : KVImage) :
    Deduplication.Image RequestIdentity Unit ClientOperation KVMap where
  state key := image.kv.lookup key
  seen identity _ := (image.requests.lookup identity).map (·.request.operation)

/-- What decisions ask for, in their order. -/
def askedBy (applied : List (SlotLearnedDecision ν Value)) :
    List (Deduplication.Request RequestIdentity Unit ClientOperation) :=
  applied.map (·.value.asked)

theorem askedBy_append (first second : List (SlotLearnedDecision ν Value)) :
    askedBy (first ++ second) = askedBy first ++ askedBy second := List.map_append

/-- The empty map with no request seen. -/
def initialView : Deduplication.Image RequestIdentity Unit ClientOperation KVMap :=
  .initial fun _ => none

/-- What applying decisions executes, in order, with the identities. -/
noncomputable def executedBy (applied : List (SlotLearnedDecision ν Value)) :
    List (Deduplication.Execution RequestIdentity Unit ClientOperation) :=
  Deduplication.executions ClientOperation.execute (askedBy applied) initialView

theorem lookup_applyMultipaxosCommand (operation : ClientOperation) (kv : Dict String String) :
    (fun key => (applyMultipaxosCommand operation kv).lookup key) =
      operation.execute fun key => kv.lookup key := by
  funext key
  cases operation with
  | put key' value =>
      simp only [applyMultipaxosCommand, ClientOperation.execute, Dict.lookup_insert,
        Function.update_apply]
  | delete key' =>
      simp only [applyMultipaxosCommand, ClientOperation.execute, Dict.lookup_erase,
        Function.update_apply]
  | get key' => rfl
  | append key' suffix =>
      simp only [applyMultipaxosCommand, ClientOperation.execute, Dict.lookup_insert,
        Function.update_apply]

theorem fresh_view {image : KVImage} {identity : RequestIdentity} :
    image.view.Fresh identity () ↔ image.requests.lookup identity = none := by
  simp only [Deduplication.Image.Fresh, KVImage.view, Option.map_eq_none_iff, le_refl,
    forall_const]

/-- `_apply_decision` refines the application of the library. -/
theorem view_applyDecision {image after : KVImage} {decision : SlotLearnedDecision ν Value}
    (applies : applyDecision image decision = .ok after) :
    after.view = Deduplication.apply ClientOperation.execute decision.value.asked image.view := by
  unfold applyDecision at applies
  cases value : decision.value with
  | noop =>
      rw [value] at applies
      cases applies
      rfl
  | command operation =>
      rw [value] at applies
      cases applies
      simp only [KVImage.view, lookup_applyMultipaxosCommand]
      rfl
  | request r =>
      rw [value] at applies
      dsimp only at applies
      cases found : image.requests.lookup r.identity with
      | some previous =>
          have known : ¬ image.view.Fresh r.identity () := by
            rw [fresh_view, found]
            simp
          rw [found] at applies
          dsimp only at applies
          split at applies
          next => cases applies
          next =>
            cases applies
            exact (Deduplication.apply_of_not_fresh _ known).symm
      | none =>
          rw [found] at applies
          dsimp only at applies
          split at applies
          next => cases applies
          next =>
            cases applies
            refine Eq.trans ?_
              (Deduplication.apply_of_fresh r.operation (fresh_view.mpr found)).symm
            simp only [KVImage.view, lookup_applyMultipaxosCommand]
            congr 1
            funext identity here
            rw [Dict.lookup_insert]
            by_cases same : identity = r.identity
            · subst same
              simp
            · simp [same]

/-- **Refinement.** `_replay` computes the replay of what the decisions ask for. -/
theorem view_replay {applied : List (SlotLearnedDecision ν Value)} {image : KVImage}
    (replayed : replay applied = .ok image) :
    image.view = Deduplication.replay ClientOperation.execute (askedBy applied) initialView := by
  induction applied using List.reverseRecOn generalizing image with
  | nil =>
      cases replayed
      rfl
  | append_singleton applied decision ih =>
      rw [replay_append_singleton] at replayed
      cases before : replay applied with
      | error conflict =>
          rw [before] at replayed
          cases replayed
      | ok previous =>
          rw [before] at replayed
          rw [view_applyDecision replayed, ih before, askedBy_append, Deduplication.replay_append]
          rfl

/-- The map is what the executed requests make of the empty one. -/
theorem kv_replay {applied : List (SlotLearnedDecision ν Value)} {image : KVImage}
    (replayed : replay applied = .ok image) :
    (fun key => image.kv.lookup key) =
      (executedBy applied).foldl (fun state done => done.2.execute state) fun _ => none := by
  have view := congrArg (·.state) (view_replay replayed)
  exact view.trans (Deduplication.state_replay _ _)

/-- **At most once.** No identity is executed twice. -/
theorem nodup_executedBy (applied : List (SlotLearnedDecision ν Value)) :
    (Deduplication.identities (executedBy applied)).Nodup :=
  (Deduplication.increasing_identities _ _).nodup

end Distlab.MultiPaxos
