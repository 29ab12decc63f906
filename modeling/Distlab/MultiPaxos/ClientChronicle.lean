import Distlab.Clients.CheckerExactness
import Distlab.Foundations.ExecutedRequests
import Distlab.Foundations.SlottedOrders
import Distlab.MultiPaxos.ClientMoves
import Distlab.MultiPaxos.Exactness

/-!
# The chronicle of a Multi-Paxos client

The agreed values are those chosen from slot one on without a gap. They only grow, every node
has applied a part of them, and they carry registered requests. A run has a chronicle: how
many values were agreed when each event of the history was recorded. A request that was
registered since is not among them, and an answered request was executed among them, with
the answer of the history.
-/

set_option autoImplicit false

namespace Distlab.MultiPaxos

open Foundations Foundations.Linearizability Deduplication Paxos Clients OperationHistory

variable {ν : Type}

/-! ## Records -/

/-- What an operation answers in a state. -/
def ClientOperation.answer (operation : ClientOperation) (state : KVMap) : Option String :=
  match operation with
  | .get key => state key
  | _ => none

/-- What values ask for, in order. -/
def asks (values : List Value) : List (Request RequestIdentity Unit ClientOperation) :=
  values.map Value.asked

/-- The image after values. -/
noncomputable def imageAfter (values : List Value) :
    Image RequestIdentity Unit ClientOperation KVMap :=
  Deduplication.replay ClientOperation.execute (asks values) initialView

/-- The value at a position executes the request. -/
abbrev Executing (values : List Value) (k : ℕ) (request : MultiPaxosRequest) : Prop :=
  Executes (asks values) k request.identity () request.operation

/-- The request was executed at the position and answered so. -/
structure AnsweredAt (values : List Value) (k : ℕ) (request : MultiPaxosRequest)
    (result : Option String) : Prop where
  value : values[k]? = some (.request request)
  executes : Executing values k request
  result : result = request.operation.answer (imageAfter (values.take k)).state

theorem AnsweredAt.of_prefix {values longer : List Value} {k : ℕ} {request : MultiPaxosRequest}
    {result : Option String} (part : values <+: longer)
    (answered : AnsweredAt values k request result) : AnsweredAt longer k request result := by
  have executes : Executing longer k request := Executes.of_prefix (part.map _) answered.executes
  obtain ⟨rest, rfl⟩ := part
  have within := (List.getElem?_eq_some_iff.mp answered.value).1
  refine ⟨?_, executes, ?_⟩
  · rw [List.getElem?_append_left within]
    exact answered.value
  · rw [List.take_append_of_le_length within.le]
    exact answered.result

/-- **The table has what was executed**, with its answer. -/
theorem answeredAt_of_replay {applied : List (SlotLearnedDecision ν Value)} {image : KVImage}
    {identity : RequestIdentity} {record : AppliedRequest} (replayed : replay applied = .ok image)
    (found : image.requests.lookup identity = some record) :
    ∃ k, AnsweredAt (applied.map (·.value)) k record.request record.result := by
  induction applied using List.reverseRecOn generalizing image with
  | nil =>
      cases replayed
      rw [AList.lookup_empty] at found
      cases found
  | append_singleton applied decision ih =>
      rw [replay_append_singleton] at replayed
      cases before : replay applied with
      | error conflict =>
          rw [before] at replayed
          cases replayed
      | ok previous =>
          rw [before] at replayed
          have applies : applyDecision previous decision = .ok image := replayed
          have part : applied.map (·.value) <+: (applied ++ [decision]).map (·.value) :=
            (List.prefix_append ..).map _
          have old : previous.requests.lookup identity = some record →
              ∃ k, AnsweredAt ((applied ++ [decision]).map (·.value)) k record.request
                record.result := by
            intro kept
            obtain ⟨k, answered⟩ := ih before kept
            exact ⟨k, answered.of_prefix part⟩
          unfold applyDecision at applies
          split at applies
          · cases applies
            exact old found
          · cases applies
            exact old found
          next r value =>
          split at applies
          · split at applies
            · cases applies
            · cases applies
              exact old found
          next fresh =>
          split at applies
          · cases applies
          cases applies
          dsimp only at found
          rcases Dict.of_lookup_insert found with ⟨-, rfl⟩ | ⟨-, kept⟩
          · -- The decision executes the request.
            have view := view_replay before
            have asked : asks (applied.map (·.value)) = askedBy applied := by
              rw [asks, askedBy, List.map_map]
              rfl
            have here : (applied ++ [decision]).map (·.value) =
                applied.map (·.value) ++ [.request r] := by
              rw [List.map_append, List.map_singleton, value]
            have length : (applied.map (·.value)).length = (asks (applied.map (·.value))).length :=
              (List.length_map _).symm
            rw [here]
            refine ⟨(applied.map (·.value)).length, List.getElem?_concat_length, ⟨?_, ?_⟩, ?_⟩
            · rw [asks, List.map_append, List.map_singleton, length]
              exact List.getElem?_concat_length
            · rw [asks, List.map_append, length, ← asks, List.take_left]
              have unseen : previous.view.Fresh r.identity () := fresh_view.mpr fresh
              rw [view, ← asked] at unseen
              exact fresh_replay_iff.mp unseen
            · rw [List.take_left, imageAfter, asked, ← view]
              cases r.operation <;> rfl
          · exact old kept

/-! ## The journal -/

namespace ClientJournal

variable {journal after : ClientJournal} {request : MultiPaxosRequest}

/-- A registration changes nothing, or it invokes a new operation. -/
theorem register_cases (kv : request.operation.history?.isSome)
    (registers : (journal.register request : Except (ApplicationError ν) ClientJournal) =
      .ok after) :
    after = journal ∨ (∀ r ∈ journal.registered, r.operationId ≠ request.operationId) ∧
      ∃ operation history, request.operation.history? = some operation ∧
        journal.history.invoke request.operationId request.clientId operation = .ok history ∧
        after = ⟨history, journal.requests.insert request.operationId request⟩ := by
  unfold register at registers
  split at registers
  · split at registers
    · cases registers
    · exact .inl (Except.ok.inj registers).symm
  next none =>
  refine .inr ⟨fun r member => ?_, ?_⟩
  · have listed : r ∈ journal.requests.values.reverse :=
      List.mem_reverse.mpr (Dict.mem_values.mpr ⟨_, member⟩)
    have differs := List.find?_eq_none.mp none r listed
    rw [decide_eq_true_eq, not_or] at differs
    exact differs.2
  · obtain ⟨operation, recorded⟩ := Option.isSome_iff_exists.mp kv
    rw [recorded] at registers
    dsimp only at registers
    cases invoked : journal.history.invoke request.operationId request.clientId operation with
    | error e =>
        rw [invoked] at registers
        cases registers
    | ok history =>
        rw [invoked] at registers
        exact ⟨operation, history, recorded, invoked, (Except.ok.inj registers).symm⟩

end ClientJournal

namespace Application

/-- A published response changes nothing, or it answers the operation. -/
theorem acknowledgeResponse_cases {journal after : ClientJournal} {request : MultiPaxosRequest}
    {result : Option String}
    (acknowledges : (acknowledgeResponse request result journal :
      Except (ApplicationError ν) ClientJournal) = .ok after) :
    after = journal ∨ ∃ history,
      journal.history.respond request.operationId result = .ok history ∧
        after = { journal with history := history } := by
  unfold acknowledgeResponse at acknowledges
  split at acknowledges
  · exact .inl (Except.ok.inj acknowledges).symm
  split at acknowledges
  · cases responded : journal.history.respond request.operationId result with
    | error e =>
        rw [responded] at acknowledges
        cases acknowledges
    | ok history =>
        rw [responded] at acknowledges
        exact .inr ⟨history, rfl, (Except.ok.inj acknowledges).symm⟩
  · split at acknowledges
    · cases acknowledges
    · exact .inl (Except.ok.inj acknowledges).symm

/-! ## Agreed values -/

/-- The values chosen from slot one on, up to the first slot without one. -/
noncomputable def agreed (a : Application ν) : List Value := (exists_sequence a).choose

theorem agreed_getElem? (a : Application ν) {i : ℕ} (below : i < a.agreed.length) :
    a.agreed[i]? = a.chosenValue (i + 1) := (exists_sequence a).choose_spec.1 i below

theorem agreed_stops (a : Application ν) : a.chosenValue (a.agreed.length + 1) = none :=
  (exists_sequence a).choose_spec.2

variable [LinearOrder ν] {M : Membership ν} {a b : Application ν}

/-- **The agreed values only grow.** -/
theorem Follows.agreed (follows : Follows M a b) : a.agreed <+: b.agreed := by
  have chosen : ∀ i, (below : i < a.agreed.length) → b.chosenValue (i + 1) = some a.agreed[i] := by
    intro i below
    refine follows.chosenValue_eq ?_
    rw [← agreed_getElem? a below, List.getElem?_eq_getElem below]
  have fits : a.agreed.length ≤ b.agreed.length := by
    by_contra longer
    have here := chosen b.agreed.length (not_le.mp longer)
    rw [agreed_stops] at here
    cases here
  refine List.prefix_iff_getElem?.mpr fun i below => ?_
  rw [agreed_getElem? b (below.trans_le fits)]
  exact chosen i below

/-- What is agreed carries registered requests. -/
theorem Sound.carries_agreed (sound : Sound M a) {value : Value} (member : value ∈ a.agreed) :
    value.Carries a.journal.registered := by
  obtain ⟨i, below, rfl⟩ := List.getElem_of_mem member
  have chosen := agreed_getElem? a below
  rw [List.getElem?_eq_getElem below] at chosen
  obtain ⟨d, recorded, same⟩ := Option.map_eq_some_iff.mp chosen.symm
  rw [← same]
  obtain ⟨-, evidence⟩ := sound.cluster.chosen (i + 1) d recorded
  exact (sound.cluster.safe_of_evidence evidence).proposed

/-- A node has applied a part of what is agreed. -/
theorem Sound.applied_agreed (sound : Sound M a) (n : ν) :
    (a.applied n).map (·.value) <+: a.agreed :=
  sound.values_prefix n (fun _ => agreed_getElem? a) (agreed_stops a)

/-! ## Chronicles -/

/-- The chronicle of an application: how many values were agreed when the event of a number
was recorded. -/
structure Chronicled (M : Membership ν) (a : Application ν) (frontier : ℕ → ℕ) : Prop where
  sound : Sound M a
  wellFormed : a.journal.history.WellFormed
  invoked : ∀ r ∈ a.journal.registered, ∃ invocation,
    a.journal.history.invocationsById.lookup r.operationId = some invocation ∧
      r.operation.history? = some invocation.operation
  reaches : Reaches frontier a.journal.history.sequence a.agreed.length
  /-- What is invoked was not agreed before. -/
  later : ∀ r ∈ a.journal.registered, ∀ invocation,
    a.journal.history.invocationsById.lookup r.operationId = some invocation →
    .request r ∉ a.agreed.take (frontier invocation.sequence)
  /-- What is answered has been executed, with this answer. -/
  answered : ∀ id completion, a.journal.history.completions.lookup id = some completion →
    ∃ r ∈ a.journal.registered, r.operationId = id ∧
      ∃ k < frontier completion.sequence, AnsweredAt a.agreed k r completion.result

namespace Chronicled

variable {frontier : ℕ → ℕ} (known : Chronicled M a frontier)
include known

/-- **The cluster moves on**, and with it what is agreed. -/
theorem quiet (follows : Follows M a b) (same : b.journal = a.journal) :
    Chronicled M b (advance frontier a.journal.history.sequence b.agreed.length) := by
  have part := follows.agreed
  constructor
  · exact follows.sound
  · rw [same]
    exact known.wellFormed
  · rw [same]
    exact known.invoked
  · rw [same]
    exact known.reaches.advance part.length_le
  · rw [same]
    intro r member invocation invoked
    have early : invocation.sequence < a.journal.history.sequence :=
      known.wellFormed.invocation_lt invoked
    have unchanged := List.prefix_iff_eq_take.mp part
    rw [advance_of_lt early]
    have absent := known.later r member invocation invoked
    rwa [unchanged, List.take_take, min_eq_left (known.reaches.le _)] at absent
  · rw [same]
    intro id completion found
    obtain ⟨r, member, named, k, earlier, answered⟩ := known.answered id completion found
    rw [advance_of_lt (known.wellFormed.completion_lt found)]
    exact ⟨r, member, named, k, earlier, answered.of_prefix part⟩

/-- **A request is registered.** Nothing agreed carries it. -/
theorem register {request : MultiPaxosRequest} {journal : ClientJournal}
    (kv : request.operation.history?.isSome)
    (registers : (a.journal.register request : Except (ApplicationError ν) ClientJournal) =
      .ok journal) : Chronicled M (a.setJournal journal) frontier := by
  have sound := (AppMove.register kv registers).follows known.sound |>.sound
  obtain rfl | ⟨unknown, operation, history, recorded, invoked, rfl⟩ :=
    ClientJournal.register_cases kv registers
  · exact known
  obtain ⟨-, -, -, same⟩ := invoke_eq_ok.mp invoked
  have old : ∀ r ∈ a.journal.registered,
      history.invocationsById.lookup r.operationId =
        a.journal.history.invocationsById.lookup r.operationId := by
    intro r member
    rw [same]
    exact AList.lookup_insert_ne (unknown r member)
  have here : history.invocationsById.lookup request.operationId =
      some ⟨request.operationId, request.clientId, operation, a.journal.history.sequence⟩ := by
    rw [same]
    exact AList.lookup_insert _
  constructor
  · exact sound
  · exact known.wellFormed.invoke invoked
  · intro r member
    obtain ⟨-, rfl⟩ | ⟨-, member⟩ := Dict.of_lookup_insert member
    · exact ⟨_, here, recorded⟩
    · obtain ⟨invocation, found, same⟩ := known.invoked r member
      exact ⟨invocation, (old r member).trans found, same⟩
  · refine known.reaches.wait ?_
    dsimp only [setJournal]
    rw [same]
    exact Nat.le_succ _
  · intro r member invocation found listed
    obtain ⟨-, rfl⟩ | ⟨-, member⟩ := Dict.of_lookup_insert member
    · exact unknown r (known.sound.carries_agreed (List.mem_of_mem_take listed)) rfl
    · exact known.later r member invocation ((old r member).symm.trans found) listed
  · intro id completion found
    dsimp only [setJournal] at found
    rw [same] at found
    obtain ⟨r, member, named, answered⟩ := known.answered id completion found
    refine ⟨r, ?_, named, answered⟩
    exact (AList.lookup_insert_ne (unknown r member)).trans member

/-- **A response is published** from what a node has applied. -/
theorem acknowledge {n : ν} {image : KVImage} {request : MultiPaxosRequest}
    {record : AppliedRequest} {journal : ClientJournal}
    (replayed : replay (a.applied n) = .ok image)
    (found : image.requests.lookup request.identity = some record)
    (same : record.request = request)
    (registered : a.journal.requests.lookup request.operationId = some request)
    (acknowledges : (acknowledgeResponse request record.result a.journal :
      Except (ApplicationError ν) ClientJournal) = .ok journal) :
    Chronicled M (a.setJournal journal) frontier := by
  have move : AppMove M a (a.setJournal journal) :=
    .acknowledge replayed found same registered acknowledges
  have sound := (move.follows known.sound).sound
  obtain rfl | ⟨history, responded, rfl⟩ := acknowledgeResponse_cases acknowledges
  · exact known
  obtain ⟨_, -, -, -, -, unchanged⟩ := respond_eq_ok.mp responded
  obtain ⟨k, answered⟩ := answeredAt_of_replay replayed found
  rw [same] at answered
  have answered := answered.of_prefix (known.sound.applied_agreed n)
  constructor
  · exact sound
  · exact known.wellFormed.respond responded
  · intro r member
    dsimp only [setJournal]
    rw [unchanged]
    exact known.invoked r member
  · refine known.reaches.wait ?_
    dsimp only [setJournal]
    rw [unchanged]
    exact Nat.le_succ _
  · intro r member invocation invoked
    dsimp only [setJournal] at invoked
    rw [unchanged] at invoked
    exact known.later r member invocation invoked
  · intro id completion answer
    dsimp only [setJournal] at answer
    rw [unchanged] at answer
    obtain ⟨rfl, rfl⟩ | ⟨-, old⟩ := Dict.of_lookup_insert answer
    · refine ⟨request, registered, rfl, k, ?_, answered⟩
      rw [known.reaches.here]
      exact (List.getElem?_eq_some_iff.mp answered.value).1
    · exact known.answered id completion old

/-- **Every move keeps a chronicle.** -/
theorem move (move : AppMove M a b) : ∃ frontier', Chronicled M b frontier' := by
  cases move with
  | quiet follows same => exact ⟨_, known.quiet follows same⟩
  | register kv registers => exact ⟨_, known.register kv registers⟩
  | acknowledge replayed found same registered acknowledges =>
      exact ⟨_, known.acknowledge replayed found same registered acknowledges⟩

omit known in
theorem moves (moves : AppMoves M a b) (known : ∃ frontier, Chronicled M a frontier) :
    ∃ frontier, Chronicled M b frontier := by
  induction moves with
  | refl => exact known
  | tail _ move ih =>
      obtain ⟨frontier, before⟩ := ih
      exact before.move move

end Chronicled

theorem chronicled_fresh : Chronicled M (fresh : Application ν) fun _ => 0 := by
  have nothing : (fresh : Application ν).agreed = [] := by
    have stops := agreed_stops (fresh : Application ν)
    refine List.eq_nil_iff_length_eq_zero.mpr ?_
    by_contra longer
    have chosen := agreed_getElem? (fresh : Application ν) (Nat.pos_of_ne_zero longer)
    rw [List.getElem?_eq_getElem (Nat.pos_of_ne_zero longer)] at chosen
    cases chosen
  refine ⟨fresh_sound M, wellFormed_empty, fun r member => ?_, ?_, fun r member => ?_, nofun⟩
  · exact absurd member (by simp [fresh, ClientJournal.registered])
  · rw [nothing]
    exact .start
  · exact absurd member (by simp [fresh, ClientJournal.registered])

/-- **Every run has a chronicle**, if its requests are of the history. -/
theorem exists_chronicled {calls : List (Call ν)} (recordable : ∀ call ∈ calls, call.Recordable) :
    ∃ frontier, Chronicled M (after M calls) frontier := by
  have run : ∀ a : Application ν, (∃ frontier, Chronicled M a frontier) →
      ∃ frontier, Chronicled M (runEvents (perform M) calls a) frontier := by
    induction calls with
    | nil => exact fun a known => known
    | cons call calls ih =>
        obtain ⟨here, rest⟩ := List.forall_mem_cons.mp recordable
        intro a known
        have sound : Sound M a := by
          obtain ⟨frontier, known⟩ := known
          exact known.sound
        have moves : AppMoves M a (perform M call a).state :=
          Outcome.Ensures.state (moving_perform sound here)
        exact ih rest _ (Chronicled.moves moves known)
  exact run fresh ⟨_, chronicled_fresh⟩

end Application

end Distlab.MultiPaxos
