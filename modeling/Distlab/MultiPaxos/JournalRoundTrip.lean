import Distlab.MultiPaxos.JournalFields

/-!
# Checkpoints round trip

A valid journal is written, and what is written is read as the journal again: the same
requests in the same order, and a history with the same contents. The events are
replayed one after another; after some of them the history consists of these events,
numbered as they were, with the request ids that are attached to what they invoke.
-/

set_option autoImplicit false

namespace Distlab.MultiPaxos

open Foundations Clients

/-! ## The replay of the events -/

/-- A history after the replay of some events. -/
structure ReplayedEvents (attachments : Dict String ℕ) (p : OperationHistory)
    (done : List HistoryEvent) : Prop where
  wellFormed : p.WellFormed
  sequence : p.sequence = done.length
  has : ∀ event, p.Has event ↔ event ∈ done
  attached : ∀ id requestId, p.clientRequestIds.lookup id = some requestId ↔
    attachments.lookup id = some requestId ∧ id ∈ p.invocationsById
  abandoned : p.abandonedIds = ∅

theorem replayedEvents_empty (attachments : Dict String ℕ) : ReplayedEvents attachments {} [] where
  wellFormed := OperationHistory.wellFormed_empty
  sequence := rfl
  has := by
    intro event
    cases event <;> simp [OperationHistory.Has]
  attached := by
    intro id requestId
    simp
  abandoned := rfl

section Replay

variable {journal : ClientJournal} (valid : journal.Valid) {attachments : Dict String ℕ}
  (attached : ∀ id, attachments.lookup id = journal.history.clientRequestIds.lookup id)
  {p : OperationHistory} {done : List HistoryEvent} (replayed : ReplayedEvents attachments p done)
  (known : ∀ event ∈ done, journal.history.Has event)

include valid replayed known

/-- What the replay has invoked, the history has. -/
theorem ReplayedEvents.lookup {id : String} {invocation : Invocation}
    (found : p.invocationsById.lookup id = some invocation) :
    journal.history.invocationsById.lookup id = some invocation := by
  rw [OperationHistory.lookup_invocationsById replayed.wellFormed] at found
  exact (OperationHistory.lookup_invocationsById valid.wellFormed).mpr
    ⟨found.1, known _ ((replayed.has _).mp found.2)⟩

include attached

omit attached in
/-- An invocation comes next, before its request id is attached. -/
theorem ReplayedEvents.invoke {invocation : Invocation}
    (has : journal.history.Has (.invoked invocation)) (number : invocation.sequence = done.length)
    (new : HistoryEvent.invoked invocation ∉ done) :
    ∃ q, p.invoke invocation.operationId invocation.clientId invocation.operation = .ok q ∧
      ReplayedEvents (attachments.erase invocation.operationId) q
        (done ++ [.invoked invocation]) ∧ invocation.operationId ∉ q.completions := by
  obtain ⟨nonempty, client⟩ := valid.wellFormed.named _ invocation has
  have fresh : invocation.operationId ∉ p.invocationsById := by
    intro present
    obtain ⟨other, there⟩ := Option.isSome_iff_exists.mp (AList.lookup_isSome.mpr present)
    have same := replayed.lookup valid known there
    rw [show journal.history.invocationsById.lookup invocation.operationId = some invocation from
      has] at same
    cases same
    exact new ((replayed.has _).mp there)
  have unanswered : invocation.operationId ∉ p.completions := by
    intro present
    obtain ⟨completion, there⟩ := Option.isSome_iff_exists.mp (AList.lookup_isSome.mpr present)
    obtain ⟨_, there', _⟩ := replayed.wellFormed.answers _ completion there
    exact fresh (AList.lookup_isSome.mp (Option.isSome_of_mem there'))
  obtain ⟨q, invoked⟩ : ∃ q, p.invoke invocation.operationId invocation.clientId
      invocation.operation = .ok q :=
    ⟨_, OperationHistory.invoke_eq_ok.mpr ⟨nonempty, client, fresh, rfl⟩⟩
  have wellFormed := replayed.wellFormed.invoke invoked
  have hasQ : ∀ event, q.Has event ↔ event ∈ done ++ [.invoked invocation] := by
    intro event
    rw [OperationHistory.has_invoke invoked, replayed.has, replayed.sequence, ← number,
      List.mem_append, List.mem_singleton, or_comm]
  obtain ⟨_, _, _, rfl⟩ := OperationHistory.invoke_eq_ok.mp invoked
  refine ⟨_, invoked, ⟨wellFormed, ?_, hasQ, fun id requestId => ?_, replayed.abandoned⟩,
    unanswered⟩
  · dsimp only
    rw [replayed.sequence, List.length_append, List.length_singleton]
  · rw [replayed.attached, AList.mem_insert _, Dict.lookup_erase]
    by_cases same : id = invocation.operationId
    · rw [same]
      simp [fresh]
    · simp [same]

omit replayed in
/-- The request id of an invocation is attached. -/
theorem ReplayedEvents.attach {id : String} {invocation : Invocation} {requestId : ℕ}
    (replayed : ReplayedEvents (attachments.erase id) p done)
    (invoked : p.invocationsById.lookup id = some invocation) (unanswered : id ∉ p.completions)
    (own : attachments.lookup id = some requestId) :
    ∃ q, p.attachClientRequestId id requestId = .ok q ∧ ReplayedEvents attachments q done := by
  rw [attached] at own
  obtain ⟨_, found, write, _⟩ := valid.wellFormed.attached id requestId own
  obtain ⟨r, listed, client, _⟩ := valid.invoked id _ found
  rw [replayed.lookup valid known invoked] at found
  cases found
  obtain ⟨r', listed', requestId'⟩ := valid.attached id requestId own
  rw [listed] at listed'
  cases listed'
  have unattached : id ∉ p.clientRequestIds := by
    intro present
    obtain ⟨_, there⟩ := Option.isSome_iff_exists.mp (AList.lookup_isSome.mpr present)
    rw [replayed.attached, Dict.lookup_erase, if_pos rfl] at there
    cases there.1
  have inactive : p.activeClientRequests.lookup (invocation.clientId, requestId) = none := by
    by_contra taken
    obtain ⟨other, owner⟩ := Option.ne_none_iff_exists'.mp taken
    obtain ⟨there, invocation', invoked', client'⟩ := replayed.wellFormed.active _ _ other owner
    rw [replayed.attached] at there
    obtain ⟨differs, there⟩ := Dict.of_lookup_erase there.1
    rw [attached] at there
    -- the owner's request has the same identity
    obtain ⟨s, listed', requestId''⟩ := valid.attached other requestId there
    obtain ⟨s', listed'', client'', _⟩ :=
      valid.invoked other invocation' (replayed.lookup valid known invoked')
    rw [listed'] at listed''
    cases listed''
    have same : r = s := by
      refine valid.distinct.identity r (valid.mem_registered listed) s
        (valid.mem_registered listed') ?_
      rw [MultiPaxosRequest.identity, MultiPaxosRequest.identity, client, client'', client',
        requestId', requestId'']
    rw [← valid.keyed other s listed', ← same, valid.keyed id r listed] at differs
    exact differs rfl
  obtain ⟨q, attaches⟩ : ∃ q, p.attachClientRequestId id requestId = .ok q :=
    ⟨_, OperationHistory.attachClientRequestId_eq_ok.mpr
      ⟨invocation, invoked, write, unanswered, unattached, inactive, rfl⟩⟩
  have wellFormed := replayed.wellFormed.attachClientRequestId attaches
  obtain ⟨_, _, _, _, _, _, rfl⟩ := OperationHistory.attachClientRequestId_eq_ok.mp attaches
  refine ⟨_, attaches, ⟨wellFormed, replayed.sequence, fun event => ?_, fun other n => ?_,
    replayed.abandoned⟩⟩
  · rw [← replayed.has]
    cases event <;> exact Iff.rfl
  · rw [Dict.lookup_insert]
    split
    next equal =>
      rw [equal, attached, own]
      simp [AList.lookup_isSome.mp (Option.isSome_of_mem invoked)]
    next differs => rw [replayed.attached, Dict.lookup_erase, if_neg differs]

/-- An invocation comes next, with the request id that is attached to it. -/
theorem ReplayedEvents.invokeAttached {invocation : Invocation}
    (has : journal.history.Has (.invoked invocation)) (number : invocation.sequence = done.length)
    (new : HistoryEvent.invoked invocation ∉ done) :
    ∃ p', MultiPaxos.invokeAttached attachments invocation.operationId invocation.clientId
        invocation.operation p = .ok p' ∧
      ReplayedEvents attachments p' (done ++ [.invoked invocation]) := by
  obtain ⟨q, invoked, next, unanswered⟩ := replayed.invoke valid known has number new
  have more : ∀ event ∈ done ++ [.invoked invocation], journal.history.Has event := by
    intro event member
    rcases List.mem_append.mp member with old | last
    · exact known event old
    · obtain rfl := List.mem_singleton.mp last
      exact has
  have here : q.invocationsById.lookup invocation.operationId = some invocation :=
    (next.has (.invoked invocation)).mpr (by simp)
  rw [MultiPaxos.invokeAttached, invoked]
  cases own : attachments.lookup invocation.operationId with
  | none =>
      refine ⟨q, rfl, { next with attached := fun id requestId => ?_ }⟩
      rw [next.attached, Dict.lookup_erase]
      split
      next equal => rw [equal, own]
      next => exact Iff.rfl
  | some requestId =>
      obtain ⟨q', attaches, done'⟩ := next.attach valid attached more here unanswered own
      exact ⟨q', called_eq_ok.mpr attaches, done'⟩

omit attached in
/-- An answer comes next. -/
theorem ReplayedEvents.respond {completion : Completion}
    (has : journal.history.Has (.completed completion))
    (number : completion.sequence = done.length) (new : HistoryEvent.completed completion ∉ done)
    (earlier : ∀ event, journal.history.Has event → event.sequence < completion.sequence →
      event ∈ done) :
    ∃ p', p.respond completion.operationId completion.result = .ok p' ∧
      ReplayedEvents attachments p' (done ++ [.completed completion]) := by
  obtain ⟨invocation, found, before, write⟩ := valid.wellFormed.answers _ completion has
  have invoked : p.invocationsById.lookup completion.operationId = some invocation := by
    rw [OperationHistory.lookup_invocationsById valid.wellFormed] at found
    rw [OperationHistory.lookup_invocationsById replayed.wellFormed, replayed.has]
    exact ⟨found.1, earlier _ found.2 before⟩
  have unanswered : completion.operationId ∉ p.completions := by
    intro present
    obtain ⟨other, there⟩ := Option.isSome_iff_exists.mp (AList.lookup_isSome.mpr present)
    rw [OperationHistory.lookup_completions replayed.wellFormed, replayed.has] at there
    have equal := (OperationHistory.lookup_completions valid.wellFormed).mpr
      ⟨there.1, known _ there.2⟩
    rw [show journal.history.completions.lookup completion.operationId = some completion from has]
      at equal
    cases equal
    exact new there.2
  obtain ⟨q, responded⟩ : ∃ q, p.respond completion.operationId completion.result = .ok q := by
    refine ⟨_, OperationHistory.respond_eq_ok.mpr ⟨invocation, invoked, unanswered, ?_, write, rfl⟩⟩
    rw [replayed.abandoned]
    exact Finset.notMem_empty _
  have wellFormed := replayed.wellFormed.respond responded
  have hasQ : ∀ event, q.Has event ↔ event ∈ done ++ [.completed completion] := by
    intro event
    rw [OperationHistory.has_respond responded, replayed.has, replayed.sequence, ← number,
      List.mem_append, List.mem_singleton, or_comm]
  obtain ⟨_, _, _, _, _, rfl⟩ := OperationHistory.respond_eq_ok.mp responded
  refine ⟨_, responded, ⟨wellFormed, ?_, hasQ, replayed.attached, replayed.abandoned⟩⟩
  dsimp only
  rw [replayed.sequence, List.length_append, List.length_singleton]

end Replay

/-- **The events are replayed** one after another. -/
theorem foldlM_decodeEvent {journal : ClientJournal} (valid : journal.Valid)
    {attachments : Dict String ℕ}
    (attached : ∀ id, attachments.lookup id = journal.history.clientRequestIds.lookup id)
    (rest : List HistoryEvent) {done : List HistoryEvent} {p : OperationHistory}
    (split : journal.history.sortedEvents = done ++ rest)
    (replayed : ReplayedEvents attachments p done) :
    ∃ q, ((rest.map fun event => (encodeEvent event).sortKeys).zipIdx done.length).foldlM
        (decodeEvent journal.requests attachments) p = .ok q ∧
      ReplayedEvents attachments q journal.history.sortedEvents := by
  induction rest generalizing done p with
  | nil =>
      rw [List.append_nil] at split
      rw [split]
      exact ⟨p, rfl, replayed⟩
  | cons event rest ih =>
      obtain ⟨number, new, earlier⟩ := OperationHistory.sortedEvents_split valid.wellFormed split
      have known : ∀ event ∈ done, journal.history.Has event := by
        intro event member
        rw [← OperationHistory.mem_sortedEvents valid.wellFormed, split]
        exact List.mem_append_left _ member
      have has : journal.history.Has event := by
        rw [← OperationHistory.mem_sortedEvents valid.wellFormed, split]
        exact List.mem_append_right _ List.mem_cons_self
      obtain ⟨q, decoded, next⟩ : ∃ q, decodeEvent journal.requests attachments p
          ((encodeEvent event).sortKeys, event.sequence) = .ok q ∧
            ReplayedEvents attachments q (done ++ [event]) := by
        cases event with
        | invoked invocation =>
            obtain ⟨r, listed, client, same⟩ := valid.invoked _ invocation has
            obtain ⟨named, _⟩ := valid.wellFormed.named _ invocation has
            obtain ⟨q, invoked, next⟩ := replayed.invokeAttached valid attached known has number new
            refine ⟨q, (decodeEvent_invoked named listed same).trans ?_, next⟩
            rw [client]
            exact invoked
        | completed completion =>
            obtain ⟨invocation, found, _⟩ := valid.wellFormed.answers _ completion has
            obtain ⟨r, listed, _, same⟩ := valid.invoked _ invocation found
            obtain ⟨named, _⟩ := valid.wellFormed.named _ invocation found
            obtain ⟨q, responded, next⟩ := replayed.respond valid known has number new earlier
            exact ⟨q, (decodeEvent_completed named listed same).trans (called_eq_ok.mpr responded),
              next⟩
      rw [List.append_cons] at split
      obtain ⟨last, later, whole⟩ := ih split next
      refine ⟨last, ?_, whole⟩
      rw [List.map_cons, List.zipIdx_cons, List.foldlM_cons, ← number, decoded, ok_bind, number]
      rw [List.length_append, List.length_singleton] at later
      exact later

/-! ## Abandonments -/

/-- An operation that may be abandoned. -/
structure Abandonable (p : OperationHistory) (id : String) : Prop where
  named : id ≠ ""
  unanswered : id ∉ p.completions
  read : ∃ invocation, p.invocationsById.lookup id = some invocation ∧
    invocation.operation.isWrite = false

/-- The abandoned operations are read in their order. -/
theorem foldlM_decodeAbandonment {p : OperationHistory} {ids : List String} (nodup : ids.Nodup)
    (fresh : ∀ id ∈ ids, id ∉ p.abandonedIds) (abandonable : ∀ id ∈ ids, Abandonable p id) :
    (ids.map Json.string).foldlM decodeAbandonment (p, p.abandonedIds) =
      .ok ({ p with abandonedIds := ids.toFinset ∪ p.abandonedIds },
        ids.toFinset ∪ p.abandonedIds) := by
  induction ids generalizing p with
  | nil =>
      rw [List.toFinset_nil, Finset.empty_union]
      rfl
  | cons id ids ih =>
      obtain ⟨single, nodupRest⟩ := List.nodup_cons.mp nodup
      obtain ⟨freshHere, freshRest⟩ := List.forall_mem_cons.mp fresh
      obtain ⟨⟨named, unanswered, invocation, found, read⟩, rest⟩ :=
        List.forall_mem_cons.mp abandonable
      have left : p.abandon id = .ok { p with abandonedIds := insert id p.abandonedIds } :=
        OperationHistory.abandon_eq_ok.mpr
          ⟨invocation, found, unanswered, read, freshHere, rfl⟩
      have here : decodeAbandonment (p, p.abandonedIds) (.string id) =
          .ok ({ p with abandonedIds := insert id p.abandonedIds },
            insert id p.abandonedIds) := by
        rw [decodeAbandonment, text_string named, ok_bind]
        dsimp only
        rw [if_neg freshHere, left]
        rfl
      rw [List.map_cons, List.foldlM_cons, here, ok_bind]
      have later := @ih { p with abandonedIds := insert id p.abandonedIds } nodupRest
        (fun other member => by
          rw [Finset.mem_insert, not_or]
          exact ⟨fun same => single (same ▸ member), freshRest other member⟩)
        (fun other member => ⟨(rest other member).1, (rest other member).2, (rest other member).3⟩)
      rw [later, List.toFinset_cons, Finset.union_insert, Finset.insert_union]

/-! ## The same history -/

/-- The histories have the same contents. -/
structure SameHistory (p h : OperationHistory) : Prop where
  sequence : p.sequence = h.sequence
  invocationsById : ∀ id, p.invocationsById.lookup id = h.invocationsById.lookup id
  completions : ∀ id, p.completions.lookup id = h.completions.lookup id
  abandonedIds : p.abandonedIds = h.abandonedIds
  clientRequestIds : ∀ id, p.clientRequestIds.lookup id = h.clientRequestIds.lookup id
  activeClientRequests : ∀ identity,
    p.activeClientRequests.lookup identity = h.activeClientRequests.lookup identity

theorem sameItems_of_lookup {κ β : Type} [DecidableEq κ] [DecidableEq β] {d e : Dict κ β}
    (same : ∀ k, d.lookup k = e.lookup k) : Application.sameItems d e = true := by
  rw [Application.sameItems, Bool.and_eq_true, List.all_eq_true, List.all_eq_true]
  constructor
  · intro entry member
    rw [decide_eq_true_eq, ← same]
    exact AList.mem_lookup_iff.mpr member
  · intro entry member
    rw [decide_eq_true_eq, same]
    exact AList.mem_lookup_iff.mpr member

theorem SameHistory.sameHistory {p h : OperationHistory} (same : SameHistory p h) :
    MultiPaxos.sameHistory p h = true := by
  simp [MultiPaxos.sameHistory, same.sequence, sameItems_of_lookup same.invocationsById,
    sameItems_of_lookup same.completions, same.abandonedIds,
    sameItems_of_lookup same.clientRequestIds, sameItems_of_lookup same.activeClientRequests]

/-- The active identities are those of the attached request ids. -/
theorem activeClientRequests_iff {h : OperationHistory} (wellFormed : h.WellFormed)
    {clientId id : String} {requestId : ℕ} :
    h.activeClientRequests.lookup (clientId, requestId) = some id ↔
      h.clientRequestIds.lookup id = some requestId ∧
        ∃ invocation, h.invocationsById.lookup id = some invocation ∧
          invocation.clientId = clientId := by
  constructor
  · exact wellFormed.active clientId requestId id
  · rintro ⟨found, invocation, invoked, rfl⟩
    obtain ⟨invocation', invoked', _, owner⟩ := wellFormed.attached id requestId found
    rw [invoked] at invoked'
    cases invoked'
    exact owner

/-- The replay of all events, with the abandonments, has the contents of the history. -/
theorem ReplayedEvents.same {journal : ClientJournal} (valid : journal.Valid)
    {attachments : Dict String ℕ}
    (attached : ∀ id, attachments.lookup id = journal.history.clientRequestIds.lookup id)
    {p : OperationHistory}
    (replayed : ReplayedEvents attachments p journal.history.sortedEvents) :
    SameHistory { p with abandonedIds := journal.history.abandonedIds } journal.history := by
  have has : ∀ event, p.Has event ↔ journal.history.Has event := fun event =>
    (replayed.has event).trans (OperationHistory.mem_sortedEvents valid.wellFormed)
  have invocations : ∀ id,
      p.invocationsById.lookup id = journal.history.invocationsById.lookup id := by
    intro id
    refine Option.ext fun invocation => ?_
    rw [OperationHistory.lookup_invocationsById replayed.wellFormed,
      OperationHistory.lookup_invocationsById valid.wellFormed, has]
  have completions : ∀ id, p.completions.lookup id = journal.history.completions.lookup id := by
    intro id
    refine Option.ext fun completion => ?_
    rw [OperationHistory.lookup_completions replayed.wellFormed,
      OperationHistory.lookup_completions valid.wellFormed, has]
  have requestIds : ∀ id,
      p.clientRequestIds.lookup id = journal.history.clientRequestIds.lookup id := by
    intro id
    refine Option.ext fun requestId => ?_
    rw [replayed.attached, attached, and_iff_left_iff_imp]
    intro found
    obtain ⟨invocation, invoked, _⟩ := valid.wellFormed.attached id requestId found
    rw [← invocations] at invoked
    exact AList.lookup_isSome.mp (Option.isSome_of_mem invoked)
  refine ⟨?_, invocations, completions, rfl, requestIds, fun identity => ?_⟩
  · rw [replayed.sequence, ← List.length_map (f := HistoryEvent.sequence),
      OperationHistory.map_sequence_sortedEvents valid.wellFormed, List.length_range]
  · obtain ⟨clientId, requestId⟩ := identity
    refine Option.ext fun id => ?_
    rw [activeClientRequests_iff replayed.wellFormed, activeClientRequests_iff valid.wellFormed,
      invocations, requestIds]

/-! ## Journals -/

/-- The journals have the same requests in the same order, and histories with the same
contents. -/
def Reproduces (restored journal : ClientJournal) : Prop :=
  restored.requests = journal.requests ∧ SameHistory restored.history journal.history

namespace ClientJournal

variable {journal : ClientJournal} (valid : journal.Valid)

include valid

/-- The attached request ids of a valid journal may be attached. -/
theorem Valid.attachable : ∀ pair ∈ attachedPairs journal.history,
    Attachable journal.requests pair := by
  rintro ⟨id, requestId⟩ member
  rw [mem_attachedPairs valid.wellFormed] at member
  obtain ⟨r, listed, own⟩ := valid.attached id requestId member
  obtain ⟨invocation, invoked, write, _⟩ := valid.wellFormed.attached id requestId member
  obtain ⟨r', listed', _, same⟩ := valid.invoked id invocation invoked
  rw [listed] at listed'
  cases listed'
  refine ⟨(valid.wellFormed.named id invocation invoked).1, r, listed, ?_, own⟩
  cases operation : r.operation with
  | put key value => rfl
  | delete key => rfl
  | get key =>
      rw [operation] at same
      rw [← Option.some.inj same] at write
      cases write
  | append key suffix =>
      rw [operation] at same
      cases same

/-- The history of a valid journal is read from what is written. -/
theorem Valid.decodeHistory {raw : Json}
    (attachments : collection raw "client_request_ids" =
      .ok ((attachedPairs journal.history).map fun pair => (encodePair pair).sortKeys))
    (events : collection raw "events" =
      .ok (journal.history.sortedEvents.map fun event => (encodeEvent event).sortKeys))
    (left : collection raw "abandoned" =
      .ok ((MultiPaxos.abandoned journal.history).map fun invocation =>
        .string invocation.operationId)) :
    ∃ h, MultiPaxos.decodeHistory raw journal.requests = .ok h ∧
      SameHistory h journal.history := by
  have wellFormed := valid.wellFormed
  have attached := lookup_attachments wellFormed
  obtain ⟨p, replays, replayed⟩ := foldlM_decodeEvent valid attached journal.history.sortedEvents
    (List.nil_append _).symm (replayedEvents_empty _)
  have same := replayed.same valid attached
  have ordered : p.invocations.map (·.operationId) = expectedInvocations journal.requests := by
    rw [OperationHistory.invocations_congr wellFormed replayed.wellFormed same.invocationsById]
    exact valid.ordered
  set ids := (MultiPaxos.abandoned journal.history).map (·.operationId) with listed
  have nodup : ids.Nodup :=
    ((List.filter_sublist).map _).nodup (OperationHistory.nodup_invocations wellFormed)
  have members : ids.toFinset = journal.history.abandonedIds := by
    ext id
    rw [List.mem_toFinset, listed, List.mem_map]
    constructor
    · rintro ⟨invocation, member, rfl⟩
      exact of_decide_eq_true (List.mem_filter.mp member).2
    · intro gone
      obtain ⟨_, invocation, found, _⟩ := wellFormed.abandoned id gone
      obtain rfl := wellFormed.invocationKey id invocation found
      exact ⟨invocation, List.mem_filter.mpr
        ⟨(OperationHistory.mem_invocations wellFormed).mpr found, decide_eq_true gone⟩, rfl⟩
  have abandonable : ∀ id ∈ ids, Abandonable p id := by
    intro id member
    rw [← List.mem_toFinset, members] at member
    obtain ⟨unanswered, invocation, found, read⟩ := wellFormed.abandoned id member
    refine ⟨(wellFormed.named id invocation found).1, ?_, invocation, ?_, read⟩
    · rw [← AList.lookup_isSome, same.completions, AList.lookup_isSome]
      exact unanswered
    · rw [← found]
      exact same.invocationsById id
  have abandons := foldlM_decodeAbandonment nodup
    (fun id _ => by rw [replayed.abandoned]; exact Finset.notMem_empty id) abandonable
  rw [replayed.abandoned, Finset.union_empty, members, listed, List.map_map] at abandons
  have attaches : ((attachedPairs journal.history).map fun pair =>
      (encodePair pair).sortKeys).foldlM (addAttachment journal.requests) ∅ =
        .ok (Dict.ofItems (attachedPairs journal.history)) :=
    foldlM_addAttachment (nodup_attachedPairs wellFormed) (fun _ _ => AList.notMem_empty _)
      valid.attachable
  rw [List.length_nil] at replays
  refine ⟨_, ?_, same⟩
  rw [MultiPaxos.decodeHistory, attachments, ok_bind, attaches, ok_bind, events, ok_bind, replays,
    ok_bind, if_neg (not_not.mpr ordered), left, ok_bind]
  exact congrArg (· >>= _) abandons

/-- The requests of a valid journal have distinct identities. -/
theorem Valid.pairwise_identity :
    journal.requests.entries.Pairwise fun e f => e.2.identity ≠ f.2.identity := by
  have names : journal.requests.entries.Pairwise fun e f => e.1 ≠ f.1 :=
    List.pairwise_map.mp journal.requests.nodupKeys
  refine names.imp_of_mem fun {e f} first second other same => other ?_
  have here := valid.keyed _ _ (AList.mem_lookup_iff.mpr first)
  have there := valid.keyed _ _ (AList.mem_lookup_iff.mpr second)
  have equal := valid.distinct.identity _ (valid.mem_registered (AList.mem_lookup_iff.mpr first)) _
    (valid.mem_registered (AList.mem_lookup_iff.mpr second)) same
  rw [← here, ← there, equal]

/-- The payload of a valid journal is read as the journal. -/
theorem Valid.decodeValue : ∃ restored, MultiPaxos.decodeValue none (payload journal).sortKeys =
    .ok restored ∧ Reproduces restored journal := by
  set entries : List (String × Json) := [("version", .int 1),
    ("requests", .array (journal.requests.values.reverse.map encodeRequest)),
    ("events", .array (journal.history.sortedEvents.map encodeEvent)),
    ("abandoned", .array ((MultiPaxos.abandoned journal.history).map fun invocation =>
      .string invocation.operationId)),
    ("client_request_ids", .array (journal.history.invocations.filterMap
      (encodeAttachment journal.history)))] with listed
  have distinct : (entries.map Prod.fst).Nodup := by simp [listed]
  have shape : checkShape none (Json.object entries).sortKeys =
      .ok (Json.object entries).sortKeys := by
    rw [checkShape, fields_sortKeys (by simp [listed]), ok_bind,
      access_item_sortKeys distinct "version" rfl, ok_bind, Json.sortKeys_int]
    rw [forM_eq_ok, ok_bind]
    · rfl
    · intro field member
      have array : ∃ items, entries.lookup field = some (.array items) := by
        simp only [List.mem_cons, List.not_mem_nil, or_false] at member
        rcases member with rfl | rfl | rfl | rfl <;> exact ⟨_, rfl⟩
      obtain ⟨items, found⟩ := array
      rw [access_item_sortKeys distinct field found, ok_bind, Json.sortKeys]
      rfl
  have requests : collection (Json.object entries).sortKeys "requests" =
      .ok (journal.requests.entries.reverse.map fun entry => (encodeRequest entry.2).sortKeys) := by
    refine (collection_sortKeys distinct rfl).trans (congrArg _ ?_)
    rw [List.map_map, Dict.values, ← List.map_reverse, List.map_map]
    rfl
  have events : collection (Json.object entries).sortKeys "events" =
      .ok (journal.history.sortedEvents.map fun event => (encodeEvent event).sortKeys) :=
    (collection_sortKeys distinct rfl).trans (congrArg _ (List.map_map ..))
  have left : collection (Json.object entries).sortKeys "abandoned" =
      .ok ((MultiPaxos.abandoned journal.history).map fun invocation =>
        .string invocation.operationId) := by
    refine (collection_sortKeys distinct rfl).trans (congrArg _ ((List.map_map ..).trans ?_))
    exact List.map_congr_left fun _ _ => Json.sortKeys_string _
  have attachments : collection (Json.object entries).sortKeys "client_request_ids" =
      .ok ((attachedPairs journal.history).map fun pair => (encodePair pair).sortKeys) := by
    refine (collection_sortKeys distinct rfl).trans (congrArg _ ?_)
    rw [filterMap_encodeAttachment, List.map_map]
    rfl
  have table := foldlM_addRequest journal.requests.nodupKeys
    (fun entry member => valid.keyed _ _ (AList.mem_lookup_iff.mpr member))
    valid.pairwise_identity
  obtain ⟨h, history, same⟩ := valid.decodeHistory attachments events left
  refine ⟨⟨h, journal.requests⟩, ?_, rfl, same⟩
  rw [MultiPaxos.decodeValue, payload, ← listed, shape, ok_bind, requests, ok_bind, table, ok_bind,
    history]
  rfl

omit valid in
theorem plain_payload (journal : ClientJournal) : (payload journal).Plain := by
  have request : ∀ r : MultiPaxosRequest, (encodeRequest r).Plain := by
    intro r
    have operation : (encodeOperation r.operation).Plain := by
      cases r.operation <;> refine .object (by simp) ?_ <;>
        simp [Json.Plain.string]
    refine .object (by simp) ?_
    simp [Json.Plain.string, Json.Plain.int, operation]
  have event : ∀ e : HistoryEvent, (encodeEvent e).Plain := by
    intro e
    cases e with
    | invoked invocation =>
        refine .object (by simp) ?_
        simp [Json.Plain.string, Json.Plain.int]
    | completed completion =>
        have result : (encodeResult completion.result).Plain := by
          cases completion.result with
          | none => exact .null
          | some value => exact .string value
        refine .object (by simp) ?_
        simp [Json.Plain.string, Json.Plain.int, result]
  have pair : ∀ pair : String × ℕ, (encodePair pair).Plain := by
    intro pair
    refine .object (by simp) ?_
    simp [Json.Plain.string, Json.Plain.int]
  rw [payload, filterMap_encodeAttachment]
  refine .object (by simp) ?_
  simp only [List.forall_mem_cons, List.not_mem_nil, false_implies, implies_true, and_true]
  refine ⟨.int 1, .array fun item member => ?_, .array fun item member => ?_,
    .array fun item member => ?_, .array fun item member => ?_⟩
  · obtain ⟨r, _, rfl⟩ := List.mem_map.mp member
    exact request r
  · obtain ⟨e, _, rfl⟩ := List.mem_map.mp member
    exact event e
  · obtain ⟨_, _, rfl⟩ := List.mem_map.mp member
    exact .string _
  · obtain ⟨_, _, rfl⟩ := List.mem_map.mp member
    exact pair _

/-- A valid journal is written, and read back. -/
theorem Valid.encodeJournal {library : JsonLibrary}
    (inverts : library.Inverts (payload journal).sortKeys) :
    ∃ encoded restored, MultiPaxos.encodeJournal library journal = .ok encoded ∧
      decodeJournal library none encoded = .ok restored ∧ Reproduces restored journal := by
  obtain ⟨restored, read, requests, same⟩ := valid.decodeValue
  have hooks : (payload journal).sortKeys.hooked uniqueObject constantHook =
      .ok (payload journal).sortKeys :=
    Json.hooked_eq_ok (fun _ distinct => if_pos distinct) (plain_payload journal).sortKeys
  have decoded : decodeJournal library none (library.text (payload journal).sortKeys) =
      .ok restored := by
    rw [decodeJournal, wrapped_eq_ok, limited, ok_bind, inverts.2]
    show ((payload journal).sortKeys.hooked uniqueObject constantHook >>= _) = _
    rw [hooks, ok_bind]
    exact read
  refine ⟨library.text (payload journal).sortKeys, restored, ?_, decoded, requests, same⟩
  rw [MultiPaxos.encodeJournal, forM_eq_ok, ok_bind, forM_eq_ok, ok_bind, canonicalJson,
    inverts.1]
  · show (decodeJournal library none (library.text (payload journal).sortKeys) >>= _) = _
    rw [decoded, ok_bind, if_neg (by simp [same.sameHistory, requests])]
    rfl
  · intro invocation member
    rw [OperationHistory.mem_invocations valid.wellFormed] at member
    obtain ⟨r, listed, client, operation⟩ := valid.invoked _ invocation member
    rw [checkInvocation, listed]
    exact if_neg (by simp [client, operation])
  · intro entry member
    have listed := AList.mem_lookup_iff.mpr (List.mem_reverse.mp member)
    exact if_neg (not_not.mpr (valid.keyed _ _ listed).symm)

end ClientJournal

/-- **Journal checkpoints round trip.** Where the library reads what it wrote, a journal that
a client keeps is written and read back, and so is a journal that was read; and a text is
read, or a `ValueError` is raised. -/
theorem journal_checkpoints_round_trip (library : JsonLibrary) :
    (∀ calls, library.Inverts (payload (ClientJournal.kept calls)).sortKeys →
      ∃ encoded restored, encodeJournal library (ClientJournal.kept calls) = .ok encoded ∧
        decodeJournal library none encoded = .ok restored ∧
        Reproduces restored (ClientJournal.kept calls)) ∧
    (∀ limits encoded journal, decodeJournal library limits encoded = .ok journal →
      library.Inverts (payload journal).sortKeys →
        ∃ again restored, encodeJournal library journal = .ok again ∧
          decodeJournal library none again = .ok restored ∧ Reproduces restored journal) ∧
    ∀ limits encoded, (∃ journal, decodeJournal library limits encoded = .ok journal) ∨
      ∃ error, decodeJournal library limits encoded = .error error ∧ error.IsValueError :=
  ⟨fun calls inverts => (ClientJournal.kept_valid calls).encodeJournal inverts,
    fun _ _ _ read inverts => (decodeJournal_valid read).encodeJournal inverts,
    decodeJournal_total library⟩

/-- A write with its request id, and a read that is answered before the write. -/
def readBeforeWrite : List ClientJournal.JournalCall :=
  [.register ⟨"c", 3, "w", .put "k" "v", by decide, by decide, by decide⟩,
    .attachClientRequestId ⟨"c", 3, "w", .put "k" "v", by decide, by decide, by decide⟩,
    .register ⟨"d", 0, "r", .get "k", by decide, by decide, by decide⟩,
    .respond "r" (some "v"), .respond "w" none]

/-- The checkpoint of the journal of `readBeforeWrite`. -/
def readBeforeWriteText : String :=
  "\x7b\"abandoned\":[]," ++
    "\"client_request_ids\":[\x7b\"operation_id\":\"w\",\"request_id\":3\x7d]," ++
    "\"events\":[\x7b\"operation_id\":\"w\",\"sequence\":0,\"type\":\"invoke\"\x7d," ++
    "\x7b\"operation_id\":\"r\",\"sequence\":1,\"type\":\"invoke\"\x7d," ++
    "\x7b\"operation_id\":\"r\",\"result\":\"v\",\"sequence\":2,\"type\":\"complete\"\x7d," ++
    "\x7b\"operation_id\":\"w\",\"result\":null,\"sequence\":3,\"type\":\"complete\"\x7d]," ++
    "\"requests\":[\x7b\"client_id\":\"c\",\"operation\":\x7b\"key\":\"k\",\"type\":\"put\"," ++
    "\"value\":\"v\"\x7d,\"operation_id\":\"w\",\"request_id\":3\x7d," ++
    "\x7b\"client_id\":\"d\",\"operation\":\x7b\"key\":\"k\",\"type\":\"get\"\x7d," ++
    "\"operation_id\":\"r\",\"request_id\":0\x7d],\"version\":1\x7d"

/-- A library that writes and reads the journal of `readBeforeWrite`. -/
def readBeforeWriteLibrary : JsonLibrary :=
  .single readBeforeWriteText (payload (ClientJournal.kept readBeforeWrite)).sortKeys

theorem read_before_write_round_trips :
    ∃ encoded restored, encodeJournal readBeforeWriteLibrary (ClientJournal.kept readBeforeWrite) =
        .ok encoded ∧ decodeJournal readBeforeWriteLibrary none encoded = .ok restored ∧
      Reproduces restored (ClientJournal.kept readBeforeWrite) :=
  (journal_checkpoints_round_trip readBeforeWriteLibrary).1 readBeforeWrite
    (JsonLibrary.single_inverts _ _)

end Distlab.MultiPaxos
