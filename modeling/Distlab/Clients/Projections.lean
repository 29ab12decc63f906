import Distlab.Clients.CheckerExactness
import Distlab.Clients.MultiKeyChecker

/-!
# Histories of some operations

The events of some operations, replayed into a history of their own, get new numbers in
the same order (`Renumbers`). So that history shows what the whole history shows of those
operations, those of one key for example.
-/

set_option autoImplicit false

namespace Distlab.Clients

open Foundations Foundations.Linearizability

/-- The operation of an event. -/
def HistoryEvent.operationId : HistoryEvent → String
  | .invoked invocation => invocation.operationId
  | .completed completion => completion.operationId

/-- The event under another number. -/
def HistoryEvent.renumber (n : ℕ) : HistoryEvent → HistoryEvent
  | .invoked invocation => .invoked { invocation with sequence := n }
  | .completed completion => .completed { completion with sequence := n }

namespace OperationHistory

variable {h p p' : OperationHistory} {events : List HistoryEvent}

/-- The history consists of the events, numbered by their positions. -/
structure Renumbers (p : OperationHistory) (events : List HistoryEvent) : Prop where
  wellFormed : p.WellFormed
  sequence : p.sequence = events.length
  has : ∀ event, p.Has event ↔ ∃ original, events[event.sequence]? = some original ∧
    event = original.renumber event.sequence

theorem renumbers_empty : Renumbers {} [] where
  wellFormed := wellFormed_empty
  sequence := rfl
  has := by
    intro event
    cases event <;> simp [Has]

/-- One more event is numbered last. -/
theorem Renumbers.append (renumbers : Renumbers p events) (wellFormed : p'.WellFormed)
    {event : HistoryEvent} (sequence : p'.sequence = p.sequence + 1)
    (has : ∀ event', p'.Has event' ↔ event' = event.renumber p.sequence ∨ p.Has event') :
    Renumbers p' (events ++ [event]) where
  wellFormed := wellFormed
  sequence := by rw [sequence, renumbers.sequence, List.length_append, List.length_singleton]
  has := by
    intro event'
    rw [has, renumbers.has]
    have number : (event.renumber p.sequence).sequence = events.length := by
      rw [← renumbers.sequence]
      cases event <;> rfl
    constructor
    · rintro (rfl | ⟨original, found, same⟩)
      · refine ⟨event, ?_, ?_⟩
        · rw [number, List.getElem?_concat_length]
        · rw [number, renumbers.sequence]
      · refine ⟨original, ?_, same⟩
        rw [List.getElem?_append_left (List.getElem?_eq_some_iff.mp found).1]
        exact found
    · rintro ⟨original, found, same⟩
      by_cases old : event'.sequence < events.length
      · rw [List.getElem?_append_left old] at found
        exact .inr ⟨original, found, same⟩
      · have bound := (List.getElem?_eq_some_iff.mp found).1
        rw [List.length_append, List.length_singleton] at bound
        have last : event'.sequence = events.length := by omega
        rw [last, List.getElem?_concat_length] at found
        cases found
        rw [last, ← renumbers.sequence] at same
        exact .inl same

theorem Renumbers.invoke (renumbers : Renumbers p events) {invocation : Invocation}
    (returned : p.invoke invocation.operationId invocation.clientId invocation.operation =
      .ok p') : Renumbers p' (events ++ [.invoked invocation]) := by
  refine renumbers.append (renumbers.wellFormed.invoke returned) ?_ (has_invoke returned)
  obtain ⟨_, _, _, rfl⟩ := invoke_eq_ok.mp returned
  rfl

theorem Renumbers.respond (renumbers : Renumbers p events) {completion : Completion}
    (returned : p.respond completion.operationId completion.result = .ok p') :
    Renumbers p' (events ++ [.completed completion]) := by
  refine renumbers.append (renumbers.wellFormed.respond returned) ?_ (has_respond returned)
  obtain ⟨_, _, _, _, _, rfl⟩ := respond_eq_ok.mp returned
  rfl

/-! ## The events of a history -/

/-- The key of an operation. -/
def keyOf (h : OperationHistory) (id : String) : String :=
  ((h.invocationsById.lookup id).map (·.operation.key)).getD ""

/-- The events of a key. -/
def eventsOf (h : OperationHistory) (key : String) (events : List HistoryEvent) :
    List HistoryEvent :=
  events.filter fun event => h.keyOf event.operationId = key

/-- The events of the operations that are kept. -/
def eventsWhere (keeps : String → Prop) [DecidablePred keeps] (events : List HistoryEvent) :
    List HistoryEvent :=
  events.filter fun event => keeps event.operationId

theorem mem_sortedEvents (wellFormed : h.WellFormed) {event : HistoryEvent} :
    event ∈ h.sortedEvents ↔ h.Has event := by
  rw [sortedEvents, List.mem_insertionSort, List.mem_append]
  cases event with
  | invoked invocation =>
      simp [Has, mem_invocations wellFormed]
  | completed completion =>
      simp only [List.mem_map, reduceCtorEq, and_false, exists_false, false_or,
        HistoryEvent.completed.injEq, Has]
      constructor
      · rintro ⟨item, member, rfl⟩
        obtain ⟨_, answered⟩ := (mem_completedOperations wellFormed).mp member
        rw [wellFormed.completionKey _ _ answered]
        exact answered
      · intro answered
        obtain ⟨item, found⟩ := Option.isSome_iff_exists.mp (AList.lookup_isSome.mpr
          ((mem_observed wellFormed).mpr (AList.lookup_isSome.mp (Option.isSome_of_mem answered))))
        obtain ⟨member, same⟩ := (lookup_observed wellFormed).mp found
        refine ⟨item, member, ?_⟩
        have answered' := ((mem_completedOperations wellFormed).mp member).2
        rw [same, answered] at answered'
        exact (Option.some.inj answered').symm

theorem pairwise_sortedEvents (h : OperationHistory) :
    h.sortedEvents.Pairwise fun e f => e.sequence ≤ f.sequence := by
  have total : Std.Total fun e f : HistoryEvent => e.sequence ≤ f.sequence :=
    ⟨fun e f => Nat.le_total e.sequence f.sequence⟩
  have trans : IsTrans HistoryEvent fun e f => e.sequence ≤ f.sequence :=
    ⟨fun _ _ _ => Nat.le_trans⟩
  exact List.pairwise_insertionSort _ _

theorem lookup_invocationsById (wellFormed : h.WellFormed) {id : String}
    {invocation : Invocation} : h.invocationsById.lookup id = some invocation ↔
      invocation.operationId = id ∧ h.Has (.invoked invocation) := by
  constructor
  · intro found
    obtain rfl := wellFormed.invocationKey id invocation found
    exact ⟨rfl, found⟩
  · rintro ⟨rfl, has⟩
    exact has

theorem lookup_completions (wellFormed : h.WellFormed) {id : String}
    {completion : Completion} : h.completions.lookup id = some completion ↔
      completion.operationId = id ∧ h.Has (.completed completion) := by
  constructor
  · intro found
    obtain rfl := wellFormed.completionKey id completion found
    exact ⟨rfl, found⟩
  · rintro ⟨rfl, has⟩
    exact has

theorem nodup_sortedEvents (wellFormed : h.WellFormed) : h.sortedEvents.Nodup := by
  rw [sortedEvents, (List.perm_insertionSort _ _).nodup_iff]
  refine List.Nodup.append ?_ ?_ ?_
  · refine (nodup_invocations wellFormed).of_map.map fun _ _ => HistoryEvent.invoked.inj
  · refine List.Nodup.of_map HistoryEvent.operationId ?_
    have names : (h.completedOperations.map fun item =>
        HistoryEvent.completed item.completion).map HistoryEvent.operationId =
          h.completedOperations.map CompletedOperation.operationId := by
      rw [List.map_map]
      refine List.map_congr_left fun item member => ?_
      exact wellFormed.completionKey _ _ ((mem_completedOperations wellFormed).mp member).2
    rw [names]
    exact nodup_completedOperations wellFormed
  · intro event first second
    obtain ⟨_, _, rfl⟩ := List.mem_map.mp first
    obtain ⟨_, _, ⟨⟩⟩ := List.mem_map.mp second

/-- The events are numbered by their positions. -/
theorem map_sequence_sortedEvents (wellFormed : h.WellFormed) :
    h.sortedEvents.map HistoryEvent.sequence = List.range h.sequence := by
  have distinct : (h.sortedEvents.map HistoryEvent.sequence).Nodup := by
    refine List.Nodup.map_on (fun event first event' second same => ?_)
      (nodup_sortedEvents wellFormed)
    rw [mem_sortedEvents wellFormed] at first second
    exact wellFormed.distinct event event' first second same
  have perm : (h.sortedEvents.map HistoryEvent.sequence).Perm (List.range h.sequence) := by
    refine (List.perm_ext_iff_of_nodup distinct List.nodup_range).mpr fun n => ?_
    rw [List.mem_map, List.mem_range]
    constructor
    · rintro ⟨event, member, rfl⟩
      exact wellFormed.early event ((mem_sortedEvents wellFormed).mp member)
    · intro bound
      obtain ⟨event, has, same⟩ := wellFormed.dense n bound
      exact ⟨event, (mem_sortedEvents wellFormed).mpr has, same⟩
  exact perm.eq_of_pairwise' (List.pairwise_map.mpr (pairwise_sortedEvents h))
    List.pairwise_le_range

/-- An event stands at the position of its number, after the events with lower numbers. -/
theorem sortedEvents_split (wellFormed : h.WellFormed) {done rest : List HistoryEvent}
    {event : HistoryEvent} (split : h.sortedEvents = done ++ event :: rest) :
    event.sequence = done.length ∧ event ∉ done ∧
      ∀ other, h.Has other → other.sequence < event.sequence → other ∈ done := by
  have numbers := map_sequence_sortedEvents wellFormed
  have nodup := nodup_sortedEvents wellFormed
  have sorted := pairwise_sortedEvents h
  rw [split] at numbers nodup sorted
  refine ⟨?_, ?_, fun other has lower => ?_⟩
  · have here := congrArg (·[done.length]?) numbers
    have bound : done.length < h.sequence := by
      rw [← List.length_range (n := h.sequence), ← numbers, List.length_map, List.length_append,
        List.length_cons]
      omega
    simpa [bound] using here
  · exact fun member => (List.disjoint_of_nodup_append nodup) member List.mem_cons_self
  · have member := (mem_sortedEvents wellFormed).mpr has
    rw [split] at member
    rcases List.mem_append.mp member with early | late
    · exact early
    · rcases List.mem_cons.mp late with rfl | later
      · exact absurd lower (Nat.lt_irrefl _)
      · have above := (List.pairwise_cons.mp (List.pairwise_append.mp sorted).2.1).1 other later
        omega

/-- Histories with the same invocations list them in the same order. -/
theorem invocations_congr (wellFormed : h.WellFormed) (wellFormed' : p.WellFormed)
    (same : ∀ id, p.invocationsById.lookup id = h.invocationsById.lookup id) :
    p.invocations = h.invocations := by
  have total : Std.Total fun a b : Invocation => a.sequence ≤ b.sequence :=
    ⟨fun a b => Nat.le_total a.sequence b.sequence⟩
  have trans : IsTrans Invocation fun a b => a.sequence ≤ b.sequence :=
    ⟨fun _ _ _ => Nat.le_trans⟩
  have members : ∀ invocation, invocation ∈ p.invocations ↔ invocation ∈ h.invocations := by
    intro invocation
    rw [mem_invocations wellFormed, mem_invocations wellFormed', same]
  have perm : p.invocations.Perm h.invocations :=
    (List.perm_ext_iff_of_nodup (nodup_invocations wellFormed').of_map
      (nodup_invocations wellFormed).of_map).mpr members
  refine perm.eq_of_pairwise (fun a b first second before after => ?_)
    (List.pairwise_insertionSort _ _) (List.pairwise_insertionSort _ _)
  rw [members, mem_invocations wellFormed] at first
  rw [mem_invocations wellFormed] at second
  have equal := wellFormed.distinct (.invoked a) (.invoked b) first second
    (Nat.le_antisymm before after)
  exact HistoryEvent.invoked.inj equal

section Kept

variable {keeps : String → Prop} [DecidablePred keeps]

/-- Positions among the kept events are ordered as the numbers are. -/
theorem position_lt_iff (wellFormed : h.WellFormed) {n m : ℕ}
    {e f : HistoryEvent} (first : (eventsWhere keeps h.sortedEvents)[n]? = some e)
    (second : (eventsWhere keeps h.sortedEvents)[m]? = some f) (other : e ≠ f) :
    n < m ↔ e.sequence < f.sequence := by
  have sorted := (pairwise_sortedEvents h).sublist
    (List.filter_sublist (p := fun event => decide (keeps event.operationId)))
  have has : ∀ {n e}, (eventsWhere keeps h.sortedEvents)[n]? = some e → h.Has e := fun found =>
    (mem_sortedEvents wellFormed).mp (List.mem_of_mem_filter (List.mem_of_getElem? found))
  have apart : e.sequence ≠ f.sequence := fun same =>
    other (wellFormed.distinct e f (has first) (has second) same)
  have ordered : ∀ {n m : ℕ} {e f : HistoryEvent}, (eventsWhere keeps h.sortedEvents)[n]? = some e →
      (eventsWhere keeps h.sortedEvents)[m]? = some f → n < m → e.sequence ≤ f.sequence := by
    intro n m e f first second earlier
    obtain ⟨bound, rfl⟩ := List.getElem?_eq_some_iff.mp first
    obtain ⟨bound', rfl⟩ := List.getElem?_eq_some_iff.mp second
    exact List.pairwise_iff_getElem.mp sorted n m bound bound' earlier
  constructor
  · intro earlier
    have := ordered first second earlier
    omega
  · intro earlier
    by_contra late
    rcases Nat.lt_or_eq_of_le (Nat.le_of_not_lt late) with before | same
    · have := ordered second first before
      omega
    · rw [← same, second] at first
      exact other (Option.some.inj first).symm

/-! ## A history of the kept events -/

variable (wellFormed : h.WellFormed)
  (renumbers : Renumbers p (eventsWhere keeps h.sortedEvents))

include wellFormed renumbers

/-- An event of the history is a renumbered event of the whole history. -/
theorem Renumbers.original {event : HistoryEvent} (has : p.Has event) :
    ∃ original, h.Has original ∧ keeps original.operationId ∧
      (eventsWhere keeps h.sortedEvents)[event.sequence]? = some original ∧
      event = original.renumber event.sequence := by
  obtain ⟨original, found, same⟩ := (renumbers.has event).mp has
  obtain ⟨member, own⟩ := List.mem_filter.mp (List.mem_of_getElem? found)
  exact ⟨original, (mem_sortedEvents wellFormed).mp member, of_decide_eq_true own, found, same⟩

/-- Each kept event has its copy. -/
theorem Renumbers.copy {event : HistoryEvent} (has : h.Has event)
    (own : keeps event.operationId) :
    ∃ n, (eventsWhere keeps h.sortedEvents)[n]? = some event ∧ p.Has (event.renumber n) := by
  have member : event ∈ eventsWhere keeps h.sortedEvents :=
    List.mem_filter.mpr ⟨(mem_sortedEvents wellFormed).mpr has, decide_eq_true own⟩
  obtain ⟨n, found⟩ := List.getElem?_of_mem member
  have number : (event.renumber n).sequence = n := by cases event <;> rfl
  refine ⟨n, found, (renumbers.has _).mpr ⟨event, ?_, ?_⟩⟩
  · rw [number]
    exact found
  · rw [number]

theorem Renumbers.lookup_invocation (id : String) :
    (∀ copy, p.invocationsById.lookup id = some copy →
      ∃ invocation, h.invocationsById.lookup id = some invocation ∧
        keeps id ∧ copy = { invocation with sequence := copy.sequence } ∧
        (eventsWhere keeps h.sortedEvents)[copy.sequence]? = some (.invoked invocation)) ∧
    ∀ invocation, h.invocationsById.lookup id = some invocation →
      keeps id → ∃ n,
        p.invocationsById.lookup id = some { invocation with sequence := n } := by
  constructor
  · intro copy found
    have has : p.Has (.invoked copy) := by
      rw [Has, renumbers.wellFormed.invocationKey id copy found]
      exact found
    obtain ⟨original, has', own, position, same⟩ := renumbers.original wellFormed has
    cases original with
    | completed completion => cases same
    | invoked invocation =>
        have equal : copy = { invocation with sequence := copy.sequence } :=
          HistoryEvent.invoked.inj same
        have named : invocation.operationId = id := by
          rw [← renumbers.wellFormed.invocationKey id copy found, equal]
        rw [Has, named] at has'
        rw [HistoryEvent.operationId, named] at own
        exact ⟨invocation, has', own, equal, position⟩
  · intro invocation found own
    have named := wellFormed.invocationKey id invocation found
    have has : h.Has (.invoked invocation) := by
      rw [Has, named]
      exact found
    obtain ⟨n, _, has'⟩ := renumbers.copy wellFormed has (by
      rw [HistoryEvent.operationId, named]
      exact own)
    refine ⟨n, ?_⟩
    rw [← named]
    exact has'

theorem Renumbers.lookup_completion (id : String) :
    (∀ copy, p.completions.lookup id = some copy →
      ∃ completion, h.completions.lookup id = some completion ∧ keeps id ∧
        copy = { completion with sequence := copy.sequence } ∧
        (eventsWhere keeps h.sortedEvents)[copy.sequence]? = some (.completed completion)) ∧
    ∀ completion, h.completions.lookup id = some completion → keeps id → ∃ n,
      p.completions.lookup id = some { completion with sequence := n } := by
  constructor
  · intro copy found
    have has : p.Has (.completed copy) := by
      rw [Has, renumbers.wellFormed.completionKey id copy found]
      exact found
    obtain ⟨original, has', own, position, same⟩ := renumbers.original wellFormed has
    cases original with
    | invoked invocation => cases same
    | completed completion =>
        have equal : copy = { completion with sequence := copy.sequence } :=
          HistoryEvent.completed.inj same
        have named : completion.operationId = id := by
          rw [← renumbers.wellFormed.completionKey id copy found, equal]
        rw [Has, named] at has'
        rw [HistoryEvent.operationId, named] at own
        exact ⟨completion, has', own, equal, position⟩
  · intro completion found own
    have named := wellFormed.completionKey id completion found
    have has : h.Has (.completed completion) := by
      rw [Has, named]
      exact found
    obtain ⟨n, _, has'⟩ := renumbers.copy wellFormed has (by
      rw [HistoryEvent.operationId, named]
      exact own)
    refine ⟨n, ?_⟩
    rw [← named]
    exact has'

theorem Renumbers.mem_completions {id : String} :
    id ∈ p.completions ↔ keeps id ∧ id ∈ h.completions := by
  obtain ⟨original, copy⟩ := renumbers.lookup_completion wellFormed id
  rw [← AList.lookup_isSome, ← AList.lookup_isSome, Option.isSome_iff_exists,
    Option.isSome_iff_exists]
  constructor
  · rintro ⟨completion, found⟩
    obtain ⟨completion', found', own, _⟩ := original completion found
    exact ⟨own, completion', found'⟩
  · rintro ⟨own, completion, found⟩
    obtain ⟨n, found'⟩ := copy completion found own
    exact ⟨_, found'⟩

theorem Renumbers.pendingWrite_iff {id : String} :
    p.PendingWrite id ↔ keeps id ∧ h.PendingWrite id := by
  obtain ⟨original, copy⟩ := renumbers.lookup_invocation wellFormed id
  rw [PendingWrite, PendingWrite, renumbers.mem_completions wellFormed]
  constructor
  · rintro ⟨open', copied, found, write⟩
    obtain ⟨invocation, found', own, same, _⟩ := original copied found
    rw [same] at write
    exact ⟨own, fun answered => open' ⟨own, answered⟩, invocation, found', write⟩
  · rintro ⟨own, open', invocation, found, write⟩
    obtain ⟨n, found'⟩ := copy invocation found own
    exact ⟨fun answered => open' answered.2, _, found', write⟩

/-- What precedes a kept operation in the history are the kept ones that precede it. -/
theorem Renumbers.precedes_iff {optional optional' : String → Prop} {a b : String}
    {copy : Invocation} (invoked : p.invocationsById.lookup b = some copy) :
    (⟨p.invokedAt, p.respondedAt, optional⟩ : Observation String).Precedes a b ↔
      keeps a ∧ (⟨h.invokedAt, h.respondedAt, optional'⟩ : Observation String).Precedes a b := by
  obtain ⟨invocation, found, _, _, position⟩ :=
    (renumbers.lookup_invocation wellFormed _).1 copy invoked
  constructor
  · intro precedes
    obtain ⟨copied, answered'⟩ := Option.isSome_iff_exists.mp
      (AList.lookup_isSome.mpr (isSome_respondedAt.mp precedes.answered))
    obtain ⟨completion, answered, own, _, position'⟩ :=
      (renumbers.lookup_completion wellFormed _).1 _ answered'
    refine ⟨own, (OperationHistory.precedes_iff answered found).mpr ?_⟩
    exact (position_lt_iff wellFormed position' position (by simp)).mp
      ((OperationHistory.precedes_iff answered' invoked).mp precedes)
  · rintro ⟨own, precedes⟩
    obtain ⟨completion, answered⟩ := Option.isSome_iff_exists.mp
      (AList.lookup_isSome.mpr (isSome_respondedAt.mp precedes.answered))
    obtain ⟨n, answered'⟩ := (renumbers.lookup_completion wellFormed _).2 completion answered own
    obtain ⟨completion', same, _, _, position'⟩ :=
      (renumbers.lookup_completion wellFormed _).1 _ answered'
    rw [answered] at same
    cases same
    refine (OperationHistory.precedes_iff answered' invoked).mpr ?_
    exact (position_lt_iff wellFormed position' position (by simp)).mpr
      ((OperationHistory.precedes_iff answered found).mp precedes)

/-- The results of a kept operation are those of the whole history. -/
theorem Renumbers.map_result {id : String} (own : keeps id) :
    (p.completions.lookup id).map Completion.result =
      (h.completions.lookup id).map Completion.result := by
  obtain ⟨original, copy⟩ := renumbers.lookup_completion wellFormed id
  cases answered : h.completions.lookup id with
  | some completion =>
      obtain ⟨n, answered'⟩ := copy completion answered own
      rw [answered']
      rfl
  | none =>
      cases answered' : p.completions.lookup id with
      | none => rfl
      | some completion =>
          obtain ⟨completion', known, _⟩ := original completion answered'
          rw [answered] at known
          cases known

/-- A kept operation has its effect on a register. -/
theorem Renumbers.registerStep_eq {id : String} {copy : Invocation}
    (invoked : p.invocationsById.lookup id = some copy) :
    p.registerStep id = h.registerStep id := by
  obtain ⟨invocation, found, own, same, _⟩ :=
    (renumbers.lookup_invocation wellFormed _).1 copy invoked
  funext value
  have returned : (p.completions.lookup id).any (·.result = value) =
      (h.completions.lookup id).any (·.result = value) := by
    have both := congrArg (fun result => result.any (· = value))
      (renumbers.map_result wellFormed own)
    simpa only [Option.any_map] using both
  rw [registerStep, registerStep, invoked, found, same]
  simp only [Option.map_some, returned]

/-- A linearization of the history is one of the kept operations in the whole history. -/
theorem Renumbers.linearizes_iff {order : List String} :
    p.LinearizesExtended order ↔
      Linearizes (h.extendedObservation.restrict keeps) h.registerStep none order := by
  have invoked : ∀ id, (p.respondedAt id).isSome ∨ p.PendingWrite id →
      ∃ copy, p.invocationsById.lookup id = some copy := by
    rintro id (answered | ⟨_, copy, found, _⟩)
    · obtain ⟨completion, found⟩ := Option.isSome_iff_exists.mp
        (AList.lookup_isSome.mpr (isSome_respondedAt.mp answered))
      obtain ⟨copy, found', _⟩ := renumbers.wellFormed.answers id completion found
      exact ⟨copy, found'⟩
    · exact ⟨copy, found⟩
  refine linearizes_congr (fun id => ?_) (fun id => ?_) (fun a b first second => ?_)
    fun id allowed value => ?_
  · rw [Observation.isSome_responded_restrict]
    exact (and_congr_right fun _ => isSome_respondedAt).trans
      ((renumbers.mem_completions wellFormed).symm.trans isSome_respondedAt.symm)
  · exact (renumbers.pendingWrite_iff wellFormed).symm
  · obtain ⟨copy, found⟩ := invoked b second
    rw [Observation.precedes_restrict]
    exact (renumbers.precedes_iff wellFormed found).symm
  · obtain ⟨copy, found⟩ := invoked id allowed
    exact congrFun (renumbers.registerStep_eq wellFormed found) value

end Kept

/-- A linearization of the history of a key is one of the key in the whole history. -/
theorem Renumbers.linearizes_on_iff {key : String} (wellFormed : h.WellFormed)
    (renumbers : Renumbers p (h.eventsOf key h.sortedEvents)) {order : List String} :
    p.LinearizesExtended order ↔
      Linearizes (h.extendedObservation.on h.keyOf key) h.registerStep none order := by
  have kept : Renumbers p (eventsWhere (fun id => h.keyOf id = key) h.sortedEvents) := renumbers
  exact kept.linearizes_iff wellFormed

end OperationHistory

end Distlab.Clients
