import Distlab.Clients.HistoryMinimizer
import Distlab.Clients.LongHistories
import Distlab.Clients.Projections
import Distlab.Foundations.Outcome

/-!
# What the history minimizer leaves

The projection of a history to some operations replays without an error, whatever the
operations, and shows what the history shows of them. So each candidate is checked for
what it is, and the operations that the minimizer leaves cannot be explained, though any
of them fewer can.

The minimizer tries the first operation first, so it leaves out the front of the history
until the rest can be explained. If the search is not nested too deep on these rests
(`ShallowRests`) it never is: the rest that can be explained is short then, and no later
candidate is longer.
-/

set_option autoImplicit false

namespace Distlab.Clients

open Foundations Foundations.Linearizability

namespace OperationHistory

variable {h p : OperationHistory} {keep : List String}

/-! ## The replay of the kept events -/

/-- The events of a projection are those of the sorted events that are kept. -/
theorem keptEvents_eq (wellFormed : h.WellFormed) :
    h.keptEvents keep = eventsWhere (· ∈ keep) h.sortedEvents := by
  have total : Std.Total fun e f : HistoryEvent => e.sequence ≤ f.sequence :=
    ⟨fun e f => Nat.le_total e.sequence f.sequence⟩
  have trans : IsTrans HistoryEvent fun e f => e.sequence ≤ f.sequence :=
    ⟨fun _ _ _ => Nat.le_trans⟩
  have completed : (h.completedOperations.map fun item =>
      HistoryEvent.completed item.completion).filter (fun event => event.operationId ∈ keep) =
        (h.completedOperations.filter fun item => item.operationId ∈ keep).map
          fun item => HistoryEvent.completed item.completion := by
    rw [List.filter_map]
    refine congrArg _ (List.filter_congr fun item member => ?_)
    have named := wellFormed.completionKey _ _ ((mem_completedOperations wellFormed).mp member).2
    exact decide_eq_decide.mpr (by rw [HistoryEvent.operationId, named])
  have perm : (h.keptEvents keep).Perm (eventsWhere (· ∈ keep) h.sortedEvents) := by
    refine (List.perm_insertionSort _ _).trans ?_
    refine List.Perm.trans ?_ ((List.perm_insertionSort _ _).filter _).symm
    rw [List.filter_append, completed, List.filter_map]
    rfl
  refine perm.eq_of_pairwise (fun e f first second before after => ?_)
    (List.pairwise_insertionSort _ _) ((pairwise_sortedEvents h).filter _)
  have has : ∀ event ∈ eventsWhere (· ∈ keep) h.sortedEvents, h.Has event := fun event member =>
    (mem_sortedEvents wellFormed).mp (List.mem_of_mem_filter member)
  exact wellFormed.distinct e f (has e (perm.mem_iff.mp first)) (has f second)
    (Nat.le_antisymm before after)

section Replay

variable {keeps : String → Prop} [DecidablePred keeps] {done rest : List HistoryEvent}
  {event : HistoryEvent}

/-- The next kept event is new, and the kept events with lower numbers were replayed. -/
theorem eventsWhere_split (wellFormed : h.WellFormed)
    (split : eventsWhere keeps h.sortedEvents = done ++ event :: rest) :
    h.Has event ∧ keeps event.operationId ∧ event ∉ done ∧ (∀ other ∈ done, h.Has other) ∧
      ∀ other, h.Has other → keeps other.operationId → other.sequence < event.sequence →
        other ∈ done := by
  have sorted : (eventsWhere keeps h.sortedEvents).Pairwise fun e f => e.sequence ≤ f.sequence :=
    (pairwise_sortedEvents h).filter _
  have nodup : (eventsWhere keeps h.sortedEvents).Nodup := (nodup_sortedEvents wellFormed).filter _
  have members : ∀ other, other ∈ done ++ event :: rest ↔
      h.Has other ∧ keeps other.operationId := by
    intro other
    rw [← split, eventsWhere, List.mem_filter, mem_sortedEvents wellFormed, decide_eq_true_eq]
  rw [split] at sorted nodup
  obtain ⟨has, own⟩ := (members event).mp (List.mem_append_right _ List.mem_cons_self)
  refine ⟨has, own, fun member => ?_, fun other member => ?_, fun other has' own' lower => ?_⟩
  · exact List.disjoint_of_nodup_append nodup member List.mem_cons_self
  · exact ((members other).mp (List.mem_append_left _ member)).1
  · rcases List.mem_append.mp ((members other).mpr ⟨has', own'⟩) with early | late
    · exact early
    · rcases List.mem_cons.mp late with rfl | later
      · exact absurd lower (Nat.lt_irrefl _)
      · have above := (List.pairwise_cons.mp (List.pairwise_append.mp sorted).2.1).1 other later
        omega

/-- The replayed events are in the history under other numbers. -/
theorem Renumbers.has_of_mem (renumbers : Renumbers p done) (member : event ∈ done) :
    ∃ n, p.Has (event.renumber n) := by
  obtain ⟨n, found⟩ := List.getElem?_of_mem member
  have number : (event.renumber n).sequence = n := by cases event <;> rfl
  refine ⟨n, (renumbers.has _).mpr ⟨event, ?_, ?_⟩⟩
  · rw [number]
    exact found
  · rw [number]

/-- An invocation that was not replayed is not in the history. -/
theorem Renumbers.fresh_invocation (renumbers : Renumbers p done)
    (has : ∀ other ∈ done, h.Has other) {invocation : Invocation}
    (known : h.Has (.invoked invocation)) (fresh : HistoryEvent.invoked invocation ∉ done) :
    invocation.operationId ∉ p.invocationsById := by
  intro present
  obtain ⟨copy, found⟩ := Option.isSome_iff_exists.mp (AList.lookup_isSome.mpr present)
  obtain ⟨named, copied⟩ := (lookup_invocationsById renumbers.wellFormed).mp found
  obtain ⟨original, position, same⟩ := (renumbers.has _).mp copied
  have member := List.mem_of_getElem? position
  cases original with
  | completed completion => cases same
  | invoked original =>
      have equal : copy = { original with sequence := copy.sequence } :=
        HistoryEvent.invoked.inj same
      have named' : original.operationId = invocation.operationId := by rw [← named, equal]
      have known' : h.invocationsById.lookup original.operationId = some original := has _ member
      rw [named', show h.invocationsById.lookup invocation.operationId = some invocation
        from known] at known'
      cases known'
      exact fresh member

/-- A completion that was not replayed is not in the history. -/
theorem Renumbers.fresh_completion (renumbers : Renumbers p done)
    (has : ∀ other ∈ done, h.Has other) {completion : Completion}
    (known : h.Has (.completed completion)) (fresh : HistoryEvent.completed completion ∉ done) :
    completion.operationId ∉ p.completions := by
  intro present
  obtain ⟨copy, found⟩ := Option.isSome_iff_exists.mp (AList.lookup_isSome.mpr present)
  obtain ⟨named, copied⟩ := (lookup_completions renumbers.wellFormed).mp found
  obtain ⟨original, position, same⟩ := (renumbers.has _).mp copied
  have member := List.mem_of_getElem? position
  cases original with
  | invoked invocation => cases same
  | completed original =>
      have equal : copy = { original with sequence := copy.sequence } :=
        HistoryEvent.completed.inj same
      have named' : original.operationId = completion.operationId := by rw [← named, equal]
      have known' : h.completions.lookup original.operationId = some original := has _ member
      rw [named', show h.completions.lookup completion.operationId = some completion
        from known] at known'
      cases known'
      exact fresh member

/-- The next kept event replays. -/
theorem Renumbers.replay (wellFormed : h.WellFormed) (renumbers : Renumbers p done)
    (present : p.abandonedIds = ∅)
    (split : eventsWhere keeps h.sortedEvents = done ++ event :: rest) :
    ∃ p', p.replay event = .ok p' ∧ Renumbers p' (done ++ [event]) ∧ p'.abandonedIds = ∅ := by
  obtain ⟨known, own, fresh, has, earlier⟩ := eventsWhere_split wellFormed split
  cases event with
  | invoked invocation =>
      obtain ⟨named, client⟩ := wellFormed.named _ _ known
      have unknown := renumbers.fresh_invocation has known fresh
      obtain ⟨p', returned, present'⟩ : ∃ p', p.invoke invocation.operationId invocation.clientId
          invocation.operation = .ok p' ∧ p'.abandonedIds = ∅ :=
        ⟨_, invoke_eq_ok.mpr ⟨named, client, unknown, rfl⟩, present⟩
      exact ⟨p', returned, renumbers.invoke returned, present'⟩
  | completed completion =>
      obtain ⟨invocation, invoked, before, result⟩ := wellFormed.answers _ _ known
      have name := wellFormed.invocationKey _ _ invoked
      have invoked' : h.Has (.invoked invocation) := by
        rw [Has, name]
        exact invoked
      have member : HistoryEvent.invoked invocation ∈ done := by
        refine earlier _ invoked' ?_ before
        rw [HistoryEvent.operationId, name]
        exact own
      obtain ⟨n, copied⟩ := renumbers.has_of_mem member
      have copy : p.invocationsById.lookup completion.operationId =
          some { invocation with sequence := n } := by
        rw [← name]
        exact copied
      have here : completion.operationId ∉ p.abandonedIds := by
        rw [present]
        exact Finset.notMem_empty _
      have unanswered := renumbers.fresh_completion has known fresh
      obtain ⟨p', returned, present'⟩ : ∃ p', p.respond completion.operationId completion.result =
          .ok p' ∧ p'.abandonedIds = ∅ :=
        ⟨_, respond_eq_ok.mpr ⟨_, copy, unanswered, here, result, rfl⟩, present⟩
      exact ⟨p', returned, renumbers.respond returned, present'⟩

/-- The rest of the kept events replays. -/
theorem Renumbers.foldlM_replay (wellFormed : h.WellFormed) (renumbers : Renumbers p done)
    (present : p.abandonedIds = ∅) (split : eventsWhere keeps h.sortedEvents = done ++ rest) :
    ∃ p', rest.foldlM OperationHistory.replay p = .ok p' ∧
      Renumbers p' (eventsWhere keeps h.sortedEvents) := by
  induction rest generalizing done p with
  | nil =>
      rw [List.append_nil] at split
      rw [split]
      exact ⟨p, rfl, renumbers⟩
  | cons event rest ih =>
      obtain ⟨next, replayed, renumbers', present'⟩ := renumbers.replay wellFormed present split
      rw [List.append_cons] at split
      obtain ⟨p', later, whole⟩ := ih renumbers' present' split
      refine ⟨p', ?_, whole⟩
      rw [List.foldlM_cons, replayed]
      exact later

end Replay

/-- **A projection replays** the events of the kept operations. -/
theorem exists_project (wellFormed : h.WellFormed) (keep : List String) :
    ∃ p, h.project keep = .ok p ∧ Renumbers p (eventsWhere (· ∈ keep) h.sortedEvents) := by
  rw [project, keptEvents_eq wellFormed]
  exact renumbers_empty.foldlM_replay wellFormed rfl (List.nil_append _).symm

/-! ## What the kept operations show -/

section Projected

variable (wellFormed : h.WellFormed) (completed : ∀ id ∈ keep, id ∈ h.completions)
  (renumbers : Renumbers p (eventsWhere (· ∈ keep) h.sortedEvents))

include wellFormed completed renumbers

theorem Renumbers.mem_completions_of_completed {id : String} : id ∈ p.completions ↔ id ∈ keep := by
  rw [renumbers.mem_completions wellFormed]
  exact ⟨And.left, fun own => ⟨own, completed id own⟩⟩

/-- A kept operation was invoked in the projection. -/
theorem Renumbers.exists_invocation {id : String} (own : id ∈ keep) :
    ∃ invocation n, h.invocationsById.lookup id = some invocation ∧
      p.invocationsById.lookup id = some { invocation with sequence := n } := by
  obtain ⟨completion, answered⟩ := Option.isSome_iff_exists.mp
    (AList.lookup_isSome.mpr (completed id own))
  obtain ⟨invocation, invoked, _⟩ := wellFormed.answers id completion answered
  obtain ⟨n, copy⟩ := (renumbers.lookup_invocation wellFormed id).2 invocation invoked own
  exact ⟨invocation, n, invoked, copy⟩

/-- **The projection shows what the history shows** of any of the kept operations. -/
theorem Renumbers.explained_iff {ids : List String} (within : ∀ id ∈ ids, id ∈ keep) :
    p.Explained ids ↔ h.Explained ids := by
  refine exists_congr fun order => ?_
  have answered : ∀ id, ((p.completedObservation.restrict (· ∈ ids)).responded id).isSome ↔
      id ∈ ids := by
    intro id
    rw [Observation.isSome_responded_restrict]
    refine ⟨And.left, fun listed => ⟨listed, isSome_respondedAt.mpr ?_⟩⟩
    exact (renumbers.mem_completions_of_completed wellFormed completed).mpr (within id listed)
  have kept : ∀ id, ((p.completedObservation.restrict (· ∈ ids)).responded id).isSome ∨
      (p.completedObservation.restrict (· ∈ ids)).optional id → id ∈ ids := by
    rintro id (seen | ⟨_, impossible⟩)
    · exact (answered id).mp seen
    · exact impossible.elim
  refine linearizes_congr (fun id => ?_) (fun _ => Iff.rfl) (fun a b first second => ?_)
    fun id allowed value => ?_
  · rw [answered, Observation.isSome_responded_restrict]
    exact ⟨And.left, fun listed =>
      ⟨listed, isSome_respondedAt.mpr (completed id (within id listed))⟩⟩
  · obtain ⟨_, n, _, copy⟩ := renumbers.exists_invocation wellFormed completed
      (within b (kept b second))
    rw [Observation.precedes_restrict, Observation.precedes_restrict]
    refine and_congr_right fun listed => ?_
    exact ⟨fun precedes => (renumbers.precedes_iff wellFormed copy).mpr ⟨within a listed, precedes⟩,
      fun precedes => ((renumbers.precedes_iff wellFormed copy).mp precedes).2⟩
  · obtain ⟨_, n, _, copy⟩ := renumbers.exists_invocation wellFormed completed
      (within id (kept id allowed))
    exact congrFun (renumbers.registerStep_eq wellFormed copy) value

/-- The projection is linearizable when the kept operations are explained. -/
theorem Renumbers.linearizable_iff :
    (∃ order, p.LinearizesCompleted order) ↔ h.Explained keep := by
  rw [← explained_completedIds renumbers.wellFormed]
  have same : ∀ id, id ∈ p.completedOperations.map CompletedOperation.operationId ↔ id ∈ keep :=
    fun id => (mem_completedIds renumbers.wellFormed).trans
      (renumbers.mem_completions_of_completed wellFormed completed)
  rw [renumbers.explained_iff wellFormed completed fun id listed => (same id).mp listed]
  refine exists_congr fun order => ?_
  refine linearizes_congr (fun id => ?_) (fun id => ?_) (fun a b _ _ => ?_) fun _ _ _ => rfl
  · rw [Observation.isSome_responded_restrict, Observation.isSome_responded_restrict, same]
  · exact ⟨fun optional => optional.2.elim, fun optional => optional.2.elim⟩
  · rw [Observation.precedes_restrict, Observation.precedes_restrict, same]

omit completed in
/-- The operations of the projection are completed operations of the history. -/
theorem Renumbers.original_of_completed {item : CompletedOperation}
    (member : item ∈ p.completedOperations) :
    ∃ original ∈ h.completedOperations, item.operationId = original.operationId ∧
      item.invocation.clientId = original.invocation.clientId ∧
      item.invocation.operation = original.invocation.operation ∧
      item.completion.result = original.completion.result := by
  obtain ⟨invoked, answered⟩ := (mem_completedOperations renumbers.wellFormed).mp member
  obtain ⟨invocation, found, own, same, _⟩ :=
    (renumbers.lookup_invocation wellFormed _).1 _ invoked
  obtain ⟨completion, found', _, same', _⟩ :=
    (renumbers.lookup_completion wellFormed _).1 _ answered
  have named : invocation.operationId = item.operationId := wellFormed.invocationKey _ _ found
  refine ⟨⟨invocation, completion⟩, (mem_completedOperations wellFormed).mpr ⟨?_, ?_⟩, named.symm,
    ?_, ?_, ?_⟩
  · exact (congrArg h.invocationsById.lookup named).trans found
  · exact (congrArg h.completions.lookup named).trans found'
  · rw [same]
  · rw [same]
  · rw [same']

/-- The projection is deep when the kept operations are. -/
theorem Renumbers.deepAmong_iff {frames : ℕ} (nodup : keep.Nodup) :
    p.DeepAmong frames (p.completedOperations.map CompletedOperation.operationId) ↔
      h.DeepAmong frames keep := by
  have size : (p.completedOperations.map CompletedOperation.operationId).Perm keep :=
    (List.perm_ext_iff_of_nodup (nodup_completedOperations renumbers.wellFormed) nodup).mpr
      fun id => (mem_completedIds renumbers.wellFormed).trans
        (renumbers.mem_completions_of_completed wellFormed completed)
  have answered : ∀ id, (p.completedObservation.responded id).isSome ↔ id ∈ keep := fun id =>
    isSome_respondedAt.trans (renumbers.mem_completions_of_completed wellFormed completed)
  have answered' : ∀ id, ((h.completedObservation.restrict (· ∈ keep)).responded id).isSome ↔
      id ∈ keep := fun _ => isSome_responded_kept completed
  have precedes : ∀ b ∈ keep, ∀ a, p.completedObservation.Precedes a b ↔
      (h.completedObservation.restrict (· ∈ keep)).Precedes a b := by
    intro b own a
    obtain ⟨_, _, _, copy⟩ := renumbers.exists_invocation wellFormed completed own
    rw [Observation.precedes_restrict]
    exact renumbers.precedes_iff wellFormed copy
  have same : ∀ id ∈ keep, ∀ value, p.registerStep id value = h.registerStep id value := by
    intro id own value
    obtain ⟨_, _, _, copy⟩ := renumbers.exists_invocation wellFormed completed own
    exact congrFun (renumbers.registerStep_eq wellFormed copy) value
  have own : ∀ id, (p.completedObservation.responded id).isSome ∨
      p.completedObservation.optional id → id ∈ keep := fun id allowed =>
    (answered id).mp (allowed.resolve_right not_false)
  have own' : ∀ id, ((h.completedObservation.restrict (· ∈ keep)).responded id).isSome ∨
      (h.completedObservation.restrict (· ∈ keep)).optional id → id ∈ keep := fun id allowed =>
    (answered' id).mp (allowed.resolve_right And.right)
  rw [deepAmong_completedIds renumbers.wellFormed, DeepAmong,
    ← List.length_map CompletedOperation.operationId, size.length_eq]
  refine exists_congr fun order => and_congr_left' ⟨fun begins => ?_, fun begins => ?_⟩
  · exact begins.congr (fun id allowed => .inl ((answered' id).mpr (own id allowed)))
      (fun b allowed a => (precedes b (own b allowed) a).symm)
      fun id allowed => same id (own id allowed)
  · exact begins.congr (fun id allowed => .inl ((answered id).mpr (own' id allowed)))
      (fun b allowed a => precedes b (own' b allowed) a)
      fun id allowed value => (same id (own' id allowed) value).symm

omit completed in
/-- A projection of a history of one key is one. -/
theorem Renumbers.oneKey (oneKey : ∀ item ∈ h.completedOperations,
      ∀ item' ∈ h.completedOperations,
        item.invocation.operation.key = item'.invocation.operation.key) :
    ∀ item ∈ p.completedOperations, ∀ item' ∈ p.completedOperations,
      item.invocation.operation.key = item'.invocation.operation.key := by
  intro item member item' member'
  obtain ⟨original, listed, _, _, operation, _⟩ :=
    renumbers.original_of_completed wellFormed member
  obtain ⟨original', listed', _, _, operation', _⟩ :=
    renumbers.original_of_completed wellFormed member'
  rw [operation, operation']
  exact oneKey original listed original' listed'

end Projected

end OperationHistory

open OperationHistory

/-! ## The loops -/

section Loops

variable {h : OperationHistory} {frames : ℕ} {current ids : List String}
  (wellFormed : h.WellFormed)
  (oneKey : ∀ item ∈ h.completedOperations, ∀ item' ∈ h.completedOperations,
    item.invocation.operation.key = item'.invocation.operation.key)

include wellFormed oneKey

/-- A candidate that is not deep still fails when its operations cannot be explained. -/
theorem stillFails_exact {candidateIds : List String} (nodup : candidateIds.Nodup)
    (completed : ∀ id ∈ candidateIds, id ∈ h.completions)
    (shallow : ¬ h.DeepAmong frames candidateIds) :
    ∃ fails, stillFails frames h candidateIds = .ok fails ∧
      (fails = true ↔ ¬ h.Explained candidateIds) := by
  obtain ⟨p, projected, renumbers⟩ := exists_project wellFormed candidateIds
  obtain ⟨answer, explains, checked⟩ := check_returns renumbers.wellFormed
    (renumbers.oneKey wellFormed oneKey)
    ((renumbers.deepAmong_iff wellFormed completed nodup).not.mpr shallow)
  refine ⟨!answer.isSome, ?_, ?_⟩
  · unfold stillFails
    rw [projected]
    exact bind_eq_ok.mpr ⟨p, rfl, by rw [checked]; rfl⟩
  · rw [Bool.not_eq_true', ← Bool.not_eq_true, explains.isSome_iff,
      renumbers.linearizable_iff wellFormed completed]

/-- The search on a deep candidate is nested too deep. -/
theorem stillFails_overflows {candidateIds : List String} (nodup : candidateIds.Nodup)
    (completed : ∀ id ∈ candidateIds, id ∈ h.completions)
    (deep : h.DeepAmong frames candidateIds) :
    stillFails frames h candidateIds = .error (.checker .recursion) := by
  obtain ⟨p, projected, renumbers⟩ := exists_project wellFormed candidateIds
  have checked := check_overflows renumbers.wellFormed (renumbers.oneKey wellFormed oneKey)
    ((renumbers.deepAmong_iff wellFormed completed nodup).mpr deep)
  unfold stillFails
  rw [projected]
  simp only [Except.mapError, bind, Except.bind, checked]

/-- The scan returns, and finds a deletion that still fails if there is one. -/
theorem firstRemoval_exact (nodup : current.Nodup)
    (completed : ∀ id ∈ current, id ∈ h.completions) (ids : List String)
    (shallow : ∀ id ∈ ids, ¬ h.DeepAmong frames (current.filter (· ≠ id))) :
    ∃ found, firstRemoval frames h current ids = .ok found ∧
      (found = none → ∀ id ∈ ids, h.Explained (current.filter (· ≠ id))) ∧
      ∀ candidateIds, found = some candidateIds →
        ∃ id ∈ ids, candidateIds = current.filter (· ≠ id) ∧ ¬ h.Explained candidateIds := by
  induction ids with
  | nil => exact ⟨none, rfl, fun _ _ member => absurd member List.not_mem_nil, by rintro _ ⟨⟩⟩
  | cons id rest ih =>
      obtain ⟨here, shallowRest⟩ := List.forall_mem_cons.mp shallow
      have candidates : ∀ other ∈ current.filter (· ≠ id), other ∈ h.completions :=
        fun other member => completed other (List.mem_of_mem_filter member)
      obtain ⟨fails, tested, exact'⟩ :=
        stillFails_exact wellFormed oneKey (nodup.filter _) candidates here
      cases fails with
      | true =>
          refine ⟨some (current.filter (· ≠ id)), ?_, ?_, ?_⟩
          · rw [firstRemoval, tested]
            rfl
          · rintro ⟨⟩
          · rintro _ ⟨⟩
            exact ⟨id, List.mem_cons_self, rfl, exact'.mp rfl⟩
      | false =>
          obtain ⟨found, scanned, none', some'⟩ := ih shallowRest
          have explained : h.Explained (current.filter (· ≠ id)) := by
            by_contra unexplained
            exact Bool.false_ne_true (exact'.mpr unexplained)
          refine ⟨found, ?_, fun missed => ?_, fun candidateIds hit => ?_⟩
          · rw [firstRemoval, tested]
            exact scanned
          · exact List.forall_mem_cons.mpr ⟨explained, none' missed⟩
          · obtain ⟨other, listed, same, unexplained⟩ := some' candidateIds hit
            exact ⟨other, List.mem_cons_of_mem _ listed, same, unexplained⟩

/-- **The loop ends** with operations that cannot be explained, though any of them fewer
can. It does where any fewer operations are few. -/
theorem removalLoop_exact {fuel : ℕ} (enough : current.length < fuel)
    (small : current.length ≤ 1 ∨ current.length ≤ frames) (nodup : current.Nodup)
    (completed : ∀ id ∈ current, id ∈ h.completions) (unexplained : ¬ h.Explained current) :
    ∃ kept, removalLoop frames h fuel current = .returned kept ∧ kept.Sublist current ∧
      ¬ h.Explained kept ∧ ∀ id ∈ kept, h.Explained (kept.filter (· ≠ id)) := by
  induction fuel generalizing current with
  | zero => exact absurd enough (Nat.not_lt_zero _)
  | succ fuel ih =>
      have shorter : ∀ id ∈ current, (current.filter (· ≠ id)).length < current.length :=
        fun id listed => List.length_filter_lt_length_iff_exists.mpr ⟨id, listed, by simp⟩
      have shallow : ∀ id ∈ current, ¬ h.DeepAmong frames (current.filter (· ≠ id)) := by
        intro id listed
        have fewer := shorter id listed
        refine not_deepAmong_of_few (small.imp (fun one => ?_) fun few => by omega)
        exact List.eq_nil_of_length_eq_zero (by omega)
      obtain ⟨found, scanned, none', some'⟩ :=
        firstRemoval_exact wellFormed oneKey nodup completed current shallow
      cases found with
      | none =>
          refine ⟨current, ?_, List.Sublist.refl _, unexplained, none' rfl⟩
          rw [removalLoop, scanned]
          rfl
      | some candidateIds =>
          obtain ⟨id, listed, rfl, unexplained'⟩ := some' candidateIds rfl
          have fewer := shorter id listed
          obtain ⟨kept, looped, sublist, rest⟩ := ih (by omega) (by omega) (nodup.filter _)
            (fun other member => completed other (List.mem_of_mem_filter member)) unexplained'
          refine ⟨kept, ?_, sublist.trans List.filter_sublist, rest⟩
          rw [removalLoop, scanned]
          exact looped

end Loops

/-! ## Leaving out the first operations -/

/-- Completed operations are left out one by one, in the order of their invocations, up to the
first rest that can be explained: no rest up to this one is deep. -/
def OperationHistory.ShallowRests (frames : ℕ) (h : OperationHistory) : Prop :=
  let ids := h.completedOperations.map CompletedOperation.operationId
  ∀ n, (∀ m < n, ¬ h.Explained (ids.drop m)) → ¬ h.DeepAmong frames (ids.drop n)

/-- Few operations have shallow rests. -/
theorem OperationHistory.shallowRests_of_few {h : OperationHistory} {frames : ℕ}
    (few : h.FewCompleted frames) : h.ShallowRests frames := by
  intro n _
  refine not_deepAmong_of_few ((fewCompleted_iff.mp few).imp (fun empty => ?_) fun few => ?_)
  · rw [empty, List.drop_nil]
  · rw [List.length_drop]
    exact (Nat.sub_le _ _).trans_lt few

section Rests

variable {h : OperationHistory} {frames : ℕ} {ids : List String}
  (wellFormed : h.WellFormed)
  (oneKey : ∀ item ∈ h.completedOperations, ∀ item' ∈ h.completedOperations,
    item.invocation.operation.key = item'.invocation.operation.key)
  (nodup : ids.Nodup) (completed : ∀ id ∈ ids, id ∈ h.completions)

omit wellFormed oneKey completed in
include nodup in
/-- Without its first operation a rest is the next one. -/
theorem rest_cases {n : ℕ} (some' : ids.drop n ≠ []) :
    ∃ first, ids.drop n = first :: ids.drop (n + 1) ∧
      (ids.drop n).filter (· ≠ first) = ids.drop (n + 1) := by
  obtain ⟨first, rest, listed⟩ := List.exists_cons_of_ne_nil some'
  have next : ids.drop (n + 1) = rest := by
    rw [← List.tail_drop, listed, List.tail_cons]
  have distinct := nodup.sublist (List.drop_sublist n ids)
  rw [listed] at distinct ⊢
  refine ⟨first, by rw [next], ?_⟩
  rw [List.filter_cons_of_neg (by simp), next, List.filter_eq_self]
  intro other member
  have different : other ≠ first := fun same => (List.nodup_cons.mp distinct).1 (same ▸ member)
  exact decide_eq_true different

include wellFormed oneKey nodup completed

/-- While the rests cannot be explained the loop leaves out the first operation. -/
theorem removalLoop_next {n fuel : ℕ} (some' : ids.drop n ≠ [])
    (shallow : ¬ h.DeepAmong frames (ids.drop (n + 1)))
    (unexplained : ¬ h.Explained (ids.drop (n + 1))) :
    removalLoop frames h (fuel + 1) (ids.drop n) =
      removalLoop frames h fuel (ids.drop (n + 1)) := by
  obtain ⟨first, listed, without⟩ := rest_cases nodup some'
  obtain ⟨fails, tested, exact'⟩ := stillFails_exact wellFormed oneKey
    (nodup.sublist (List.drop_sublist (n + 1) ids))
    (fun id member => completed id (List.mem_of_mem_drop member)) shallow
  have scanned : firstRemoval frames h (ids.drop n) (ids.drop n) =
      .ok (some (ids.drop (n + 1))) := by
    nth_rewrite 2 [listed]
    rw [firstRemoval, without, tested, exact'.mpr unexplained]
    rfl
  rw [removalLoop, scanned]
  rfl

/-- **The loop ends** where the rests are shallow. -/
theorem removalLoop_of_shallowRests {n fuel : ℕ} (enough : (ids.drop n).length < fuel)
    (unexplained : ∀ m < n + 1, ¬ h.Explained (ids.drop m))
    (shallow : ∀ n, (∀ m < n, ¬ h.Explained (ids.drop m)) → ¬ h.DeepAmong frames (ids.drop n)) :
    ∃ kept, removalLoop frames h fuel (ids.drop n) = .returned kept ∧
      kept.Sublist (ids.drop n) ∧ ¬ h.Explained kept ∧
        ∀ id ∈ kept, h.Explained (kept.filter (· ≠ id)) := by
  induction fuel generalizing n with
  | zero => exact absurd enough (Nat.not_lt_zero _)
  | succ fuel ih =>
      have part : (ids.drop (n + 1)).Nodup := nodup.sublist (List.drop_sublist (n + 1) ids)
      have answered : ∀ m, ∀ id ∈ ids.drop m, id ∈ h.completions := fun m id member =>
        completed id (List.mem_of_mem_drop member)
      have size : (ids.drop n).length ≤ (ids.drop (n + 1)).length + 1 := by
        rw [List.length_drop, List.length_drop]
        omega
      by_cases explained : h.Explained (ids.drop (n + 1))
      · have few := few_of_explained part (answered (n + 1)) explained
          (shallow (n + 1) unexplained)
        have small : (ids.drop n).length ≤ 1 ∨ (ids.drop n).length ≤ frames := by
          refine few.imp (fun empty => ?_) fun few => by omega
          rwa [empty, List.length_nil] at size
        exact removalLoop_exact wellFormed oneKey enough small
          (nodup.sublist (List.drop_sublist n ids)) (answered n)
          (unexplained n (Nat.lt_succ_self n))
      · have some' : ids.drop n ≠ [] := by
          intro empty
          refine unexplained n (Nat.lt_succ_self n) (empty ▸ ?_)
          exact ⟨[], .nil, fun id seen => absurd
            ((Observation.isSome_responded_restrict _).mp seen).1 List.not_mem_nil,
            fun id member => absurd member List.not_mem_nil, .nil, trivial⟩
        rw [removalLoop_next wellFormed oneKey nodup completed some'
          (shallow (n + 1) unexplained) explained]
        have shorter : (ids.drop (n + 1)).length < (ids.drop n).length := by
          have positive := List.length_pos_iff.mpr some'
          rw [List.length_drop] at positive ⊢
          rw [List.length_drop]
          omega
        obtain ⟨kept, looped, sublist, rest⟩ := ih (n := n + 1) (by omega) fun m below =>
          (Nat.lt_succ_iff_lt_or_eq.mp below).elim (unexplained m) fun same => same ▸ explained
        refine ⟨kept, looped, sublist.trans ?_, rest⟩
        rw [← List.tail_drop]
        exact List.tail_sublist _

/-- Before a deep rest the loop does not end. -/
theorem removalLoop_ne_returned {n k fuel : ℕ} (below : k < n)
    (unexplained : ∀ m < n, ¬ h.Explained (ids.drop m)) (deep : h.DeepAmong frames (ids.drop n))
    (kept : List String) : removalLoop frames h fuel (ids.drop k) ≠ .returned kept := by
  induction fuel generalizing k with
  | zero => exact nofun
  | succ fuel ih =>
      have some' : ids.drop k ≠ [] := by
        obtain ⟨order, -, fewer, -⟩ := deep
        refine List.ne_nil_of_length_pos ?_
        rw [List.length_drop] at fewer ⊢
        omega
      by_cases next : h.DeepAmong frames (ids.drop (k + 1))
      · obtain ⟨first, listed, without⟩ := rest_cases nodup some'
        have raises := stillFails_overflows wellFormed oneKey
          (nodup.sublist (List.drop_sublist (k + 1) ids))
          (fun id member => completed id (List.mem_of_mem_drop member)) next
        have scanned : firstRemoval frames h (ids.drop k) (ids.drop k) =
            .error (.checker .recursion) := by
          nth_rewrite 2 [listed]
          rw [firstRemoval, without, raises]
          rfl
        rw [removalLoop, scanned]
        exact nofun
      · have later : k + 1 < n := by
          refine lt_of_le_of_ne below fun same => next (same ▸ deep)
        rw [removalLoop_next wellFormed oneKey nodup completed some' next
          (unexplained (k + 1) later)]
        exact ih later

end Rests

/-- **The minimizer returns** only where the rests are shallow. -/
theorem shallowRests_of_minimize {h : OperationHistory} {frames : ℕ}
    (wellFormed : h.WellFormed)
    (oneKey : ∀ item ∈ h.completedOperations, ∀ item' ∈ h.completedOperations,
      item.invocation.operation.key = item'.invocation.operation.key)
    {result : HistoryMinimizationResult} (minimized : minimize frames h = .returned result) :
    h.ShallowRests frames := by
  intro n unexplained deep
  obtain ⟨verdict, checked, minimized⟩ := Looped.bind_eq_returned.mp minimized
  split at minimized
  next => cases minimized
  dsimp only at minimized
  split at minimized
  next => cases minimized
  obtain ⟨kept, looped, -⟩ := Looped.bind_eq_returned.mp minimized
  rcases Nat.eq_zero_or_pos n with rfl | positive
  · rw [check_overflows wellFormed oneKey deep] at checked
    cases checked
  · exact removalLoop_ne_returned wellFormed oneKey (nodup_completedOperations wellFormed)
      (fun id => (mem_completedIds wellFormed).mp) positive unexplained deep kept looped

/-- A read of a value that is not written yet leaves a deep rest: the writes. -/
theorem OperationHistory.ReadThenWrites.not_shallowRests {h : OperationHistory} {value : String}
    {n : ℕ} (filled : ReadThenWrites (some value) n h) (some' : 0 < n) : ¬ h.ShallowRests n := by
  intro shallow
  refine shallow 1 (fun m below => ?_)
    (filled.deep_of_explained le_rfl some' filled.explained_writes)
  rw [Nat.lt_one_iff.mp below, List.drop_zero, explained_completedIds filled.wellFormed]
  exact filled.not_linearizes

/-- **The minimizer of a history** that is not linearizable ends with a part of it that
cannot be linearized, though without any one operation it can, if and only if the rests of the
history are shallow. -/
theorem minimize_minimal (frames : ℕ) (calls : List HistoryCall)
    (oneKey : ∀ item ∈ (recorded calls).completedOperations,
      ∀ item' ∈ (recorded calls).completedOperations,
        item.invocation.operation.key = item'.invocation.operation.key)
    (fails : ¬ ∃ order, (recorded calls).LinearizesCompleted order) :
    (∃ result, minimize frames (recorded calls) = .returned result ∧
      (∀ item ∈ result.history.completedOperations,
        ∃ original ∈ (recorded calls).completedOperations,
          item.operationId = original.operationId ∧
          item.invocation.clientId = original.invocation.clientId ∧
          item.invocation.operation = original.invocation.operation ∧
          item.completion.result = original.completion.result) ∧
      (∀ id, id ∈ result.history.completions ↔ id ∈ result.operationIds) ∧
      (∀ id, id ∈ result.history.invocationsById ↔ id ∈ result.operationIds) ∧
      (∀ a ∈ result.operationIds, ∀ b ∈ result.operationIds,
        (result.history.completedObservation.Precedes a b ↔
          (recorded calls).completedObservation.Precedes a b)) ∧
      (¬ ∃ order, result.history.LinearizesCompleted order) ∧
      (∀ id ∈ result.operationIds, ∃ smaller,
        result.history.project (result.operationIds.filter (· ≠ id)) = .ok smaller ∧
          ∃ order, smaller.LinearizesCompleted order) ∧
      (result.operationIds ++ result.removedOperationIds).Perm
        ((recorded calls).invocations.map Invocation.operationId)) ↔
      (recorded calls).ShallowRests frames := by
  have wellFormed := recorded_wellFormed calls
  generalize recorded calls = h at *
  refine ⟨fun ⟨result, minimized, _⟩ => shallowRests_of_minimize wellFormed oneKey minimized,
    fun shallow => ?_⟩
  have completed : ∀ id ∈ h.completedOperations.map CompletedOperation.operationId,
      id ∈ h.completions := fun id => (mem_completedIds wellFormed).mp
  have unexplained : ¬ h.Explained (h.completedOperations.map CompletedOperation.operationId) :=
    fun explained => fails ((explained_completedIds wellFormed).mp explained)
  obtain ⟨kept, looped, sublist, unexplained', fewer⟩ := removalLoop_of_shallowRests (n := 0)
    wellFormed oneKey (nodup_completedOperations wellFormed) completed (Nat.lt_succ_self _)
    (fun m below => by rwa [Nat.lt_one_iff.mp below, List.drop_zero]) shallow
  rw [List.drop_zero] at looped sublist
  have start := shallow 0 fun m below => absurd below (Nat.not_lt_zero m)
  rw [List.drop_zero] at start
  have keptCompleted : ∀ id ∈ kept, id ∈ h.completions := fun id member =>
    completed id (sublist.subset member)
  obtain ⟨p, projected, renumbers⟩ := exists_project wellFormed kept
  have linearizable := renumbers.linearizable_iff wellFormed keptCompleted
  obtain ⟨answer, explains, checked⟩ := check_returns wellFormed oneKey start
  have none' : answer = none := by
    cases answer with
    | none => rfl
    | some order => exact absurd ⟨order, explains⟩ fails
  subst none'
  have nonempty : h.completedOperations.map CompletedOperation.operationId ≠ [] := by
    intro empty
    rw [List.map_eq_nil_iff] at empty
    unfold check at checked
    rw [if_pos empty] at checked
    cases checked
  refine ⟨⟨p, kept, (h.invocations.map Invocation.operationId).filter (· ∉ kept)⟩, ?_,
    fun item member => renumbers.original_of_completed wellFormed member,
    fun id => renumbers.mem_completions_of_completed wellFormed keptCompleted, fun id => ?_,
    fun a first b second => ?_, fun found => unexplained' (linearizable.mp found),
    fun id member => ?_, ?_⟩
  · unfold minimize
    rw [checked]
    refine Looped.bind_eq_returned.mpr ⟨_, rfl, ?_⟩
    dsimp only
    rw [if_neg (by decide), if_neg nonempty]
    refine Looped.bind_eq_returned.mpr ⟨kept, looped, ?_⟩
    rw [projected]
    rfl
  · constructor
    · intro invoked
      obtain ⟨copy, found⟩ := Option.isSome_iff_exists.mp (AList.lookup_isSome.mpr invoked)
      obtain ⟨_, _, own, _⟩ := (renumbers.lookup_invocation wellFormed id).1 copy found
      exact own
    · intro own
      obtain ⟨_, _, _, copy⟩ := renumbers.exists_invocation wellFormed keptCompleted own
      exact AList.lookup_isSome.mp (Option.isSome_of_mem copy)
  · obtain ⟨_, _, _, copy⟩ := renumbers.exists_invocation wellFormed keptCompleted second
    exact (renumbers.precedes_iff wellFormed copy).trans (and_iff_right first)
  · have within : ∀ other ∈ kept.filter (· ≠ id), other ∈ kept := fun _ =>
      List.mem_of_mem_filter
    have answered : ∀ other ∈ kept.filter (· ≠ id), other ∈ p.completions := fun other listed =>
      (renumbers.mem_completions_of_completed wellFormed keptCompleted).mpr (within other listed)
    obtain ⟨smaller, projected', renumbers'⟩ :=
      exists_project renumbers.wellFormed (kept.filter (· ≠ id))
    refine ⟨smaller, projected', ?_⟩
    rw [renumbers'.linearizable_iff renumbers.wellFormed answered,
      renumbers.explained_iff wellFormed keptCompleted within]
    exact fewer id member
  · have keptNodup : kept.Nodup := sublist.nodup (nodup_completedOperations wellFormed)
    have nodup := nodup_invocations wellFormed
    refine (List.perm_ext_iff_of_nodup ?_ nodup).mpr fun id => ?_
    · refine keptNodup.append (nodup.filter _) fun id own removed => ?_
      exact of_decide_eq_true (List.mem_filter.mp removed).2 own
    · rw [List.mem_append, List.mem_filter, decide_eq_true_eq]
      constructor
      · rintro (own | ⟨listed, _⟩)
        · obtain ⟨invocation, _, found, _⟩ :=
            renumbers.exists_invocation wellFormed keptCompleted own
          have named := wellFormed.invocationKey id invocation found
          refine List.mem_map.mpr ⟨invocation, (mem_invocations wellFormed).mpr ?_, named⟩
          rw [named]
          exact found
        · exact listed
      · intro listed
        by_cases own : id ∈ kept
        · exact .inl own
        · exact .inr ⟨listed, own⟩

/-- A deletion, a write, and a read of a value that was never written. -/
def staleRead : List HistoryCall :=
  [.invoke "d" "alice" (.write (.delete "k")), .respond "d" none,
    .invoke "w" "alice" (.write (.put "k" "1")), .respond "w" none,
    .invoke "r" "bob" (.get "k"), .respond "r" (some "2")]

/-- The history of a read of a value that was never written is minimized. -/
theorem minimize_minimal_stale :
    ∃ result, minimize 4 (recorded staleRead) = .returned result ∧
      ¬ ∃ order, result.history.LinearizesCompleted order := by
  have few : (recorded staleRead).FewCompleted 4 := by decide +kernel
  have oneKey : ∀ item ∈ (recorded staleRead).completedOperations,
      ∀ item' ∈ (recorded staleRead).completedOperations,
        item.invocation.operation.key = item'.invocation.operation.key := by decide +kernel
  have checked : check 4 (recorded staleRead) = .ok ⟨false, []⟩ := by decide +kernel
  obtain ⟨answer, explains, same, -⟩ := check_answers (recorded_wellFormed staleRead) checked
  cases answer with
  | some order => cases same
  | none =>
      obtain ⟨result, minimized, _, _, _, _, fails, _⟩ :=
        (minimize_minimal 4 staleRead oneKey explains).mpr (shallowRests_of_few few)
      exact ⟨result, minimized, fails⟩

/-- A read of a value that is not written yet and a thousand writes after it are not
linearizable. The minimizer raises: it leaves out the read first, and the search for an order
of the writes is nested too deep for a thousand frames. -/
theorem thousand_writes_not_minimized :
    (¬ ∃ order, (recorded (readThenWrites (some "2") 1000)).LinearizesCompleted order) ∧
      ∀ result, minimize 1000 (recorded (readThenWrites (some "2") 1000)) ≠
        .returned result := by
  have filled := readThenWrites_recorded (some "2") 1000
  refine ⟨filled.not_linearizes, fun result minimized => ?_⟩
  exact filled.not_shallowRests (by decide) (shallowRests_of_minimize filled.wellFormed
    filled.oneKey minimized)

end Distlab.Clients
