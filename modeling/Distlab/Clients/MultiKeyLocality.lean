import Distlab.Clients.Projections

/-!
# The multi-key checker is exact

The verdict of the multi-key checker is that of one global order over one key/value
map (`multi_key_locality`): the histories of the keys are the projections of the whole
history, and linearizability is local.
-/

set_option autoImplicit false

namespace Distlab.Clients

open Foundations Foundations.Linearizability

namespace OperationHistory

/-! ## One key/value map -/

/-- An operation on a key/value map: a completed read returned the value of its key. -/
def storeStep (h : OperationHistory) (id : String) (store : String → HistoryResult) :
    Option (String → HistoryResult) :=
  match (h.invocationsById.lookup id).map Invocation.operation with
  | some (.write (.put key value)) => some (Function.update store key (some value))
  | some (.write (.delete key)) => some (Function.update store key none)
  | some (.get key) =>
      if (h.completions.lookup id).any (·.result = store key) then some store else none
  | none => none

/-- An order of the completed operations and some pending writes of all keys that
explains them. -/
abbrev LinearizesGlobally (h : OperationHistory) (order : List String) : Prop :=
  Linearizes h.extendedObservation h.storeStep (fun _ => none) order

variable {h : OperationHistory}

/-- The map is one register for each key. -/
theorem storeStep_eq : h.storeStep = sharedStep h.keyOf h.registerStep := by
  funext id store
  cases invoked : h.invocationsById.lookup id with
  | none => simp only [storeStep, sharedStep, registerStep, invoked, Option.map_none]
  | some invocation =>
      obtain ⟨_, _, operation, _⟩ := invocation
      have keyed : h.keyOf id = operation.key := by
        rw [keyOf, invoked]
        rfl
      cases operation with
      | get key =>
          rw [sharedStep, show h.keyOf id = key from keyed, storeStep, registerStep, invoked,
            Option.map_some]
          dsimp only
          split
          next => rw [Option.map_some, Function.update_eq_self]
          next => rw [Option.map_none]
      | write change =>
          rw [sharedStep, keyed, storeStep, registerStep, invoked]
          cases change with
          | put key value => rfl
          | delete key => rfl

/-! ## The replay of the events -/

/-- The history of each key consists of the key's events. -/
def ProjectsTo (h : OperationHistory) (projected : Projected) (events : List HistoryEvent) :
    Prop :=
  ∀ key history, projected.lookup key = some history →
    Renumbers history (h.eventsOf key events)

/-- Every invoked key gets an empty history. -/
theorem emptyProjections_from (invocations : List Invocation) (projected : Projected)
    (key : String) :
    (key ∈ invocations.foldl (fun projected invocation =>
        Dict.setDefault projected invocation.operation.key ({} : OperationHistory)) projected ↔
      key ∈ projected ∨ ∃ invocation ∈ invocations, invocation.operation.key = key) ∧
    ∀ history, (invocations.foldl (fun projected invocation =>
        Dict.setDefault projected invocation.operation.key ({} : OperationHistory))
          projected).lookup key = some history →
      projected.lookup key = some history ∨ history = {} := by
  induction invocations generalizing projected with
  | nil => simpa using fun history found => .inl found
  | cons invocation rest ih =>
      obtain ⟨member, found⟩ := ih (Dict.setDefault projected invocation.operation.key {})
      constructor
      · rw [List.foldl_cons, member, Dict.mem_setDefault]
        simp only [List.mem_cons, exists_eq_or_imp]
        rw [eq_comm (a := key), or_assoc, or_left_comm]
      · intro history located
        rcases found history located with old | rfl
        · exact (Dict.of_lookup_setDefault old).imp id And.right
        · exact .inr rfl

theorem mem_emptyProjections {invocations : List Invocation} {key : String} :
    key ∈ emptyProjections invocations ↔
      ∃ invocation ∈ invocations, invocation.operation.key = key :=
  (emptyProjections_from invocations ∅ key).1.trans
    (or_iff_right (AList.notMem_empty key))

theorem projectsTo_emptyProjections (invocations : List Invocation) :
    h.ProjectsTo (emptyProjections invocations) [] := by
  intro key history found
  rcases (emptyProjections_from invocations ∅ key).2 history found with old | rfl
  · cases old
  · exact renumbers_empty

/-- Replaying an event adds it to its key. -/
theorem ProjectsTo.insert {projected : Projected} {events : List HistoryEvent}
    (projects : h.ProjectsTo projected events) (event : HistoryEvent)
    {history' : OperationHistory}
    (renumbers : Renumbers history' (h.eventsOf (h.keyOf event.operationId) events ++ [event])) :
    h.ProjectsTo (projected.insert (h.keyOf event.operationId) history') (events ++ [event]) := by
  intro key history found
  rw [eventsOf, List.filter_append]
  rcases Dict.of_lookup_insert found with ⟨rfl, rfl⟩ | ⟨other, old⟩
  · rw [List.filter_cons_of_pos (by simp), List.filter_nil]
    exact renumbers
  · rw [List.filter_cons_of_neg (by simpa using Ne.symm other), List.filter_nil, List.append_nil]
    exact projects key history old

/-- Inserting at a present key adds no key. -/
theorem mem_insert_present {projected : Projected} {key : String} {old new : OperationHistory}
    (found : projected.lookup key = some old) (key' : String) :
    key' ∈ projected.insert key new ↔ key' ∈ projected := by
  rw [AList.mem_insert]
  refine or_iff_right_of_imp ?_
  rintro rfl
  exact AList.lookup_isSome.mp (Option.isSome_of_mem found)

theorem ProjectsTo.replayEvent {projected projected' : Projected}
    {events : List HistoryEvent} (projects : h.ProjectsTo projected events)
    {event : HistoryEvent} (has : h.Has event)
    (replayed : replayEvent h projected event = .ok projected') :
    h.ProjectsTo projected' (events ++ [event]) ∧ ∀ key, key ∈ projected' ↔ key ∈ projected := by
  unfold Clients.replayEvent at replayed
  cases event with
  | invoked invocation =>
      have keyed : h.keyOf invocation.operationId = invocation.operation.key := by
        rw [keyOf, show h.invocationsById.lookup invocation.operationId = some invocation from has]
        rfl
      dsimp only at replayed
      split at replayed
      next => cases replayed
      next history found =>
        split at replayed
        next => cases replayed
        next history' returned =>
          cases replayed
          rw [← keyed] at found ⊢
          exact ⟨projects.insert (.invoked invocation)
            ((projects _ history found).invoke returned), mem_insert_present found⟩
  | completed completion =>
      dsimp only at replayed
      split at replayed
      next => cases replayed
      next invocation invoked =>
        have keyed : h.keyOf completion.operationId = invocation.operation.key := by
          rw [keyOf, invoked]
          rfl
        split at replayed
        next => cases replayed
        next history found =>
          split at replayed
          next => cases replayed
          next history' returned =>
            cases replayed
            rw [← keyed] at found ⊢
            exact ⟨projects.insert (.completed completion)
              ((projects _ history found).respond returned), mem_insert_present found⟩

theorem ProjectsTo.foldlM {projected projected' : Projected}
    {done events : List HistoryEvent} (projects : h.ProjectsTo projected done)
    (has : ∀ event ∈ events, h.Has event)
    (replayed : events.foldlM (Clients.replayEvent h) projected = .ok projected') :
    h.ProjectsTo projected' (done ++ events) ∧ ∀ key, key ∈ projected' ↔ key ∈ projected := by
  induction events generalizing projected done with
  | nil =>
      cases replayed
      rw [List.append_nil]
      exact ⟨projects, fun _ => Iff.rfl⟩
  | cons event rest ih =>
      rw [List.foldlM_cons] at replayed
      cases first : Clients.replayEvent h projected event with
      | error raised =>
          rw [first] at replayed
          cases replayed
      | ok between =>
          rw [first] at replayed
          obtain ⟨projects', same⟩ :=
            projects.replayEvent (has event List.mem_cons_self) first
          obtain ⟨projects'', same'⟩ :=
            ih projects' (fun event member => has event (List.mem_cons_of_mem _ member)) replayed
          rw [List.append_assoc] at projects''
          exact ⟨projects'', fun key => (same' key).trans (same key)⟩

end OperationHistory

open OperationHistory

/-- `check_with_pending_extensions` on several keys, where it returns. -/
theorem checkKeysWithPendingExtensions_eq_ok {maxOperations maxKeys maxStatesPerKey : ℤ}
    {h : OperationHistory} {result : MultiKeyCompletionExtensionResult}
    (returned : checkKeysWithPendingExtensions maxOperations maxKeys maxStatesPerKey h =
      .ok result) :
    ∃ projected, h.sortedEvents.foldlM (replayEvent h) (emptyProjections h.invocations) =
        .ok projected ∧
      (projected.keys.insertionSort (· ≤ ·)).mapM
        (checkKey maxOperations maxStatesPerKey projected) = .ok result.byKey ∧
      result.linearizable = result.byKey.all (·.2.linearizable) := by
  unfold checkKeysWithPendingExtensions at returned
  split at returned
  next => cases returned
  next =>
    split at returned
    next => cases returned
    next =>
      split at returned
      next => cases returned
      next =>
        dsimp only at returned
        split at returned
        next => cases returned
        next =>
          split at returned
          next => cases returned
          next =>
            split at returned
            next => cases returned
            next =>
              obtain ⟨projected, replayed, checked⟩ := bind_eq_ok.mp returned
              obtain ⟨results, each, same⟩ := bind_eq_ok.mp checked
              cases same
              exact ⟨projected, replayed, each, rfl⟩

/-- **Multi-key locality.** -/
theorem multi_key_locality (calls : List HistoryCall) (maxOperations maxKeys maxStatesPerKey : ℤ)
    (result : MultiKeyCompletionExtensionResult)
    (returned : checkKeysWithPendingExtensions maxOperations maxKeys maxStatesPerKey
      (recorded calls) = .ok result) :
    result.linearizable = true ↔ ∃ order, (recorded calls).LinearizesGlobally order := by
  have wellFormed := recorded_wellFormed calls
  obtain ⟨projected, replayed, each, verdict⟩ := checkKeysWithPendingExtensions_eq_ok returned
  obtain ⟨projects, keys⟩ := (projectsTo_emptyProjections _).foldlM
    (fun event member => (mem_sortedEvents wellFormed).mp member) replayed
  rw [List.nil_append] at projects
  obtain ⟨checked, ofChecked⟩ := mem_of_mapM_eq_ok each
  have local' : (∃ order, (recorded calls).LinearizesGlobally order) ↔
      ∀ key ∈ projected.keys, ∃ order, Linearizes
        ((recorded calls).extendedObservation.on (recorded calls).keyOf key)
          (recorded calls).registerStep none order := by
    rw [show (recorded calls).LinearizesGlobally = Linearizes (recorded calls).extendedObservation
      (sharedStep (recorded calls).keyOf (recorded calls).registerStep) (fun _ => none) from
        funext fun _ => by rw [LinearizesGlobally, storeStep_eq]]
    refine locality (timely wellFormed) projected.nodupKeys fun id answered => ?_
    obtain ⟨completion, found⟩ := Option.isSome_iff_exists.mp
      (AList.lookup_isSome.mpr (isSome_respondedAt.mp answered))
    obtain ⟨invocation, invoked, _⟩ := wellFormed.answers id completion found
    refine AList.mem_keys.mpr ((keys _).mpr (mem_emptyProjections.mpr ⟨invocation, ?_, ?_⟩))
    · rw [mem_invocations wellFormed, wellFormed.invocationKey id invocation invoked]
      exact invoked
    · rw [keyOf, invoked]
      rfl
  have ofKey : ∀ key result, checkKey maxOperations maxStatesPerKey projected key = .ok result →
      (result.2.linearizable = true ↔ ∃ order, Linearizes
        ((recorded calls).extendedObservation.on (recorded calls).keyOf key)
          (recorded calls).registerStep none order) := by
    intro key result passed
    unfold checkKey at passed
    split at passed
    next => cases passed
    next history found =>
      cases checked : checkWithPendingExtensions maxOperations maxStatesPerKey history with
      | error raised =>
          rw [checked] at passed
          cases passed
      | ok extension =>
          rw [checked] at passed
          cases passed
          have renumbers := projects key history found
          obtain ⟨_, answer, explains, rfl⟩ :=
            checkWithPendingExtensions_answers renumbers.wellFormed checked
          rw [extensionResult_linearizable, explains.isSome_iff]
          exact exists_congr fun order => renumbers.linearizes_on_iff wellFormed
  rw [local', verdict, List.all_eq_true]
  constructor
  · intro all key listed
    obtain ⟨entry, member, passed⟩ := checked key ((List.mem_insertionSort _).mpr listed)
    exact (ofKey key entry passed).mp (all entry member)
  · intro all entry member
    obtain ⟨key, listed, passed⟩ := ofChecked entry member
    exact (ofKey key entry passed).mpr (all key ((List.mem_insertionSort _).mp listed))

/-- A completed write of one key, and a read of another key's pending write. -/
def twoKeys : List HistoryCall :=
  [.invoke "a" "alice" (.write (.put "x" "1")), .invoke "b" "bob" (.write (.put "y" "2")),
    .respond "a" none, .invoke "c" "carol" (.get "y"), .respond "c" (some "2")]

/-- The two keys have one global order. -/
theorem two_keys_linearize : ∃ order, (recorded twoKeys).LinearizesGlobally order :=
  have returned : checkKeysWithPendingExtensions 32 16 100000 (recorded twoKeys) =
      .ok ⟨true, [("x", ⟨true, ["a"], [], []⟩), ("y", ⟨true, ["b", "c"], ["b"], []⟩)]⟩ := by
    decide +kernel
  (multi_key_locality twoKeys 32 16 100000 _ returned).mp rfl

end Distlab.Clients
