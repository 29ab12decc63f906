import Distlab.Raft.ExactApplication

/-!
# Applying a log in batches

A node applies the committed log in successive calls of `apply_committed`, as its
commit index advances. How the log is split shows only if a request is dropped and its
identity reused: the calls then forget what one call would have refused.
-/

set_option autoImplicit false

namespace Distlab.Raft

open Foundations Deduplication

variable {ν : Type} [LinearOrder ν] {C : Config ν} {log : List (LogEntry (Command ν))}
  {n : ν} {s t : Cluster ν}

/-- Successive calls of `apply_committed`, as the commit index of the node advances. -/
def applyThrough (n : ν) : List ℕ → Cluster ν → Op ν Unit
  | [], s => .returns () s
  | index :: rest, s =>
      (kvApplyCommitted n (commitThrough n index s)).bind fun _ s => applyThrough n rest s

/-- The commit indexes of the calls: they advance to the end of the log. -/
def Splits (log : List (LogEntry (Command ν))) (indexes : List ℕ) : Prop :=
  indexes.Pairwise (· ≤ ·) ∧ indexes.getLast? = some log.length

/-- `ClientRequestConflict` is raised in one of the calls. -/
def Conflicts (n : ν) (indexes : List ℕ) (s : Cluster ν) : Prop :=
  ∃ t, applyThrough n indexes s = .raises (.clientRequestConflict n) t

/-- A new `ReplicatedKV` over the durable state raises nothing and has the live image. -/
def Reconstructs (C : Config ν) (n : ν) (s : Cluster ν) : Prop :=
  ∃ applier images, loadApplier C s = .ok applier ∧ restoreImages C applier s = .ok images ∧
    images n = s.kv n

/-- How the log is split does not show. -/
structure BatchingInvisible (C : Config ν) (n : ν) (log : List (LogEntry (Command ν)))
    (s : Cluster ν) : Prop where
  conflicts : ∀ indexes, Splits log indexes →
    (Conflicts n indexes s ↔ Conflicts n [log.length] s)
  images : ∀ indexes, Splits log indexes → ∀ t u, applyThrough n indexes s = .returns () t →
    applyThrough n [log.length] s = .returns () u → t.kv n = u.kv n
  reconstructs : ∀ indexes, Splits log indexes → ∀ done, done <+: indexes → ∀ t,
    applyThrough n done s = .returns () t → Reconstructs C n t

/-- A cluster over durable logs in which nothing is applied yet; the node holds the log. -/
structure Unapplied (C : Config ν) (n : ν) (log : List (LogEntry (Command ν))) (s : Cluster ν) :
    Prop where
  holds : Holds log n s
  applier : s.applier = {}
  kv : s.kv n = {}
  durable : ∀ m ∈ C.nodeIds, (s.persistent m).stateMachineApplied = [] ∧
    (s.persistent m).stateMachineBaseIndex = 0 ∧ (s.persistent m).stateMachineBaseTerm = 0
  snapshot : (s.persistent n).kvSnapshot = none

omit [LinearOrder ν] in
theorem Unapplied.holding (unapplied : Unapplied C n log s) (member : n ∈ C.nodeIds) :
    Holding log n s where
  holds := unapplied.holds
  canonical index record found := by
    rw [unapplied.applier] at found
    cases found
  replica := by
    obtain ⟨applied, base, _⟩ := unapplied.durable n member
    refine ⟨?_, ?_, ?_, ?_, ?_, ?_⟩
    · rw [unapplied.applier]
      exact Nat.zero_le _
    · rw [unapplied.applier]
    · rw [unapplied.applier]
      rfl
    · rw [applied, unapplied.applier]
      rfl
    · rw [base, unapplied.applier]
    · intro snapshot stored
      rw [unapplied.snapshot] at stored
      cases stored
  boundary := by rw [unapplied.applier]
  baseTerm := (unapplied.durable n member).2.2
  executed := by
    rw [unapplied.applier, unapplied.kv]
    rfl

/-! ## Runs of calls -/

omit [LinearOrder ν] in
/-- What a node has seen is in what it has applied. -/
theorem Holding.view (holding : Holding log n s) :
    (s.kv n).view = replay KVOperation.execute
      (requestsOf (log.take (s.applier.lastApplied n))) (.initial fun _ => none) :=
  view_executeHistory holding.executed

omit [LinearOrder ν] in
theorem requestsOf_append (first second : List (LogEntry (Command ν))) :
    requestsOf (first ++ second) = requestsOf first ++ requestsOf second := List.map_append

omit [LinearOrder ν] in
theorem requestsOf_take (count : ℕ) (history : List (LogEntry (Command ν))) :
    requestsOf (history.take count) = (requestsOf history).take count := List.map_take

/-- What calls that return leave. -/
structure Through (log : List (LogEntry (Command ν))) (n : ν) (index : ℕ) (s t : Cluster ν) :
    Prop where
  holding : Holding log n t
  last : t.applier.lastApplied n = index
  others : ∀ m ≠ n, t.persistent m = s.persistent m
  functional : ReusesExecuted (requestsOf log) →
    Functional (requestsOf (log.take (s.applier.lastApplied n))) →
      Functional (requestsOf (log.take index))

omit [LinearOrder ν] in
theorem Through.trans {u : Cluster ν} {index position : ℕ} (early : Through log n index s t)
    (late : Through log n position t u) : Through log n position s u where
  holding := late.holding
  last := late.last
  others m other := (late.others m other).trans (early.others m other)
  functional reuses functional := by
    refine late.functional reuses ?_
    rw [early.last]
    exact early.functional reuses functional

/-- An accepted batch goes through. -/
theorem through_of_accepts (index : ℕ) (holding : Holding log n s)
    (valid : validEntries log = true) (fromLast : s.applier.lastApplied n ≤ index)
    (within : index ≤ log.length)
    (accepts : Accepts (s.kv n).view
      (requestsOf ((log.take index).drop (s.applier.lastApplied n)))) :
    ∃ records t, kvApplyCommitted n (commitThrough n index s) = .returns records t ∧
      Through log n index s t := by
  obtain ⟨records, t, called, next, last, others⟩ :=
    (kvApplyCommitted_exact holding valid fromLast within).1 accepts
  refine ⟨records, t, called, next, last, others, fun reuses functional => ?_⟩
  have whole : log.take index = log.take (s.applier.lastApplied n) ++
      (log.take index).drop (s.applier.lastApplied n) := by
    conv_lhs => rw [← List.take_append_drop (s.applier.lastApplied n) (log.take index)]
    rw [List.take_take, Nat.min_eq_left fromLast]
  rw [holding.view] at accepts
  rw [whole, requestsOf_append]
  refine functional_of_accepts (requestsOf (log.drop index)) ?_ functional accepts
  rw [← requestsOf_append, ← whole, ← requestsOf_append, List.take_append_drop]
  exact reuses

omit [LinearOrder ν] in
/-- A log with one operation for each identity is accepted in any batches. -/
theorem Holding.accepts (holding : Holding log n s) {index : ℕ}
    (fromLast : s.applier.lastApplied n ≤ index) (functional : Functional (requestsOf log)) :
    Accepts (s.kv n).view (requestsOf ((log.take index).drop (s.applier.lastApplied n))) := by
  rw [holding.view]
  refine accepts_of_functional (Functional.left (requestsOf (log.drop index)) ?_)
  have whole : log.take (s.applier.lastApplied n) ++
      (log.take index).drop (s.applier.lastApplied n) = log.take index := by
    conv_rhs => rw [← List.take_append_drop (s.applier.lastApplied n) (log.take index)]
    rw [List.take_take, Nat.min_eq_left fromLast]
  rw [← requestsOf_append, whole, ← requestsOf_append, List.take_append_drop]
  exact functional

/-- **Successive calls** raise the conflict or go through. -/
theorem applyThrough_exact {indexes : List ℕ} (holding : Holding log n s)
    (valid : validEntries log = true) (sorted : indexes.Pairwise (· ≤ ·))
    (bounds : ∀ index ∈ indexes, s.applier.lastApplied n ≤ index ∧ index ≤ log.length) :
    Conflicts n indexes s ∧ ¬ Functional (requestsOf log) ∨
      ∃ t, applyThrough n indexes s = .returns () t ∧
        Through log n (indexes.getLastD (s.applier.lastApplied n)) s t := by
  induction indexes generalizing s with
  | nil => exact .inr ⟨s, rfl, holding, rfl, fun _ _ => rfl, fun _ => id⟩
  | cons index rest ih =>
      obtain ⟨below, sorted⟩ := List.pairwise_cons.mp sorted
      obtain ⟨here, within⟩ := bounds index List.mem_cons_self
      by_cases accepts : Accepts (s.kv n).view
          (requestsOf ((log.take index).drop (s.applier.lastApplied n)))
      · obtain ⟨records, u, called, early⟩ := through_of_accepts _ holding valid here within accepts
        have later : ∀ position ∈ rest, u.applier.lastApplied n ≤ position ∧
            position ≤ log.length := by
          intro position member
          rw [early.last]
          exact ⟨below position member, (bounds position (List.mem_cons_of_mem _ member)).2⟩
        rcases ih early.holding sorted later with ⟨⟨t, raised⟩, reused⟩ | ⟨t, returned, late⟩
        · refine .inl ⟨⟨t, ?_⟩, reused⟩
          rw [applyThrough, called]
          exact raised
        · refine .inr ⟨t, ?_, ?_⟩
          · rw [applyThrough, called]
            exact returned
          · rw [early.last] at late
            rw [List.getLastD_cons]
            exact early.trans late
      · refine .inl ⟨⟨commitThrough n index s, ?_⟩, mt (holding.accepts here) accepts⟩
        rw [applyThrough, (kvApplyCommitted_exact holding valid here within).2 accepts]
        rfl

/-! ## Reconstruction -/

/-- Records of entries of the log are canonical. -/
theorem exists_foldlM_recordCanonical {applier : StateMachineApplier ν} (first : ℕ)
    {entries : List (LogEntry (Command ν))} (canonical : Canonical log applier)
    (listed : entries <+: log.drop first) :
    ∃ next, (appliedRecords n (first + 1) entries).foldlM
      (fun applier r => recordCanonical r applier) applier = .ok next ∧ Canonical log next := by
  induction entries generalizing applier first with
  | nil => exact ⟨applier, rfl, canonical⟩
  | cons entry rest ih =>
      obtain ⟨tail, split⟩ := listed
      have here : log[first]? = some entry := by
        rw [← Nat.add_zero first, ← List.getElem?_drop, ← split]
        rfl
      obtain ⟨next, recorded, kept⟩ := recordCanonical_canonical (n := n) (first + 1)
        canonical here
      have later : rest <+: log.drop (first + 1) := by
        rw [← List.drop_drop, ← split]
        exact ⟨tail, rfl⟩
      obtain ⟨final, looped, done⟩ := ih _ kept later
      refine ⟨final, ?_, done⟩
      rw [appliedRecords, List.foldlM_cons, recorded]
      exact looped

/-- A node that has applied nothing loads, and so does one that has applied a part of
the log that it holds, from the first entry on. -/
theorem durableStateLoads_of_held {m : ν} (base : (s.persistent m).stateMachineBaseIndex = 0)
    (baseTerm : (s.persistent m).stateMachineBaseTerm = 0)
    (listed : (s.persistent m).stateMachineApplied <+: log)
    (held : (s.persistent m).stateMachineApplied = [] ∨ Holds log m s) :
    durableStateLoads m s = true := by
  unfold durableStateLoads
  simp only [base, baseTerm, Bool.and_eq_true, Bool.or_eq_true, decide_eq_true_eq,
    List.all_eq_true, List.mem_range'_1]
  have length := listed.length_le
  refine ⟨⟨⟨⟨⟨?_, ?_⟩, ?_⟩, ?_⟩, ?_⟩, ?_⟩
  · omega
  · exact Nat.zero_le _
  · rcases held with none | holds
    · simp [none]
    · have reach : log.length ≤ (s.persistent m).log.lastIndex := holds.lastIndex
      omega
  · omega
  · refine .inl ?_
    rcases held with none | holds
    · simp [none]
      omega
    · have boundary : (s.persistent m).log.baseIndex = 0 := holds.base
      omega
  · intro index range
    rcases held with none | holds
    · rw [none, List.length_nil] at range
      omega
    · have entry : (s.persistent m).log.entryAt index = log[index - 1]? :=
        holds.entryAt (by omega) (by omega)
      obtain ⟨tail, same⟩ := listed
      rw [entry, ← same, List.getElem?_append_left (by omega)]
      rfl

theorem exists_loadApplied {m : ν} {applier : StateMachineApplier ν}
    (canonical : Canonical log applier) (base : (s.persistent m).stateMachineBaseIndex = 0)
    (baseTerm : (s.persistent m).stateMachineBaseTerm = 0)
    (listed : (s.persistent m).stateMachineApplied <+: log)
    (held : (s.persistent m).stateMachineApplied = [] ∨ Holds log m s) :
    ∃ next, loadApplied s applier m = .ok next ∧ Canonical log next := by
  unfold loadApplied
  rw [if_neg (not_not.mpr (durableStateLoads_of_held base baseTerm listed held))]
  dsimp only
  rw [base]
  exact exists_foldlM_recordCanonical 0 canonical (by rwa [List.drop_zero])

/-- The durable state of a cluster in which one node has applied a part of the log. -/
structure Durable (C : Config ν) (log : List (LogEntry (Command ν))) (n : ν) (s : Cluster ν) :
    Prop where
  holding : Holding log n s
  others : ∀ m ∈ C.nodeIds, m ≠ n → (s.persistent m).stateMachineApplied = [] ∧
    (s.persistent m).stateMachineBaseIndex = 0 ∧ (s.persistent m).stateMachineBaseTerm = 0

omit [LinearOrder ν] in
theorem Durable.applied (durable : Durable C log n s) :
    (s.persistent n).stateMachineApplied = log.take (s.applier.lastApplied n) := by
  have replica := durable.holding.replica
  rw [replica.durableApplied, replica.applied, durable.holding.boundary, List.drop_zero]

omit [LinearOrder ν] in
theorem Durable.base (durable : Durable C log n s) :
    (s.persistent n).stateMachineBaseIndex = 0 :=
  durable.holding.replica.durableBase.trans durable.holding.boundary

theorem Durable.exists_loadApplier (durable : Durable C log n s) :
    ∃ applier, loadApplier C s = .ok applier := by
  have empty : Canonical log ({} : StateMachineApplier ν) := fun _ _ found => by cases found
  have step : ∀ applier, ∀ m ∈ C.nodeIds, Canonical log applier →
      ∃ next, loadApplied s applier m = .ok next ∧ Canonical log next := by
    intro applier m member canonical
    by_cases same : m = n
    · subst same
      refine exists_loadApplied canonical durable.base durable.holding.baseTerm ?_
        (.inr durable.holding.holds)
      rw [durable.applied]
      exact List.take_prefix ..
    · obtain ⟨none, base, baseTerm⟩ := durable.others m member same
      refine exists_loadApplied canonical base baseTerm ?_ (.inl none)
      rw [none]
      exact List.nil_prefix
  obtain ⟨applier, loads, _⟩ := exists_foldlM_eq_ok step {} empty
  exact ⟨applier, loads⟩

/-- A constructor restores the image of a node exactly if its history has one operation
for each identity. -/
theorem Durable.restoreImage_eq (durable : Durable C log n s)
    (valid : validEntries log = true) {applier : StateMachineApplier ν}
    (loads : loadApplier C s = .ok applier) (member : n ∈ C.nodeIds) :
    restoreImage n applier s =
      if requestsAgree (log.take (s.applier.lastApplied n)) ∅ then .ok (s.kv n)
      else .error (.clientRequestConflict n) := by
  have loaded := loadApplier_loaded loads member
  have base : applier.baseIndex n = 0 := loaded.base.trans durable.base
  have history : (applier.applied n).map (·.entry) = log.take (s.applier.lastApplied n) :=
    loaded.applied.trans durable.applied
  have validated : validEntries (log.take (s.applier.lastApplied n)) = true := by
    rw [validEntries_iff] at valid ⊢
    exact fun entry listed => valid entry (List.mem_of_mem_take listed)
  have begun : restoreSnapshotBoundary n applier s = .ok {} := by
    rw [restoreSnapshotBoundary, if_pos base]
  have executed : (log.take (s.applier.lastApplied n)).foldlM
      (fun image entry => applyCommand n entry.command image) {} = .ok (s.kv n) :=
    durable.holding.executed
  unfold restoreImage
  rw [begun, history]
  dsimp only [bind, Except.bind]
  rw [if_neg (not_not.mpr validated), executed]
  by_cases agrees : requestsAgree (log.take (s.applier.lastApplied n)) ∅ = true
  · rw [if_pos agrees, if_neg (not_not.mpr agrees)]
  · rw [if_neg agrees, if_pos agrees]

/-- **A new `ReplicatedKV`** has the live image exactly if the applied history has one
operation for each identity; otherwise its constructor raises. -/
theorem Durable.reconstructs_iff (durable : Durable C log n s) (valid : validEntries log = true)
    (member : n ∈ C.nodeIds) :
    Reconstructs C n s ↔ Functional (requestsOf (log.take (s.applier.lastApplied n))) := by
  have agree : requestsAgree (log.take (s.applier.lastApplied n)) ∅ = true ↔
      Functional (requestsOf (log.take (s.applier.lastApplied n))) := by
    rw [requestsAgree_iff]
    refine and_iff_left fun _ _ _ _ previous found => ?_
    cases found
  rw [← agree]
  obtain ⟨applier, loads⟩ := durable.exists_loadApplier
  have own := durable.restoreImage_eq valid loads member
  constructor
  · rintro ⟨applier', images, loads', restored, _⟩
    cases loads.symm.trans loads'
    by_contra conflict
    have image := restoreImages_restores restored member
    rw [own, if_neg conflict] at image
    cases image
  · intro agrees
    rw [if_pos agrees] at own
    have step : ∀ images : ν → KVImage, ∀ m ∈ C.nodeIds, True →
        ∃ next, (do
          let image ← restoreImage m applier s
          .ok (Function.update images m image)) = .ok next ∧ True := by
      intro images m listed _
      by_cases same : m = n
      · subst same
        exact ⟨_, bind_eq_ok.mpr ⟨_, own, rfl⟩, trivial⟩
      · obtain ⟨none, base, _⟩ := durable.others m listed same
        have loaded := loadApplier_loaded loads listed
        have restored : restoreImage m applier s = .ok {} := by
          unfold restoreImage
          rw [restoreSnapshotBoundary, if_pos (loaded.base.trans base), loaded.applied, none]
          rfl
        exact ⟨_, bind_eq_ok.mpr ⟨_, restored, rfl⟩, trivial⟩
    obtain ⟨images, restored, _⟩ := exists_foldlM_eq_ok step (fun _ => {}) trivial
    have image := restoreImages_restores (C := C) restored member
    rw [own] at image
    exact ⟨applier, images, loads, restored, (Except.ok.inj image).symm⟩

/-! ## Batching -/

omit [LinearOrder ν] in
theorem Splits.bounds {indexes : List ℕ} (splits : Splits log indexes) :
    ∀ index ∈ indexes, index ≤ log.length := by
  obtain ⟨sorted, last⟩ := splits
  obtain ⟨before, rfl⟩ := List.getLast?_eq_some_iff.mp last
  intro index member
  rcases List.mem_append.mp member with early | here
  · exact (List.pairwise_append.mp sorted).2.2 index early _ List.mem_cons_self
  · exact (List.mem_singleton.mp here).le

omit [LinearOrder ν] in
theorem Unapplied.lastApplied (unapplied : Unapplied C n log s) : s.applier.lastApplied n = 0 := by
  rw [unapplied.applier]

/-- What a run of calls leaves, from the start. -/
theorem Unapplied.run (unapplied : Unapplied C n log s) (member : n ∈ C.nodeIds)
    (valid : validEntries log = true) {indexes : List ℕ} (sorted : indexes.Pairwise (· ≤ ·))
    (bounds : ∀ index ∈ indexes, index ≤ log.length) :
    Conflicts n indexes s ∧ ¬ Functional (requestsOf log) ∨
      ∃ t, applyThrough n indexes s = .returns () t ∧
        Through log n (indexes.getLastD 0) s t ∧ Durable C log n t := by
  have outcome := applyThrough_exact (s := s) (unapplied.holding member) valid sorted
    fun index listed => ⟨unapplied.lastApplied ▸ Nat.zero_le index, bounds index listed⟩
  rw [unapplied.lastApplied] at outcome
  refine outcome.imp_right fun ⟨t, returned, through⟩ => ⟨t, returned, through, through.holding, ?_⟩
  intro m listed other
  rw [through.others m other]
  exact unapplied.durable m listed

theorem not_conflicts_of_returns {indexes : List ℕ} (returned : applyThrough n indexes s =
    .returns () t) : ¬ Conflicts n indexes s := by
  rintro ⟨u, raised⟩
  cases raised.symm.trans returned

omit [LinearOrder ν] in
/-- Through a log of reuses of executed requests, every run of calls that returns has
applied one operation for each identity. -/
theorem Unapplied.functional (unapplied : Unapplied C n log s)
    (reuses : ReusesExecuted (requestsOf log)) {index : ℕ} (through : Through log n index s t) :
    Functional (requestsOf (log.take index)) := by
  refine through.functional reuses ?_
  rw [unapplied.lastApplied, List.take_zero]
  exact functional_nil

/-- **If only executed requests are reused**, how the log is split does not show. -/
theorem batchingInvisible_of_reusesExecuted (unapplied : Unapplied C n log s)
    (member : n ∈ C.nodeIds) (valid : validEntries log = true)
    (reuses : ReusesExecuted (requestsOf log)) : BatchingInvisible C n log s := by
  have single : Splits log [log.length] := ⟨List.pairwise_singleton .., rfl⟩
  -- a split that returns has applied the whole log
  have whole : ∀ {indexes : List ℕ}, Splits log indexes →
      (Conflicts n indexes s ↔ ¬ Functional (requestsOf log)) ∧
        ∀ t, applyThrough n indexes s = .returns () t →
          executeHistory n log = .ok (t.kv n) := by
    intro indexes splits
    have last : indexes.getLastD 0 = log.length := by
      rw [List.getLastD_eq_getLast?, splits.2, Option.getD_some]
    rcases unapplied.run member valid splits.1 splits.bounds with
      ⟨conflict, reused⟩ | ⟨t, returned, through, _⟩
    · refine ⟨iff_of_true conflict reused, fun t returned => ?_⟩
      exact absurd conflict (not_conflicts_of_returns returned)
    · rw [last] at through
      have functional := unapplied.functional reuses through
      rw [List.take_length] at functional
      refine ⟨iff_of_false (not_conflicts_of_returns returned) (not_not.mpr functional), ?_⟩
      intro u other
      cases returned.symm.trans other
      have executed := through.holding.executed
      rw [through.last, List.take_length] at executed
      exact executed
  refine ⟨fun indexes splits => (whole splits).1.trans (whole single).1.symm, ?_, ?_⟩
  · intro indexes splits t u first second
    exact Except.ok.inj (((whole splits).2 t first).symm.trans ((whole single).2 u second))
  · intro indexes splits done isPrefix t returned
    rcases unapplied.run member valid (splits.1.sublist isPrefix.sublist)
      (fun index listed => splits.bounds index (isPrefix.subset listed)) with
      ⟨conflict, _⟩ | ⟨u, other, through, durable⟩
    · exact absurd conflict (not_conflicts_of_returns returned)
    · cases returned.symm.trans other
      rw [durable.reconstructs_iff valid member, through.last]
      exact unapplied.functional reuses through

/-- **If a dropped request is reused**, the calls that end before the reuse and with it
leave a history that a new `ReplicatedKV` refuses. -/
theorem reusesExecuted_of_batchingInvisible (unapplied : Unapplied C n log s)
    (member : n ∈ C.nodeIds) (valid : validEntries log = true)
    (invisible : BatchingInvisible C n log s) : ReusesExecuted (requestsOf log) := by
  by_contra drops
  obtain ⟨before, request, rest, split, functional, accepted, reused⟩ :=
    exists_accepted_reuse KVOperation.execute (fun _ => none) drops
  have length : log.length = before.length + (rest.length + 1) := by
    rw [← List.length_cons (a := request), ← List.length_append, ← split, List.length_map]
  have early : requestsOf (log.take before.length) = before := by
    rw [requestsOf_take, split, List.take_left]
  have late : requestsOf (log.take (before.length + 1)) = before ++ [request] := by
    rw [requestsOf_take, split, List.append_cons]
    exact List.take_left' (by simp)
  have holding := unapplied.holding member
  obtain ⟨_, u, firstCall, first⟩ := through_of_accepts before.length holding valid
    (by rw [unapplied.lastApplied]; omega) (by omega) (by
      rw [unapplied.lastApplied, List.drop_zero, early, unapplied.kv]
      exact accepts_initial_iff.mpr functional)
  have batch : requestsOf ((log.take (before.length + 1)).drop (u.applier.lastApplied n)) =
      [request] := by
    rw [first.last, requestsOf, List.map_drop, ← requestsOf, late, List.drop_left]
  obtain ⟨_, t, secondCall, second⟩ := through_of_accepts (before.length + 1)
    first.holding valid (by rw [first.last]; omega) (by omega) (by
      rw [batch, first.holding.view, first.last, early]
      exact accepted)
  have splits : Splits log [before.length, before.length + 1, log.length] := by
    refine ⟨?_, rfl⟩
    simp only [List.pairwise_cons, List.mem_cons, List.not_mem_nil, or_false, forall_eq_or_imp,
      forall_eq, IsEmpty.forall_iff, implies_true, List.Pairwise.nil, and_true]
    omega
  have returned : applyThrough n [before.length, before.length + 1] s = .returns () t := by
    rw [applyThrough, firstCall, Outcome.bind, applyThrough, secondCall]
    rfl
  have through := first.trans second
  have durable : Durable C log n t := by
    refine ⟨through.holding, fun m listed other => ?_⟩
    rw [through.others m other]
    exact unapplied.durable m listed
  have restored := invisible.reconstructs _ splits _ ⟨[log.length], rfl⟩ t returned
  rw [durable.reconstructs_iff valid member, through.last, late] at restored
  exact reused restored

/-- **How a log is split does not show exactly if only executed requests are reused.** -/
theorem batching_invisible_iff (unapplied : Unapplied C n log s) (member : n ∈ C.nodeIds)
    (valid : validEntries log = true) :
    BatchingInvisible C n log s ↔ ReusesExecuted (requestsOf log) :=
  ⟨reusesExecuted_of_batchingInvisible unapplied member valid,
    batchingInvisible_of_reusesExecuted unapplied member valid⟩

/-! ## A dropped request -/

/-- A cluster of one node. -/
def solo : Config ℕ where
  nodeIds := [10]
  nonempty := by decide
  nodup := by decide

/-- A request, an older one that is dropped, and a reuse of the identity of that one. -/
def droppedLog : List (LogEntry (Command ℕ)) :=
  [⟨1, .clientRequest "client" 1 (.put "key" "new")⟩,
    ⟨1, .clientRequest "client" 0 (.put "key" "old")⟩,
    ⟨1, .clientRequest "client" 0 (.put "key" "other")⟩]

def droppedStart : Cluster ℕ :=
  solo.fresh.updatePersistent 10 fun p => { p with log := ⟨0, 0, droppedLog⟩ }

/-- One call refuses the log, two calls apply it, and a new `ReplicatedKV` refuses what
they applied. -/
theorem dropped_reuse_shows : Splits droppedLog [2, 3] ∧ Conflicts 10 [3] droppedStart ∧
    ∃ t, applyThrough 10 [2, 3] droppedStart = .returns () t ∧
      (loadApplier solo t >>= fun applier => (restoreImages solo applier t).map fun _ => ()) =
        .error (.clientRequestConflict 10) := by
  refine ⟨⟨by decide, by decide⟩, ⟨_, Outcome.eq_raises_of_error? (by decide +kernel)⟩, ?_⟩
  exact ⟨_, Outcome.eq_returns_of_value? (by decide +kernel), by decide +kernel⟩

theorem dropped_unapplied : Unapplied solo 10 droppedLog droppedStart where
  holds := ⟨by decide +kernel, by decide +kernel⟩
  applier := rfl
  kv := rfl
  durable := by decide +kernel
  snapshot := by decide +kernel

/-- The log reuses a request that was not executed. -/
theorem dropped_reuse_not_executed : ¬ ReusesExecuted (requestsOf droppedLog) := by
  have shows : ¬ BatchingInvisible solo 10 droppedLog droppedStart := by
    intro invisible
    have conflict : Conflicts 10 [3] droppedStart :=
      ⟨_, Outcome.eq_raises_of_error? (by decide +kernel)⟩
    have splits : Splits droppedLog [2, 3] := ⟨by decide, by decide⟩
    have returned : applyThrough 10 [2, 3] droppedStart =
        .returns () (applyThrough 10 [2, 3] droppedStart).state :=
      Outcome.eq_returns_of_value? (by decide +kernel)
    exact not_conflicts_of_returns returned ((invisible.conflicts _ splits).mpr conflict)
  exact mt (batching_invisible_iff dropped_unapplied (by decide) (by decide)).mpr shows

end Distlab.Raft
