import Distlab.Foundations.RequestOrder

/-!
# Where a log executes a request

A position of a log executes a request if its id is above every id that the client has
requested before. A request is executed at one position at most (`Executes.unique`), and it
is seen after that position (`Executes.seen`) and only there (`exists_executes`). A position
that executes nothing leaves the state alone (`state_of_idle`). A request that a later one
of its client overtook is never executed (`seen_of_overtaken`).
-/

set_option autoImplicit false

namespace Distlab.Foundations.Deduplication

universe u v w x

variable {ι : Type u} {κ : Type v} {ω : Type w} {σ : Type x} [LinearOrder κ]
  {log longer : List (Request ι κ ω)} {j k n : ℕ} {client : ι} {id : κ} {operation : ω}

/-- The request at the position is executed. -/
structure Executes (log : List (Request ι κ ω)) (k : ℕ) (client : ι) (id : κ) (operation : ω) :
    Prop where
  entry : log[k]? = some (.identified client id operation)
  above : Above (requested (log.take k)) client id

namespace Executes

theorem lt_length (executes : Executes log k client id operation) : k < log.length :=
  (List.getElem?_eq_some_iff.mp executes.entry).1

/-- An identity is not executed again. -/
theorem not_later {other : ω} (first : Executes log j client id operation)
    (second : Executes log k client id other) : ¬ j < k := by
  intro earlier
  have listed : .identified client id operation ∈ log.take k := by
    refine List.mem_of_getElem? (i := j) ?_
    rw [List.getElem?_take_of_lt earlier]
    exact first.entry
  exact lt_irrefl id (second.above (client, id) (mem_requested.mpr ⟨operation, listed⟩) rfl)

/-- **An identity is executed once.** -/
theorem unique {other : ω} (first : Executes log j client id operation)
    (second : Executes log k client id other) : j = k :=
  le_antisymm (not_lt.mp (second.not_later first)) (not_lt.mp (first.not_later second))

/-- A longer log executes it at the same position. -/
theorem of_prefix (part : log <+: longer) (executes : Executes log k client id operation) :
    Executes longer k client id operation := by
  obtain ⟨rest, rfl⟩ := part
  refine ⟨?_, ?_⟩
  · rw [List.getElem?_append_left executes.lt_length]
    exact executes.entry
  · rw [List.take_append_of_le_length executes.lt_length.le]
    exact executes.above

/-- What a longer log executes within a log, this log executes. -/
theorem restrict (part : log <+: longer) (below : k < log.length)
    (executes : Executes longer k client id operation) :
    Executes log k client id operation := by
  obtain ⟨rest, rfl⟩ := part
  refine ⟨?_, ?_⟩
  · rw [← List.getElem?_append_left below]
    exact executes.entry
  · rw [← List.take_append_of_le_length below.le]
    exact executes.above

end Executes

section Replay

variable [DecidableEq ι] {execute : ω → σ → σ} {start : σ}

theorem replay_take_add_one {request : Request ι κ ω} (found : log[k]? = some request)
    (image : Image ι κ ω σ) :
    replay execute (log.take (k + 1)) image =
      apply execute request (replay execute (log.take k) image) := by
  rw [List.take_add_one, found, Option.toList_some, replay_append_singleton]

/-- **What is seen was executed** before. -/
theorem exists_executes
    (seen : (replay execute (log.take n) (.initial start)).seen client id = some operation) :
    ∃ k < n, Executes log k client id operation := by
  obtain ⟨before, rest, split, above⟩ := seen_replay_iff.mp seen
  have within : before.length < n := by
    have length := congrArg List.length split
    rw [List.length_take, List.length_append, List.length_cons] at length
    omega
  refine ⟨before.length, within, ?_, ?_⟩
  · rw [← List.getElem?_take_of_lt within, split, List.getElem?_append_right le_rfl, Nat.sub_self,
      List.getElem?_cons_zero]
  · have part := congrArg (List.take before.length) split
    rw [List.take_take, min_eq_left within.le, List.take_left] at part
    rwa [part]

/-- What was executed is seen from then on. -/
theorem Executes.seen (executes : Executes log k client id operation) (below : k < n) :
    (replay execute (log.take n) (.initial start)).seen client id = some operation := by
  have split : log.take (k + 1) = log.take k ++ [.identified client id operation] := by
    rw [List.take_add_one, executes.entry, Option.toList_some]
  have here : (replay execute (log.take (k + 1)) (.initial start)).seen client id =
      some operation := seen_replay_iff.mpr ⟨log.take k, [], split, executes.above⟩
  exact seen_of_prefix (List.take_prefix_take_left below) here

/-- **A request that is not seen was overtaken.** -/
theorem exists_later_seen (listed : (client, id) ∈ requested log)
    (missing : (replay execute log (.initial start)).seen client id = none) :
    ∃ higher change, id < higher ∧
      (replay execute log (.initial start)).seen client higher = some change := by
  by_contra none
  -- Otherwise the request would still be fresh, but it has been requested.
  have fresh : (replay execute log (.initial start)).Fresh client id := by
    intro later after
    obtain rfl | higher := after.eq_or_lt
    · exact missing
    · cases seen : (replay execute log (.initial start)).seen client later with
      | none => rfl
      | some change => exact absurd ⟨later, change, higher, seen⟩ none
  exact lt_irrefl id (fresh_replay_iff.mp fresh _ listed rfl)

/-- **A request that was overtaken is lost.** If a log has seen a later id of the client, a
longer log has seen the earlier one only if this log has. -/
theorem seen_of_overtaken {higher : κ} {change : ω} (part : log <+: longer) (overtook : id < higher)
    (passed : (replay execute log (.initial start)).seen client higher = some change)
    (seen : (replay execute longer (.initial start)).seen client id = some operation) :
    (replay execute log (.initial start)).seen client id = some operation := by
  obtain ⟨before, rest, split, above⟩ := seen_replay_iff.mp seen
  obtain ⟨passedBefore, passedRest, passedSplit, -⟩ := seen_replay_iff.mp passed
  have first : before ++ [.identified client id operation] <+: longer :=
    ⟨rest, by rw [split, List.append_assoc, List.singleton_append]⟩
  obtain inside | early := List.prefix_or_prefix_of_prefix first part
  · exact seen_of_prefix inside (seen_replay_iff.mpr ⟨before, [], rfl, above⟩)
  obtain same | early := List.prefix_concat_iff.mp early
  · exact seen_replay_iff.mpr ⟨before, [], same, above⟩
  · -- The later id would have been requested before the earlier one was executed.
    have listed : (client, higher) ∈ requested before := by
      refine mem_requested.mpr ⟨change, early.subset ?_⟩
      rw [passedSplit]
      exact List.mem_append_right _ List.mem_cons_self
    exact absurd (above _ listed rfl) overtook.not_gt

/-- What an executed request does to the state. -/
theorem Executes.state (executes : Executes log k client id operation) :
    (replay execute (log.take (k + 1)) (.initial start)).state =
      execute operation (replay execute (log.take k) (.initial start)).state := by
  rw [replay_take_add_one executes.entry, apply_of_fresh _ (fresh_replay_iff.mpr executes.above)]

/-- **A position that executes nothing** leaves the state alone. -/
theorem state_of_idle {request : Request ι κ ω} (found : log[k]? = some request)
    (named : ∀ operation, request ≠ .plain operation)
    (idle : ∀ client id operation, request = .identified client id operation →
      ¬ Executes log k client id operation) :
    (replay execute (log.take (k + 1)) (.initial start)).state =
      (replay execute (log.take k) (.initial start)).state := by
  rw [replay_take_add_one found]
  cases request with
  | nothing => rfl
  | plain operation => exact absurd rfl (named operation)
  | identified client id operation =>
      rw [apply_of_not_fresh]
      intro fresh
      exact idle client id operation rfl ⟨found, fresh_replay_iff.mp fresh⟩

end Replay

end Distlab.Foundations.Deduplication
