import Distlab.Foundations.RequestOrder

/-!
# Requests in batches

A replica checks the identities of a batch before it executes the batch: each of them
has one operation (`Functional`), the one that the image has seen, if any (`Accepts`).
The image forgets what it drops. So a batch can accept an identity that an earlier batch
dropped with another operation, which one batch of both refuses. This happens in some
split of a log exactly when its first reuse of an identity is not of an executed
request (`ReusesExecuted`).
-/

set_option autoImplicit false

namespace Distlab.Foundations.Deduplication

universe u v w x

variable {ι : Type u} {κ : Type v} {ω : Type w} {σ : Type x}

/-- Every identity has one operation. -/
def Functional (log : List (Request ι κ ω)) : Prop :=
  ∀ client id first second, .identified client id first ∈ log →
    .identified client id second ∈ log → first = second

/-- A batch whose identities have one operation each, the one that the image has seen. -/
def Accepts (image : Image ι κ ω σ) (batch : List (Request ι κ ω)) : Prop :=
  Functional batch ∧ ∀ client id operation, .identified client id operation ∈ batch →
    ∀ seen, image.seen client id = some seen → seen = operation

theorem Functional.sublist {log part : List (Request ι κ ω)} (functional : Functional log)
    (within : ∀ request ∈ part, request ∈ log) : Functional part :=
  fun client id first second here there =>
    functional client id first second (within _ here) (within _ there)

theorem Functional.left {first : List (Request ι κ ω)} (second : List (Request ι κ ω))
    (functional : Functional (first ++ second)) : Functional first :=
  functional.sublist fun _ => List.mem_append_left second

theorem Functional.right {first second : List (Request ι κ ω)}
    (functional : Functional (first ++ second)) : Functional second :=
  functional.sublist fun _ => List.mem_append_right first

theorem functional_nil : Functional ([] : List (Request ι κ ω)) :=
  fun _ _ _ _ member => absurd member List.not_mem_nil

theorem functional_singleton (request : Request ι κ ω) : Functional [request] := by
  intro client id first second here there
  have same := (List.mem_singleton.mp here).trans (List.mem_singleton.mp there).symm
  cases same
  rfl

/-- An identity reused with another operation has a first such reuse. -/
theorem exists_first_reuse {log : List (Request ι κ ω)} (reuses : ¬ Functional log) :
    ∃ before client id operation rest, log = before ++ .identified client id operation :: rest ∧
      Functional before ∧
        ∃ other, other ≠ operation ∧ .identified client id other ∈ before := by
  induction log using List.reverseRecOn with
  | nil => exact absurd functional_nil reuses
  | append_singleton log request ih =>
      by_cases functional : Functional log
      · by_contra none
        push Not at none
        refine reuses fun client id first second here there => ?_
        rw [List.mem_append, List.mem_singleton] at here there
        rcases here with here | here <;> rcases there with there | there
        · exact functional client id first second here there
        · by_contra differs
          exact none log client id second [] (by rw [there]) functional first differs here
        · by_contra differs
          exact none log client id first [] (by rw [here]) functional second (Ne.symm differs) there
        · cases here.trans there.symm
          rfl
      · obtain ⟨before, client, id, operation, rest, rfl, found⟩ := ih functional
        exact ⟨before, client, id, operation, rest ++ [request], by simp, found⟩

section Order

variable [LinearOrder κ]

/-- The first reuse of an identity with another operation is of an executed request. -/
def ReusesExecuted (log : List (Request ι κ ω)) : Prop :=
  ∀ before client id operation rest, log = before ++ .identified client id operation :: rest →
    Functional before → (∃ other, other ≠ operation ∧ .identified client id other ∈ before) →
      ∃ earlier other later, before = earlier ++ .identified client id other :: later ∧
        Above (requested earlier) client id

variable [DecidableEq ι] {execute : ω → σ → σ} {start : σ}

/-- A part of a log is accepted after what precedes it, if the log has one operation
for each identity. -/
theorem accepts_of_functional {before batch : List (Request ι κ ω)}
    (functional : Functional (before ++ batch)) :
    Accepts (replay execute before (.initial start)) batch := by
  refine ⟨functional.right, fun client id operation member seen found => ?_⟩
  obtain ⟨earlier, later, rfl, _⟩ := seen_replay_iff.mp found
  refine functional client id seen operation ?_ (List.mem_append_right _ member)
  exact List.mem_append_left _ (List.mem_append_right _ List.mem_cons_self)

omit [LinearOrder κ] [DecidableEq ι] in
theorem accepts_initial_iff {batch : List (Request ι κ ω)} :
    Accepts (.initial start) batch ↔ Functional batch := by
  refine and_iff_left fun client id operation _ seen found => ?_
  cases found

/-- **If only executed requests are reused**, an accepted batch keeps one operation for
each identity. -/
theorem functional_of_accepts {before batch : List (Request ι κ ω)} (rest : List (Request ι κ ω))
    (reuses : ReusesExecuted (before ++ batch ++ rest)) (functional : Functional before)
    (accepts : Accepts (replay execute before (.initial start)) batch) :
    Functional (before ++ batch) := by
  by_contra conflict
  obtain ⟨early, client, id, operation, late, split, single, other, differs, used⟩ :=
    exists_first_reuse conflict
  obtain ⟨first, executed, between, rfl, above⟩ :=
    reuses early client id operation (late ++ rest) (by rw [split]; simp) single
      ⟨other, differs, used⟩
  have same : executed = other :=
    single client id executed other (List.mem_append_right _ List.mem_cons_self) used
  subst same
  rw [List.append_eq_append_iff] at split
  rcases split with ⟨more, inside, tail⟩ | ⟨more, rfl, tail⟩
  · -- the reuse stands in the batch; its first use stands in the batch or before it
    have listed : .identified client id operation ∈ batch := by
      rw [tail]
      exact List.mem_append_right _ List.mem_cons_self
    rw [List.append_eq_append_iff] at inside
    rcases inside with ⟨gap, rfl, behind⟩ | ⟨gap, rfl, behind⟩
    · cases gap with
      | nil =>
          rw [List.nil_append] at behind
          refine differs (accepts.1 client id executed operation ?_ listed)
          rw [tail, ← behind]
          exact List.mem_append_left _ List.mem_cons_self
      | cons request gap =>
          have here : request = .identified client id executed :=
            (List.head_eq_of_cons_eq behind).symm
          have seen : (replay execute (first ++ request :: gap) (.initial start)).seen client id =
              some executed := seen_replay_iff.mpr ⟨first, gap, by rw [here], above⟩
          exact differs (accepts.2 client id operation listed executed seen)
    · refine differs (accepts.1 client id executed operation ?_ listed)
      rw [tail, behind]
      simp
  · -- the reuse stands before the batch
    cases more with
    | nil =>
        have listed : .identified client id operation ∈ batch := by
          rw [← List.nil_append batch, ← tail]
          exact List.mem_cons_self
        have seen : (replay execute (first ++ .identified client id executed :: between)
            (.initial start)).seen client id = some executed :=
          seen_replay_iff.mpr ⟨first, between, rfl, above⟩
        rw [List.append_nil] at accepts
        exact differs (accepts.2 client id operation listed executed seen)
    | cons request more =>
        have here : request = .identified client id operation :=
          (List.head_eq_of_cons_eq tail).symm
        refine differs (functional client id executed operation ?_ ?_)
        · simp
        · rw [here]
          simp

/-- **A reuse of a dropped request** is accepted on its own after what precedes it. -/
theorem exists_accepted_reuse (execute : ω → σ → σ) (start : σ) {log : List (Request ι κ ω)}
    (drops : ¬ ReusesExecuted log) :
    ∃ before request rest, log = before ++ request :: rest ∧ Functional before ∧
      Accepts (replay execute before (.initial start)) [request] ∧
        ¬ Functional (before ++ [request]) := by
  unfold ReusesExecuted at drops
  push Not at drops
  obtain ⟨before, client, id, operation, rest, split, functional, ⟨other, differs, used⟩,
    dropped⟩ := drops
  refine ⟨before, .identified client id operation, rest, split, functional, ⟨?_, ?_⟩, ?_⟩
  · exact functional_singleton _
  · intro owner done requested member seen found
    cases List.mem_singleton.mp member
    obtain ⟨earlier, later, same, above⟩ := seen_replay_iff.mp found
    exact absurd above (dropped earlier seen later same)
  · intro single
    exact differs (single client id other operation (List.mem_append_left _ used)
      (List.mem_append_right _ List.mem_cons_self))

end Order

end Distlab.Foundations.Deduplication
