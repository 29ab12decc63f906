import Distlab.Foundations.Outcome

/-!
# Loops that drain a queue

A loop takes the next item of its state until there is none, until an item
raises, or until it has taken as many items as it was asked for. The number of
passes that a loop is given is its fuel: `none` says that the fuel ran out, so
`drain` is a total function for loops that need not end.

A rank that every item lowers bounds the passes (`drain_of_rank`).
-/

set_option autoImplicit false

namespace Distlab.Foundations

universe u v

variable {ε : Type u} {σ : Type v} (next : σ → Option (Outcome ε σ Unit)) (limit : Option ℕ)

/-- Take items until none is left, one raises, or `limit` of them are taken. The
value is the number of items taken. -/
def drain : ℕ → ℕ → σ → Option (Outcome ε σ ℕ)
  | 0, _, _ => none
  | fuel + 1, taken, s =>
      if limit.any (· ≤ taken) then some (.returns taken s)
      else
        match next s with
        | none => some (.returns taken s)
        | some (.raises e s) => some (.raises e s)
        | some (.returns _ s) => drain fuel (taken + 1) s

variable {next limit}

/-- A loop that ended has the same end with more fuel. -/
theorem drain_mono {fuel more taken : ℕ} {s : σ} {outcome : Outcome ε σ ℕ}
    (ended : drain next limit fuel taken s = some outcome) (enough : fuel ≤ more) :
    drain next limit more taken s = some outcome := by
  induction fuel generalizing more taken s with
  | zero => cases ended
  | succ fuel ih =>
      obtain ⟨more, rfl⟩ := Nat.exists_eq_add_of_le' (Nat.one_le_of_lt enough)
      rw [drain] at ended ⊢
      split
      next full => rwa [if_pos full] at ended
      next room =>
        rw [if_neg room] at ended
        cases taking : next s with
        | none => rwa [taking] at ended
        | some first =>
            rw [taking] at ended
            cases first with
            | raises e s' => exact ended
            | returns _ s' => exact ih ended (Nat.le_of_succ_le_succ enough)

/-- A loop with a limit ends within its limit. -/
theorem exists_drain_of_limit {count taken fuel : ℕ} (enough : count < fuel + taken) (s : σ)
    (fueled : 0 < fuel) : ∃ outcome, drain next (some count) fuel taken s = some outcome := by
  induction fuel generalizing taken s with
  | zero => exact absurd fueled (Nat.lt_irrefl 0)
  | succ fuel ih =>
      rw [drain]
      split
      next => exact ⟨_, rfl⟩
      next full =>
        have room : taken < count := by simpa using full
        cases next s with
        | none => exact ⟨_, rfl⟩
        | some first =>
            cases first with
            | raises e s' => exact ⟨_, rfl⟩
            | returns _ s' => exact ih (by omega) s' (by omega)

/-- What every item keeps, a loop keeps. -/
theorem drain_invariant {P : σ → Prop}
    (keeps : ∀ s first, P s → next s = some first → P first.state)
    {fuel taken : ℕ} {s : σ} {outcome : Outcome ε σ ℕ} (holds : P s)
    (ended : drain next limit fuel taken s = some outcome) : P outcome.state := by
  induction fuel generalizing taken s with
  | zero => cases ended
  | succ fuel ih =>
      rw [drain] at ended
      split at ended
      next =>
        cases ended
        exact holds
      next =>
        cases taking : next s with
        | none =>
            rw [taking] at ended
            cases ended
            exact holds
        | some first =>
            rw [taking] at ended
            have kept := keeps s first holds taking
            cases first with
            | raises e s' =>
                cases ended
                exact kept
            | returns _ s' => exact ih kept ended

/-- **Termination by a rank.** Where every item keeps `P` and lowers the rank,
or raises an error that `E` allows, a loop without a limit ends within as many
passes as the rank says: with nothing left to take, or with such an error. -/
theorem drain_of_rank {P : σ → Prop} {E : ε → Prop} (rank : σ → ℕ)
    (lowers : ∀ s first, P s → next s = some first →
      first.Ensures (fun s' => P s' ∧ rank s' < rank s) fun e _ => E e)
    {fuel : ℕ} (taken : ℕ) {s : σ} (holds : P s) (enough : rank s < fuel) :
    ∃ outcome, drain next none fuel taken s = some outcome ∧
      match outcome with
      | .returns count final => next final = none ∧ P final ∧ count ≤ taken + rank s
      | .raises e _ => E e := by
  induction fuel generalizing taken s with
  | zero => exact absurd enough (Nat.not_lt_zero _)
  | succ fuel ih =>
      rw [drain, if_neg (by simp)]
      cases taking : next s with
      | none => exact ⟨_, rfl, taking, holds, Nat.le_add_right _ _⟩
      | some first =>
          have kept := lowers s first holds taking
          cases first with
          | raises e s' => exact ⟨_, rfl, kept.2⟩
          | returns _ s' =>
              obtain ⟨holds', lower⟩ := kept
              obtain ⟨outcome, ended, meets⟩ := ih (taken + 1) holds' (by omega)
              refine ⟨outcome, ended, ?_⟩
              cases outcome with
              | raises e final => exact meets
              | returns count final =>
                  obtain ⟨empty, holdsFinal, counted⟩ := meets
                  exact ⟨empty, holdsFinal, by omega⟩

end Distlab.Foundations
