import Mathlib.Data.Nat.Notation

/-!
# Loops on fuel

A `while` loop runs on fuel; `running` says that the fuel ran out. A loop that repeats a
pass until the sizes of the state are stable ends if each pass keeps the sizes or shrinks
a measure, and its last round did not change the sizes (`untilStable_ends`).
-/

set_option autoImplicit false

namespace Distlab.Foundations

/-- How a loop on fuel ends. -/
inductive Looped (ε α : Type) where
  | running
  | raised (error : ε)
  | returned (value : α)

namespace Looped

variable {ε α β : Type}

def bind (first : Looped ε α) (next : α → Looped ε β) : Looped ε β :=
  match first with
  | running => running
  | raised error => raised error
  | returned value => next value

instance : Monad (Looped ε) where
  pure := returned
  bind := bind

/-- A computation without a loop. -/
def ofExcept : Except ε α → Looped ε α
  | .error error => raised error
  | .ok value => returned value

@[simp] theorem ofExcept_eq_returned {result : Except ε α} {a : α} :
    ofExcept result = returned a ↔ result = .ok a := by
  cases result <;> simp [ofExcept]

theorem ofExcept_ne_running (result : Except ε α) : ofExcept result ≠ running := by
  cases result <;> simp [ofExcept]

theorem bind_eq_returned {first : Looped ε α} {next : α → Looped ε β} {b : β} :
    (first >>= next) = returned b ↔ ∃ a, first = returned a ∧ next a = returned b := by
  cases first with
  | returned a =>
      constructor
      · exact fun returned => ⟨a, rfl, returned⟩
      · rintro ⟨_, ⟨⟩, returned⟩
        exact returned
  | running =>
      constructor
      · intro returned
        cases returned
      · rintro ⟨_, ⟨⟩, _⟩
  | raised error =>
      constructor
      · intro returned
        cases returned
      · rintro ⟨_, ⟨⟩, _⟩

/-- A sequence ends if its parts do. -/
theorem bind_ne_running {first : Looped ε α} {next : α → Looped ε β} (ends : first ≠ running)
    (continues : ∀ a, first = returned a → next a ≠ running) : (first >>= next) ≠ running := by
  cases first with
  | returned a => exact continues a rfl
  | running => exact absurd rfl ends
  | raised error => rintro ⟨⟩

end Looped

section UntilStable

variable {ε σ τ : Type} [DecidableEq τ]

/-- Repeats a pass until the sizes do not change. -/
def untilStable (sizes : σ → τ) (pass : σ → Looped ε σ) : ℕ → σ → Looped ε σ
  | 0, _ => .running
  | fuel + 1, s => do
      let t ← pass s
      if sizes t = sizes s then pure t else untilStable sizes pass fuel t

/-- **A loop of passes** that keep the sizes or shrink a measure ends, and its last pass
kept the sizes. -/
theorem untilStable_ends (sizes : σ → τ) (pass : σ → Looped ε σ) (I : σ → Prop)
    (measure : σ → ℕ) (ends : ∀ s, I s → pass s ≠ .running)
    (keeps : ∀ s t, I s → pass s = .returned t → I t)
    (shrinks : ∀ s t, I s → pass s = .returned t → sizes t = sizes s ∨ measure t < measure s)
    {fuel : ℕ} {s : σ} (enough : measure s < fuel) (start : I s) :
    untilStable sizes pass fuel s ≠ .running ∧
      ∀ t, untilStable sizes pass fuel s = .returned t →
        ∃ last, I last ∧ pass last = .returned t ∧ sizes t = sizes last := by
  induction fuel generalizing s with
  | zero => exact absurd enough (Nat.not_lt_zero _)
  | succ fuel ih =>
      have later : ∀ t, pass s = .returned t → sizes t ≠ sizes s →
          untilStable sizes pass fuel t ≠ .running ∧
            ∀ u, untilStable sizes pass fuel t = .returned u →
              ∃ last, I last ∧ pass last = .returned u ∧ sizes u = sizes last := by
        intro t passed changed
        have smaller := (shrinks s t start passed).resolve_left changed
        exact ih (by omega) (keeps s t start passed)
      constructor
      · refine Looped.bind_ne_running (ends s start) fun t passed => ?_
        by_cases stable : sizes t = sizes s
        · rw [if_pos stable]
          rintro ⟨⟩
        · rw [if_neg stable]
          exact (later t passed stable).1
      · intro u returned
        obtain ⟨t, passed, rest⟩ := Looped.bind_eq_returned.mp returned
        by_cases stable : sizes t = sizes s
        · rw [if_pos stable] at rest
          cases rest
          exact ⟨s, start, passed, stable⟩
        · rw [if_neg stable] at rest
          exact (later t passed stable).2 u rest

end UntilStable

end Distlab.Foundations
