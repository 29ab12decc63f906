import Distlab.Foundations.Outcome

/-!
# What a computation raises

A computation raises only errors of a kind if each of its steps does.
-/

set_option autoImplicit false

namespace Distlab.Foundations

universe u v

variable {ε : Type u} {α β : Type v} {P : ε → Prop}

/-- Every error of the computation is of the kind. -/
def Raises (P : ε → Prop) (result : Except ε α) : Prop := ∀ error, result = .error error → P error

theorem raises_ok (a : α) : Raises P (.ok a : Except ε α) := fun _ raised => nomatch raised

theorem raises_error {error : ε} (kind : P error) : Raises P (.error error : Except ε α) := by
  rintro _ ⟨⟩
  exact kind

theorem Raises.bind {first : Except ε α} {next : α → Except ε β} (raises : Raises P first)
    (later : ∀ a, first = .ok a → Raises P (next a)) : Raises P (first >>= next) := by
  cases returned : first with
  | error error =>
      rintro _ ⟨⟩
      exact raises error returned
  | ok a => exact later a returned

theorem Raises.map {result : Except ε α} (raises : Raises P result) (f : α → β) :
    Raises P (f <$> result) := by
  cases returned : result with
  | error error =>
      rintro _ ⟨⟩
      exact raises error returned
  | ok a => exact raises_ok (f a)

theorem Raises.ite {condition : Prop} [Decidable condition] {first second : Except ε α}
    (yes : condition → Raises P first) (no : ¬ condition → Raises P second) :
    Raises P (if condition then first else second) := by
  split
  next holds => exact yes holds
  next fails => exact no fails

theorem Raises.dite {condition : Prop} [Decidable condition] {first : condition → Except ε α}
    {second : ¬ condition → Except ε α} (yes : ∀ holds, Raises P (first holds))
    (no : ∀ fails, Raises P (second fails)) :
    Raises P (if holds : condition then first holds else second holds) := by
  split
  next holds => exact yes holds
  next fails => exact no fails

theorem raises_mapM {γ : Type v} {body : γ → Except ε α} (raises : ∀ item, Raises P (body item))
    (items : List γ) : Raises P (items.mapM body) := by
  induction items with
  | nil => exact raises_ok _
  | cons item items ih =>
      rw [List.mapM_cons]
      exact (raises item).bind fun _ _ => ih.bind fun _ _ => raises_ok _

end Distlab.Foundations
