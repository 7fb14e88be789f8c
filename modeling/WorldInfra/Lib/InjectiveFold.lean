/-
Folds whose step loses nothing: for one letter different states stay different, and from one state
different letters lead to different states. Such a fold forgets no difference before a common end, and
tells two words apart that differ in one letter.
-/
import Mathlib

namespace WorldInfra.Lib

variable {σ α : Type} {step : σ → α → σ}

theorem foldl_injective (hstate : ∀ a, Function.Injective fun s => step s a) (l : List α) :
    Function.Injective fun s => l.foldl step s := by
  induction l with
  | nil => exact Function.injective_id
  | cons a l ih => exact ih.comp (hstate a)

/-- Two words that differ in one place. -/
def DifferInOne (u v : List α) : Prop := ∃ l r a b, u = l ++ a :: r ∧ v = l ++ b :: r ∧ a ≠ b

theorem DifferInOne.within {u v : List α} (h : DifferInOne u v) (l r : List α) :
    DifferInOne (l ++ u ++ r) (l ++ v ++ r) := by
  obtain ⟨m, n, a, b, rfl, rfl, hne⟩ := h
  exact ⟨l ++ m, n ++ r, a, b, by simp, by simp, hne⟩

theorem foldl_ne_of_differInOne (hstate : ∀ a, Function.Injective fun s => step s a)
    (hletter : ∀ s, Function.Injective (step s)) (s : σ) {u v : List α} (h : DifferInOne u v) :
    u.foldl step s ≠ v.foldl step s := by
  obtain ⟨l, r, a, b, rfl, rfl, hne⟩ := h
  rw [List.foldl_append, List.foldl_append, List.foldl_cons, List.foldl_cons]
  intro heq
  -- the states after the two letters are equal, as the rest of the fold is injective
  exact hne (hletter _ (foldl_injective hstate r heq))

end WorldInfra.Lib
