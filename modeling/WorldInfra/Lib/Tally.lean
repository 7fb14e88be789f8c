/-
Counters that stop at a cap: after a run of steps such a counter holds the number of steps it counts, cut at the
cap, so that it does not depend on their order.
-/
import Mathlib.Data.List.Basic

namespace WorldInfra.Lib

variable {σ α : Type*}

/-- A part of the state that a step raises by one up to a cap, if it counts the step. -/
def Tallies (step : σ → α → σ) (part : σ → Nat) (counts : α → Bool) (cap : Nat) : Prop :=
  ∀ s a, part (step s a) = if counts a then min (part s + 1) cap else part s

variable {step : σ → α → σ} {part : σ → Nat} {counts : α → Bool} {cap : Nat}

theorem Tallies.foldl (h : Tallies step part counts cap) {s : σ} (hs : part s ≤ cap) (l : List α) :
    part (l.foldl step s) = min (part s + l.countP counts) cap := by
  induction l generalizing s with
  | nil => exact (Nat.min_eq_left hs).symm
  | cons a l ih =>
    rw [List.foldl_cons, List.countP_cons]
    have hstep := h s a
    cases hcounts : counts a with
    | true =>
      rw [hcounts, if_pos rfl] at hstep
      rw [ih (hstep ▸ Nat.min_le_right _ _), hstep, if_pos rfl]
      omega
    | false =>
      rw [hcounts, if_neg Bool.false_ne_true] at hstep
      rw [ih (Nat.le_trans (Nat.le_of_eq hstep) hs), hstep, if_neg Bool.false_ne_true, Nat.add_zero]

end WorldInfra.Lib
