/-
Sliding windows: the events of a history that a window of a given length still reaches at a time,
and histories in which every event found fewer than a bound of them. Such a history is sparse
everywhere: no window of that length holds more than the bound, wherever it lies.
-/
import Mathlib

namespace WorldInfra.Lib

section

variable {α τ : Type} [LinearOrder τ] [Add τ] (time : α → τ) (w : τ)

/-- The events that the window of length `w` ending at `t` reaches. -/
def reaching (t : τ) (events : List α) : List α := events.filter fun a => t < time a + w

/-- Events, last first, each of which found fewer than `max` before it within `w`. -/
def Sparse (max : Nat) : List α → Prop
  | [] => True
  | a :: past => (reaching time w (time a) past).length < max ∧ Sparse max past

variable {time w}

/-- What is out of reach stays out of reach. -/
theorem reaching_reaching {s t : τ} (h : s ≤ t) (events : List α) :
    reaching time w t (reaching time w s events) = reaching time w t events := by
  rw [reaching, reaching, List.filter_filter]
  refine List.filter_congr fun a _ => ?_
  rw [Bool.eq_iff_iff, Bool.and_eq_true, decide_eq_true_eq, decide_eq_true_eq]
  exact ⟨fun ht => ht.1, fun ht => ⟨ht, lt_of_le_of_lt h ht⟩⟩

theorem reaching_append (t : τ) (events later : List α) :
    reaching time w t (events ++ later) = reaching time w t events ++ reaching time w t later :=
  List.filter_append ..

theorem length_reaching_le (t : τ) (events : List α) : (reaching time w t events).length ≤ events.length :=
  List.length_filter_le ..

theorem length_reaching_reverse (t : τ) (events : List α) :
    (reaching time w t events.reverse).length = (reaching time w t events).length := by
  rw [reaching, List.filter_reverse, List.length_reverse, reaching]

/-- A set of times less than `w` apart holds at most `max` events of a sparse history. -/
theorem Sparse.countP_le {max : Nat} {I : α → Bool} (hI : ∀ a b, I a = true → I b = true → time b < time a + w) :
    ∀ {past : List α}, Sparse time w max past → past.countP I ≤ max
  | [], _ => Nat.zero_le _
  | a :: past, h => by
    rw [List.countP_cons]
    by_cases ha : I a = true
    · -- everything in the set is within reach of the last event in it
      have hreach : past.countP I ≤ (reaching time w (time a) past).length := by
        rw [reaching, ← List.countP_eq_length_filter]
        refine List.countP_mono_left fun b _ hb => ?_
        exact decide_eq_true (hI b a hb ha)
      have := h.1
      rw [if_pos ha]
      omega
    · rw [if_neg ha]
      exact countP_le hI h.2

end

end WorldInfra.Lib
