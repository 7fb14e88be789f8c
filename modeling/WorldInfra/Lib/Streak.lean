/-
A counter that counts the occurrences of one value, grants the first `cap` of them, and is reset
by every other value. From zero it grants at most `cap` occurrences of a list exactly when there
are no more of them, or they stand together.
-/
import Mathlib

namespace WorldInfra.Lib

variable {α : Type} {w : α}

/-! ## Values that stand together -/

/-- No other value stands between two occurrences of `w`. -/
def Together (w : α) (l : List α) : Prop := ∀ v, v ≠ w → ¬ [w, v, w].Sublist l

/-- After some other value, `w` occurs again. -/
def Returns (w : α) (l : List α) : Prop := ∃ v, v ≠ w ∧ [v, w].Sublist l

theorem Returns.mem {l : List α} : Returns w l → w ∈ l
  | ⟨_, _, h⟩ => h.subset (by simp)

theorem returns_cons_self {l : List α} : Returns w (w :: l) ↔ Returns w l := by
  constructor
  · rintro ⟨v, hv, h⟩
    rw [List.sublist_cons_iff] at h
    rcases h with h | ⟨r, hr, h⟩
    · exact ⟨v, hv, h⟩
    · rw [List.cons.injEq] at hr; exact absurd hr.1 hv
  · rintro ⟨v, hv, h⟩; exact ⟨v, hv, h.cons w⟩

theorem returns_cons_of_ne {x : α} {l : List α} (hx : x ≠ w) : Returns w (x :: l) ↔ w ∈ l := by
  constructor
  · rintro ⟨v, hv, h⟩
    rw [List.sublist_cons_iff] at h
    rcases h with h | ⟨r, hr, h⟩
    · exact h.subset (by simp)
    · rw [List.cons.injEq] at hr
      obtain ⟨rfl, rfl⟩ := hr
      exact List.singleton_sublist.1 h
  · intro h; exact ⟨x, hx, (List.singleton_sublist.2 h).cons_cons x⟩

theorem together_cons_self {l : List α} : Together w (w :: l) ↔ ¬ Returns w l := by
  constructor
  · rintro h ⟨v, hv, hs⟩; exact h v hv (hs.cons_cons w)
  · intro h v hv hs
    apply h
    rw [List.sublist_cons_iff] at hs
    rcases hs with hs | ⟨r, hr, hs⟩
    · exact ⟨v, hv, (List.sublist_cons_self w [v, w]).trans hs⟩
    · rw [List.cons.injEq] at hr
      obtain ⟨-, rfl⟩ := hr
      exact ⟨v, hv, hs⟩

theorem together_cons_of_ne {x : α} {l : List α} (hx : x ≠ w) : Together w (x :: l) ↔ Together w l := by
  constructor
  · intro h v hv hs; exact h v hv (hs.cons x)
  · intro h v hv hs
    rw [List.sublist_cons_iff] at hs
    rcases hs with hs | ⟨r, hr, -⟩
    · exact h v hv hs
    · rw [List.cons.injEq] at hr; exact hx hr.1.symm

/-- In a list in nondecreasing order every value stands together. -/
theorem together_of_pairwise [PartialOrder α] {l : List α} (h : l.Pairwise (· ≤ ·)) : Together w l := by
  intro v hv hs
  have := h.sublist hs
  simp only [List.pairwise_cons, List.mem_cons, List.not_mem_nil, or_false, forall_eq_or_imp, forall_eq] at this
  exact hv (le_antisymm this.2.1 this.1.1)

/-! ## The counter -/

variable [DecidableEq α] {cap : Nat}

/-- The occurrences of `w` that the counter grants, starting from `n` already counted. -/
def granted (cap : Nat) (w : α) : Nat → List α → Nat
  | _, [] => 0
  | n, x :: l =>
    if x = w then (if n + 1 ≤ cap then 1 else 0) + granted cap w (n + 1) l else granted cap w 0 l

theorem granted_cons_self (n : Nat) (l : List α) :
    granted cap w n (w :: l) = (if n + 1 ≤ cap then 1 else 0) + granted cap w (n + 1) l := by
  rw [granted, if_pos rfl]

theorem granted_cons_of_ne {x : α} (n : Nat) (l : List α) (hx : x ≠ w) :
    granted cap w n (x :: l) = granted cap w 0 l := by
  rw [granted, if_neg hx]

theorem granted_le_count : ∀ (n : Nat) (l : List α), granted cap w n l ≤ l.count w
  | _, [] => Nat.zero_le _
  | n, x :: l => by
    by_cases hx : x = w
    · have := granted_le_count (n + 1) l
      rw [hx, granted_cons_self, List.count_cons_self]
      split <;> omega
    · rw [granted_cons_of_ne n l hx, List.count_cons_of_ne hx]
      exact granted_le_count 0 l

/-- The counter grants every occurrence until `cap` are counted. -/
theorem min_count_le_granted : ∀ (n : Nat) (l : List α), min (l.count w) (cap - n) ≤ granted cap w n l
  | n, [] => by simp
  | n, x :: l => by
    by_cases hx : x = w
    · have := min_count_le_granted (n + 1) l
      rw [hx, granted_cons_self, List.count_cons_self]
      split <;> omega
    · have := min_count_le_granted 0 l
      rw [granted_cons_of_ne n l hx, List.count_cons_of_ne hx]
      omega

/-- While `w` does not return, the counter grants what is left of the cap. -/
theorem granted_le_of_not_returns : ∀ (n : Nat) (l : List α), ¬ Returns w l → granted cap w n l ≤ cap - n
  | n, [], _ => Nat.zero_le _
  | n, x :: l, h => by
    by_cases hx : x = w
    · rw [hx] at h ⊢
      have := granted_le_of_not_returns (n + 1) l (fun hr => h (returns_cons_self.2 hr))
      rw [granted_cons_self]
      split <;> omega
    · have : granted cap w 0 l ≤ l.count w := granted_le_count 0 l
      have : l.count w = 0 := List.count_eq_zero.2 fun hm => h ((returns_cons_of_ne hx).2 hm)
      rw [granted_cons_of_ne n l hx]
      omega

/-- A return of `w` after the counter has started grants one occurrence more than is left. -/
theorem min_le_granted_of_returns (hcap : 0 < cap) : ∀ (n : Nat) (l : List α), 1 ≤ n → Returns w l →
    min (l.count w) (cap - n + 1) ≤ granted cap w n l
  | n, [], _, h => by obtain ⟨v, -, hs⟩ := h; simp at hs
  | n, x :: l, hn, h => by
    by_cases hx : x = w
    · rw [hx] at h ⊢
      have hr := returns_cons_self.1 h
      have := min_le_granted_of_returns hcap (n + 1) l (by omega) hr
      have hpos : 0 < l.count w := List.count_pos_iff.2 hr.mem
      rw [granted_cons_self, List.count_cons_self]
      split <;> omega
    · -- the reset grants `min (count l) cap`, and `n ≥ 1` leaves at most `cap` in the bound
      have : min (l.count w) (cap - 0) ≤ granted cap w 0 l := min_count_le_granted 0 l
      rw [granted_cons_of_ne n l hx, List.count_cons_of_ne hx]
      omega

theorem granted_le_of_together : ∀ (l : List α), Together w l → granted cap w 0 l ≤ cap
  | [], _ => Nat.zero_le _
  | x :: l, h => by
    by_cases hx : x = w
    · rw [hx] at h ⊢
      exact granted_le_of_not_returns 0 (w :: l) fun hr =>
        together_cons_self.1 h (returns_cons_self.1 hr)
    · rw [granted_cons_of_ne 0 l hx]
      exact granted_le_of_together l ((together_cons_of_ne hx).1 h)

theorem min_le_granted_of_not_together (hcap : 0 < cap) : ∀ (l : List α), ¬ Together w l →
    min (l.count w) (cap + 1) ≤ granted cap w 0 l
  | [], _ => by simp
  | x :: l, h => by
    by_cases hx : x = w
    · rw [hx] at h ⊢
      have hr : Returns w l := by
        by_contra hr; exact h (together_cons_self.2 hr)
      have := min_le_granted_of_returns hcap 1 l (Nat.le_refl _) hr
      rw [granted_cons_self, List.count_cons_self, Nat.zero_add]
      split <;> omega
    · rw [granted_cons_of_ne 0 l hx, List.count_cons_of_ne hx]
      exact min_le_granted_of_not_together hcap l fun ht => h ((together_cons_of_ne hx).2 ht)

/-- From zero, the counter grants at most `cap` occurrences of `w` exactly when there are at most
`cap` of them or they stand together. -/
theorem granted_le_iff (hcap : 0 < cap) (l : List α) :
    granted cap w 0 l ≤ cap ↔ l.count w ≤ cap ∨ Together w l := by
  constructor
  · intro h
    by_contra hn
    rw [not_or] at hn
    have := min_le_granted_of_not_together hcap l hn.2
    omega
  · rintro (h | h)
    · exact Nat.le_trans (granted_le_count 0 l) h
    · exact granted_le_of_together l h

end WorldInfra.Lib
