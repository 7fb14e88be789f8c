/-
Tables whose values expire. What a table shows at a time are its values still alive then; tables
are compared by what they show, so entries that have expired, kept or swept, make no difference.
-/
import Mathlib
import WorldInfra.Lib.Table

namespace WorldInfra.Lib

variable {τ K V : Type} [DecidableEq K] (alive : τ → V → Bool)

/-- The value of `k` that is alive at `t`. -/
def live (t : τ) (m : Table K V) (k : K) : Option V := (m.get k).filter (alive t)

variable {alive} {t : τ} {m : Table K V} {k : K}

theorem live_eq_some_iff {v : V} : live alive t m k = some v ↔ m.get k = some v ∧ alive t v = true :=
  Option.filter_eq_some_iff

theorem live_eq_none_iff : live alive t m k = none ↔ ∀ v, m.get k = some v → alive t v = false := by
  simp only [live, Option.filter_eq_none_iff, Bool.not_eq_true]

theorem live_of_get_none (h : m.get k = none) : live alive t m k = none := by
  rw [live, h, Option.filter_none]

theorem live_of_get_some {v : V} (h : m.get k = some v) (hv : alive t v = true) : live alive t m k = some v :=
  live_eq_some_iff.2 ⟨h, hv⟩

theorem live_of_get_dead {v : V} (h : m.get k = some v) (hv : alive t v = false) : live alive t m k = none := by
  rw [live, h, Option.filter_some, hv]
  rfl

/-- What is shown depends on the lookups only. -/
theorem live_congr {n : Table K V} {k' : K} (h : n.get k' = m.get k) : live alive t n k' = live alive t m k := by
  rw [live, h]
  rfl

@[simp] theorem live_empty : live alive t ∅ k = none := live_of_get_none (Table.get_empty k)

theorem live_insert (k' : K) (v : V) : live alive t (m.insert k v) k' =
    if k' = k then (some v).filter (alive t) else live alive t m k' := by
  unfold live
  rw [Table.get_insert]
  split <;> rfl

theorem live_remove (k' : K) : live alive t (m.remove k) k' = if k' = k then none else live alive t m k' := by
  unfold live
  rw [Table.get_remove]
  split <;> rfl

/-- Removing a value that is not alive is invisible. -/
theorem live_remove_dead (h : live alive t m k = none) (k' : K) :
    live alive t (m.remove k) k' = live alive t m k' := by
  rw [live_remove]
  split
  · rename_i hk; rw [hk, h]
  · rfl

/-- What is alive later is what is alive now and then. -/
theorem live_later {t' : τ} (hv : ∀ v, alive t' v = true → alive t v = true) :
    live alive t' m k = (live alive t m k).filter (alive t') := by
  unfold live
  rw [Option.filter_filter]
  congr 1
  funext v
  cases hvt : alive t' v with
  | false => exact (Bool.and_false _).symm
  | true => rw [hv v hvt]; rfl

/-! ## Comparing two tables -/

section

variable {K' V' : Type} [DecidableEq K'] {alive' : τ → V' → Bool} {m' : Table K' V'}

variable (alive alive') in
/-- At `t` the tables show related values under corresponding keys. -/
def SameLive (f : K → K') (r : V → V' → Prop) (t : τ) (m : Table K V) (m' : Table K' V') : Prop :=
  ∀ k, Option.Rel r (live alive t m k) (live alive' t m' (f k))

variable {f : K → K'} {r : V → V' → Prop}

theorem sameLive_empty : SameLive alive alive' f r t ∅ ∅ := fun k => by
  rw [live_empty, live_empty]; exact Option.Rel.none

/-- Tables that show the same go on showing the same as time passes. -/
theorem SameLive.mono {t' : τ} (hr : ∀ v v', r v v' → alive t' v = alive' t' v')
    (hv : ∀ v, alive t' v = true → alive t v = true) (hv' : ∀ v, alive' t' v = true → alive' t v = true)
    (h : SameLive alive alive' f r t m m') : SameLive alive alive' f r t' m m' := by
  intro k
  rw [live_later hv, live_later hv']
  rcases hm : live alive t m k with _ | v <;> rcases hm' : live alive' t m' (f k) with _ | v'
  · exact Option.Rel.none
  · have hk := h k; rw [hm, hm'] at hk; cases hk
  · have hk := h k; rw [hm, hm'] at hk; cases hk
  · have hk := h k
    rw [hm, hm'] at hk
    cases hk with
    | some hk =>
      rw [Option.filter_some, Option.filter_some, hr v v' hk]
      split
      · exact Option.Rel.some hk
      · exact Option.Rel.none

/-- Under corresponding keys both tables show nothing, or related values. -/
theorem SameLive.cases (h : SameLive alive alive' f r t m m') (k : K) :
    (live alive t m k = none ∧ live alive' t m' (f k) = none) ∨
    ∃ v v', live alive t m k = some v ∧ live alive' t m' (f k) = some v' ∧ r v v' := by
  have hk := h k
  rcases hm : live alive t m k with _ | v <;> rcases hm' : live alive' t m' (f k) with _ | v' <;>
    rw [hm, hm'] at hk <;> cases hk
  · exact Or.inl ⟨rfl, rfl⟩
  · rename_i hr
    exact Or.inr ⟨v, v', rfl, rfl, hr⟩

theorem SameLive.congr_left {n : Table K V} (h : SameLive alive alive' f r t m m')
    (hn : ∀ k, live alive t n k = live alive t m k) : SameLive alive alive' f r t n m' := fun k => by
  rw [hn]; exact h k

theorem SameLive.congr_right {n' : Table K' V'} (h : SameLive alive alive' f r t m m')
    (hn : ∀ k, live alive' t n' k = live alive' t m' k) : SameLive alive alive' f r t m n' := fun k => by
  rw [hn]; exact h k

theorem SameLive.remove (hf : Function.Injective f) (h : SameLive alive alive' f r t m m') (k : K) :
    SameLive alive alive' f r t (m.remove k) (m'.remove (f k)) := by
  intro k'
  rw [live_remove, live_remove]
  simp only [hf.eq_iff]
  split
  · exact Option.Rel.none
  · exact h k'

theorem SameLive.insert (hf : Function.Injective f) (h : SameLive alive alive' f r t m m') (k : K) {v : V} {v' : V'}
    (hr : r v v') (hv : alive t v = alive' t v') :
    SameLive alive alive' f r t (m.insert k v) (m'.insert (f k) v') := by
  intro k'
  rw [live_insert, live_insert]
  simp only [hf.eq_iff]
  split
  · rw [Option.filter_some, Option.filter_some, hv]
    split
    · exact Option.Rel.some hr
    · exact Option.Rel.none
  · exact h k'

end

end WorldInfra.Lib
