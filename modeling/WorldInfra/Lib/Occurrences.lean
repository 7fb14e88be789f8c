/-
Occurrences of one list in another, and the occurrences that a search from the left takes if it goes on
behind each one it takes. An occurrence is taken unless one that is taken runs into it; and where one
occurrence runs into the next, the list that occurs has a border.
-/
import Mathlib

namespace WorldInfra.Lib

variable {α : Type}

/-- `p` occurs in `text` behind `i` elements. -/
def OccursAt (p text : List α) (i : Nat) : Prop := p <+: text.drop i

instance [DecidableEq α] (p text : List α) (i : Nat) : Decidable (OccursAt p text i) :=
  inferInstanceAs (Decidable (p <+: text.drop i))

/-- The first occurrence that does not begin before `s`. -/
def FirstFrom (p text : List α) (s i : Nat) : Prop :=
  s ≤ i ∧ OccursAt p text i ∧ ∀ k, s ≤ k → k < i → ¬ OccursAt p text k

/-- The occurrences that a search takes which begins at `s`. -/
inductive TakenFrom (p text : List α) : Nat → Nat → Prop where
  | first {s i : Nat} : FirstFrom p text s i → TakenFrom p text s i
  | later {s j i : Nat} : FirstFrom p text s j → TakenFrom p text (j + p.length) i → TakenFrom p text s i

def Taken (p text : List α) (i : Nat) : Prop := TakenFrom p text 0 i

variable {p text : List α}

theorem TakenFrom.occursAt {s i : Nat} (h : TakenFrom p text s i) : OccursAt p text i := by
  induction h with
  | first hfirst => exact hfirst.2.1
  | later _ _ ih => exact ih

/-- An occurrence splits the text. -/
theorem occursAt_iff {i : Nat} (hp : p ≠ []) :
    OccursAt p text i ↔ ∃ before after, text = before ++ p ++ after ∧ before.length = i := by
  constructor
  · rintro ⟨after, hafter⟩
    have hlen : i ≤ text.length := by
      by_contra hlt
      rw [List.drop_eq_nil_of_le (by omega), List.append_eq_nil_iff] at hafter
      exact hp hafter.1
    refine ⟨text.take i, after, ?_, List.length_take_of_le hlen⟩
    rw [List.append_assoc, hafter, List.take_append_drop]
  · rintro ⟨before, after, rfl, rfl⟩
    rw [OccursAt, List.append_assoc, List.drop_left]
    exact List.prefix_append p after

theorem OccursAt.le {i : Nat} (hp : p ≠ []) (h : OccursAt p text i) : i + p.length ≤ text.length := by
  obtain ⟨before, after, rfl, rfl⟩ := (occursAt_iff hp).1 h
  simp

/-! ## The search -/

theorem FirstFrom.eq {s i j : Nat} (hi : FirstFrom p text s i) (hj : FirstFrom p text s j) : i = j := by
  rcases Nat.lt_trichotomy i j with hlt | heq | hlt
  · exact absurd hi.2.1 (hj.2.2 i hi.1 hlt)
  · exact heq
  · exact absurd hj.2.1 (hi.2.2 j hj.1 hlt)

theorem FirstFrom.succ_iff {s i : Nat} (h : ¬ OccursAt p text s) : FirstFrom p text s i ↔
    FirstFrom p text (s + 1) i := by
  constructor
  · rintro ⟨hle, hocc, hfirst⟩
    have hne : s ≠ i := by
      rintro rfl
      exact h hocc
    exact ⟨by omega, hocc, fun k hk => hfirst k (by omega)⟩
  · rintro ⟨hle, hocc, hfirst⟩
    refine ⟨by omega, hocc, fun k hk hki => ?_⟩
    rcases Nat.eq_or_lt_of_le hk with rfl | hlt
    · exact h
    · exact hfirst k hlt hki

theorem FirstFrom.self_iff {s i : Nat} (h : OccursAt p text s) : FirstFrom p text s i ↔ i = s := by
  constructor
  · rintro ⟨hle, -, hfirst⟩
    by_contra hne
    exact hfirst s le_rfl (by omega) h
  · rintro rfl
    exact ⟨le_rfl, h, fun k hk hki => absurd hki (by omega)⟩

theorem takenFrom_iff {s i : Nat} :
    TakenFrom p text s i ↔ ∃ j, FirstFrom p text s j ∧ (i = j ∨ TakenFrom p text (j + p.length) i) := by
  constructor
  · intro h
    cases h with
    | first hfirst => exact ⟨i, hfirst, Or.inl rfl⟩
    | later hfirst hlater => exact ⟨_, hfirst, Or.inr hlater⟩
  · rintro ⟨j, hfirst, rfl | hlater⟩
    · exact .first hfirst
    · exact .later hfirst hlater

/-- Where nothing occurs, the search moves on by one element. -/
theorem takenFrom_skip {s i : Nat} (h : ¬ OccursAt p text s) : TakenFrom p text s i ↔ TakenFrom p text (s + 1) i := by
  rw [takenFrom_iff, takenFrom_iff]
  simp only [FirstFrom.succ_iff h]

/-- Where `p` occurs, the search takes it, and moves on behind it. -/
theorem takenFrom_take {s i : Nat} (h : OccursAt p text s) :
    TakenFrom p text s i ↔ i = s ∨ TakenFrom p text (s + p.length) i := by
  rw [takenFrom_iff]
  simp only [FirstFrom.self_iff h, exists_eq_left]

theorem TakenFrom.le {s i : Nat} (h : TakenFrom p text s i) : s ≤ i := by
  induction h with
  | first hfirst => exact hfirst.1
  | later hfirst _ ih => exact hfirst.1.trans (by omega)

/-- No occurrence that is taken runs into another. -/
theorem TakenFrom.disjoint {s i j : Nat} (hj : TakenFrom p text s j) (hi : TakenFrom p text s i) (hlt : j < i) :
    j + p.length ≤ i := by
  induction hj with
  | first hfirst =>
    obtain ⟨k, hk, rfl | hlater⟩ := takenFrom_iff.1 hi
    · exact absurd hfirst.2.1 (hk.2.2 _ hfirst.1 hlt)
    · rw [hfirst.eq hk]
      exact hlater.le
  | later hfirst hlater ih =>
    obtain ⟨k, hk, rfl | hi'⟩ := takenFrom_iff.1 hi
    · have := hlater.le
      rw [hfirst.eq hk] at this
      omega
    · rw [hk.eq hfirst] at hi'
      exact ih hi' hlt

/-- Every occurrence at or behind the start is taken, or one that is taken runs into it. -/
theorem taken_or_overlapped (hp : p ≠ []) : ∀ {s i : Nat}, s ≤ i → OccursAt p text i →
    TakenFrom p text s i ∨ ∃ j, TakenFrom p text s j ∧ j < i ∧ i < j + p.length := by
  classical
  have hlen := List.length_pos_iff.2 hp
  intro s i hle hocc
  induction hd : i - s using Nat.strong_induction_on generalizing s with
  | h d ih =>
    by_cases hs : OccursAt p text s
    · simp only [takenFrom_take hs]
      rcases Nat.eq_or_lt_of_le hle with rfl | hlt
      · exact Or.inl (Or.inl rfl)
      by_cases hover : i < s + p.length
      · exact Or.inr ⟨s, Or.inl rfl, hlt, hover⟩
      · rcases ih (i - (s + p.length)) (by omega) (by omega) rfl with htaken | ⟨j, hj, hrest⟩
        · exact Or.inl (Or.inr htaken)
        · exact Or.inr ⟨j, Or.inr hj, hrest⟩
    · simp only [takenFrom_skip hs]
      have hne : s ≠ i := by
        rintro rfl
        exact hs hocc
      exact ih (i - (s + 1)) (by omega) (by omega) rfl

theorem taken_iff (hp : p ≠ []) {i : Nat} :
    Taken p text i ↔ OccursAt p text i ∧ ∀ j, j < i → Taken p text j → j + p.length ≤ i := by
  constructor
  · exact fun h => ⟨TakenFrom.occursAt h, fun j hlt hj => TakenFrom.disjoint hj h hlt⟩
  · rintro ⟨hocc, hclear⟩
    rcases taken_or_overlapped hp (Nat.zero_le i) hocc with htaken | ⟨j, hj, hlt, hover⟩
    · exact htaken
    · have := hclear j hlt hj
      omega

/-! ## Separators

Of a list without the separator, what stands before a separator and what stands behind it is searched apart. -/

section

variable {u v : List α} {a : α}

theorem occursAt_before_sep (ha : a ∉ p) {i : Nat} (hi : i ≤ u.length) :
    OccursAt p (u ++ a :: v) i ↔ OccursAt p u i := by
  rw [OccursAt, OccursAt, List.drop_append_of_le_length hi]
  constructor
  · intro h
    by_cases hlen : p.length ≤ (u.drop i).length
    · exact List.prefix_of_prefix_length_le h (List.prefix_append _ _) hlen
    · have hsep : u.drop i ++ [a] <+: p :=
        List.prefix_of_prefix_length_le ⟨v, by rw [List.append_assoc, List.singleton_append]⟩ h
          (by rw [List.length_append, List.length_singleton]; omega)
      exact absurd (hsep.subset (List.mem_append_right _ (List.mem_singleton_self a))) ha
  · exact fun h => h.trans (List.prefix_append _ _)

theorem occursAt_behind_sep {k : Nat} : OccursAt p (u ++ a :: v) (u.length + 1 + k) ↔ OccursAt p v k := by
  rw [OccursAt, OccursAt, ← List.drop_drop, ← List.drop_drop, List.drop_left, List.drop_one, List.tail_cons]

theorem taken_before_sep (hp : p ≠ []) (ha : a ∉ p) {i : Nat} (hi : i ≤ u.length) :
    Taken p (u ++ a :: v) i ↔ Taken p u i := by
  induction i using Nat.strong_induction_on with
  | h i ih =>
    rw [taken_iff hp, taken_iff hp, occursAt_before_sep ha hi]
    refine and_congr_right fun _ => forall_congr' fun j => forall_congr' fun hlt => ?_
    rw [ih j hlt (by omega)]

theorem taken_behind_sep (hp : p ≠ []) (ha : a ∉ p) {k : Nat} :
    Taken p (u ++ a :: v) (u.length + 1 + k) ↔ Taken p v k := by
  induction k using Nat.strong_induction_on with
  | h k ih =>
    rw [taken_iff hp, taken_iff hp, occursAt_behind_sep]
    refine and_congr_right fun _ => ⟨fun h j hlt hj => ?_, fun h j hlt hj => ?_⟩
    · have := h (u.length + 1 + j) (by omega) ((ih j hlt).2 hj)
      omega
    · by_cases hle : j ≤ u.length
      · have := (TakenFrom.occursAt ((taken_before_sep hp ha hle).1 hj)).le hp
        omega
      · obtain ⟨m, rfl⟩ : ∃ m, j = u.length + 1 + m := ⟨j - (u.length + 1), by omega⟩
        have := h m (by omega) ((ih m (by omega)).1 hj)
        omega

end

/-! ## The search as a program -/

variable [DecidableEq α]

/-- What is left of the text at position `i` is searched, the next `skip` elements of it passed over. -/
def takenIn (p : List α) : Nat → Nat → List α → List Nat
  | _, _, [] => []
  | skip + 1, i, _ :: rest => takenIn p skip (i + 1) rest
  | 0, i, a :: rest =>
    if p <+: a :: rest then i :: takenIn p (p.length - 1) (i + 1) rest else takenIn p 0 (i + 1) rest

theorem mem_takenIn (hp : p ≠ []) {i : Nat} : ∀ {skip s : Nat} {rest : List α}, text.drop s = rest →
    (i ∈ takenIn p skip s rest ↔ TakenFrom p text (s + skip) i) := by
  intro skip s rest hrest
  induction rest generalizing skip s with
  | nil =>
    rw [takenIn]
    refine iff_of_false List.not_mem_nil fun htaken => ?_
    obtain ⟨j, ⟨hle, hocc, -⟩, -⟩ := takenFrom_iff.1 htaken
    rw [List.drop_eq_nil_iff] at hrest
    rw [OccursAt, List.drop_eq_nil_of_le (by omega), List.prefix_nil] at hocc
    exact hp hocc
  | cons a rest ih =>
    have hoccurs : OccursAt p text s ↔ p <+: a :: rest := by rw [OccursAt, hrest]
    have hnext : text.drop (s + 1) = rest := by rw [← List.drop_drop, hrest, List.drop_one, List.tail_cons]
    cases skip with
    | succ skip =>
      rw [takenIn, ih hnext, Nat.add_right_comm, Nat.add_assoc]
    | zero =>
      rw [takenIn, Nat.add_zero s]
      split
      · next hocc =>
        have hlen := List.length_pos_iff.2 hp
        rw [List.mem_cons, ih hnext, takenFrom_take (hoccurs.2 hocc),
          show s + 1 + (p.length - 1) = s + p.length by omega]
      · next hocc =>
        rw [ih hnext, Nat.add_zero, takenFrom_skip (mt hoccurs.1 hocc)]

/-! ## Borders -/

omit [DecidableEq α]

/-- `p` can run into itself behind `x`. -/
def Border (p x : List α) : Prop := x ≠ [] ∧ x.length < p.length ∧ p <+: x ++ p

theorem Border.isPrefix {x : List α} (h : Border p x) : x <+: p :=
  List.prefix_of_prefix_length_le (List.prefix_append x p) h.2.2 h.2.1.le

/-- An occurrence that runs into another goes on behind what it has ahead of it. -/
theorem border_of_overlap {i j : Nat} (hi : OccursAt p text i) (hj : OccursAt p text j) (hlt : j < i)
    (hover : i < j + p.length) : ∃ x, Border p x ∧ x <:+ text.take i := by
  have hp : p ≠ [] := List.length_pos_iff.1 (by omega)
  obtain ⟨before, after, htext, rfl⟩ := (occursAt_iff hp).1 hj
  obtain ⟨before', after', htext', rfl⟩ := (occursAt_iff hp).1 hi
  have hboth : before ++ (p ++ after) = before' ++ (p ++ after') := by
    rw [← List.append_assoc, ← htext, htext', List.append_assoc]
  obtain ⟨x, rfl⟩ : before <+: before' :=
    List.prefix_of_prefix_length_le (List.prefix_append before (p ++ after)) ⟨p ++ after', hboth.symm⟩ hlt.le
  rw [List.append_assoc, List.append_cancel_left_eq, ← List.append_assoc] at hboth
  rw [List.length_append] at hlt hover
  refine ⟨x, ⟨List.length_pos_iff.1 (by omega), by omega, ?_⟩, before, ?_⟩
  · exact List.prefix_of_prefix_length_le ⟨after, hboth⟩ (List.prefix_append (x ++ p) after') (by simp)
  · rw [htext', List.append_assoc, List.take_left]

theorem not_occursAt_zero {d : α} (hp : p ≠ []) (hd : p.head? ≠ some d) : ¬ OccursAt p (d :: text) 0 := by
  rintro ⟨t, ht⟩
  rw [List.drop_zero] at ht
  have hhead := congrArg List.head? ht
  rw [List.head?_append_of_ne_nil _ hp] at hhead
  exact hd hhead

/-- Behind an element that `p` does not begin with, the `p` is taken that runs into the one at the end. -/
theorem taken_of_border {x : List α} {d : α} (hx : Border p x) (hd : p.head? ≠ some d) :
    Taken p (d :: (x ++ p)) 1 := by
  have hp : p ≠ [] := List.length_pos_iff.1 (Nat.zero_lt_of_lt hx.2.1)
  have hsecond : OccursAt p (d :: (x ++ p)) 1 := hx.2.2
  rw [Taken, takenFrom_skip (not_occursAt_zero hp hd), takenFrom_take hsecond]
  exact Or.inl rfl

end WorldInfra.Lib
