/-
Lines of a list: the list cut after every separator. Where a line starts and ends is told by what
stands before a position, and a sorted sequence of lines can be searched by position: a window of
lines that may hold the key, narrowed to either side of the line at a probe.
-/
import Mathlib

namespace WorldInfra.Lib

section

variable {α : Type} [DecidableEq α] (sep : α)

/-- The first line with its separator; the whole list, if it has none. -/
def firstLine : List α → List α
  | [] => []
  | a :: s => if a = sep then [a] else a :: firstLine s

/-- The lines, each with its separator. The last one may lack it. -/
def lines : List α → List (List α)
  | [] => []
  | a :: s =>
    if a = sep then [a] :: lines s
    else
      match lines s with
      | [] => [[a]]
      | x :: xs => (a :: x) :: xs

theorem flatten_lines : ∀ s : List α, (lines sep s).flatten = s
  | [] => rfl
  | a :: s => by
    have ih := flatten_lines s
    unfold lines
    split
    · rw [List.flatten_cons, ih]; rfl
    · cases h : lines sep s with
      | nil => rw [h] at ih; rw [← ih]; rfl
      | cons x xs => rw [h] at ih; rw [← ih]; rfl

theorem firstLine_prefix : ∀ s : List α, firstLine sep s <+: s
  | [] => List.prefix_refl _
  | a :: s => by
    unfold firstLine
    split
    · exact List.cons_prefix_cons.2 ⟨rfl, List.nil_prefix⟩
    · exact List.cons_prefix_cons.2 ⟨rfl, firstLine_prefix s⟩

theorem firstLine_ne_nil : ∀ {s : List α}, s ≠ [] → firstLine sep s ≠ []
  | [], h => absurd rfl h
  | a :: s, _ => by
    unfold firstLine
    split <;> exact List.cons_ne_nil _ _

/-- The first line, and the lines of what follows it. -/
theorem lines_eq : ∀ {s : List α}, s ≠ [] →
    lines sep s = firstLine sep s :: lines sep (s.drop (firstLine sep s).length)
  | [], h => absurd rfl h
  | [a], _ => by by_cases h : a = sep <;> simp [lines, firstLine, h]
  | a :: b :: s, _ => by
    have ih := lines_eq (List.cons_ne_nil b s)
    rw [lines, firstLine]
    by_cases h : a = sep
    · rw [if_pos h, if_pos h]; rfl
    · rw [if_neg h, if_neg h, ih]; rfl

/-- Behind the first lines stand the others. -/
theorem lines_drop : ∀ {as bs : List (List α)} {s : List α}, lines sep s = as ++ bs →
    lines sep (s.drop as.flatten.length) = bs
  | [], _, _, h => h
  | a :: as, bs, s, h => by
    have hs : s ≠ [] := by
      rintro rfl
      cases h
    rw [lines_eq sep hs, List.cons_append, List.cons.injEq] at h
    obtain ⟨rfl, h⟩ := h
    rw [List.flatten_cons, List.length_append, ← List.drop_drop]
    exact lines_drop h

theorem firstLine_drop {as bs : List (List α)} {x s : List α} (h : lines sep s = as ++ x :: bs) :
    firstLine sep (s.drop as.flatten.length) = x := by
  have hd := lines_drop sep h
  have hs : s.drop as.flatten.length ≠ [] := by
    intro he
    rw [he] at hd
    cases hd
  rw [lines_eq sep hs, List.cons.injEq] at hd
  exact hd.1

/-- No separator stands in a line before its last place. -/
theorem firstLine_inner : ∀ {s : List α} {i : Nat}, i + 1 < (firstLine sep s).length →
    (firstLine sep s)[i]? ≠ some sep
  | [], i, h => absurd h (Nat.not_lt_zero _)
  | a :: s, i, h => by
    unfold firstLine at h ⊢
    by_cases ha : a = sep
    · rw [if_pos ha, List.length_singleton] at h; omega
    · rw [if_neg ha] at h ⊢
      cases i with
      | zero =>
        rw [List.getElem?_cons_zero]
        intro he; cases he; exact ha rfl
      | succ i =>
        rw [List.getElem?_cons_succ]
        rw [List.length_cons] at h
        exact firstLine_inner (by omega)

/-- A line that others follow ends in the separator. -/
theorem firstLine_last : ∀ {s : List α}, s.drop (firstLine sep s).length ≠ [] →
    (firstLine sep s)[(firstLine sep s).length - 1]? = some sep
  | [], h => absurd rfl h
  | a :: s, h => by
    unfold firstLine at h ⊢
    by_cases ha : a = sep
    · rw [if_pos ha, ha]; rfl
    · rw [if_neg ha] at h ⊢
      have hs : s ≠ [] := by
        rintro rfl
        exact h rfl
      have hpos : 0 < (firstLine sep s).length := List.length_pos_of_ne_nil (firstLine_ne_nil sep hs)
      have ih := firstLine_last h
      rw [List.length_cons, Nat.add_sub_cancel]
      obtain ⟨n, hn⟩ : ∃ n, (firstLine sep s).length = n + 1 := ⟨_, (Nat.sub_add_cancel hpos).symm⟩
      rw [hn, Nat.add_sub_cancel] at ih
      rw [hn, List.getElem?_cons_succ]
      exact ih

end

/-! ## Where the parts of a list start -/

section

variable {α : Type} {parts : List (List α)}

/-- The position of part `i` in the list the parts make up. -/
def start (parts : List (List α)) (i : Nat) : Nat := (parts.take i).flatten.length

@[simp] theorem start_zero : start parts 0 = 0 := rfl

theorem start_length : start parts parts.length = parts.flatten.length := by rw [start, List.take_length]

theorem start_succ {i : Nat} (h : i < parts.length) : start parts (i + 1) = start parts i + parts[i].length := by
  rw [start, List.take_succ_eq_append_getElem h, List.flatten_append, List.length_append,
    List.flatten_singleton, start]

theorem start_mono {i j : Nat} (h : i ≤ j) : start parts i ≤ start parts j := by
  obtain ⟨n, rfl⟩ := Nat.exists_eq_add_of_le h
  rw [start, start, List.take_add, List.flatten_append, List.length_append]
  exact Nat.le_add_right _ _

theorem start_succ_le (parts : List (List α)) {i j : Nat} (h : i < j) :
    start parts (i + 1) ≤ start parts j := start_mono h

/-- Between the starts of two parts, a position falls in a part. -/
theorem exists_part {i p : Nat} (hi : start parts i ≤ p) : ∀ {j : Nat}, j ≤ parts.length → p < start parts j →
    ∃ t, ∃ h : t < parts.length, i ≤ t ∧ t < j ∧ start parts t ≤ p ∧ p < start parts t + parts[t].length
  | 0, _, hp => absurd hp (Nat.not_lt_zero _)
  | j + 1, hj, hp => by
    by_cases h : start parts j ≤ p
    · -- it is part `j` itself
      have hij : i ≤ j := by
        by_contra hn
        have hle : start parts (j + 1) ≤ start parts i := start_mono (Nat.lt_of_not_le hn)
        omega
      rw [start_succ hj] at hp
      exact ⟨j, hj, hij, Nat.lt_succ_self j, h, hp⟩
    · obtain ⟨t, ht, h1, h2, h3⟩ := exists_part hi (Nat.le_of_succ_le hj) (Nat.lt_of_not_le h)
      exact ⟨t, ht, h1, Nat.lt_succ_of_lt h2, h3⟩

end

/-! ## A line in its place -/

section

variable {α : Type} [DecidableEq α] {sep : α} {s : List α} {t : Nat}

theorem lines_split (h : t < (lines sep s).length) :
    lines sep s = (lines sep s).take t ++ (lines sep s)[t] :: (lines sep s).drop (t + 1) := by
  rw [← List.drop_eq_getElem_cons h, List.take_append_drop]

/-- Reading a line at the start of one. -/
theorem firstLine_start (h : t < (lines sep s).length) :
    firstLine sep (s.drop (start (lines sep s) t)) = (lines sep s)[t] :=
  firstLine_drop sep (lines_split h)

theorem start_lines_length : start (lines sep s) (lines sep s).length = s.length := by
  rw [start_length, flatten_lines]

/-- What follows a line follows its first line's end. -/
theorem drop_start (h : t < (lines sep s).length) :
    (s.drop (start (lines sep s) t)).drop (lines sep s)[t].length = s.drop (start (lines sep s) (t + 1)) := by
  rw [List.drop_drop, start_succ h]

theorem line_ne_nil (h : t < (lines sep s).length) : (lines sep s)[t] ≠ [] := by
  rw [← firstLine_start h]
  refine firstLine_ne_nil sep ?_
  intro he
  have hd := lines_drop sep (lines_split h)
  rw [← start, he] at hd
  cases hd

theorem start_lt (h : t < (lines sep s).length) : start (lines sep s) t < start (lines sep s) (t + 1) := by
  rw [start_succ h]
  exact Nat.lt_add_of_pos_right (List.length_pos_of_ne_nil (line_ne_nil h))

/-- There are no more lines than elements. -/
theorem le_start : ∀ {t : Nat}, t ≤ (lines sep s).length → t ≤ start (lines sep s) t
  | 0, _ => Nat.zero_le _
  | t + 1, h => by
    have ih := le_start (Nat.le_of_succ_le h)
    have := start_lt (Nat.lt_of_succ_le h)
    omega

theorem lt_length (h : t < (lines sep s).length) {p : Nat}
    (hp : p < start (lines sep s) t + (lines sep s)[t].length) : p < s.length := by
  have hle := start_succ_le (lines sep s) h
  rw [start_lines_length, start_succ h] at hle
  omega

theorem getElem?_line (h : t < (lines sep s).length) {i : Nat} (hi : i < (lines sep s)[t].length) :
    s[start (lines sep s) t + i]? = (lines sep s)[t][i]? := by
  rw [← List.getElem?_drop]
  obtain ⟨rest, hrest⟩ := firstLine_prefix sep (s.drop (start (lines sep s) t))
  rw [firstLine_start h] at hrest
  rw [← hrest, List.getElem?_append_left hi]

theorem line_inner (h : t < (lines sep s).length) {i : Nat} (hi : i + 1 < (lines sep s)[t].length) :
    s[start (lines sep s) t + i]? ≠ some sep := by
  rw [getElem?_line h (by omega)]
  have hline := firstLine_start h
  generalize (lines sep s)[t] = x at hline hi ⊢
  subst hline
  exact firstLine_inner sep hi

/-- A separator closes the line at whose end it stands. -/
theorem start_of_sep (h : t < (lines sep s).length) {p : Nat} (h1 : start (lines sep s) t ≤ p)
    (h2 : p < start (lines sep s) t + (lines sep s)[t].length) (hp : s[p]? = some sep) :
    p + 1 = start (lines sep s) (t + 1) := by
  rw [start_succ h]
  obtain ⟨i, rfl⟩ := Nat.exists_eq_add_of_le h1
  by_contra hne
  exact line_inner h (by omega) hp

/-- Before the start of a line other than the first stands a separator. -/
theorem getElem?_before (h : t + 1 < (lines sep s).length) :
    s[start (lines sep s) (t + 1) - 1]? = some sep := by
  have ht : t < (lines sep s).length := Nat.lt_of_succ_lt h
  have hpos : 0 < (lines sep s)[t].length := List.length_pos_of_ne_nil (line_ne_nil ht)
  have hline := firstLine_start ht
  -- the line before is followed by another, so it ends in the separator
  have hrest : s.drop (start (lines sep s) (t + 1)) ≠ [] := by
    intro he
    have hd := firstLine_start h
    rw [he] at hd
    exact line_ne_nil h hd.symm
  rw [← drop_start ht] at hrest
  rw [start_succ ht, Nat.add_sub_assoc hpos, getElem?_line ht (by omega)]
  generalize (lines sep s)[t] = x at hline hrest ⊢
  subst hline
  exact firstLine_last sep hrest

end

/-! ## Searching sorted parts -/

section

variable {α κ : Type} [LinearOrder κ] {key : List α → κ} {k : κ} {parts : List (List α)}

/-- What a search for the key `k` knows: only the parts from `i` up to `j` may have it. -/
structure Window (key : List α → κ) (k : κ) (parts : List (List α)) (i j : Nat) : Prop where
  le : i ≤ j
  bound : j ≤ parts.length
  below : ∀ t (h : t < parts.length), t < i → key parts[t] < k
  above : ∀ t (h : t < parts.length), j ≤ t → k < key parts[t]

theorem window_all : Window key k parts 0 parts.length where
  le := Nat.zero_le _
  bound := le_refl _
  below t _ h := absurd h (Nat.not_lt_zero t)
  above _ h h' := absurd h (Nat.not_lt_of_le h')

theorem key_le (hsorted : parts.Pairwise fun p q => key p ≤ key q) {t u : Nat} (h : t ≤ u)
    (ht : t < parts.length) (hu : u < parts.length) : key parts[t] ≤ key parts[u] := by
  rcases Nat.lt_or_eq_of_le h with h | rfl
  · exact List.pairwise_iff_getElem.1 hsorted t u ht hu h
  · exact le_refl _

namespace Window

variable {i j t : Nat}

/-- The key is above the part probed. -/
theorem raise (w : Window key k parts i j) (hsorted : parts.Pairwise fun p q => key p ≤ key q) (hj : t < j)
    (ht : t < parts.length) (hlt : key parts[t] < k) : Window key k parts (t + 1) j where
  le := hj
  bound := w.bound
  below _ hu h := lt_of_le_of_lt (key_le hsorted (Nat.le_of_lt_succ h) hu ht) hlt
  above := w.above

/-- The key is below the part probed. -/
theorem lower (w : Window key k parts i j) (hsorted : parts.Pairwise fun p q => key p ≤ key q) (hi : i ≤ t)
    (ht : t < parts.length) (hlt : k < key parts[t]) : Window key k parts i t where
  le := hi
  bound := Nat.le_of_lt ht
  below := w.below
  above _ hu h := lt_of_lt_of_le hlt (key_le hsorted h ht hu)

/-- Nothing is left to look at. -/
theorem absent (w : Window key k parts i i) : ∀ p ∈ parts, key p ≠ k := by
  intro p hp
  obtain ⟨t, ht, rfl⟩ := List.mem_iff_getElem.1 hp
  rcases Nat.lt_or_ge t i with h | h
  · exact ne_of_lt (w.below t ht h)
  · exact ne_of_gt (w.above t ht h)

end Window

end

end WorldInfra.Lib
