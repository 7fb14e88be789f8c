/-
Cutting a text at a number of bytes: `str::char_indices`, `String::truncate`, and the longest prefix of whole
characters within a budget of bytes.
-/
import WorldInfra.Rust.Text

namespace WorldInfra.Rust.Str

/-- `char_indices`, of a text that starts at byte `index`. -/
def charIndices (index : Nat) : Str → List (Nat × Char)
  | [] => []
  | ch :: s => (index, ch) :: charIndices (index + ch.utf8Size) s

/-- `truncate`; it panics, here `none`, if the new length is not on a character boundary. -/
def truncate (newLen : Nat) : Str → Option Str
  | [] => some []
  | ch :: s =>
    if newLen = 0 then some []
    else if ch.utf8Size ≤ newLen then (truncate (newLen - ch.utf8Size) s).map (ch :: ·)
    else none

/-- The longest prefix of a text, in whole characters, that has no more than a number of bytes. -/
structure LongestPrefix (budget : Nat) (s p : Str) : Prop where
  isPrefix : p <+: s
  len_le : p.len ≤ budget
  longest : ∀ q : Str, q <+: s → q.len ≤ budget → q <+: p

namespace LongestPrefix

theorem self {budget : Nat} {s : Str} (h : s.len ≤ budget) : LongestPrefix budget s s :=
  ⟨List.prefix_refl s, h, fun _ hq _ => hq⟩

/-- A character that fits goes with the longest prefix of the rest. -/
theorem cons {budget : Nat} {s p : Str} {ch : Char} (h : LongestPrefix budget s p) :
    LongestPrefix (budget + ch.utf8Size) (ch :: s) (ch :: p) := by
  refine ⟨List.prefix_cons_inj ch |>.2 h.isPrefix, ?_, ?_⟩
  · have hlen := h.len_le
    rw [len_cons]
    omega
  · rintro (_ | ⟨d, q⟩) hq hlen
    · exact List.nil_prefix
    · obtain ⟨rfl, hrest⟩ := List.cons_prefix_cons.1 hq
      rw [len_cons] at hlen
      exact List.cons_prefix_cons.2 ⟨rfl, h.longest q hrest (by omega)⟩

/-- Nothing fits if the first character does not. -/
theorem nil {budget : Nat} {s : Str} {ch : Char} (h : budget < ch.utf8Size) : LongestPrefix budget (ch :: s) [] := by
  refine ⟨List.nil_prefix, Nat.zero_le _, ?_⟩
  rintro (_ | ⟨d, q⟩) hq hlen
  · exact List.nil_prefix
  · obtain ⟨rfl, -⟩ := List.cons_prefix_cons.1 hq
    rw [len_cons] at hlen
    omega

end LongestPrefix

/-- In a text too long for the budget, the last character that starts within the budget starts where the
longest prefix ends. -/
theorem truncate_last_start {budget : Nat} : ∀ {s : Str} {index : Nat}, index ≤ budget → budget < index + s.len →
    ∃ last p, (((charIndices index s).map Prod.fst).takeWhile (· ≤ budget)).getLast? = some last ∧ index ≤ last ∧
      truncate (last - index) s = some p ∧ LongestPrefix (budget - index) s p
  | [], index, hle, hlt => absurd hlt (Nat.not_lt.2 hle)
  | ch :: s, index, hle, hlt => by
    have hsize := ch.utf8Size_pos
    rw [len_cons] at hlt
    rw [charIndices, List.map_cons, List.takeWhile_cons, if_pos (by simpa using hle)]
    by_cases hfits : index + ch.utf8Size ≤ budget
    · obtain ⟨last, p, hlast, hge, htrunc, hlongest⟩ := truncate_last_start (s := s) hfits (by omega)
      have hrest : last - index - ch.utf8Size = last - (index + ch.utf8Size) := by omega
      have hbudget : budget - index = budget - (index + ch.utf8Size) + ch.utf8Size := by omega
      refine ⟨last, ch :: p, ?_, by omega, ?_, ?_⟩
      · rw [List.getLast?_cons, hlast]
        rfl
      · rw [truncate, if_neg (by omega), if_pos (by omega), hrest, htrunc]
        rfl
      · rw [hbudget]
        exact hlongest.cons
    · -- the next character starts beyond the budget
      have hnext : ((charIndices (index + ch.utf8Size) s).map Prod.fst).takeWhile (· ≤ budget) = [] := by
        cases s with
        | nil => rfl
        | cons d s => rw [charIndices, List.map_cons, List.takeWhile_cons, if_neg (by simpa using hfits)]
      refine ⟨index, [], ?_, le_refl index, ?_, LongestPrefix.nil (by omega)⟩
      · rw [hnext]
        rfl
      · rw [Nat.sub_self, truncate, if_pos rfl]

end WorldInfra.Rust.Str
