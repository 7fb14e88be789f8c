/-
The lines of a text, `str::lines`. What looks at every line by itself, and neither at an empty one nor
at a carriage return at the end of one, may as well look at the parts between the line feeds.
-/
import WorldInfra.Lib.Lines
import WorldInfra.Rust.Pattern

namespace WorldInfra.Rust

/-- `str::lines`. -/
def Str.lines (s : Str) : List Str :=
  (Lib.lines '\n' s).map fun line =>
    match stripSuffix '\n' line with
    | none => line
    | some line => (stripSuffix '\r' line).getD line

namespace Str

theorem exists_split_cons {sep : Char} {s : Str} (h : sep ∈ s) :
    ∃ a b, s = a ++ sep :: b ∧ sep ∉ a := by
  have hsplit : (splitOnce sep s).isSome = true := by
    rw [Option.isSome_iff_ne_none, ne_eq, splitOnce_eq_none]
    exact not_not.2 h
  obtain ⟨⟨a, b⟩, hab⟩ := Option.isSome_iff_exists.1 hsplit
  exact ⟨a, b, splitOnce_eq_some.1 hab⟩

theorem forall_mem_splitOnP {p : Char → Bool} : ∀ {s part : Str}, part ∈ s.splitOnP p → ∀ c ∈ part, p c = false
  | [], part, h => by
    rw [List.splitOnP_nil, List.mem_singleton] at h
    rw [h]
    intro c hc
    cases hc
  | d :: s, part, h => by
    obtain ⟨first, rest, hrest⟩ := List.exists_cons_of_ne_nil (List.splitOnP_ne_nil p s)
    have ih : ∀ q ∈ s.splitOnP p, ∀ c ∈ q, p c = false := fun q hq => forall_mem_splitOnP hq
    rw [hrest] at ih
    rw [List.splitOnP_cons_eq_if_modifyHead, hrest] at h
    split at h
    · rcases List.mem_cons.1 h with rfl | h
      · intro c hc
        cases hc
      · exact ih part h
    · rename_i hd
      rcases List.mem_cons.1 h with rfl | h
      · intro c hc
        rcases List.mem_cons.1 hc with rfl | hc
        · exact Bool.eq_false_iff.2 hd
        · exact ih first (List.mem_cons_self ..) c hc
      · exact ih part (List.mem_cons_of_mem _ h)

theorem not_mem_of_mem_split {sep : Char} {s part : Str} (h : part ∈ s.split sep) : sep ∉ part := fun hm =>
  absurd (forall_mem_splitOnP h sep hm) (by simp)

theorem lines_append_cons {sep : Char} : ∀ {a : Str}, sep ∉ a → ∀ b : Str,
    Lib.lines sep (a ++ sep :: b) = (a ++ [sep]) :: Lib.lines sep b
  | [], _, b => by simp [Lib.lines]
  | c :: a, h, b => by
    rw [List.mem_cons, not_or] at h
    rw [List.cons_append, Lib.lines, if_neg (Ne.symm h.1), lines_append_cons h.2 b]
    rfl

theorem lines_of_not_mem {sep : Char} : ∀ {s : Str}, s ≠ [] → sep ∉ s → Lib.lines sep s = [s]
  | [], h, _ => absurd rfl h
  | [c], _, h => by
    rw [List.mem_singleton] at h
    rw [Lib.lines, if_neg (Ne.symm h)]
    rfl
  | c :: d :: s, _, h => by
    rw [List.mem_cons, not_or] at h
    rw [Lib.lines, if_neg (Ne.symm h.1), lines_of_not_mem (List.cons_ne_nil d s) h.2]

theorem filterMap_lines {α : Type} {f : Str → Option α} (hempty : f [] = none)
    (hreturn : ∀ line : Str, f (line ++ ['\r']) = f line) (s : Str) :
    s.lines.filterMap f = (s.split '\n').filterMap f := by
  induction hn : s.length using Nat.strong_induction_on generalizing s with
  | _ n ih =>
    by_cases h : '\n' ∈ s
    · obtain ⟨a, b, rfl, ha⟩ := exists_split_cons h
      have hb := ih b.length (by simp at hn; omega) b rfl
      have hline : f ((stripSuffix '\r' a).getD a) = f a := by
        cases hstrip : stripSuffix '\r' a with
        | none => rfl
        | some line =>
          rw [stripSuffix_eq_some.1 hstrip, hreturn]
          rfl
      rw [split_append_cons, split, List.splitOn_eq_singleton ha, List.singleton_append, List.filterMap_cons, ← hb]
      rw [lines, lines_append_cons ha, List.map_cons, List.filterMap_cons, stripSuffix_eq_some.2 rfl, hline]
      rfl
    · cases s with
      | nil => simp [lines, Lib.lines, hempty]
      | cons c s =>
        rw [lines, lines_of_not_mem (List.cons_ne_nil c s) h, split, List.splitOn_eq_singleton h]
        have hstrip : stripSuffix '\n' (c :: s) = none := by
          cases hs : stripSuffix '\n' (c :: s) with
          | none => rfl
          | some t => exact absurd (by rw [stripSuffix_eq_some.1 hs]; simp) h
        rw [List.map_singleton, hstrip]

end Str

end WorldInfra.Rust
