/-
scoped-sql-lint: the comment at the end of a line. The scanner goes through the line and passes over what it
takes for string literals; a place in the line is told by what is left of it.
-/
import WorldInfra.Rust.Pattern

namespace WorldInfra.ScopedSql

open WorldInfra.Rust

/-- `quoted_string_end`: what is left behind the closing quote, and nothing if there is none. -/
def quotedStringEnd : Bool → Str → Str
  | _, [] => []
  | escaped, c :: rest =>
    if escaped then quotedStringEnd false rest
    else if c = '\\' then quotedStringEnd true rest
    else if c = '"' then rest
    else quotedStringEnd false rest

/-- The second loop of `raw_string_literal_end`. -/
def rawStringBodyEnd (hashes : Nat) : Str → Str
  | [] => []
  | c :: rest =>
    if c = '"' ∧ List.replicate hashes '#' <+: rest then rest.drop hashes else rawStringBodyEnd hashes rest

def rawStringLiteralEnd : Str → Option Str
  | [] => none
  | c :: rest =>
    if c = 'r' then
      let hashes := (rest.takeWhile (· == '#')).length
      let body := rest.drop hashes
      if body.head? = some '"' then some (rawStringBodyEnd hashes body.tail) else none
    else none

def stringLiteralEnd : Str → Option Str
  | [] => none
  | c :: rest =>
    if c = '"' then some (quotedStringEnd false rest)
    else if c = 'b' ∧ rest.head? = some '"' then some (quotedStringEnd false rest.tail)
    else
      (rawStringLiteralEnd (c :: rest)).or (if c = 'b' then rawStringLiteralEnd rest else none)

def lineCommentFrom : Nat → Str → Option Str
  | fuel + 1, c :: d :: rest =>
    if c = '/' ∧ d = '/' then some (c :: d :: rest)
    else lineCommentFrom fuel ((stringLiteralEnd (c :: d :: rest)).getD (d :: rest))
  | _, _ => none

def lineComment (line : Str) : Option Str := lineCommentFrom line.length line

def isAllowComment (line allowPrefix : Str) : Bool := (lineComment line).any (·.containsText allowPrefix)

def isAllowed (lines : List Str) (index : Nat) (allowPrefix : Str) : Bool :=
  lines[index]?.any (isAllowComment · allowPrefix) ||
    ((if 1 ≤ index then some (index - 1) else none).bind (lines[·]?)).any (isAllowComment · allowPrefix)

/-! ## The scanner moves on -/

theorem length_quotedStringEnd_le : ∀ (escaped : Bool) (s : Str), (quotedStringEnd escaped s).length ≤ s.length
  | _, [] => Nat.le_refl 0
  | escaped, c :: s => by
    have hnext := fun escaped => length_quotedStringEnd_le escaped s
    rw [quotedStringEnd, List.length_cons]
    split
    · exact Nat.le_succ_of_le (hnext false)
    · split
      · exact Nat.le_succ_of_le (hnext true)
      · split
        · exact Nat.le_succ s.length
        · exact Nat.le_succ_of_le (hnext false)

theorem length_rawStringBodyEnd_le (hashes : Nat) : ∀ s : Str, (rawStringBodyEnd hashes s).length ≤ s.length
  | [] => Nat.le_refl 0
  | c :: s => by
    rw [rawStringBodyEnd, List.length_cons]
    split
    · rw [List.length_drop]
      omega
    · exact Nat.le_succ_of_le (length_rawStringBodyEnd_le hashes s)

/-- A raw string begins, behind its `r`. -/
def opensRaw (s : Str) : Bool := (s.dropWhile (· == '#')).head? == some '"'

theorem drop_takeWhile {p : Char → Bool} (s : Str) : s.drop (s.takeWhile p).length = s.dropWhile p := by
  have happend : s.takeWhile p ++ s.dropWhile p = s := List.takeWhile_append_dropWhile
  calc s.drop (s.takeWhile p).length = (s.takeWhile p ++ s.dropWhile p).drop (s.takeWhile p).length := by rw [happend]
    _ = s.dropWhile p := List.drop_left

theorem rawStringLiteralEnd_r (s : Str) : rawStringLiteralEnd ('r' :: s) =
    if opensRaw s then some (rawStringBodyEnd (s.takeWhile (· == '#')).length (s.dropWhile (· == '#')).tail)
    else none := by
  rw [rawStringLiteralEnd, if_pos rfl]
  simp only [drop_takeWhile, opensRaw, beq_iff_eq]

theorem rawStringLiteralEnd_of_ne {c : Char} (hc : c ≠ 'r') (s : Str) : rawStringLiteralEnd (c :: s) = none := if_neg hc

theorem length_rawStringLiteralEnd_le {c : Char} {s rest : Str} (h : rawStringLiteralEnd (c :: s) = some rest) :
    rest.length ≤ s.length := by
  rw [rawStringLiteralEnd] at h
  simp only at h
  split at h
  · split at h
    · cases h
      refine (length_rawStringBodyEnd_le _ _).trans ?_
      rw [List.length_tail, List.length_drop]
      omega
    · cases h
  · cases h

theorem length_stringLiteralEnd_le {c : Char} {s rest : Str} (h : stringLiteralEnd (c :: s) = some rest) :
    rest.length ≤ s.length := by
  rw [stringLiteralEnd] at h
  split at h
  · cases h
    exact length_quotedStringEnd_le false s
  · split at h
    · cases h
      refine (length_quotedStringEnd_le _ _).trans ?_
      rw [List.length_tail]
      omega
    · rcases Option.or_eq_some_iff.1 h with h | ⟨-, h⟩
      · exact length_rawStringLiteralEnd_le h
      · split at h
        · cases s with
          | nil => cases h
          | cons d s => exact (length_rawStringLiteralEnd_le h).trans (Nat.le_succ s.length)
        · cases h

/-- What is left behind the string literal at this place, or behind its character. -/
theorem length_next_le (c : Char) (s : Str) : ((stringLiteralEnd (c :: s)).getD s).length ≤ s.length := by
  cases h : stringLiteralEnd (c :: s) with
  | none => exact Nat.le_refl _
  | some rest => exact length_stringLiteralEnd_le h

theorem lineCommentFrom_fuel : ∀ {m n : Nat} {s : Str}, s.length ≤ m → s.length ≤ n →
    lineCommentFrom m s = lineCommentFrom n s
  | 0, 0, _, _, _ => rfl
  | 0, _ + 1, [], _, _ => rfl
  | _ + 1, 0, [], _, _ => rfl
  | _ + 1, _ + 1, [], _, _ => rfl
  | _ + 1, _ + 1, [_], _, _ => rfl
  | m + 1, n + 1, c :: d :: s, hm, hn => by
    have hnext := length_next_le c (d :: s)
    rw [List.length_cons] at hm hn
    rw [lineCommentFrom, lineCommentFrom, lineCommentFrom_fuel (show _ ≤ m by omega) (show _ ≤ n by omega)]

theorem lineComment_cons (c : Char) (s : Str) : lineComment (c :: s) =
    if c = '/' ∧ s.head? = some '/' then some (c :: s)
    else lineComment ((stringLiteralEnd (c :: s)).getD s) := by
  cases s with
  | nil =>
    rw [if_neg (by simp)]
    have hnil : (stringLiteralEnd [c]).getD [] = [] := List.length_eq_zero_iff.1 (Nat.le_zero.1 (length_next_le c []))
    rw [hnil]
    rfl
  | cons d s =>
    rw [lineComment, List.length_cons, lineCommentFrom, lineCommentFrom_fuel (length_next_le c (d :: s)) le_rfl]
    rw [← lineComment]
    simp only [List.head?_cons, Option.some.injEq]

/-! ## What it passes over -/

/-- At this character the scanner sees a comment or a string begin. A `b` makes no difference. -/
def Opens (c : Char) (s : Str) : Prop := c = '"' ∨ (c = '/' ∧ s.head? = some '/') ∨ (c = 'r' ∧ opensRaw s = true)

theorem lineComment_quote (s : Str) : lineComment ('"' :: s) = lineComment (quotedStringEnd false s) := by
  rw [lineComment_cons, if_neg (by simp), stringLiteralEnd, if_pos rfl, Option.getD_some]

theorem lineComment_r (s : Str) : lineComment ('r' :: s) = lineComment (if opensRaw s then
    rawStringBodyEnd (s.takeWhile (· == '#')).length (s.dropWhile (· == '#')).tail else s) := by
  have hb : ¬ 'r' = 'b' := by simp
  rw [lineComment_cons, if_neg (by simp), stringLiteralEnd, if_neg (by simp), if_neg (by simp), rawStringLiteralEnd_r,
    if_neg hb, Option.or_none]
  split <;> rfl

/-- A string literal ends where it ends without a `b` before it. -/
theorem lineComment_b (s : Str) : lineComment ('b' :: s) = lineComment s := by
  rw [lineComment_cons, if_neg (by simp), stringLiteralEnd, if_neg (by simp), rawStringLiteralEnd_of_ne (by simp),
    if_pos rfl, Option.none_or]
  cases s with
  | nil => rfl
  | cons c s =>
    by_cases hquote : c = '"'
    · subst hquote
      rw [if_pos ⟨rfl, rfl⟩, lineComment_quote]
      rfl
    · rw [if_neg (by simpa using hquote)]
      by_cases hr : c = 'r'
      · subst hr
        rw [lineComment_r, rawStringLiteralEnd_r]
        split
        · rfl
        · next h => rw [Option.getD_none, lineComment_r, if_neg h]
      · rw [rawStringLiteralEnd_of_ne hr]
        rfl

theorem lineComment_skip {c : Char} {s : Str} (h : ¬ Opens c s) : lineComment (c :: s) = lineComment s := by
  rw [Opens, not_or, not_or] at h
  obtain ⟨hquote, hslash, hraw⟩ := h
  by_cases hb : c = 'b'
  · subst hb
    exact lineComment_b s
  by_cases hr : c = 'r'
  · subst hr
    rw [lineComment_r, if_neg (fun h => hraw ⟨rfl, h⟩)]
  rw [lineComment_cons, if_neg hslash, stringLiteralEnd, if_neg hquote, if_neg (fun h => hb h.1),
    rawStringLiteralEnd_of_ne hr, if_neg hb]
  rfl

theorem length_lineCommentFrom_le : ∀ {fuel : Nat} {s comment : Str}, lineCommentFrom fuel s = some comment →
    comment.length ≤ s.length
  | 0, _, _, h => by cases h
  | _ + 1, [], _, h => by cases h
  | _ + 1, [_], _, h => by cases h
  | fuel + 1, c :: d :: s, comment, h => by
    rw [lineCommentFrom] at h
    split at h
    · cases h
      exact le_rfl
    · exact (length_lineCommentFrom_le h).trans ((length_next_le c (d :: s)).trans (Nat.le_succ _))

theorem length_lineComment_le {s comment : Str} (h : lineComment s = some comment) : comment.length ≤ s.length :=
  length_lineCommentFrom_le h

/-- Without a quote a string does not end. -/
theorem quotedStringEnd_append : ∀ {s : Str} (escaped : Bool) (rest : Str), '"' ∉ s →
    ∃ escaped', quotedStringEnd escaped (s ++ rest) = quotedStringEnd escaped' rest
  | [], escaped, rest, _ => ⟨escaped, rfl⟩
  | c :: s, escaped, rest, h => by
    rw [List.mem_cons, not_or] at h
    rw [List.cons_append, quotedStringEnd]
    split
    · exact quotedStringEnd_append false rest h.2
    · split
      · exact quotedStringEnd_append true rest h.2
      · rw [if_neg fun hc => h.1 hc.symm]
        exact quotedStringEnd_append false rest h.2

end WorldInfra.ScopedSql
