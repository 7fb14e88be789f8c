/-
The comments that scoped-sql-lint reads against those of Rust's lexer. The scanner keeps in step with the lexer
from one token to the next, but for a character literal that holds a quote, and for tokens that end in an `r` or a
slash which the scanner takes together with what follows.
-/
import WorldInfra.Rust.Lexer
import WorldInfra.ScopedSql.Comments

namespace WorldInfra.ScopedSql

open WorldInfra.Rust WorldInfra.Rust.Lexer

/-- Inside or at the end of this lexeme the scanner sees a string or a comment begin, and the lexer does not. -/
def Misread (l : Lexeme) : Prop :=
  (l.kind = .char ∧ '"' ∈ l.text) ∨ (l.text.getLast? = some 'r' ∧ opensRaw l.rest = true) ∨
    (l.text.getLast? = some '/' ∧ l.rest.head? = some '/')

instance : DecidablePred Misread := fun l => inferInstanceAs (Decidable ((l.kind = .char ∧ '"' ∈ l.text) ∨ _ ∨ _))

/-- Behind a token of this kind that ends at `rest` the scanner is where the lexer is. -/
def InStep (kind : TokenKind) (s rest : Str) : Prop :=
  ∀ text, s = text ++ rest → ¬ Misread ⟨kind, text, rest⟩ → lineComment s = lineComment rest

theorem Misread.append {kind : TokenKind} {text rest : Str} (h : Misread ⟨kind, text, rest⟩) (front : Str) :
    Misread ⟨kind, front ++ text, rest⟩ := by
  have hlast : ∀ {c}, text.getLast? = some c → (front ++ text).getLast? = some c := by
    intro c hc
    rw [List.getLast?_append, hc]
    rfl
  rcases h with ⟨hkind, hquote⟩ | ⟨hr, hraw⟩ | ⟨hslash, hhead⟩
  · exact Or.inl ⟨hkind, List.mem_append_right front hquote⟩
  · exact Or.inr (Or.inl ⟨hlast hr, hraw⟩)
  · exact Or.inr (Or.inr ⟨hlast hslash, hhead⟩)

/-- A front part that the scanner passes over does not matter. -/
theorem InStep.behind {kind : TokenKind} {s s' rest : Str} (hsuffix : s' <:+ s) (hpass : lineComment s = lineComment s')
    (hrest : rest <:+ s') (h : InStep kind s' rest) : InStep kind s rest := by
  obtain ⟨front, rfl⟩ := hsuffix
  obtain ⟨text', rfl⟩ := hrest
  intro text htext hread
  rw [← List.append_assoc, List.append_cancel_right_eq] at htext
  subst htext
  rw [hpass]
  exact h text' rfl fun hmisread => hread (hmisread.append front)

theorem InStep.refl (kind : TokenKind) (s : Str) : InStep kind s s := fun _ _ _ => rfl

/-! ## Words, numbers and symbols -/

theorem not_opens_of_plain {c : Char} {s : Str} (hc : Plain c) (hr : ¬ (c = 'r' ∧ opensRaw s = true)) :
    ¬ Opens c s := by
  rintro (rfl | ⟨rfl, -⟩ | hraw)
  · exact hc.1 rfl
  · exact hc.2.1 rfl
  · exact hr hraw

theorem opensRaw_of_plain {c : Char} (hc : Plain c) (s : Str) : opensRaw (c :: s) = false := by
  rw [opensRaw, List.dropWhile_cons, if_neg (by simpa using hc.2.2), List.head?_cons]
  simpa using hc.1

/-- Plain characters are passed over, unless the last of them is the `r` of a raw string. -/
theorem lineComment_plain : ∀ {used rest : Str}, (∀ c ∈ used, Plain c) →
    ¬ (used.getLast? = some 'r' ∧ opensRaw rest = true) → lineComment (used ++ rest) = lineComment rest
  | [], _, _, _ => rfl
  | [c], rest, hplain, hlast => by
    refine lineComment_skip (not_opens_of_plain (hplain c (List.mem_singleton_self c)) ?_)
    rintro ⟨rfl, hraw⟩
    exact hlast ⟨rfl, hraw⟩
  | c :: d :: used, rest, hplain, hlast => by
    rw [List.forall_mem_cons] at hplain
    have hnot : ¬ Opens c (d :: used ++ rest) := by
      refine not_opens_of_plain hplain.1 fun h => ?_
      rw [List.cons_append, opensRaw_of_plain (hplain.2 d (List.mem_cons_self ..))] at h
      exact Bool.false_ne_true h.2
    rw [List.cons_append, lineComment_skip hnot]
    exact lineComment_plain hplain.2 (by rwa [List.getLast?_cons_cons] at hlast)

theorem InStep.of_plain {kind : TokenKind} {s rest : Str} (h : ReadsPlain s rest) : InStep kind s rest := by
  obtain ⟨used, rfl, hplain⟩ := h
  intro text htext hread
  rw [List.append_cancel_right_eq] at htext
  subst htext
  exact lineComment_plain hplain fun hraw => hread (Or.inr (Or.inl hraw))

/-- One character that is no quote. -/
theorem InStep.of_char {kind : TokenKind} {c : Char} (hc : c ≠ '"') (rest : Str) : InStep kind (c :: rest) rest := by
  intro text htext hread
  rw [← List.singleton_append, List.append_cancel_right_eq] at htext
  subst htext
  refine lineComment_skip fun hopens => ?_
  rcases hopens with hquote | ⟨rfl, hslash⟩ | ⟨rfl, hraw⟩
  · exact hc hquote
  · exact hread (Or.inr (Or.inr ⟨rfl, hslash⟩))
  · exact hread (Or.inr (Or.inl ⟨rfl, hraw⟩))

variable {u : UnicodeTables}

/-- `r#` before an identifier begins no raw string. -/
theorem InStep.of_rawIdent {kind : TokenKind} {s : Str} (h : startsRawIdent u s = true) :
    InStep kind ('r' :: s) (rawIdent u s) := by
  obtain ⟨hash, hstart⟩ := Bool.and_eq_true_iff.1 h
  obtain ⟨s, rfl⟩ := List.head?_eq_some_iff.1 (beq_iff_eq.1 hash)
  obtain ⟨c, hc, hident⟩ := (Option.any_eq_true _ _).1 hstart
  obtain ⟨s, rfl⟩ := List.head?_eq_some_iff.1 hc
  have hplain : Plain c := plain_of isIdStart_not_plain hident
  have hraw : opensRaw ('#' :: c :: s) = false := by
    rw [← opensRaw_of_plain hplain s]
    rfl
  have hfront : lineComment ('r' :: '#' :: c :: s) = lineComment (c :: s) := by
    rw [lineComment_skip (by simp [Opens, hraw]), lineComment_skip (by simp [Opens])]
  exact .behind (List.suffix_append ['r', '#'] (c :: s)) hfront
    ((rawIdent_plain ('#' :: c :: s)).suffix.trans (List.suffix_cons c s))
    (.of_plain (.cons hplain (rawIdent_plain ('#' :: c :: s))))

/-! ## Strings -/

theorem quotedStringEnd_eq (s : Str) : quotedStringEnd false s = (doubleQuotedString s).getD [] := by
  fun_induction doubleQuotedString s with
  | case1 => rfl
  | case2 s => rfl
  | case3 c s hc ih =>
    rw [← ih]
    rfl
  | case4 c s hc ih =>
    rw [not_or] at hc
    rw [← ih, quotedStringEnd, if_neg Bool.false_ne_true, if_pos rfl, quotedStringEnd, if_pos rfl, quotedStringEnd,
      if_neg Bool.false_ne_true, if_neg hc.1, if_neg hc.2]
  | case5 c s hquote hescape ih =>
    rw [← ih, quotedStringEnd, if_neg Bool.false_ne_true]
    by_cases hc : c = '\\'
    · -- nothing stands behind the backslash
      cases s with
      | nil => rw [if_pos hc, quotedStringEnd, quotedStringEnd]
      | cons d s => exact absurd rfl (hescape d s hc)
    · rw [if_neg hc, if_neg hquote]

theorem rawStringBodyEnd_eq (hashes : Nat) : ∀ s : Str, rawStringBodyEnd hashes s = (rawString hashes s).getD []
  | [] => rfl
  | c :: s => by
    rw [rawStringBodyEnd, rawString]
    split
    · rfl
    · exact rawStringBodyEnd_eq hashes s

theorem InStep.of_strLiteral (s : Str) : InStep .str ('"' :: s) (strLiteral u s) := by
  have hfront : lineComment ('"' :: s) = lineComment ((doubleQuotedString s).getD []) := by
    rw [lineComment_quote, quotedStringEnd_eq]
  exact .behind ((doubleQuotedString_suffix s).trans (List.suffix_cons '"' s)) hfront (literalEnd_plain _).suffix
    (.of_plain (literalEnd_plain _))

/-- Hashes are passed over. -/
theorem lineComment_hashes : ∀ s : Str, lineComment s = lineComment (s.dropWhile (· == '#'))
  | [] => rfl
  | c :: s => by
    rw [List.dropWhile_cons]
    split
    · next h =>
      rw [beq_iff_eq] at h
      subst h
      rw [lineComment_skip (by simp [Opens]), lineComment_hashes s]
    · rfl

/-- A raw string; or an `r` with hashes, and one more character, that begin none. -/
theorem InStep.of_rawStrLiteral (s : Str) : InStep .str ('r' :: s) (rawStrLiteral u s) := by
  have hdrop : s.dropWhile (· == '#') <:+ 'r' :: s := (List.dropWhile_suffix _).trans (List.suffix_cons 'r' s)
  have hr := lineComment_r s
  have hhashes := lineComment_hashes s
  rw [rawStrLiteral, drop_takeWhile]
  rw [opensRaw] at hr
  generalize (s.takeWhile (· == '#')).length = hashes at hr ⊢
  generalize s.dropWhile (· == '#') = body at hdrop hr hhashes ⊢
  cases body with
  | nil => exact .behind hdrop (hr.trans hhashes) List.suffix_rfl (.refl _ _)
  | cons c rest =>
    simp only
    split
    · next hc =>
      subst hc
      have hfront : lineComment ('r' :: s) = lineComment ((rawString hashes rest).getD []) := by
        rw [hr, ← rawStringBodyEnd_eq]
        rfl
      have hsuffix := (rawString_suffix hashes rest).trans ((List.suffix_cons '"' rest).trans hdrop)
      exact .behind hsuffix hfront (literalEnd_plain _).suffix (.of_plain (literalEnd_plain _))
    · next hc =>
      rw [List.head?_cons, if_neg (by simpa using hc)] at hr
      exact .behind hdrop (hr.trans hhashes) (List.suffix_cons c rest) (.of_char hc rest)

/-! ## Character literals -/

/-- How a character literal ends: with its quote; or the source ends, or a slash or a line break is next. -/
def CharEnds (terminated : Bool) (used rest : Str) : Prop :=
  if terminated then used.getLast? = some '\''
  else rest = [] ∨ rest.head? = some '/' ∨ rest.head? = some '\n'

/-- In a character literal without a quote no raw string begins. -/
theorem opensRaw_of_charEnds {terminated : Bool} {rest : Str} : ∀ {used : Str}, CharEnds terminated used rest →
    '"' ∉ used → opensRaw (used ++ rest) = false
  | [], hends, _ => by
    cases terminated with
    | true => cases hends
    | false =>
      rcases hends with rfl | hhead | hhead
      · rfl
      · obtain ⟨rest, rfl⟩ := List.head?_eq_some_iff.1 hhead
        rfl
      · obtain ⟨rest, rfl⟩ := List.head?_eq_some_iff.1 hhead
        rfl
  | c :: used, hends, hquote => by
    rw [List.mem_cons, not_or] at hquote
    by_cases hhash : c = '#'
    · subst hhash
      have hnext : CharEnds terminated used rest := by
        cases terminated with
        | false => exact hends
        | true =>
          cases used with
          | nil => cases hends
          | cons d used => exact hends
      have hopens := opensRaw_of_charEnds hnext hquote.2
      exact hopens
    · rw [opensRaw, List.cons_append, List.dropWhile_cons, if_neg (by simpa using hhash), List.head?_cons]
      simpa using fun h => hquote.1 h.symm

/-- What is read of a character literal behind its opening quote, and that the scanner passes over it. -/
def ReadsChar (terminated : Bool) (s rest : Str) : Prop :=
  ∃ used, s = used ++ rest ∧ CharEnds terminated used rest ∧
    ('"' ∉ used → ¬ (used.getLast? = some '/' ∧ rest.head? = some '/') → lineComment s = lineComment rest)

theorem ReadsChar.cons {terminated : Bool} {c : Char} {s rest : Str} (h : ReadsChar terminated s rest)
    (hslash : c = '/' → s.head? = some '/' → s = rest) : ReadsChar terminated (c :: s) rest := by
  obtain ⟨used, rfl, hends, hpass⟩ := h
  have hlast : ∀ {d}, used.getLast? = some d → (c :: used).getLast? = some d := by
    intro d hd
    rw [List.getLast?_cons, hd]
    rfl
  refine ⟨c :: used, rfl, ?_, fun hquote hend => ?_⟩
  · cases terminated with
    | true => exact hlast hends
    | false => exact hends
  · rw [List.mem_cons, not_or] at hquote
    rw [lineComment_skip, hpass hquote.2 fun h => hend ⟨hlast h.1, h.2⟩]
    rintro (rfl | ⟨rfl, hhead⟩ | ⟨rfl, hraw⟩)
    · exact hquote.1 rfl
    · obtain rfl : used = [] := List.append_left_eq_self.1 (hslash rfl hhead)
      exact hend ⟨rfl, hhead⟩
    · rw [opensRaw_of_charEnds hends hquote.2] at hraw
      cases hraw

theorem ReadsChar.stop {s : Str} (h : s = [] ∨ s.head? = some '/' ∨ s.head? = some '\n') : ReadsChar false s s :=
  ⟨[], rfl, h, fun _ _ => rfl⟩

theorem ReadsChar.close (s : Str) : ReadsChar true ('\'' :: s) s :=
  ⟨['\''], rfl, rfl, fun _ _ => lineComment_skip (by simp [Opens])⟩

theorem singleQuotedLoop_readsChar (s : Str) : ReadsChar (singleQuotedLoop s).1 s (singleQuotedLoop s).2 := by
  fun_induction singleQuotedLoop s with
  | case1 => exact .stop (Or.inl rfl)
  | case2 s => exact .close s
  | case3 => exact .stop (Or.inr (Or.inl rfl))
  | case4 s _ ih => exact ih.cons (by simp)
  | case5 => exact .stop (Or.inr (Or.inr rfl))
  | case6 c s ih =>
    -- a slash is read behind a backslash, but not one more behind it
    refine .cons (.cons ih fun _ hhead => ?_) (by simp)
    obtain ⟨s, rfl⟩ := List.head?_eq_some_iff.1 hhead
    rfl
  | case7 c s _ hslash _ _ ih => exact ih.cons fun h => absurd h hslash

theorem singleQuotedString_readsChar (s : Str) : ReadsChar (singleQuotedString s).1 s (singleQuotedString s).2 := by
  rw [singleQuotedString]
  split
  · next h =>
    obtain ⟨t, ht⟩ := List.head?_eq_some_iff.1 h.2
    cases s with
    | nil => cases ht
    | cons c s =>
      rw [List.tail_cons] at ht
      subst ht
      exact (ReadsChar.close t).cons fun _ hhead => by simp at hhead
  · exact singleQuotedLoop_readsChar s

theorem InStep.of_charLiteral (s : Str) : InStep .char ('\'' :: s) (charLiteral u s) := by
  have hquote : lineComment ('\'' :: s) = lineComment s := lineComment_skip (by simp [Opens])
  refine .behind (List.suffix_cons '\'' s) hquote (charLiteral_suffix s) ?_
  have hreads := singleQuotedString_readsChar s
  rw [charLiteral]
  generalize (singleQuotedString s).1 = terminated at hreads ⊢
  generalize (singleQuotedString s).2 = rest at hreads ⊢
  obtain ⟨used, rfl, hends, hpass⟩ := hreads
  intro text htext hread
  cases terminated with
  | false =>
    rw [if_neg Bool.false_ne_true] at htext hread ⊢
    rw [List.append_cancel_right_eq] at htext
    subst htext
    exact hpass (fun hquote => hread (Or.inl ⟨rfl, hquote⟩)) fun h => hread (Or.inr (Or.inr h))
  | true =>
    rw [if_pos rfl] at htext hread ⊢
    have hsuffix : ReadsPlain rest (eatIdentifier u rest) := eatIdentifier_plain rest
    generalize eatIdentifier u rest = rest' at htext hread hsuffix ⊢
    obtain ⟨suffix, rfl, -⟩ := id hsuffix
    rw [← List.append_assoc, List.append_cancel_right_eq] at htext
    subst htext
    have hnoSlash : ¬ (used.getLast? = some '/' ∧ (suffix ++ rest').head? = some '/') := by
      rw [show used.getLast? = some '\'' from hends]
      simp
    rw [hpass (fun hquote => hread (Or.inl ⟨rfl, List.mem_append_left suffix hquote⟩)) hnoSlash]
    exact InStep.of_plain hsuffix suffix rfl fun hmisread => hread (hmisread.append used)

/-! ## The tokens one after the other -/

theorem InStep.of_lifetimeOrChar (s : Str) : InStep (lifetimeOrChar u s).1 ('\'' :: s) (lifetimeOrChar u s).2 := by
  have hplain : Plain '\'' := by simp [Plain]
  rw [lifetimeOrChar]
  split
  · exact .of_charLiteral s
  · next hfirst =>
    rw [not_or, not_not] at hfirst
    obtain ⟨c, hc, hident⟩ := (Option.any_eq_true _ _).1 hfirst.2
    obtain ⟨s, rfl⟩ := List.head?_eq_some_iff.1 hc
    split
    · next hraw =>
      obtain ⟨hr, hraw⟩ := hraw
      cases hr
      exact .behind (List.suffix_cons '\'' ('r' :: s)) (lineComment_skip (by simp [Opens]))
        ((rawIdent_suffix s).trans (List.suffix_cons 'r' s)) (.of_rawIdent hraw)
    · have hword : ReadsPlain ('\'' :: c :: s) (s.dropWhile (isIdContinue u)) := by
        refine .cons hplain (.cons ?_ (.dropWhile isIdContinue_not_plain s))
        rcases Bool.or_eq_true_iff.1 hident with h | h
        · exact plain_of isIdStart_not_plain h
        · exact plain_of isDigit_not_plain h
      by_cases hclose : (s.dropWhile (isIdContinue u)).head? = some '\''
      · rw [List.tail_cons, if_pos hclose]
        exact .of_plain (hword.trans (.tail hplain hclose))
      · rw [List.tail_cons, if_neg hclose]
        exact .of_plain hword

theorem InStep.of_cOrByteString {c : Char} (hc : c = 'b' ∨ c = 'c') (byte : Bool) (s : Str) :
    InStep (cOrByteString u byte s).1 (c :: s) (cOrByteString u byte s).2 := by
  have hplain : Plain c := by rcases hc with rfl | rfl <;> simp [Plain]
  have hletter : lineComment (c :: s) = lineComment s := by
    refine lineComment_skip (not_opens_of_plain hplain ?_)
    rintro ⟨rfl, -⟩
    simp at hc
  have hsuffix : s <:+ c :: s := List.suffix_cons c s
  rw [cOrByteString]
  split
  · next hquote =>
    obtain ⟨t, rfl⟩ := List.head?_eq_some_iff.1 hquote.2
    exact .behind hsuffix hletter ((charLiteral_suffix t).trans (List.suffix_cons _ t)) (.of_charLiteral t)
  · split
    · next hquote =>
      obtain ⟨t, rfl⟩ := List.head?_eq_some_iff.1 hquote
      exact .behind hsuffix hletter ((strLiteral_suffix t).trans (List.suffix_cons _ t)) (.of_strLiteral t)
    · split
      · next hraw =>
        obtain ⟨t, rfl⟩ := List.head?_eq_some_iff.1 hraw.1
        exact .behind hsuffix hletter ((rawStrLiteral_suffix t).trans (List.suffix_cons _ t)) (.of_rawStrLiteral t)
      · exact .of_plain (.cons hplain (identOrUnknownPrefix_plain s))

theorem isPatternWhitespace_not_plain :
    isPatternWhitespace '"' = false ∧ isPatternWhitespace '/' = false ∧ isPatternWhitespace '#' = false := by
  decide

/-- Every token but a comment leaves the scanner in step with the lexer. -/
theorem InStep.of_advanceToken {c : Char} {s : Str} : (advanceToken u c s).1 ≠ .lineComment →
    (advanceToken u c s).1 ≠ .blockComment → InStep (advanceToken u c s).1 (c :: s) (advanceToken u c s).2 := by
  refine advanceToken_cases ?lineComment ?blockComment ?whitespace ?rawIdent ?rawStr ?byteString ?cString ?ident ?number
    ?quote ?str ?emoji ?symbol
  case lineComment => exact fun _ _ hline => absurd rfl hline
  case blockComment => exact fun _ hblock => absurd rfl hblock
  case whitespace =>
    intro hspace _ _
    exact .of_plain (.cons (plain_of isPatternWhitespace_not_plain hspace) (.dropWhile isPatternWhitespace_not_plain s))
  case rawIdent =>
    rintro rfl hraw _ _
    exact .of_rawIdent hraw
  case rawStr =>
    rintro rfl _ _
    exact .of_rawStrLiteral s
  case byteString => exact fun hb _ _ => .of_cOrByteString (Or.inl hb) true s
  case cString => exact fun hc _ _ => .of_cOrByteString (Or.inr hc) false s
  case ident =>
    rintro hstart _ _
    refine .of_plain (.cons ?_ (identOrUnknownPrefix_plain s))
    rcases hstart with rfl | hstart
    · simp [Plain]
    · exact plain_of isIdStart_not_plain hstart
  case number =>
    intro hdigit _ _
    exact .of_plain (.cons (plain_of isDigit_not_plain hdigit) ((number_plain c s).trans (eatIdentifier_plain _)))
  case quote =>
    rintro rfl _ _
    exact .of_lifetimeOrChar s
  case str =>
    rintro rfl _ _
    exact .of_strLiteral s
  case emoji =>
    intro hemoji _ _
    exact .of_plain (.cons (plain_of isEmojiChar_not_plain hemoji) (invalidIdent_plain s))
  case symbol => exact fun hc _ _ => .of_char hc s

/-- The scanner reads this lexeme as the lexer does. -/
def ReadAlike (l : Lexeme) : Prop := l.kind ≠ .blockComment ∧ ¬ Misread l

theorem lineComment_lexeme {c : Char} {s : Str} (hread : ReadAlike (lexeme u c s))
    (hkind : (lexeme u c s).kind ≠ .lineComment) : lineComment (c :: s) = lineComment (lexeme u c s).rest :=
  InStep.of_advanceToken hkind hread.1 _ (lexeme_text c s).symm hread.2

theorem lineComment_eq : ∀ {n : Nat} {s : Str}, s.length ≤ n → (∀ l ∈ lexemes u s, ReadAlike l) →
    lineComment s = firstLineComment u s
  | _, [], _, _ => rfl
  | n + 1, c :: s, hlen, hread => by
    rw [firstLineComment_cons]
    rw [lexemes_cons] at hread
    split
    · next hkind =>
      rw [lineComment_cons, if_pos (advanceToken_lineComment hkind)]
    · next hkind =>
      rw [if_neg hkind, List.forall_mem_cons] at hread
      rw [List.length_cons] at hlen
      have hrest := length_lexeme_rest_le (u := u) c s
      rw [lineComment_lexeme hread.1 hkind]
      exact lineComment_eq (show _ ≤ n by omega) hread.2

/-! ## The literals of a quote -/

/-- The character and byte literals that hold a double quote. -/
def quoteLiterals : List Str := ["'\"'".toList, "'\\\"'".toList, "b'\"'".toList, "b'\\\"'".toList]

/-- The scanner takes the quote for the start of a string. -/
theorem lineComment_quoteLiteral {literal : Str} (h : literal ∈ quoteLiterals) (rest : Str) :
    lineComment (literal ++ rest) = lineComment (quotedStringEnd false ('\'' :: rest)) := by
  have hquote : lineComment ('\'' :: '"' :: '\'' :: rest) = lineComment (quotedStringEnd false ('\'' :: rest)) := by
    rw [lineComment_skip (by simp [Opens]), lineComment_quote]
  have hescape : lineComment ('\'' :: '\\' :: '"' :: '\'' :: rest) =
      lineComment (quotedStringEnd false ('\'' :: rest)) := by
    rw [lineComment_skip (by simp [Opens]), lineComment_skip (by simp [Opens]), lineComment_quote]
  simp only [quoteLiterals, List.mem_cons, List.not_mem_nil, or_false] at h
  rcases h with rfl | rfl | rfl | rfl
  · exact hquote
  · exact hescape
  · exact (lineComment_b _).trans hquote
  · exact (lineComment_b _).trans hescape

/-- The source up to a comment is made of the lexemes before it. -/
theorem lexemes_comment {comment : Lexeme} (hkind : comment.kind = .lineComment) : ∀ {back : List Lexeme} {s : Str},
    lexemes u s = back ++ [comment] → ∃ rest, firstLineComment u s = some ('/' :: rest) ∧
      s = back.flatMap (·.text) ++ '/' :: rest
  | [], s, h => by
    obtain ⟨c, s', rfl, rfl, -⟩ := lexemes_eq_cons h
    rw [firstLineComment_cons, if_pos hkind]
    obtain ⟨rfl, -⟩ := advanceToken_lineComment hkind
    exact ⟨s', rfl, rfl⟩
  | l :: back, s, h => by
    obtain ⟨c, s', rfl, rfl, ⟨-, hnil⟩ | ⟨hother, hrest⟩⟩ := lexemes_eq_cons h
    · simp at hnil
    obtain ⟨rest, hcomment, htext⟩ := lexemes_comment hkind hrest
    rw [firstLineComment_cons, if_neg hother]
    refine ⟨rest, hcomment, ?_⟩
    rw [List.flatMap_cons, List.append_assoc, ← htext, lexeme_text]

/-- Behind such a literal, and with no further quote before it, the comment of the line is not found. -/
theorem comment_missed {m comment : Lexeme} {back : List Lexeme} (hm : m.text ∈ quoteLiterals)
    (hback : ∀ l ∈ back, '"' ∉ l.text) (hkind : comment.kind = .lineComment) : ∀ {front : List Lexeme} {s : Str},
    lexemes u s = front ++ m :: (back ++ [comment]) → (∀ l ∈ front, ReadAlike l) →
      lineComment s ≠ firstLineComment u s
  | [], s, h, _ => by
    obtain ⟨c, s', rfl, rfl, ⟨-, hnil⟩ | ⟨hother, hrest⟩⟩ := lexemes_eq_cons h
    · simp at hnil
    obtain ⟨rest, hcomment, htext⟩ := lexemes_comment hkind hrest
    have hquote : '"' ∉ '\'' :: back.flatMap (·.text) := by
      simpa using hback
    obtain ⟨escaped, hend⟩ := quotedStringEnd_append false ('/' :: rest) hquote
    rw [firstLineComment_cons, if_neg hother, hcomment, ← lexeme_text c s', lineComment_quoteLiteral hm, htext,
      ← List.cons_append, hend]
    intro hfound
    have hlen := length_lineComment_le hfound
    have hshort : (quotedStringEnd escaped ('/' :: rest)).length ≤ rest.length := by
      cases escaped with
      | true => exact length_quotedStringEnd_le false rest
      | false => exact length_quotedStringEnd_le false rest
    rw [List.length_cons] at hlen
    omega
  | l :: front, s, h, hfront => by
    rw [List.forall_mem_cons] at hfront
    obtain ⟨c, s', rfl, rfl, ⟨-, hnil⟩ | ⟨hother, hrest⟩⟩ := lexemes_eq_cons h
    · simp at hnil
    rw [lineComment_lexeme hfront.1 hother, firstLineComment_cons, if_neg hother]
    exact comment_missed hm hback hkind hrest hfront.2

/-! ## The comment of a line -/

/-- On a line without a block comment: if no lexeme is misread, the scanner finds the comment of the line, and the
line is allowed if and only if that comment has the marker. If a literal of a quote is the first that is misread, and
no further quote stands between it and the comment, the comment is not found. -/
theorem lineComment_agrees (u : UnicodeTables) (line : Str)
    (hblock : ∀ l ∈ lexemes u line, l.kind ≠ .blockComment) :
    ((∀ l ∈ lexemes u line, ¬ Misread l) → lineComment line = firstLineComment u line ∧
      ∀ allowPrefix, isAllowComment line allowPrefix = true ↔
        ∃ comment, firstLineComment u line = some comment ∧ allowPrefix <:+: comment) ∧
    ∀ front m back comment, lexemes u line = front ++ m :: (back ++ [comment]) → (∀ l ∈ front, ¬ Misread l) →
      m.text ∈ quoteLiterals → (∀ l ∈ back, '"' ∉ l.text) → comment.kind = .lineComment →
        lineComment line ≠ firstLineComment u line := by
  constructor
  · intro hread
    have hcomment := lineComment_eq le_rfl fun l hl => ⟨hblock l hl, hread l hl⟩
    refine ⟨hcomment, fun allowPrefix => ?_⟩
    rw [isAllowComment, hcomment, Option.any_eq_true]
    simp only [Str.containsText, decide_eq_true_eq]
  · intro front m back comment hline hfront hm hback hkind
    refine comment_missed hm hback hkind hline fun l hl => ⟨hblock l ?_, hfront l hl⟩
    rw [hline]
    exact List.mem_append_left _ hl

/-- All that the tables say of a source in ASCII. -/
def asciiTables : UnicodeTables where
  xidStart c := c.isAlpha
  xidContinue c := c.isAlphanum || c == '_'
  emoji _ := false
  xidStart_ascii _ _ := rfl
  xidContinue_ascii _ _ := rfl

/-- `'a'; r#"// a"#; b"\"//" // scoped-sqlx-lint: allow` -/
def literalsLine : Str := "'a'; r#\"// a\"#; b\"\\\"//\" // scoped-sqlx-lint: allow".toList

theorem lineComment_agrees_literals : isAllowComment literalsLine "scoped-sqlx-lint: allow".toList = true := by
  refine (((lineComment_agrees asciiTables literalsLine (by decide)).1 (by decide)).2 _).2
    ⟨"// scoped-sqlx-lint: allow".toList, by decide, ?_⟩
  exact ⟨"// ".toList, [], by simp⟩

/-- The comment of `split('"') // scoped-sqlx-lint: allow` is not found. -/
theorem lineComment_quoteChar : ¬ ∀ (u : UnicodeTables) (line : Str),
    (∀ l ∈ lexemes u line, l.kind ≠ .blockComment) → lineComment line = firstLineComment u line := by
  intro h
  have hline := h asciiTables "split('\"') // scoped-sqlx-lint: allow".toList (by decide)
  have hmissed : lineComment "split('\"') // scoped-sqlx-lint: allow".toList = none := by decide
  have hcomment : firstLineComment asciiTables "split('\"') // scoped-sqlx-lint: allow".toList =
      some "// scoped-sqlx-lint: allow".toList := by decide
  rw [hmissed, hcomment] at hline
  cases hline

end WorldInfra.ScopedSql
