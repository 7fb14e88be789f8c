/-
The tokens of Rust source (edition 2021): where each of them ends, and whether it is a comment, a literal in
quotes or something else. A reader takes what stands behind the characters already read, and gives what is
left of it.
-/
import WorldInfra.Rust.Pattern

namespace WorldInfra.Rust

/-- The properties of characters that the lexer looks up. -/
structure UnicodeTables where
  xidStart : Char → Bool
  xidContinue : Char → Bool
  emoji : Char → Bool
  xidStart_ascii : ∀ c, isAscii c = true → xidStart c = c.isAlpha
  xidContinue_ascii : ∀ c, isAscii c = true → xidContinue c = (c.isAlphanum || c == '_')

/-- `char` literals count with byte literals, `str` literals with byte and C strings, raw or not. -/
inductive TokenKind where
  | lineComment
  | blockComment
  | whitespace
  | ident
  | lifetime
  | number
  | char
  | str
  | symbol
  deriving DecidableEq, Repr

namespace Lexer

/-- `Pattern_White_Space`. -/
def isPatternWhitespace (c : Char) : Bool :=
  c == '\t' || c == '\n' || c == '\x0b' || c == '\x0c' || c == '\r' || c == ' ' || c == '\u0085' || c == '\u200e' ||
    c == '\u200f' || c == '\u2028' || c == '\u2029'

/-- Block comments nest. -/
def blockComment : Nat → Str → Str
  | _, [] => []
  | depth, '/' :: '*' :: s => blockComment (depth + 1) s
  | depth, '*' :: '/' :: s => if depth ≤ 1 then s else blockComment (depth - 1) s
  | depth, _ :: s => blockComment depth s

/-! ## Strings -/

/-- The rest behind the closing quote, if there is one. -/
def doubleQuotedString : Str → Option Str
  | [] => none
  | '"' :: s => some s
  | '\\' :: c :: s => if c = '\\' ∨ c = '"' then doubleQuotedString s else doubleQuotedString (c :: s)
  | _ :: s => doubleQuotedString s

/-- The rest behind a closing quote with its hashes, if there is one. -/
def rawString (hashes : Nat) : Str → Option Str
  | [] => none
  | c :: s =>
    if c = '"' ∧ List.replicate hashes '#' <+: s then some (s.drop hashes) else rawString hashes s

/-- Whether a character literal of more than one character is closed. A slash is not read, since a comment may
begin there. -/
def singleQuotedLoop : Str → Bool × Str
  | [] => (false, [])
  | '\'' :: s => (true, s)
  | '/' :: s => (false, '/' :: s)
  | '\n' :: s => if s.head? = some '\'' then singleQuotedLoop s else (false, '\n' :: s)
  | '\\' :: _ :: s => singleQuotedLoop s
  | _ :: s => singleQuotedLoop s

def singleQuotedString (s : Str) : Bool × Str :=
  if s.head? ≠ some '\\' ∧ s.tail.head? = some '\'' then (true, s.drop 2) else singleQuotedLoop s

section

variable (u : UnicodeTables)

def isIdStart (c : Char) : Bool := c == '_' || u.xidStart c

def isIdContinue (c : Char) : Bool := u.xidContinue c

/-- The suffix of a literal, if it has one. -/
def eatIdentifier : Str → Str
  | [] => []
  | c :: s => if isIdStart u c then s.dropWhile (isIdContinue u) else c :: s

def isEmojiChar (c : Char) : Bool := !isAscii c && u.emoji c

def invalidIdent (s : Str) : Str := s.dropWhile fun c => isIdContinue u c || isEmojiChar u c || c == '\u200d'

def identOrUnknownPrefix (s : Str) : Str :=
  let rest := s.dropWhile (isIdContinue u)
  if rest.head?.any (isEmojiChar u) then invalidIdent u rest else rest

/-- `#` and an identifier, behind the `r`. -/
def startsRawIdent (s : Str) : Bool := s.head? == some '#' && s.tail.head?.any (isIdStart u)

def rawIdent (s : Str) : Str := (s.drop 2).dropWhile (isIdContinue u)

/-- The rest behind a string literal, given what is behind its closing quote. -/
def literalEnd : Option Str → Str
  | some rest => eatIdentifier u rest
  | none => []

def strLiteral (s : Str) : Str := literalEnd u (doubleQuotedString s)

/-- Behind the `r`. A character that is neither a hash nor a quote is read as well. -/
def rawStrLiteral (s : Str) : Str :=
  let hashes := (s.takeWhile (· == '#')).length
  match s.drop hashes with
  | [] => []
  | c :: s => if c = '"' then literalEnd u (rawString hashes s) else s

def charLiteral (s : Str) : Str :=
  let literal := singleQuotedString s
  if literal.1 then eatIdentifier u literal.2 else literal.2

def lifetimeOrChar (s : Str) : TokenKind × Str :=
  if s.tail.head? = some '\'' ∨ ¬ s.head?.any (fun c => isIdStart u c || c.isDigit) then (.char, charLiteral u s)
  else if s.head? = some 'r' ∧ startsRawIdent u s.tail then (.lifetime, rawIdent u s.tail)
  else
    let rest := s.tail.dropWhile (isIdContinue u)
    if rest.head? = some '\'' then (.char, rest.tail) else (.lifetime, rest)

/-- `byte` if the prefix is `b`. -/
def cOrByteString (byte : Bool) (s : Str) : TokenKind × Str :=
  if byte ∧ s.head? = some '\'' then (.char, charLiteral u s.tail)
  else if s.head? = some '"' then (.str, strLiteral u s.tail)
  else if s.head? = some 'r' ∧ (s.tail.head? = some '"' ∨ s.tail.head? = some '#') then
    (.str, rawStrLiteral u s.tail)
  else (.ident, identOrUnknownPrefix u s)

/-! ## Numbers -/

def eatDigits (isDigit : Char → Bool) (s : Str) : Str := s.dropWhile fun c => isDigit c || c == '_'

def eatFloatExponent (s : Str) : Str :=
  eatDigits Char.isDigit (if s.head? = some '-' ∨ s.head? = some '+' then s.tail else s)

def eatExponent (s : Str) : Str :=
  if s.head? = some 'e' ∨ s.head? = some 'E' then eatFloatExponent s.tail else s

/-- A fraction or an exponent, but neither a range nor a field or method. -/
def eatFraction (s : Str) : Str :=
  if s.head? = some '.' ∧ ¬ s.tail.head?.any (fun c => c == '.' || isIdStart u c) then
    if s.tail.head?.any Char.isDigit then eatExponent (eatDigits Char.isDigit s.tail) else s.tail
  else eatExponent s

/-- The digits behind a prefix such as `0x`; without one, the number ends there. -/
def eatBased (isDigit : Char → Bool) (s : Str) : Str :=
  if (s.takeWhile fun c => isDigit c || c == '_').any isDigit then eatFraction u (eatDigits isDigit s)
  else eatDigits isDigit s

def number (first : Char) (s : Str) : Str :=
  if first = '0' then
    if s.head? = some 'b' ∨ s.head? = some 'o' then eatBased u Char.isDigit s.tail
    else if s.head? = some 'x' then eatBased u isAsciiHexdigit s.tail
    else if s.head?.any (fun c => c.isDigit || c == '_') then eatFraction u (eatDigits Char.isDigit s)
    else if s.head?.any (fun c => c == '.' || c == 'e' || c == 'E') then eatFraction u s
    else s
  else eatFraction u (eatDigits Char.isDigit s)

/-! ## Tokens -/

def advanceToken (first : Char) (s : Str) : TokenKind × Str :=
  if first = '/' then
    if s.head? = some '/' then (.lineComment, s.dropWhile (· != '\n'))
    else if s.head? = some '*' then (.blockComment, blockComment 1 s.tail)
    else (.symbol, s)
  else if isPatternWhitespace first then (.whitespace, s.dropWhile isPatternWhitespace)
  else if first = 'r' then
    if startsRawIdent u s then (.ident, rawIdent u s)
    else if s.head? = some '#' ∨ s.head? = some '"' then (.str, rawStrLiteral u s)
    else (.ident, identOrUnknownPrefix u s)
  else if first = 'b' then cOrByteString u true s
  else if first = 'c' then cOrByteString u false s
  else if isIdStart u first then (.ident, identOrUnknownPrefix u s)
  else if first.isDigit then (.number, eatIdentifier u (number u first s))
  else if first = '\'' then lifetimeOrChar u s
  else if first = '"' then (.str, strLiteral u s)
  else if isEmojiChar u first then (.ident, invalidIdent u s)
  else (.symbol, s)

end

end Lexer

/-- A token with what is left of the source behind it. -/
structure Lexeme where
  kind : TokenKind
  text : Str
  rest : Str
  deriving DecidableEq, Repr

namespace Lexer

variable (u : UnicodeTables)

def lexeme (first : Char) (s : Str) : Lexeme :=
  let (kind, rest) := advanceToken u first s
  ⟨kind, (first :: s).take (s.length + 1 - rest.length), rest⟩

/-- The lexemes up to the first line comment. -/
def lexemesFrom : Nat → Str → List Lexeme
  | fuel + 1, c :: s =>
    let l := lexeme u c s
    if l.kind = .lineComment then [l] else l :: lexemesFrom fuel l.rest
  | _, _ => []

def lexemes (s : Str) : List Lexeme := lexemesFrom u s.length s

/-- The source from its first `//` that stands outside every literal. -/
def firstLineComment (s : Str) : Option Str :=
  ((lexemes u s).find? (·.kind == .lineComment)).map fun l => l.text ++ l.rest

/-- What a token can be, by its first character. -/
@[elab_as_elim] theorem advanceToken_cases {u : UnicodeTables} {c : Char} {s : Str} {motive : TokenKind × Str → Prop}
    (lineComment : c = '/' → s.head? = some '/' → motive (.lineComment, s.dropWhile (· != '\n')))
    (blockComment : motive (.blockComment, blockComment 1 s.tail))
    (whitespace : isPatternWhitespace c = true → motive (.whitespace, s.dropWhile isPatternWhitespace))
    (rawIdent : c = 'r' → startsRawIdent u s = true → motive (.ident, rawIdent u s))
    (rawStr : c = 'r' → motive (.str, rawStrLiteral u s))
    (byteString : c = 'b' → motive (cOrByteString u true s))
    (cString : c = 'c' → motive (cOrByteString u false s))
    (ident : c = 'r' ∨ isIdStart u c = true → motive (.ident, identOrUnknownPrefix u s))
    (number : c.isDigit = true → motive (.number, eatIdentifier u (number u c s)))
    (quote : c = '\'' → motive (lifetimeOrChar u s))
    (str : c = '"' → motive (.str, strLiteral u s))
    (emoji : isEmojiChar u c = true → motive (.ident, invalidIdent u s))
    (symbol : c ≠ '"' → motive (.symbol, s)) : motive (advanceToken u c s) := by
  unfold advanceToken
  by_cases hslash : c = '/'
  · rw [if_pos hslash]
    by_cases hline : s.head? = some '/'
    · rw [if_pos hline]
      exact lineComment hslash hline
    rw [if_neg hline]
    by_cases hblock : s.head? = some '*'
    · rw [if_pos hblock]
      exact blockComment
    rw [if_neg hblock]
    exact symbol (by simp [hslash])
  rw [if_neg hslash]
  by_cases hspace : isPatternWhitespace c = true
  · rw [if_pos hspace]
    exact whitespace hspace
  rw [if_neg hspace]
  by_cases hr : c = 'r'
  · rw [if_pos hr]
    by_cases hraw : startsRawIdent u s = true
    · rw [if_pos hraw]
      exact rawIdent hr hraw
    rw [if_neg hraw]
    by_cases hstr : s.head? = some '#' ∨ s.head? = some '"'
    · rw [if_pos hstr]
      exact rawStr hr
    · rw [if_neg hstr]
      exact ident (Or.inl hr)
  rw [if_neg hr]
  by_cases hb : c = 'b'
  · rw [if_pos hb]
    exact byteString hb
  rw [if_neg hb]
  by_cases hc : c = 'c'
  · rw [if_pos hc]
    exact cString hc
  rw [if_neg hc]
  by_cases hstart : isIdStart u c = true
  · rw [if_pos hstart]
    exact ident (Or.inr hstart)
  rw [if_neg hstart]
  by_cases hdigit : c.isDigit = true
  · rw [if_pos hdigit]
    exact number hdigit
  rw [if_neg hdigit]
  by_cases hquote : c = '\''
  · rw [if_pos hquote]
    exact quote hquote
  rw [if_neg hquote]
  by_cases hdouble : c = '"'
  · rw [if_pos hdouble]
    exact str hdouble
  rw [if_neg hdouble]
  by_cases hemoji : isEmojiChar u c = true
  · rw [if_pos hemoji]
    exact emoji hemoji
  · rw [if_neg hemoji]
    exact symbol hdouble

/-! ## What is left is an end of what there was -/

section

variable {u : UnicodeTables}

theorem blockComment_suffix (depth : Nat) (s : Str) : blockComment depth s <:+ s := by
  fun_induction blockComment depth s with
  | case1 => exact List.suffix_rfl
  | case2 _ s ih => exact ih.trans (List.suffix_append ['/', '*'] s)
  | case3 _ s => exact List.suffix_append ['*', '/'] s
  | case4 _ s _ ih => exact ih.trans (List.suffix_append ['*', '/'] s)
  | case5 _ c s _ _ ih => exact ih.trans (List.suffix_cons c s)

theorem doubleQuotedString_suffix (s : Str) : (doubleQuotedString s).getD [] <:+ s := by
  fun_induction doubleQuotedString s with
  | case1 => exact List.suffix_rfl
  | case2 s => exact List.suffix_cons '"' s
  | case3 c s _ ih => exact ih.trans (List.suffix_append ['\\', c] s)
  | case4 c s _ ih => exact ih.trans (List.suffix_cons '\\' (c :: s))
  | case5 c s _ _ ih => exact ih.trans (List.suffix_cons c s)

theorem rawString_suffix (hashes : Nat) : ∀ s : Str, (rawString hashes s).getD [] <:+ s
  | [] => List.suffix_rfl
  | c :: s => by
    rw [rawString]
    split
    · exact (List.drop_suffix hashes s).trans (List.suffix_cons c s)
    · exact (rawString_suffix hashes s).trans (List.suffix_cons c s)

theorem singleQuotedLoop_suffix (s : Str) : (singleQuotedLoop s).2 <:+ s := by
  fun_induction singleQuotedLoop s with
  | case1 => exact List.suffix_rfl
  | case2 s => exact List.suffix_cons '\'' s
  | case3 => exact List.suffix_rfl
  | case4 s _ ih => exact ih.trans (List.suffix_cons '\n' s)
  | case5 => exact List.suffix_rfl
  | case6 c s ih => exact ih.trans (List.suffix_append ['\\', c] s)
  | case7 c s _ _ _ _ ih => exact ih.trans (List.suffix_cons c s)

theorem singleQuotedString_suffix (s : Str) : (singleQuotedString s).2 <:+ s := by
  rw [singleQuotedString]
  split
  · exact List.drop_suffix 2 s
  · exact singleQuotedLoop_suffix s

/-! ## Words and numbers have no quote, slash or hash -/

def Plain (c : Char) : Prop := c ≠ '"' ∧ c ≠ '/' ∧ c ≠ '#'

/-- Only plain characters are read of `s`. -/
def ReadsPlain (s rest : Str) : Prop := ∃ used, s = used ++ rest ∧ ∀ c ∈ used, Plain c

theorem plain_of {p : Char → Bool} (h : p '"' = false ∧ p '/' = false ∧ p '#' = false) {c : Char} (hc : p c = true) :
    Plain c := by
  refine ⟨?_, ?_, ?_⟩ <;> rintro rfl <;> simp [h] at hc

theorem ReadsPlain.refl (s : Str) : ReadsPlain s s := ⟨[], rfl, by simp⟩

theorem ReadsPlain.trans {s t rest : Str} (h : ReadsPlain s t) (h' : ReadsPlain t rest) : ReadsPlain s rest := by
  obtain ⟨used, rfl, hused⟩ := h
  obtain ⟨used', rfl, hused'⟩ := h'
  refine ⟨used ++ used', (List.append_assoc ..).symm, fun c hc => ?_⟩
  rcases List.mem_append.1 hc with hc | hc
  · exact hused c hc
  · exact hused' c hc

theorem ReadsPlain.cons {c : Char} {s rest : Str} (hc : Plain c) (h : ReadsPlain s rest) :
    ReadsPlain (c :: s) rest := by
  obtain ⟨used, rfl, hused⟩ := h
  exact ⟨c :: used, rfl, List.forall_mem_cons.2 ⟨hc, hused⟩⟩

theorem ReadsPlain.dropWhile {p : Char → Bool} (hp : p '"' = false ∧ p '/' = false ∧ p '#' = false) (s : Str) :
    ReadsPlain s (s.dropWhile p) :=
  ⟨s.takeWhile p, List.takeWhile_append_dropWhile.symm, fun _ hc => plain_of hp (List.mem_takeWhile_imp hc)⟩

theorem ReadsPlain.tail {s : Str} {c : Char} (hc : Plain c) (hs : s.head? = some c) : ReadsPlain s s.tail := by
  obtain ⟨s, rfl⟩ := List.head?_eq_some_iff.1 hs
  exact .cons hc (.refl s)

theorem ReadsPlain.suffix {s rest : Str} (h : ReadsPlain s rest) : rest <:+ s := by
  obtain ⟨used, rfl, -⟩ := h
  exact List.suffix_append used rest

theorem isIdStart_not_plain : isIdStart u '"' = false ∧ isIdStart u '/' = false ∧ isIdStart u '#' = false := by
  simp [isIdStart, u.xidStart_ascii, isAscii]

theorem isIdContinue_not_plain : isIdContinue u '"' = false ∧ isIdContinue u '/' = false ∧
    isIdContinue u '#' = false := by
  simp [isIdContinue, u.xidContinue_ascii, isAscii]

theorem isEmojiChar_not_plain : isEmojiChar u '"' = false ∧ isEmojiChar u '/' = false ∧ isEmojiChar u '#' = false := by
  simp [isEmojiChar, isAscii]

theorem eatIdentifier_plain (s : Str) : ReadsPlain s (eatIdentifier u s) := by
  cases s with
  | nil => exact .refl []
  | cons c s =>
    rw [eatIdentifier]
    split
    · next hc => exact .cons (plain_of isIdStart_not_plain hc) (.dropWhile isIdContinue_not_plain s)
    · exact .refl _

theorem literalEnd_plain (o : Option Str) : ReadsPlain (o.getD []) (literalEnd u o) := by
  cases o with
  | none => exact .refl []
  | some rest => exact eatIdentifier_plain rest

theorem invalidIdent_plain (s : Str) : ReadsPlain s (invalidIdent u s) := by
  refine .dropWhile ?_ s
  simp [isIdContinue_not_plain, isEmojiChar_not_plain]

theorem identOrUnknownPrefix_plain (s : Str) : ReadsPlain s (identOrUnknownPrefix u s) := by
  have hword : ReadsPlain s (s.dropWhile (isIdContinue u)) := .dropWhile isIdContinue_not_plain s
  rw [identOrUnknownPrefix]
  split
  · exact hword.trans (invalidIdent_plain _)
  · exact hword

theorem rawIdent_plain (s : Str) : ReadsPlain (s.drop 2) (rawIdent u s) := .dropWhile isIdContinue_not_plain _

theorem eatDigits_plain {isDigit : Char → Bool} (h : isDigit '"' = false ∧ isDigit '/' = false ∧ isDigit '#' = false)
    (s : Str) : ReadsPlain s (eatDigits isDigit s) := .dropWhile (by simp [h]) s

theorem isDigit_not_plain : Char.isDigit '"' = false ∧ Char.isDigit '/' = false ∧ Char.isDigit '#' = false := by decide

theorem eatFloatExponent_plain (s : Str) : ReadsPlain s (eatFloatExponent s) := by
  rw [eatFloatExponent]
  refine .trans ?_ (eatDigits_plain isDigit_not_plain _)
  split
  · next h =>
    rcases h with h | h
    · exact .tail (by simp [Plain]) h
    · exact .tail (by simp [Plain]) h
  · exact .refl s

theorem eatExponent_plain (s : Str) : ReadsPlain s (eatExponent s) := by
  rw [eatExponent]
  split
  · next h =>
    refine .trans ?_ (eatFloatExponent_plain _)
    rcases h with h | h
    · exact .tail (by simp [Plain]) h
    · exact .tail (by simp [Plain]) h
  · exact .refl s

theorem eatFraction_plain (s : Str) : ReadsPlain s (eatFraction u s) := by
  rw [eatFraction]
  split
  · next h =>
    refine .trans (.tail (by simp [Plain]) h.1) ?_
    split
    · exact .trans (eatDigits_plain isDigit_not_plain _) (eatExponent_plain _)
    · exact .refl _
  · exact eatExponent_plain s

theorem eatBased_plain {isDigit : Char → Bool} (h : isDigit '"' = false ∧ isDigit '/' = false ∧ isDigit '#' = false)
    (s : Str) : ReadsPlain s (eatBased u isDigit s) := by
  rw [eatBased]
  split
  · exact .trans (eatDigits_plain h s) (eatFraction_plain _)
  · exact eatDigits_plain h s

theorem number_plain (first : Char) (s : Str) : ReadsPlain s (number u first s) := by
  rw [number]
  split
  · split
    · next h =>
      refine .trans ?_ (eatBased_plain isDigit_not_plain _)
      rcases h with h | h
      · exact .tail (by simp [Plain]) h
      · exact .tail (by simp [Plain]) h
    · split
      · next h => exact .trans (.tail (by simp [Plain]) h) (eatBased_plain (by decide) _)
      · split
        · exact .trans (eatDigits_plain isDigit_not_plain s) (eatFraction_plain _)
        · split
          · exact eatFraction_plain s
          · exact .refl s
  · exact .trans (eatDigits_plain isDigit_not_plain s) (eatFraction_plain _)

/-! ## Tokens -/

theorem rawIdent_suffix (s : Str) : rawIdent u s <:+ s := (rawIdent_plain s).suffix.trans (List.drop_suffix 2 s)

theorem strLiteral_suffix (s : Str) : strLiteral u s <:+ s :=
  (literalEnd_plain _).suffix.trans (doubleQuotedString_suffix s)

theorem rawStrLiteral_suffix (s : Str) : rawStrLiteral u s <:+ s := by
  have hdrop := List.drop_suffix (s.takeWhile (· == '#')).length s
  rw [rawStrLiteral]
  split
  · exact List.nil_suffix
  · next c rest h =>
    rw [h] at hdrop
    have hrest : rest <:+ s := (List.suffix_cons c rest).trans hdrop
    split
    · exact ((literalEnd_plain _).suffix.trans (rawString_suffix _ rest)).trans hrest
    · exact hrest

theorem charLiteral_suffix (s : Str) : charLiteral u s <:+ s := by
  have hquoted := singleQuotedString_suffix s
  rw [charLiteral]
  split
  · exact (eatIdentifier_plain _).suffix.trans hquoted
  · exact hquoted

theorem lifetimeOrChar_suffix (s : Str) : (lifetimeOrChar u s).2 <:+ s := by
  have htail := List.tail_suffix s
  have hword := (List.dropWhile_suffix (isIdContinue u)).trans htail
  rw [lifetimeOrChar]
  split
  · exact charLiteral_suffix s
  · split
    · exact (rawIdent_suffix _).trans htail
    · simp only
      split
      · exact (List.tail_suffix _).trans hword
      · exact hword

theorem cOrByteString_suffix (byte : Bool) (s : Str) : (cOrByteString u byte s).2 <:+ s := by
  have htail := List.tail_suffix s
  rw [cOrByteString]
  split
  · exact (charLiteral_suffix _).trans htail
  · split
    · exact (strLiteral_suffix _).trans htail
    · split
      · exact (rawStrLiteral_suffix _).trans htail
      · exact (identOrUnknownPrefix_plain s).suffix

theorem advanceToken_suffix (first : Char) (s : Str) : (advanceToken u first s).2 <:+ s := by
  refine advanceToken_cases ?lineComment ?blockComment ?whitespace ?rawIdent ?rawStr ?byteString ?cString ?ident ?number
    ?quote ?str ?emoji ?symbol
  case lineComment => exact fun _ _ => List.dropWhile_suffix _
  case blockComment => exact (blockComment_suffix 1 _).trans (List.tail_suffix s)
  case whitespace => exact fun _ => List.dropWhile_suffix _
  case rawIdent => exact fun _ _ => rawIdent_suffix s
  case rawStr => exact fun _ => rawStrLiteral_suffix s
  case byteString => exact fun _ => cOrByteString_suffix true s
  case cString => exact fun _ => cOrByteString_suffix false s
  case ident => exact fun _ => (identOrUnknownPrefix_plain s).suffix
  case number => exact fun _ => (eatIdentifier_plain _).suffix.trans (number_plain first s).suffix
  case quote => exact fun _ => lifetimeOrChar_suffix s
  case str => exact fun _ => strLiteral_suffix s
  case emoji => exact fun _ => (invalidIdent_plain s).suffix
  case symbol => exact fun _ => List.suffix_rfl

theorem lexeme_text (first : Char) (s : Str) : (lexeme u first s).text ++ (lexeme u first s).rest = first :: s := by
  have hsuffix : (advanceToken u first s).2 <:+ s := advanceToken_suffix first s
  change (first :: s).take (s.length + 1 - (advanceToken u first s).2.length) ++ (advanceToken u first s).2 = first :: s
  generalize (advanceToken u first s).2 = rest at hsuffix ⊢
  obtain ⟨used, rfl⟩ := hsuffix
  rw [← List.cons_append, List.take_left' (by rw [List.length_cons, List.length_append]; omega)]

theorem length_lexeme_rest_le (first : Char) (s : Str) : (lexeme u first s).rest.length ≤ s.length :=
  (advanceToken_suffix first s).length_le

theorem lexemesFrom_fuel : ∀ {m n : Nat} {s : Str}, s.length ≤ m → s.length ≤ n → lexemesFrom u m s = lexemesFrom u n s
  | 0, 0, _, _, _ => rfl
  | 0, _ + 1, [], _, _ => rfl
  | _ + 1, 0, [], _, _ => rfl
  | _ + 1, _ + 1, [], _, _ => rfl
  | m + 1, n + 1, c :: s, hm, hn => by
    have hnext := length_lexeme_rest_le (u := u) c s
    rw [List.length_cons] at hm hn
    rw [lexemesFrom, lexemesFrom, lexemesFrom_fuel (show _ ≤ m by omega) (show _ ≤ n by omega)]

theorem lexemes_cons (c : Char) (s : Str) : lexemes u (c :: s) =
    if (lexeme u c s).kind = .lineComment then [lexeme u c s]
    else lexeme u c s :: lexemes u (lexeme u c s).rest := by
  rw [lexemes, List.length_cons, lexemesFrom, lexemesFrom_fuel (length_lexeme_rest_le c s) le_rfl, ← lexemes]

/-- The first lexeme; a line comment is the last one. -/
theorem lexemes_eq_cons {s : Str} {l : Lexeme} {ls : List Lexeme} (h : lexemes u s = l :: ls) :
    ∃ c s', s = c :: s' ∧ l = lexeme u c s' ∧
      (l.kind = .lineComment ∧ ls = [] ∨ l.kind ≠ .lineComment ∧ lexemes u l.rest = ls) := by
  cases s with
  | nil => cases h
  | cons c s =>
    rw [lexemes_cons] at h
    split at h
    · next hkind =>
      cases h
      exact ⟨c, s, rfl, rfl, Or.inl ⟨hkind, rfl⟩⟩
    · next hkind =>
      cases h
      exact ⟨c, s, rfl, rfl, Or.inr ⟨hkind, rfl⟩⟩

theorem firstLineComment_cons (c : Char) (s : Str) : firstLineComment u (c :: s) =
    if (lexeme u c s).kind = .lineComment then some (c :: s) else firstLineComment u (lexeme u c s).rest := by
  rw [firstLineComment, lexemes_cons]
  split
  · next h => rw [List.find?_cons, h, beq_self_eq_true, Option.map_some, lexeme_text]
  · next h => rw [List.find?_cons, beq_eq_false_iff_ne.2 h, ← firstLineComment]

theorem lifetimeOrChar_kind (s : Str) : (lifetimeOrChar u s).1 = .char ∨ (lifetimeOrChar u s).1 = .lifetime := by
  rw [lifetimeOrChar]
  split
  · exact Or.inl rfl
  · split
    · exact Or.inr rfl
    · simp only
      split
      · exact Or.inl rfl
      · exact Or.inr rfl

theorem cOrByteString_kind (byte : Bool) (s : Str) : (cOrByteString u byte s).1 = .char ∨
    (cOrByteString u byte s).1 = .str ∨ (cOrByteString u byte s).1 = .ident := by
  rw [cOrByteString]
  split
  · exact Or.inl rfl
  · split
    · exact Or.inr (Or.inl rfl)
    · split
      · exact Or.inr (Or.inl rfl)
      · exact Or.inr (Or.inr rfl)

/-- Only two slashes begin a line comment. -/
theorem advanceToken_lineComment {c : Char} {s : Str} :
    (advanceToken u c s).1 = .lineComment → c = '/' ∧ s.head? = some '/' := by
  refine advanceToken_cases ?lineComment ?blockComment ?whitespace ?rawIdent ?rawStr ?byteString ?cString ?ident ?number
    ?quote ?str ?emoji ?symbol
  case lineComment => exact fun hslash hcomment _ => ⟨hslash, hcomment⟩
  case byteString | cString =>
    intro _ h
    rcases cOrByteString_kind _ s with hkind | hkind | hkind <;> rw [hkind] at h <;> cases h
  case quote =>
    intro _ h
    rcases lifetimeOrChar_kind s with hkind | hkind <;> rw [hkind] at h <;> cases h
  all_goals exact nofun

end

end Lexer

end WorldInfra.Rust
