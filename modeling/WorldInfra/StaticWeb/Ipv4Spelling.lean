/-
The spellings of IPv4 addresses: one to four numbers, each decimal, octal or hexadecimal, of which the
last fills the bytes the others leave. The reader of noncanonical literals reads every spelling in
lower case, and the dotted quad is the only spelling the parser of addresses accepts.
-/
import WorldInfra.StaticWeb.PublicUrl
import WorldInfra.Rust.Case

namespace WorldInfra.StaticWeb

open WorldInfra.Rust WorldInfra.Rust.Net

/-! ## The grammar -/

/-- The numerals of a number: decimal, or octal after a zero, or hexadecimal after `0x`. -/
inductive SpellsNumber : Str → Nat → Prop where
  | decimal {digits : Str} : digits ≠ [] → digits.all Char.isDigit = true →
      (digits.head? = some '0' → digits = ['0']) → SpellsNumber digits (digitsValue 10 digits)
  | octal {digits : Str} : digits ≠ [] → (digits.all fun c => '0' ≤ c && c ≤ '7') = true →
      SpellsNumber ('0' :: digits) (digitsValue 8 digits)
  | hexadecimal {x : Char} {digits : Str} : x = 'x' ∨ x = 'X' → digits.all isAsciiHexdigit = true →
      SpellsNumber ('0' :: x :: digits) (digitsValue 16 digits)

/-- The numbers before the last are bytes from the byte `k` down; the last fills the bytes that remain. -/
inductive Assembles : Nat → List Nat → Nat → Prop where
  | last {k v : Nat} : v < 256 ^ (k + 1) → Assembles k [v] v
  | byte {k v w : Nat} {values : List Nat} : v < 256 → Assembles k values w →
      Assembles (k + 1) (v :: values) (v * 256 ^ (k + 1) + w)

/-- A spelling of an address. -/
def Spells (s : Str) (a : BitVec 32) : Prop :=
  ∃ parts values, s = ['.'].intercalate parts ∧ List.Forall₂ SpellsNumber parts values ∧ Assembles 3 values a.toNat

/-! ## Numbers -/

theorem digitsValue_lower (radix : Nat) (s : Str) : digitsValue radix s.toAsciiLowercase = digitsValue radix s := by
  unfold digitsValue
  rw [Str.toAsciiLowercase, List.foldl_map]
  congr 1
  funext n c
  rw [toDigit_toLower]

theorem isDigitOf_eight {c : Char} (h : ('0' ≤ c && c ≤ '7') = true) : isDigitOf 8 c = true := by
  simp only [Bool.and_eq_true, decide_eq_true_eq, char_le_iff, Char.reduceToNat] at h
  rw [isDigitOf, toDigit_of_isDigit (isDigit_iff.2 (by omega)) (by omega)]
  rfl

theorem isAsciiHexdigit_iff {c : Char} : isAsciiHexdigit c = true ↔
    (48 ≤ c.toNat ∧ c.toNat ≤ 57) ∨ (97 ≤ c.toNat ∧ c.toNat ≤ 102) ∨ (65 ≤ c.toNat ∧ c.toNat ≤ 70) := by
  simp only [isAsciiHexdigit, Bool.or_eq_true, Bool.and_eq_true, decide_eq_true_eq, isDigit_iff, char_le_iff,
    Char.reduceToNat, or_assoc]

theorem isAsciiHexdigit_toLower {c : Char} (h : isAsciiHexdigit c = true) : isAsciiHexdigit c.toLower = true := by
  rcases toLower_cases c with ⟨h1, h2, h3⟩ | ⟨-, heq⟩
  · rw [isAsciiHexdigit_iff] at h ⊢
    omega
  · rw [heq]
    exact h

theorem isDigitOf_sixteen {c : Char} (h : isAsciiHexdigit c = true) : isDigitOf 16 c = true := by
  have hno : ∀ {b : Bool} {P : Prop}, (b = true ↔ P) → ¬ P → b = false := by
    intro b P hiff hP
    rw [← Bool.not_eq_true, hiff]
    exact hP
  rcases isAsciiHexdigit_iff.1 h with hdigit | hlower | hupper
  · rw [isDigitOf, toDigit_of_isDigit (isDigit_iff.2 hdigit) (by omega)]
    rfl
  · have hlt : c.toNat - 'a'.toNat + 10 < 16 := (by omega : c.toNat - 97 + 10 < 16)
    have hnotDigit := hno (isDigit_iff (c := c)) (by omega)
    have hisLower := isLower_iff.2 ⟨hlower.1, le_trans hlower.2 (by decide)⟩
    simp only [isDigitOf, toDigit, hnotDigit, hisLower, Bool.false_eq_true, if_false, if_true, hlt, Option.isSome_some]
  · have hlt : c.toNat - 'A'.toNat + 10 < 16 := (by omega : c.toNat - 65 + 10 < 16)
    have hnotDigit := hno (isDigit_iff (c := c)) (by omega)
    have hnotLower := hno (isLower_iff (c := c)) (by omega)
    have hisUpper := isUpper_iff.2 ⟨hupper.1, le_trans hupper.2 (by decide)⟩
    simp only [isDigitOf, toDigit, hnotDigit, hnotLower, hisUpper, Bool.false_eq_true, if_false, if_true, hlt,
      Option.isSome_some]

theorem stripHexPrefix_of_digits {part : Str} (hdigits : part.all Char.isDigit = true) :
    Str.stripPrefixText part "0x".toList = none := by
  apply if_neg
  intro hstart
  obtain ⟨t, rfl⟩ := List.isPrefixOf_iff_prefix.1 hstart
  cases List.all_eq_true.1 hdigits 'x' (List.mem_cons_of_mem _ (List.mem_cons_self ..))

theorem parseIpv4Number_decimal {digits : Str} (hne : digits ≠ []) (hdigits : digits.all Char.isDigit = true)
    (hzero : digits.head? = some '0' → digits = ['0']) (hlt : digitsValue 10 digits < 2 ^ 64) :
    parseIpv4Number digits = some (digitsValue 10 digits) := by
  have hoctal : ¬ (digits.len > 1 && digits.startsWith ['0']) = true := by
    rw [Bool.and_eq_true, decide_eq_true_eq]
    rintro ⟨hlen, hstart⟩
    obtain ⟨t, rfl⟩ := List.isPrefixOf_iff_prefix.1 hstart
    rw [hzero rfl] at hlen
    exact absurd hlen (by decide)
  unfold parseIpv4Number
  simp only [stripHexPrefix_of_digits hdigits, if_neg hoctal, hdigits]
  rw [if_neg (by rw [List.isEmpty_iff]; exact hne), if_neg (by rw [List.isEmpty_iff]; exact hne), Bool.not_true,
    if_neg Bool.false_ne_true]
  exact u64FromStrRadix_eq (by decide) hne
    (fun c hc => by rw [isDigitOf_ten]; exact List.all_eq_true.1 hdigits c hc) hlt

theorem isDigit_of_octal {digits : Str} (hdigits : (digits.all fun c => '0' ≤ c && c ≤ '7') = true) :
    digits.all Char.isDigit = true := by
  rw [List.all_eq_true] at hdigits ⊢
  intro c hc
  have hrange := hdigits c hc
  simp only [Bool.and_eq_true, decide_eq_true_eq, char_le_iff, Char.reduceToNat] at hrange
  exact isDigit_iff.2 (by omega)

theorem parseIpv4Number_octal {digits : Str} (hne : digits ≠ [])
    (hdigits : (digits.all fun c => '0' ≤ c && c ≤ '7') = true) (hlt : digitsValue 8 digits < 2 ^ 64) :
    parseIpv4Number ('0' :: digits) = some (digitsValue 8 digits) := by
  have hnotHex : Str.stripPrefixText ('0' :: digits) "0x".toList = none :=
    stripHexPrefix_of_digits (isDigit_of_octal hdigits)
  have hoctal : (Str.len ('0' :: digits) > 1 && Str.startsWith ('0' :: digits) ['0']) = true := by
    rw [Bool.and_eq_true, decide_eq_true_eq]
    constructor
    · have hlen := Str.length_le_len digits
      have hpos := List.length_pos_iff.2 hne
      rw [Str.len_cons]
      have hsize : '0'.utf8Size = 1 := rfl
      omega
    · rfl
  unfold parseIpv4Number
  simp only [hnotHex, if_pos hoctal]
  rw [List.drop_one, List.tail_cons, List.isEmpty_cons, if_neg Bool.false_ne_true,
    if_neg (by rw [List.isEmpty_iff]; exact hne), hdigits]
  exact u64FromStrRadix_eq (by decide) hne (fun c hc => isDigitOf_eight (List.all_eq_true.1 hdigits c hc)) hlt

/-- After `0x` there may be no digit at all. -/
theorem parseIpv4Number_hexadecimal {digits : Str} (hdigits : digits.all isAsciiHexdigit = true)
    (hlt : digitsValue 16 digits < 2 ^ 64) :
    parseIpv4Number ('0' :: 'x' :: digits) = some (digitsValue 16 digits) := by
  have hnotHex : Str.stripPrefixText ('0' :: 'x' :: digits) "0x".toList = some digits := rfl
  unfold parseIpv4Number
  simp only [hnotHex]
  rw [List.isEmpty_cons, if_neg Bool.false_ne_true]
  cases digits with
  | nil => rfl
  | cons c rest =>
    rw [List.isEmpty_cons, if_neg (by decide), hdigits]
    exact u64FromStrRadix_eq (by decide) (List.cons_ne_nil _ _)
      (fun d hd => isDigitOf_sixteen (List.all_eq_true.1 hdigits d hd)) hlt

/-- Numbers are read in lower case, with any zeros before them. -/
theorem parseIpv4Number_lower {part : Str} {v : Nat} (h : SpellsNumber part v) (hlt : v < 2 ^ 64) :
    parseIpv4Number part.toAsciiLowercase = some v := by
  cases h with
  | decimal hne hdigits hzero =>
    rw [Str.lower_of_digits hdigits]
    exact parseIpv4Number_decimal hne hdigits hzero hlt
  | octal hne hdigits =>
    rename_i digits
    have hisDigit : ('0' :: digits).all Char.isDigit = true := isDigit_of_octal hdigits
    rw [Str.lower_of_digits hisDigit]
    exact parseIpv4Number_octal hne hdigits hlt
  | hexadecimal hx hdigits =>
    rename_i x digits
    have hlower : Str.toAsciiLowercase ('0' :: x :: digits) = '0' :: 'x' :: Str.toAsciiLowercase digits := by
      rcases hx with rfl | rfl
      · rfl
      · rfl
    have hvalid : (Str.toAsciiLowercase digits).all isAsciiHexdigit = true := by
      rw [List.all_eq_true]
      intro c hc
      obtain ⟨d, hd, rfl⟩ := List.mem_map.1 hc
      exact isAsciiHexdigit_toLower (List.all_eq_true.1 hdigits d hd)
    rw [← digitsValue_lower] at hlt
    rw [hlower, ← digitsValue_lower]
    exact parseIpv4Number_hexadecimal hvalid hlt

/-! ## Addresses -/

theorem chars_of_spellsNumber {part : Str} {v : Nat} (h : SpellsNumber part v) :
    part ≠ [] ∧ ∀ c ∈ part, c.isAlphanum = true := by
  cases h with
  | decimal hne hdigits hzero =>
    refine ⟨hne, ?_⟩
    intro c hc
    exact isAlphanum_iff.2 (Or.inr (isDigit_iff.1 (List.all_eq_true.1 hdigits c hc)))
  | octal hne hdigits =>
    refine ⟨List.cons_ne_nil _ _, ?_⟩
    intro c hc
    rcases List.mem_cons.1 hc with rfl | hc
    · rfl
    · have hrange := List.all_eq_true.1 hdigits c hc
      simp only [Bool.and_eq_true, decide_eq_true_eq, char_le_iff, Char.reduceToNat] at hrange
      exact isAlphanum_iff.2 (by omega)
  | hexadecimal hx hdigits =>
    refine ⟨List.cons_ne_nil _ _, ?_⟩
    intro c hc
    rcases List.mem_cons.1 hc with rfl | hc
    · rfl
    · rcases List.mem_cons.1 hc with rfl | hc
      · rcases hx with rfl | rfl
        · rfl
        · rfl
      · exact isAlphanum_of_isAsciiHexdigit (List.all_eq_true.1 hdigits c hc)

theorem chars_of_parts {parts : List Str} {values : List Nat} (h : List.Forall₂ SpellsNumber parts values) :
    ∀ part ∈ parts, part ≠ [] ∧ ∀ c ∈ part, c.isAlphanum = true := by
  induction h with
  | nil => exact nofun
  | cons hpart _ ih =>
    intro part hmem
    rcases List.mem_cons.1 hmem with rfl | hmem
    · exact chars_of_spellsNumber hpart
    · exact ih part hmem

theorem assembles_lt {k w : Nat} {values : List Nat} (h : Assembles k values w) :
    w < 256 ^ (k + 1) ∧ ∀ v ∈ values, v < 256 ^ (k + 1) := by
  induction h with
  | last hv =>
    refine ⟨hv, ?_⟩
    intro v hmem
    rw [List.mem_singleton.1 hmem]
    exact hv
  | @byte k v w values hv _ ih =>
    have hpow : 256 ^ (k + 1 + 1) = 256 * 256 ^ (k + 1) := by rw [pow_succ, Nat.mul_comm]
    have hmul : v * 256 ^ (k + 1) ≤ 255 * 256 ^ (k + 1) := Nat.mul_le_mul_right _ (by omega)
    have hone : 1 ≤ 256 ^ (k + 1) := Nat.one_le_pow _ _ (by decide)
    refine ⟨by omega, ?_⟩
    intro u hmem
    rcases List.mem_cons.1 hmem with rfl | hmem
    · omega
    · have := ih.2 u hmem
      omega

/-- The checks and the loop behind the numbers, on numbers that assemble. -/
theorem addNumbers_assembles {values : List Nat} {n : Nat} (h : Assembles 3 values n) :
    0 < values.length ∧ values.length ≤ 4 ∧
    (values.take (values.length - 1)).any (fun number => number > 255) = false ∧
    values.getD (values.length - 1) 0 < 256 ^ (5 - values.length) ∧
    addNumbers (values.getD (values.length - 1) 0) 0 (values.take (values.length - 1)) = some n := by
  have hnot : ∀ {v : Nat}, v < 256 → decide (v > 255) = false := by
    intro v hv
    rw [decide_eq_false_iff_not]
    omega
  -- the address has one, two, three or four numbers
  cases h with
  | last hv => exact ⟨by simp, by simp, rfl, hv, rfl⟩
  | byte h0 h =>
    cases h with
    | last hv =>
      refine ⟨by simp, by simp, by simp [hnot h0], hv, ?_⟩
      simp [addNumbers, Nat.shiftLeft_eq]
      omega
    | byte h1 h =>
      cases h with
      | last hv =>
        refine ⟨by simp, by simp, by simp [hnot h0, hnot h1], hv, ?_⟩
        simp [addNumbers, Nat.shiftLeft_eq]
        omega
      | byte h2 h =>
        cases h with
        | last hv =>
          refine ⟨by simp, by simp, by simp [hnot h0, hnot h1, hnot h2], hv, ?_⟩
          simp [addNumbers, Nat.shiftLeft_eq]
          omega

theorem mapM_parseIpv4Number {parts : List Str} {values : List Nat} (h : List.Forall₂ SpellsNumber parts values)
    (hlt : ∀ v ∈ values, v < 2 ^ 64) : (parts.map Str.toAsciiLowercase).mapM parseIpv4Number = some values := by
  induction h with
  | nil => rfl
  | cons hpart _ ih =>
    rw [List.map_cons, List.mapM_cons, parseIpv4Number_lower hpart (hlt _ (List.mem_cons_self ..)),
      ih fun v hv => hlt v (List.mem_cons_of_mem _ hv)]
    rfl

section

variable {s : Str} {a : BitVec 32}

theorem chars_of_spells (h : Spells s a) : s ≠ [] ∧ ∀ c ∈ s, c = '.' ∨ c.isAlphanum = true := by
  obtain ⟨parts, values, rfl, hparts, hvalues⟩ := h
  have hchars := chars_of_parts hparts
  constructor
  · cases hparts with
    | nil => cases hvalues
    | @cons part v parts values hpart hrest =>
      have hne := (chars_of_spellsNumber hpart).1
      cases parts with
      | nil => rw [List.intercalate_singleton]; exact hne
      | cons next parts =>
        rw [List.intercalate_cons_cons]
        simp [hne]
  · intro c hc
    rcases Str.mem_intercalate hc with rfl | ⟨part, hpart, hc⟩
    · exact Or.inl rfl
    · exact Or.inr ((hchars part hpart).2 c hc)

/-- Every spelling, in lower case, is read as its address. -/
theorem parseNoncanonicalIpv4Literal_lower (h : Spells s a) :
    parseNoncanonicalIpv4Literal s.toAsciiLowercase = some a := by
  obtain ⟨parts, values, rfl, hparts, hvalues⟩ := h
  have hchars := chars_of_parts hparts
  obtain ⟨hpos, hfour, hbytes, hlast, hsum⟩ := addNumbers_assembles hvalues
  have hlength := hparts.length_eq
  have hsplit : Str.split (['.'].intercalate parts) '.' = parts := by
    apply List.splitOn_intercalate
    · intro part hpart hdot
      cases (hchars part hpart).2 '.' hdot
    · rintro rfl
      rw [List.length_nil] at hlength
      omega
  have hmapM := mapM_parseIpv4Number hparts fun v hv => by
    have := (assembles_lt hvalues).2 v hv
    omega
  have hnonempty : (parts.map Str.toAsciiLowercase).any List.isEmpty = false := by
    rw [List.any_map, List.any_eq_false]
    intro part hpart
    rw [Function.comp_apply, Str.isEmpty_lower, List.isEmpty_iff]
    exact (hchars part hpart).1
  unfold parseNoncanonicalIpv4Literal
  simp only [Str.split_lower (d := '.') (by decide), hsplit, hmapM, hnonempty, hbytes, List.length_map]
  rw [if_neg, if_neg Bool.false_ne_true, if_neg (Nat.not_le_of_lt hlast), hsum]
  · rw [Option.map_some, BitVec.ofNat_toNat, BitVec.setWidth_eq]
  · simp only [Bool.or_eq_true, List.isEmpty_iff, List.map_eq_nil_iff, decide_eq_true_eq, Bool.or_false, not_or, not_lt]
    refine ⟨?_, by omega⟩
    rintro rfl
    rw [List.length_nil] at hlength
    omega

theorem spellsNumber_decimal {n : Nat} (h : n < 256) : SpellsNumber (decimal n) n := by
  have hdigits : (Nat.toDigits 10 n).all Char.isDigit = true :=
    List.all_eq_true.2 fun c hc => isDigit_of_mem_toDigits hc
  have hzero : (Nat.toDigits 10 n).head? = some '0' → Nat.toDigits 10 n = ['0'] := by
    intro hhead
    obtain ⟨c, hc⟩ := List.length_eq_one_iff.1 ((toDigits_byte n h).2 hhead)
    rw [hc] at hhead ⊢
    rw [Option.some.inj hhead]
  have hspells := SpellsNumber.decimal Nat.toDigits_ne_nil hdigits hzero
  rw [digitsValue_toDigits] at hspells
  rw [decimal_nat]
  exact hspells

/-- The dotted quad is a spelling. -/
theorem spells_dottedQuad (a : BitVec 32) : Spells (dottedQuad a) a := by
  refine ⟨[decimal (octet a 0), decimal (octet a 1), decimal (octet a 2), decimal (octet a 3)],
    [octet a 0, octet a 1, octet a 2, octet a 3], ?_, ?_, ?_⟩
  · simp [List.intercalate_cons_cons, dottedQuad]
  · exact .cons (spellsNumber_decimal (octet_lt a 0)) (.cons (spellsNumber_decimal (octet_lt a 1))
      (.cons (spellsNumber_decimal (octet_lt a 2)) (.cons (spellsNumber_decimal (octet_lt a 3)) .nil)))
  · have hlast : Assembles 0 [octet a 3] (octet a 3) := .last (octet_lt a 3)
    have hall := ((hlast.byte (octet_lt a 2)).byte (octet_lt a 1)).byte (octet_lt a 0)
    have hvalue : octet a 0 * 256 ^ (2 + 1) + (octet a 1 * 256 ^ (1 + 1) + (octet a 2 * 256 ^ (0 + 1) + octet a 3)) =
        a.toNat := by
      have hlt := a.isLt
      unfold octet
      norm_num
      omega
    rw [← hvalue]
    exact hall

/-- A spelling that is a dotted quad is that of its address. -/
theorem parse_spelling (h : Spells s a) :
    IpAddr.parse s.toAsciiLowercase = if s = dottedQuad a then some (.v4 a) else none := by
  obtain ⟨-, hchars⟩ := chars_of_spells h
  have hcolon : ':' ∉ s := by
    intro hmem
    rcases hchars ':' hmem with hdot | halpha
    · cases hdot
    · cases halpha
  rw [IpAddr.parse_lower]
  split
  · rename_i heq
    exact (IpAddr.parse_eq_some hcolon).2 ⟨a, rfl, heq⟩
  · rename_i hne
    cases hparse : IpAddr.parse s with
    | none => rfl
    | some ip =>
      obtain ⟨b, -, hb⟩ := (IpAddr.parse_eq_some hcolon).1 hparse
      -- the same text spells both addresses
      have ha := parseNoncanonicalIpv4Literal_lower h
      rw [hb, parseNoncanonicalIpv4Literal_lower (spells_dottedQuad b), Option.some.injEq] at ha
      rw [ha] at hb
      exact absurd hb hne

end

end WorldInfra.StaticWeb
