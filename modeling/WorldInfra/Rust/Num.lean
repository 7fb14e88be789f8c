/-
Decimal integers: `to_string`, and `str::parse` of the integer types with the errors it reports.
Printing an integer of a type and parsing the text back gives the integer; a text behind its byte
length is read back whatever follows.
-/
import WorldInfra.Lib.Framing
import WorldInfra.Rust.Text

namespace WorldInfra.Rust

open WorldInfra.Lib

/-- `ToString` of an integer. -/
def decimal (n : Int) : Str :=
  if n < 0 then '-' :: Nat.toDigits 10 n.natAbs else Nat.toDigits 10 n.natAbs

inductive IntErrorKind where
  | empty
  | invalidDigit
  | posOverflow
  | negOverflow
  deriving DecidableEq, Repr

/-- `Display` of a `ParseIntError`. -/
def IntErrorKind.text : IntErrorKind → Str
  | .empty => "cannot parse integer from empty string".toList
  | .invalidDigit => "invalid digit found in string".toList
  | .posOverflow => "number too large to fit in target type".toList
  | .negOverflow => "number too small to fit in target type".toList

/-- The digit loop of `from_str_radix(10)`, with checked arithmetic in `lo..=hi`; `sign` is `-1`
after a minus sign. -/
def readDigits (lo hi sign : Int) : Int → Str → Except IntErrorKind Int
  | acc, [] => .ok acc
  | acc, c :: s =>
    if c.isDigit then
      let next := acc * 10 + sign * ((c.toNat : Int) - 48)
      if next < lo then .error .negOverflow
      else if hi < next then .error .posOverflow
      else readDigits lo hi sign next s
    else .error .invalidDigit

/-- `str::parse` of the integer type with values `lo..=hi` (signed when `lo` is negative). -/
def parseInt (lo hi : Int) (s : Str) : Except IntErrorKind Int :=
  match s with
  | [] => .error .empty
  | c :: rest =>
    if (c = '+' || c = '-') && rest.isEmpty then .error .invalidDigit
    else if c = '+' then readDigits lo hi 1 0 rest
    else if c = '-' && lo < 0 then readDigits lo hi (-1) 0 rest
    else readDigits lo hi 1 0 s

def parseI64 (s : Str) : Except IntErrorKind Int64 := (parseInt (-2 ^ 63) (2 ^ 63 - 1) s).map Int64.ofInt

def parseU64 (s : Str) : Except IntErrorKind UInt64 :=
  (parseInt 0 (2 ^ 64 - 1) s).map fun n => UInt64.ofNat n.toNat

def parseU16 (s : Str) : Except IntErrorKind UInt16 :=
  (parseInt 0 (2 ^ 16 - 1) s).map fun n => UInt16.ofNat n.toNat

def parseU8 (s : Str) : Except IntErrorKind UInt8 := (parseInt 0 (2 ^ 8 - 1) s).map fun n => UInt8.ofNat n.toNat

/-! ## Saturating arithmetic -/

/-- `u32::saturating_add`. -/
def u32SaturatingAdd (a b : UInt32) : UInt32 := if a.toNat + b.toNat < 2 ^ 32 then a + b else 0xFFFFFFFF

/-- `u32::saturating_sub`. -/
def u32SaturatingSub (a b : UInt32) : UInt32 := if b ≤ a then a - b else 0

theorem toNat_u32SaturatingAdd (a b : UInt32) :
    (u32SaturatingAdd a b).toNat = min (a.toNat + b.toNat) (2 ^ 32 - 1) := by
  unfold u32SaturatingAdd
  split
  · next h =>
    rw [UInt32.toNat_add, Nat.mod_eq_of_lt h]
    omega
  · next h =>
    show 2 ^ 32 - 1 = _
    omega

theorem toNat_u32SaturatingSub (a b : UInt32) : (u32SaturatingSub a b).toNat = a.toNat - b.toNat := by
  unfold u32SaturatingSub
  split
  · next h => exact UInt32.toNat_sub_of_le _ _ h
  · next h =>
    have hlt : a.toNat < b.toNat := UInt32.lt_iff_toNat_lt.1 (UInt32.not_le.1 h)
    exact (Nat.sub_eq_zero_of_le hlt.le).symm

/-! ## Digits -/

theorem isDigit_of_mem_toDigits {n : Nat} {c : Char} (h : c ∈ Nat.toDigits 10 n) : c.isDigit = true :=
  Nat.isDigit_of_mem_toDigits (by decide) (by decide) h

theorem digitChar_toNat {d : Nat} (h : d < 10) : ((Nat.digitChar d).toNat : Int) - 48 = d := by
  interval_cases d <;> rfl

theorem digitChar_isDigit {d : Nat} (h : d < 10) : (Nat.digitChar d).isDigit = true := by
  interval_cases d <;> rfl

theorem readDigits_append (lo hi sign : Int) : ∀ (acc : Int) (s t : Str),
    readDigits lo hi sign acc (s ++ t) = (readDigits lo hi sign acc s).bind fun a => readDigits lo hi sign a t
  | acc, [], t => rfl
  | acc, c :: s, t => by
    simp only [List.cons_append, readDigits]
    split
    · split
      · rfl
      · split
        · rfl
        · exact readDigits_append lo hi sign _ s t
    · rfl

theorem readDigits_digitChar {lo hi sign acc : Int} {d : Nat} (hd : d < 10)
    (hlo : lo ≤ acc * 10 + sign * d) (hhi : acc * 10 + sign * d ≤ hi) :
    readDigits lo hi sign acc [Nat.digitChar d] = .ok (acc * 10 + sign * d) := by
  simp only [readDigits]
  rw [if_pos (digitChar_isDigit hd), digitChar_toNat hd, if_neg (by omega), if_neg (by omega)]

/-- Reading the digits of `n` yields `n` with its sign, when the type has room for it. -/
theorem readDigits_toDigits (lo hi : Int) {sign : Int} (hs : sign = 1 ∨ sign = -1) (n : Nat)
    (hlo : lo ≤ sign * n) (hhi : sign * n ≤ hi) (hlo0 : lo ≤ 0) (hhi0 : 0 ≤ hi) :
    readDigits lo hi sign 0 (Nat.toDigits 10 n) = .ok (sign * n) := by
  induction n using Nat.strong_induction_on with
  | _ n ih =>
    rw [Nat.toDigits_eq_if (by decide)]
    split
    · rename_i h
      rw [readDigits_digitChar h (by omega) (by omega)]
      simp
    · rename_i h
      -- the leading digits spell `n / 10`, which is closer to zero than `n`
      have hlead := ih (n / 10) (by omega) (by rcases hs with rfl | rfl <;> omega)
        (by rcases hs with rfl | rfl <;> omega)
      have hval : sign * ((n / 10 : Nat) : Int) * 10 + sign * ((n % 10 : Nat) : Int) = sign * n := by
        have := Nat.div_add_mod n 10
        rcases hs with rfl | rfl <;> omega
      rw [readDigits_append, hlead]
      show readDigits lo hi sign _ [_] = _
      rw [readDigits_digitChar (Nat.mod_lt _ (by decide)) (by rw [hval]; exact hlo) (by rw [hval]; exact hhi), hval]

/-- `to_string` then `parse` is the identity on the integers of the type. -/
theorem parseInt_decimal (lo hi n : Int) (hlo : lo ≤ n) (hhi : n ≤ hi) (hlo0 : lo ≤ 0) (hhi0 : 0 ≤ hi) :
    parseInt lo hi (decimal n) = .ok n := by
  have hne : Nat.toDigits 10 n.natAbs ≠ [] := Nat.toDigits_ne_nil
  unfold decimal
  split
  · rename_i hn
    have h := readDigits_toDigits lo hi (Or.inr rfl) n.natAbs (by omega) (by omega) hlo0 hhi0
    simp only [parseInt]
    rw [if_neg (by simp), if_neg (by decide), if_pos (by simp; omega), h]
    congr 1; omega
  · rename_i hn
    have h := readDigits_toDigits lo hi (Or.inl rfl) n.natAbs (by omega) (by omega) hlo0 hhi0
    obtain ⟨c, s, hcs⟩ := List.exists_cons_of_ne_nil hne
    have hc : c.isDigit = true := isDigit_of_mem_toDigits (by rw [hcs]; exact List.mem_cons_self ..)
    have hplus : c ≠ '+' := by rintro rfl; cases hc
    have hminus : c ≠ '-' := by rintro rfl; cases hc
    rw [hcs] at h ⊢
    simp only [parseInt, hplus, hminus, decide_false, Bool.or_false, Bool.false_and, if_false,
      Bool.false_eq_true, h]
    congr 1; omega

theorem parseI64_decimal (n : Int64) : parseI64 (decimal n.toInt) = .ok n := by
  have hlo := n.minValue_le_toInt
  have hhi := n.toInt_lt
  rw [parseI64, parseInt_decimal _ _ _ (by simpa using hlo) (by omega) (by decide) (by decide)]
  exact congrArg Except.ok (Int64.ofInt_toInt n)

theorem parseU64_decimal (n : UInt64) : parseU64 (decimal n.toNat) = .ok n := by
  have hn := n.toNat_lt
  rw [parseU64, parseInt_decimal _ _ _ (by omega) (by omega) (by decide) (by decide)]
  exact congrArg Except.ok (UInt64.ofNat_toNat)

theorem colon_not_mem_decimal (n : Nat) : ':' ∉ decimal n := by
  have hn : ¬ (n : Int) < 0 := by omega
  rw [decimal, if_neg hn]
  intro h
  cases isDigit_of_mem_toDigits h

theorem decimal_injective : Function.Injective decimal := by
  intro m n h
  -- both lie in the type with bounds `min 0 m n` and `max 0 m n`
  have hm := parseInt_decimal (min 0 (min m n)) (max 0 (max m n)) m
    (by omega) (by omega) (by omega) (by omega)
  have hn := parseInt_decimal (min 0 (min m n)) (max 0 (max m n)) n
    (by omega) (by omega) (by omega) (by omega)
  rw [h, hn] at hm
  exact (Except.ok.inj hm).symm

theorem decimal_selfDelimiting : SelfDelimitingOn (Set.univ : Set Nat) fun n => decimal n ++ [':'] := by
  apply SelfDelimitingOn.of_sep
  · intro n _
    exact colon_not_mem_decimal n
  · intro m _ n _ h
    exact Int.ofNat_inj.1 (decimal_injective h)

/-- A number, a colon and a text are read back from their concatenation. -/
theorem decimal_colon_inj {m n : Nat} {s t : Str} (h : decimal m ++ ':' :: s = decimal n ++ ':' :: t) :
    m = n ∧ s = t := by
  have h' : decimal m ++ [':'] ++ s = decimal n ++ [':'] ++ t := by
    rw [List.append_assoc, List.append_assoc, List.singleton_append, List.singleton_append, h]
  exact decimal_selfDelimiting (Set.mem_univ m) (Set.mem_univ n) h'

/-- A text behind its length in bytes: `{s.len()}:{s}`. -/
def lengthField (s : Str) : Str := decimal s.len ++ [':'] ++ s

theorem lengthField_selfDelimiting : SelfDelimitingOn Set.univ lengthField :=
  decimal_selfDelimiting.sized (fun _ _ => Set.mem_univ _) fun _ _ _ _ hlen _ _ h => Str.append_inj_of_len h hlen

/-- A length field and the text after it are read back from their concatenation. -/
theorem lengthField_inj {s t u v : Str} (h : lengthField s ++ u = lengthField t ++ v) : s = t ∧ u = v :=
  lengthField_selfDelimiting (Set.mem_univ s) (Set.mem_univ t) h

theorem lengthField_injective : Function.Injective lengthField := by
  intro s t h
  have hnil : lengthField s ++ [] = lengthField t ++ [] := by rw [h]
  exact (lengthField_inj hnil).1

theorem lengthField_append (s u : Str) : lengthField s ++ u = decimal s.len ++ ':' :: (s ++ u) := by
  rw [lengthField, List.append_assoc, List.append_assoc, List.singleton_append]

end WorldInfra.Rust
