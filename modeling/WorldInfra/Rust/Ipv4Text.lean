/-
IPv4 addresses as texts. The parser of addresses accepts, among the texts without a colon, exactly
the dotted quads that `Display` prints: four decimal numbers below 256 without leading zeros.
-/
import WorldInfra.Rust.Net

namespace WorldInfra.Rust

namespace Net

/-! ## Numerals -/

/-- The value of a numeral, most significant digit first. -/
def digitsValue (radix : Nat) (digits : Str) : Nat :=
  digits.foldl (fun n c => n * radix + (toDigit radix c).getD 0) 0

def isDigitOf (radix : Nat) (c : Char) : Bool := (toDigit radix c).isSome

theorem digitsValue_append (radix : Nat) (s : Str) (c : Char) :
    digitsValue radix (s ++ [c]) = digitsValue radix s * radix + (toDigit radix c).getD 0 := by
  rw [digitsValue, List.foldl_append, List.foldl_cons, List.foldl_nil]
  rfl

theorem toDigit_of_isDigit {radix : Nat} {c : Char} (h : c.isDigit = true) (hlt : c.toNat - 48 < radix) :
    toDigit radix c = some (c.toNat - 48) := by
  unfold toDigit
  rw [h, if_pos rfl]
  exact if_pos hlt

/-- The decimal digits are the digits of radix ten. -/
theorem isDigitOf_ten (c : Char) : isDigitOf 10 c = c.isDigit := by
  cases hdigit : c.isDigit with
  | true =>
    have hrange := isDigit_iff.1 hdigit
    rw [isDigitOf, toDigit_of_isDigit hdigit (by omega)]
    rfl
  | false =>
    unfold isDigitOf toDigit
    simp only [hdigit, Bool.false_eq_true, if_false]
    split
    · rw [if_neg (by omega)]
      rfl
    · split
      · rw [if_neg (by omega)]
        rfl
      · rw [if_neg (by omega)]
        rfl

theorem digitChar_sub {c : Char} (h : c.isDigit = true) : Nat.digitChar (c.toNat - 48) = c := by
  have hrange := isDigit_iff.1 h
  have hlt : c.toNat - 48 < 10 := by omega
  have hval := digitChar_toNat hlt
  apply Char.ext
  apply UInt32.toNat_inj.1
  change (Nat.digitChar (c.toNat - 48)).toNat = c.toNat
  omega

/-- A numeral without leading zeros is how its value is printed. -/
theorem toDigits_digitsValue (s : Str) (hne : s ≠ []) (hdigits : ∀ c ∈ s, c.isDigit = true)
    (hzero : s.head? = some '0' → s.length = 1) : Nat.toDigits 10 (digitsValue 10 s) = s := by
  induction s using List.reverseRecOn with
  | nil => exact absurd rfl hne
  | append_singleton s c ih =>
    have hc : c.isDigit = true := hdigits c (List.mem_append_right _ (List.mem_singleton_self c))
    have hrange := isDigit_iff.1 hc
    rw [digitsValue_append, toDigit_of_isDigit hc (by omega), Option.getD_some]
    cases s with
    | nil =>
      rw [digitsValue, List.foldl_nil, Nat.zero_mul, Nat.zero_add, Nat.toDigits_of_lt_base (by omega), digitChar_sub hc]
      rfl
    | cons d s =>
      have hd : d ≠ '0' := by
        rintro rfl
        have hlen := hzero rfl
        simp at hlen
      have ih := ih (List.cons_ne_nil _ _) (fun e he => hdigits e (List.mem_append_left _ he)) fun h =>
        absurd (Option.some.inj h) hd
      have hpos : digitsValue 10 (d :: s) ≠ 0 := by
        intro hz
        rw [hz, Nat.toDigits_zero] at ih
        cases ih
        exact hd rfl
      rw [Nat.toDigits_eq_if (by decide), if_neg (by omega)]
      have hdiv : (digitsValue 10 (d :: s) * 10 + (c.toNat - 48)) / 10 = digitsValue 10 (d :: s) := by omega
      have hmod : (digitsValue 10 (d :: s) * 10 + (c.toNat - 48)) % 10 = c.toNat - 48 := by omega
      rw [hdiv, hmod, ih, digitChar_sub hc]

theorem digitsValue_toDigits (n : Nat) : digitsValue 10 (Nat.toDigits 10 n) = n := by
  induction n using Nat.strong_induction_on with
  | _ n ih =>
    rw [Nat.toDigits_eq_if (by decide)]
    have hdigit : ∀ m < 10, toDigit 10 (Nat.digitChar m) = some m := by decide
    split
    · rename_i h
      rw [digitsValue, List.foldl_cons, List.foldl_nil, hdigit n h]
      simp
    · rename_i h
      rw [digitsValue_append, ih (n / 10) (by omega), hdigit _ (Nat.mod_lt _ (by decide)), Option.getD_some]
      omega

/-- The digit loop of `u64::from_str_radix`, with checked arithmetic. -/
def readU64Digits (radix : Nat) : Nat → Str → Option Nat
  | acc, [] => some acc
  | acc, c :: s =>
    match toDigit radix c with
    | none => none
    | some digit =>
      if acc * radix + digit < 2 ^ 64 then readU64Digits radix (acc * radix + digit) s else none

/-- `u64::from_str_radix`. -/
def u64FromStrRadix (s : Str) (radix : Nat) : Option Nat :=
  match s with
  | [] => none
  | c :: rest =>
    if (c = '+' || c = '-') && rest.isEmpty then none
    else if c = '+' then readU64Digits radix 0 rest
    else readU64Digits radix 0 s

theorem le_foldl_digits {radix : Nat} (hradix : 0 < radix) : ∀ (s : Str) (acc : Nat),
    acc ≤ s.foldl (fun n c => n * radix + (toDigit radix c).getD 0) acc
  | [], _ => le_refl _
  | c :: s, acc => by
    have hstep : acc ≤ acc * radix + (toDigit radix c).getD 0 :=
      le_trans (Nat.le_mul_of_pos_right acc hradix) (Nat.le_add_right _ _)
    exact le_trans hstep (le_foldl_digits hradix s _)

theorem readU64Digits_eq {radix : Nat} (hradix : 0 < radix) : ∀ {s : Str} {acc : Nat},
    (∀ c ∈ s, isDigitOf radix c = true) → s.foldl (fun n c => n * radix + (toDigit radix c).getD 0) acc < 2 ^ 64 →
    readU64Digits radix acc s = some (s.foldl (fun n c => n * radix + (toDigit radix c).getD 0) acc)
  | [], _, _, _ => rfl
  | c :: s, acc, hdigits, hlt => by
    obtain ⟨digit, hdigit⟩ := Option.isSome_iff_exists.1 (hdigits c (List.mem_cons_self ..))
    rw [List.foldl_cons, hdigit, Option.getD_some] at hlt ⊢
    have hle := le_foldl_digits hradix s (acc * radix + digit)
    rw [readU64Digits, hdigit]
    simp only
    rw [if_pos (lt_of_le_of_lt hle hlt)]
    exact readU64Digits_eq hradix (fun d hd => hdigits d (List.mem_cons_of_mem _ hd)) hlt

/-- A numeral of a value below 2^64 is read, however many zeros it begins with. -/
theorem u64FromStrRadix_eq {radix : Nat} (hradix : 0 < radix) {s : Str} (hne : s ≠ [])
    (hdigits : ∀ c ∈ s, isDigitOf radix c = true) (hlt : digitsValue radix s < 2 ^ 64) :
    u64FromStrRadix s radix = some (digitsValue radix s) := by
  cases s with
  | nil => exact absurd rfl hne
  | cons c s =>
    have hsign : ∀ d, isDigitOf radix d = false → c ≠ d := by
      rintro d hd rfl
      rw [hdigits _ (List.mem_cons_self ..)] at hd
      cases hd
    have hnone : ∀ d : Char, d.isAlphanum = false → isDigitOf radix d = false := by
      intro d hd
      simp only [Char.isAlphanum, Char.isAlpha, Bool.or_eq_false_iff] at hd
      simp only [isDigitOf, toDigit, hd.1.1, hd.1.2, hd.2, Bool.false_eq_true, if_false, lt_irrefl, Option.isSome_none]
    have hplus : c ≠ '+' := hsign '+' (hnone '+' (by decide))
    have hminus : c ≠ '-' := hsign '-' (hnone '-' (by decide))
    simp only [u64FromStrRadix, hplus, hminus, decide_false, Bool.or_false, Bool.false_and, Bool.false_eq_true,
      if_false]
    exact readU64Digits_eq hradix hdigits hlt

/-! ## Octets -/

theorem bind_eq_some {α β : Type} {reader : Reader α} {next : α → Reader β} {s : Str} {r : β × Str} :
    (reader >>= next) s = some r ↔ ∃ a rest, reader s = some (a, rest) ∧ next a rest = some r := by
  show ((reader s).bind fun p => next p.1 p.2) = some r ↔ _
  rw [Option.bind_eq_some_iff]
  exact Prod.exists

theorem readGivenChar_eq_some {target : Char} {s rest : Str} :
    readGivenChar target s = some ((), rest) ↔ s = target :: rest := by
  cases s with
  | nil => exact ⟨nofun, nofun⟩
  | cons c s =>
    rw [readGivenChar, List.cons.injEq]
    split
    · rename_i h
      simp [h]
    · rename_i h
      simp [h]

theorem toDigits_byte : ∀ n < 256, (Nat.toDigits 10 n).length ≤ 3 ∧
    ((Nat.toDigits 10 n).head? = some '0' → (Nat.toDigits 10 n).length = 1) := by
  decide +kernel

/-- No digit follows. -/
def EndsNumber (rest : Str) : Prop := ∀ c, rest.head? = some c → c.isDigit = false

theorem EndsNumber.nil : EndsNumber [] := nofun

theorem takeWhile_digits {s rest : Str} (hs : ∀ c ∈ s, c.isDigit = true) (hrest : EndsNumber rest) :
    (s ++ rest).takeWhile (isDigitOf 10) = s := by
  rw [List.takeWhile_append_of_pos fun c hc => by rw [isDigitOf_ten, hs c hc]]
  cases rest with
  | nil => rw [List.takeWhile_nil, List.append_nil]
  | cons c rest =>
    rw [List.takeWhile_cons_of_neg, List.append_nil]
    rw [isDigitOf_ten, hrest c rfl]
    exact Bool.false_ne_true

/-- The number of an octet is read exactly where it is printed and no digit follows. -/
theorem readNumber_octet {s rest : Str} {n : Nat} : readNumber 10 (some 3) false 255 s = some (n, rest) ↔
    s = Nat.toDigits 10 n ++ rest ∧ n ≤ 255 ∧ EndsNumber rest := by
  constructor
  · intro h
    unfold readNumber at h
    simp only at h
    split at h
    · cases h
    · rename_i hlength
      split at h
      · cases h
      · rename_i hzero
        split at h
        · rename_i hbound
          rw [Option.some.injEq, Prod.mk.injEq] at h
          obtain ⟨rfl, rfl⟩ := h
          simp only [Bool.or_eq_true, not_or, List.isEmpty_iff] at hlength
          simp only [Bool.not_false, Bool.true_and, Bool.and_eq_true, beq_iff_eq, decide_eq_true_eq, not_and,
            not_lt] at hzero
          have hdigits : ∀ c ∈ s.takeWhile (isDigitOf 10), c.isDigit = true := by
            intro c hc
            rw [← isDigitOf_ten]
            exact List.mem_takeWhile_imp hc
          -- no digit string but `0` begins with a zero, so the digits are those the number prints
          have hprint := toDigits_digitsValue (s.takeWhile (isDigitOf 10)) hlength.1 hdigits fun hhead => by
            have hle := hzero hhead
            have hpos := List.length_pos_iff.2 hlength.1
            exact Nat.le_antisymm hle hpos
          have hsplit : s.takeWhile (isDigitOf 10) ++ s.dropWhile (isDigitOf 10) = s := List.takeWhile_append_dropWhile
          have hdrop : s.drop (s.takeWhile (isDigitOf 10)).length = s.dropWhile (isDigitOf 10) :=
            (congrArg (List.drop _) hsplit.symm).trans List.drop_left
          have hends : EndsNumber (s.dropWhile (isDigitOf 10)) := by
            intro c hc
            have hhead := List.head?_dropWhile_not (isDigitOf 10) s
            rw [hc] at hhead
            rw [← isDigitOf_ten]
            exact hhead
          change s = Nat.toDigits 10 (digitsValue 10 (s.takeWhile (isDigitOf 10))) ++
            s.drop (s.takeWhile (isDigitOf 10)).length ∧ _ ∧ EndsNumber (s.drop (s.takeWhile (isDigitOf 10)).length)
          rw [hprint, hdrop]
          exact ⟨hsplit.symm, hbound, hends⟩
        · cases h
  · rintro ⟨rfl, hle, hrest⟩
    obtain ⟨hthree, hzero⟩ := toDigits_byte n (by omega)
    have htake : (Nat.toDigits 10 n ++ rest).takeWhile (fun c => (toDigit 10 c).isSome) = Nat.toDigits 10 n :=
      takeWhile_digits (fun c hc => isDigit_of_mem_toDigits hc) hrest
    have hvalue : (Nat.toDigits 10 n).foldl (fun n c => n * 10 + (toDigit 10 c).getD 0) 0 = n := digitsValue_toDigits n
    unfold readNumber
    simp only [htake, hvalue]
    rw [if_neg, if_neg, if_pos hle, List.drop_left]
    · simp only [Bool.not_false, Bool.true_and, Bool.and_eq_true, beq_iff_eq, decide_eq_true_eq, not_and, not_lt]
      intro hhead
      exact le_of_eq (hzero hhead)
    · simp only [Bool.or_eq_true, not_or, List.isEmpty_iff, Option.any_some, decide_eq_true_eq, not_lt]
      exact ⟨Nat.toDigits_ne_nil, hthree⟩

theorem readOctet_first {s rest : Str} {n : Nat} : readOctet true s = some (n, rest) ↔
    s = Nat.toDigits 10 n ++ rest ∧ n ≤ 255 ∧ EndsNumber rest := readNumber_octet

theorem readOctet_next {s rest : Str} {n : Nat} : readOctet false s = some (n, rest) ↔
    s = '.' :: (Nat.toDigits 10 n ++ rest) ∧ n ≤ 255 ∧ EndsNumber rest := by
  show (readGivenChar '.' >>= fun _ => readNumber 10 (some 3) false 255) s = _ ↔ _
  rw [bind_eq_some]
  constructor
  · rintro ⟨_, s', hdot, hnumber⟩
    obtain ⟨rfl, hle, hrest⟩ := readNumber_octet.1 hnumber
    exact ⟨readGivenChar_eq_some.1 hdot, hle, hrest⟩
  · rintro ⟨rfl, hle, hrest⟩
    exact ⟨(), _, readGivenChar_eq_some.2 rfl, readNumber_octet.2 ⟨rfl, hle, hrest⟩⟩

end Net

/-! ## Dotted quads -/

/-- `Ipv4Addr::octets`, one of them. -/
def octet (a : BitVec 32) (i : Nat) : Nat := a.toNat / 256 ^ (3 - i) % 256

/-- `Display` of an `Ipv4Addr`. -/
def dottedQuad (a : BitVec 32) : Str :=
  decimal (octet a 0) ++ '.' :: (decimal (octet a 1) ++ '.' :: (decimal (octet a 2) ++ '.' :: decimal (octet a 3)))

theorem octet_lt (a : BitVec 32) (i : Nat) : octet a i < 256 := Nat.mod_lt _ (by decide)

theorem decimal_nat (n : Nat) : decimal n = Nat.toDigits 10 n := if_neg (by omega)

/-- An address is made of its octets. -/
theorem ofNat_octets (a : BitVec 32) :
    BitVec.ofNat 32 (((octet a 0 * 256 + octet a 1) * 256 + octet a 2) * 256 + octet a 3) = a := by
  apply BitVec.eq_of_toNat_eq
  rw [BitVec.toNat_ofNat]
  have hlt := a.isLt
  unfold octet
  norm_num
  omega

theorem octets_ofNat {w x y z : Nat} (hw : w < 256) (hx : x < 256) (hy : y < 256) (hz : z < 256) :
    let a := BitVec.ofNat 32 (((w * 256 + x) * 256 + y) * 256 + z)
    octet a 0 = w ∧ octet a 1 = x ∧ octet a 2 = y ∧ octet a 3 = z := by
  intro a
  have ha : a.toNat = ((w * 256 + x) * 256 + y) * 256 + z := by
    rw [BitVec.toNat_ofNat]
    omega
  unfold octet
  rw [ha]
  norm_num
  omega

namespace Net

theorem readIpv4Addr_eq_some {s rest : Str} {a : BitVec 32} :
    readIpv4Addr s = some (a, rest) ↔ s = dottedQuad a ++ rest ∧ EndsNumber rest := by
  unfold readIpv4Addr
  simp only [bind_eq_some]
  constructor
  · rintro ⟨w, s1, hw, x, s2, hx, y, s3, hy, z, s4, hz, heq⟩
    cases heq
    obtain ⟨rfl, hwle, -⟩ := readOctet_first.1 hw
    obtain ⟨rfl, hxle, -⟩ := readOctet_next.1 hx
    obtain ⟨rfl, hyle, -⟩ := readOctet_next.1 hy
    obtain ⟨rfl, hzle, hrest⟩ := readOctet_next.1 hz
    obtain ⟨h0, h1, h2, h3⟩ := octets_ofNat (Nat.lt_succ_of_le hwle) (Nat.lt_succ_of_le hxle)
      (Nat.lt_succ_of_le hyle) (Nat.lt_succ_of_le hzle)
    refine ⟨?_, hrest⟩
    simp only [dottedQuad, h0, h1, h2, h3, decimal_nat, List.append_assoc, List.cons_append]
  · rintro ⟨rfl, hrest⟩
    have hdot : ∀ s : Str, EndsNumber ('.' :: s) := by
      rintro s c ⟨⟩
      rfl
    refine ⟨octet a 0, _, readOctet_first.2 ⟨?_, by have := octet_lt a 0; omega, hdot _⟩,
      octet a 1, _, readOctet_next.2 ⟨rfl, by have := octet_lt a 1; omega, hdot _⟩,
      octet a 2, _, readOctet_next.2 ⟨rfl, by have := octet_lt a 2; omega, hdot _⟩,
      octet a 3, rest, readOctet_next.2 ⟨rfl, by have := octet_lt a 3; omega, hrest⟩, ?_⟩
    · simp only [dottedQuad, decimal_nat, List.append_assoc, List.cons_append]
    · rw [ofNat_octets]
      rfl

/-! ## Texts without a colon -/

theorem suffix_of_readNumber {radix bound n : Nat} {maxDigits : Option Nat} {allowZeroPrefix : Bool} {s rest : Str}
    (h : readNumber radix maxDigits allowZeroPrefix bound s = some (n, rest)) : rest <:+ s := by
  unfold readNumber at h
  simp only at h
  split at h
  · cases h
  · split at h
    · cases h
    · split at h
      · cases h
        exact List.drop_suffix _ _
      · cases h

/-- What is read behind a separator that is not left out stands behind it. -/
theorem mem_of_readSeparator {α : Type} {sep : Char} {inner : Reader α} {s : Str} {r : α × Str}
    (h : readSeparator sep false inner s = some r) : sep ∈ s := by
  obtain ⟨_, rest, hsep, -⟩ := bind_eq_some.1 h
  rw [readGivenChar_eq_some.1 hsep]
  exact List.mem_cons_self ..

theorem readSeparator_no_colon {α : Type} {s : Str} (h : ':' ∉ s) (inner : Reader α) :
    readSeparator ':' false inner s = none := by
  cases hread : readSeparator ':' false inner s with
  | none => rfl
  | some r => exact absurd (mem_of_readSeparator hread) h

theorem readGroups_false_no_colon {s : Str} (h : ':' ∉ s) (limit : Nat) :
    readGroups false limit s = (([], false), s) := by
  cases limit with
  | zero => rfl
  | succ limit =>
    rw [readGroups, readSeparator_no_colon h, readSeparator_no_colon h, ite_self]

/-- Without a colon there is at most one group, or the two groups of an IPv4 address. -/
theorem readGroups_no_colon {s : Str} (h : ':' ∉ s) (limit : Nat) :
    (readGroups true limit s).1.1.length ≤ 2 ∧ (readGroups true limit s).2 <:+ s := by
  cases limit with
  | zero => exact ⟨Nat.zero_le _, List.suffix_refl s⟩
  | succ limit =>
    rw [readGroups]
    split
    · rename_i v4 rest hv4
      split at hv4
      · have hread : readIpv4Addr s = some (v4, rest) := hv4
        obtain ⟨rfl, -⟩ := readIpv4Addr_eq_some.1 hread
        exact ⟨le_refl 2, List.suffix_append _ _⟩
      · cases hv4
    · split
      · exact ⟨Nat.zero_le _, List.suffix_refl s⟩
      · rename_i group rest hgroup
        have hsuffix : rest <:+ s := suffix_of_readNumber hgroup
        rw [readGroups_false_no_colon fun hmem => h (hsuffix.subset hmem)]
        exact ⟨Nat.le_succ 1, hsuffix⟩

theorem colon_mem_of_readIpv6Addr {s : Str} {r : BitVec 128 × Str} (h : readIpv6Addr s = some r) : ':' ∈ s := by
  by_contra hcolon
  unfold readIpv6Addr at h
  obtain ⟨⟨head, v4⟩, rest, hgroups, h⟩ := bind_eq_some.1 h
  obtain ⟨hlength, hsuffix⟩ := readGroups_no_colon hcolon 8
  rw [Option.some.injEq] at hgroups
  rw [hgroups] at hlength hsuffix
  change head.length ≤ 2 at hlength
  simp only at h
  split at h
  · omega
  · -- what follows the groups is a colon
    have hmark : ∀ {next : Unit → Reader (BitVec 128)}, (readGivenChar ':' >>= next) rest ≠ some r := by
      intro next hread
      obtain ⟨_, after, hafter, -⟩ := bind_eq_some.1 hread
      rw [readGivenChar_eq_some.1 hafter] at hsuffix
      exact hcolon (hsuffix.subset (List.mem_cons_self ..))
    split at h
    · cases h
    · exact hmark h

end Net

/-- A text without a colon is an address exactly if it is a dotted quad. -/
theorem IpAddr.parse_eq_some {s : Str} (h : ':' ∉ s) {ip : IpAddr} :
    IpAddr.parse s = some ip ↔ ∃ a, ip = .v4 a ∧ s = dottedQuad a := by
  have hv6 : Net.readIpv6Addr s = none := by
    cases hread : Net.readIpv6Addr s with
    | none => rfl
    | some r => exact absurd (Net.colon_mem_of_readIpv6Addr hread) h
  have hread : Net.readIpAddr s = (Net.readIpv4Addr s).map fun p => (IpAddr.v4 p.1, p.2) := by
    show ((Net.readIpv4Addr s).bind (fun p => some (IpAddr.v4 p.1, p.2)) <|>
      (Net.readIpv6Addr s).bind fun p => some (IpAddr.v6 p.1, p.2)) = _
    rw [hv6]
    cases Net.readIpv4Addr s <;> rfl
  rw [IpAddr.parse, Net.parseWith, hread]
  constructor
  · intro hparse
    cases hv4 : Net.readIpv4Addr s with
    | none => rw [hv4] at hparse; cases hparse
    | some p =>
      obtain ⟨a, rest⟩ := p
      rw [hv4] at hparse
      cases rest with
      | nil =>
        cases hparse
        obtain ⟨hs, -⟩ := Net.readIpv4Addr_eq_some.1 hv4
        rw [List.append_nil] at hs
        exact ⟨a, rfl, hs⟩
      | cons c rest => cases hparse
  · rintro ⟨a, rfl, hs⟩
    have hv4 : Net.readIpv4Addr s = some (a, []) := by
      rw [Net.readIpv4Addr_eq_some, List.append_nil]
      exact ⟨hs, nofun⟩
    rw [hv4]
    rfl

end WorldInfra.Rust
