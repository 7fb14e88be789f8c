/-
The texts `str::parse` accepts for the unsigned integer types: decimal digits, after a plus sign or
not, whose value is in the type's range.
-/
import WorldInfra.Rust.Num
import WorldInfra.Rust.Pattern

namespace WorldInfra.Rust

def parseU32 (s : Str) : Except IntErrorKind UInt32 :=
  (parseInt 0 (2 ^ 32 - 1) s).map fun n => UInt32.ofNat n.toNat

/-- Decimal digits, in order, behind a number read so far. -/
def digitsFrom (acc : Nat) (digits : Str) : Nat := digits.foldl (fun n c => n * 10 + (c.toNat - 48)) acc

/-- The text is a decimal numeral of value `n`, with a plus sign or none. -/
def Spells (s : Str) (n : Nat) : Prop :=
  ∃ digits : Str, (s = digits ∨ s = '+' :: digits) ∧ digits ≠ [] ∧ (∀ c ∈ digits, c.isDigit = true) ∧
    digitsFrom 0 digits = n

theorem le_digitsFrom : ∀ (acc : Nat) (digits : Str), acc ≤ digitsFrom acc digits
  | _, [] => le_refl _
  | acc, c :: digits => by
    have h := le_digitsFrom (acc * 10 + (c.toNat - 48)) digits
    show acc ≤ digitsFrom (acc * 10 + (c.toNat - 48)) digits
    omega

/-- The digit loop ends in a value of the range exactly on digits of such a value. -/
theorem readDigits_ok {hi : Nat} : ∀ {s : Str} {acc n : Nat}, acc ≤ hi →
    (readDigits 0 hi 1 acc s = .ok (n : Int) ↔ (∀ c ∈ s, c.isDigit = true) ∧ digitsFrom acc s = n ∧ n ≤ hi)
  | [], acc, n, hacc => by
    simp only [readDigits, Except.ok.injEq, Nat.cast_inj, List.not_mem_nil, false_implies, implies_true, true_and]
    constructor
    · rintro rfl
      exact ⟨rfl, hacc⟩
    · rintro ⟨h, -⟩
      exact h
  | c :: s, acc, n, hacc => by
    rw [readDigits]
    split
    · rename_i hdigit
      have hrange := isDigit_iff.1 hdigit
      have hnext : (acc : Int) * 10 + 1 * ((c.toNat : Int) - 48) = ((acc * 10 + (c.toNat - 48) : Nat) : Int) := by omega
      simp only [hnext]
      rw [if_neg (by omega)]
      have hstep : digitsFrom acc (c :: s) = digitsFrom (acc * 10 + (c.toNat - 48)) s := rfl
      split
      -- digits only add to the value, so a prefix that is too large stays so
      · rename_i hover
        constructor
        · rintro ⟨⟩
        · rintro ⟨-, hval, hle⟩
          have := le_digitsFrom (acc * 10 + (c.toNat - 48)) s
          omega
      · rw [readDigits_ok (by omega), hstep]
        constructor
        · rintro ⟨hdigits, hrest⟩
          refine ⟨fun d hd => ?_, hrest⟩
          rcases List.mem_cons.1 hd with rfl | hd
          · exact hdigit
          · exact hdigits d hd
        · rintro ⟨hdigits, hrest⟩
          exact ⟨fun d hd => hdigits d (List.mem_cons_of_mem _ hd), hrest⟩
    · rename_i hdigit
      constructor
      · rintro ⟨⟩
      · rintro ⟨hdigits, -⟩
        exact absurd (hdigits c (List.mem_cons_self ..)) hdigit

theorem spells_plus {t : Str} {n : Nat} :
    Spells ('+' :: t) n ↔ t ≠ [] ∧ (∀ c ∈ t, c.isDigit = true) ∧ digitsFrom 0 t = n := by
  constructor
  · rintro ⟨digits, rfl | heq, hne, hdigits, hval⟩
    · cases hdigits '+' (List.mem_cons_self ..)
    · rw [List.cons.injEq] at heq
      rw [heq.2]
      exact ⟨hne, hdigits, hval⟩
  · rintro ⟨hne, hdigits, hval⟩
    exact ⟨t, Or.inr rfl, hne, hdigits, hval⟩

theorem spells_cons {c : Char} (hc : c ≠ '+') {t : Str} {n : Nat} :
    Spells (c :: t) n ↔ (∀ d ∈ c :: t, d.isDigit = true) ∧ digitsFrom 0 (c :: t) = n := by
  constructor
  · rintro ⟨digits, rfl | heq, hne, hdigits, hval⟩
    · exact ⟨hdigits, hval⟩
    · rw [List.cons.injEq] at heq
      exact absurd heq.1 hc
  · rintro ⟨hdigits, hval⟩
    exact ⟨c :: t, Or.inl rfl, List.cons_ne_nil _ _, hdigits, hval⟩

/-- What the parser of an unsigned type with largest value `hi` accepts. -/
theorem parseInt_ok {hi n : Nat} : ∀ {s : Str}, parseInt 0 hi s = .ok (n : Int) ↔ Spells s n ∧ n ≤ hi
  | [] => by
    constructor
    · rintro ⟨⟩
    · rintro ⟨⟨digits, heq | heq, hne, -⟩, -⟩
      · exact absurd heq.symm hne
      · cases heq
  | c :: rest => by
    have hread (t : Str) : readDigits 0 hi 1 0 t = .ok (n : Int) ↔
        (∀ c ∈ t, c.isDigit = true) ∧ digitsFrom 0 t = n ∧ n ≤ hi := readDigits_ok (Nat.zero_le hi)
    by_cases hplus : c = '+'
    · subst hplus
      rw [spells_plus]
      cases rest with
      | nil =>
        constructor
        · rintro ⟨⟩
        · rintro ⟨⟨hne, -⟩, -⟩
          exact absurd rfl hne
      | cons d rest =>
        simp only [parseInt, List.isEmpty_cons, Bool.and_false, Bool.false_eq_true, if_false, if_true, hread]
        constructor
        · rintro ⟨hdigits, hval, hle⟩
          exact ⟨⟨List.cons_ne_nil _ _, hdigits, hval⟩, hle⟩
        · rintro ⟨⟨-, hdigits, hval⟩, hle⟩
          exact ⟨hdigits, hval, hle⟩
    · rw [spells_cons hplus]
      by_cases hminus : c = '-'
      · -- no unsigned numeral begins with a minus sign
        subst hminus
        constructor
        · intro h
          cases rest with
          | nil => cases h
          | cons d rest => cases h
        · rintro ⟨⟨hdigits, -⟩, -⟩
          cases hdigits '-' (List.mem_cons_self ..)
      · simp only [parseInt, hplus, hminus, decide_false, Bool.or_self, Bool.false_and, Bool.false_eq_true, if_false,
          hread]
        tauto

theorem readDigits_nonneg {hi : Int} : ∀ {s : Str} {acc m : Int}, 0 ≤ acc → readDigits 0 hi 1 acc s = .ok m → 0 ≤ m
  | [], acc, m, hacc, h => by
    cases h
    exact hacc
  | c :: s, acc, m, hacc, h => by
    unfold readDigits at h
    split at h
    · rename_i hdigit
      have hrange := isDigit_iff.1 hdigit
      simp only at h
      split at h
      · cases h
      · split at h
        · cases h
        · exact readDigits_nonneg (by omega) h
    · cases h

theorem parseInt_nonneg {hi m : Int} {s : Str} (h : parseInt 0 hi s = .ok m) : 0 ≤ m := by
  unfold parseInt at h
  split at h
  · cases h
  · split at h
    · cases h
    · split at h
      · exact readDigits_nonneg (le_refl _) h
      · split at h
        · rename_i hminus
          simp at hminus
        · exact readDigits_nonneg (le_refl _) h

/-- An unsigned type of width `w`: the parser returns a value exactly if the text spells it. -/
theorem map_parseInt_ok {α : Type} {w : Nat} {s : Str} {a : α} {ofNat : Nat → α} {toNat : α → Nat}
    (hlt : toNat a < 2 ^ w) (hof : ofNat (toNat a) = a) (hto : ∀ n < 2 ^ w, toNat (ofNat n) = n) :
    (parseInt 0 (2 ^ w - 1) s).map (fun n => ofNat n.toNat) = .ok a ↔ Spells s (toNat a) := by
  have hmax : ((2 ^ w - 1 : Nat) : Int) = 2 ^ w - 1 := by
    have hpos := Nat.two_pow_pos w
    push_cast [Nat.one_le_iff_ne_zero.2 hpos.ne']
    rfl
  have hparse (n : Nat) : parseInt 0 (2 ^ w - 1) s = .ok (n : Int) ↔ Spells s n ∧ n ≤ 2 ^ w - 1 := by
    rw [← hmax]
    exact parseInt_ok
  constructor
  · intro h
    rcases hresult : parseInt 0 (2 ^ w - 1) s with e | m
    · rw [hresult] at h
      cases h
    · have hm : m = (m.toNat : Int) := (Int.toNat_of_nonneg (parseInt_nonneg hresult)).symm
      rw [hresult] at h
      rw [hm] at hresult
      obtain ⟨hspells, hle⟩ := (hparse m.toNat).1 hresult
      have ha : ofNat m.toNat = a := Except.ok.inj h
      rwa [← ha, hto m.toNat (by have := Nat.two_pow_pos w; omega)]
  · intro h
    rw [(hparse (toNat a)).2 ⟨h, by omega⟩]
    show Except.ok (ofNat ((toNat a : Int)).toNat) = _
    rw [Int.toNat_natCast, hof]

theorem parseU64_ok {s : Str} {n : UInt64} : parseU64 s = .ok n ↔ Spells s n.toNat :=
  map_parseInt_ok (w := 64) n.toNat_lt (UInt64.ofNat_toNat) fun _ h => UInt64.toNat_ofNat_of_lt h

theorem parseU32_ok {s : Str} {n : UInt32} : parseU32 s = .ok n ↔ Spells s n.toNat :=
  map_parseInt_ok (w := 32) n.toNat_lt (UInt32.ofNat_toNat) fun _ h => UInt32.toNat_ofNat_of_lt h

theorem parseU16_ok {s : Str} {n : UInt16} : parseU16 s = .ok n ↔ Spells s n.toNat :=
  map_parseInt_ok (w := 16) n.toNat_lt (UInt16.ofNat_toNat) fun _ h => UInt16.toNat_ofNat_of_lt h

/-! ## Numerals among other texts -/

theorem Spells.ne_nil {s : Str} {n : Nat} (h : Spells s n) : s ≠ [] := by
  obtain ⟨digits, rfl | rfl, hne, -⟩ := h
  · exact hne
  · exact List.cons_ne_nil _ _

/-- A numeral ends in a digit. -/
theorem Spells.getLast_isDigit {s : Str} {c : Char} {n : Nat} (h : Spells (s ++ [c]) n) : c.isDigit = true := by
  obtain ⟨digits, heq | heq, hne, hdigits, -⟩ := h
  · exact hdigits c (heq ▸ List.mem_append_right _ (List.mem_singleton_self c))
  · -- the digits behind the plus sign are not none
    have hlast : ('+' :: digits).getLast? = some c := by rw [← heq, List.getLast?_concat]
    rw [List.getLast?_cons_of_ne_nil hne] at hlast
    exact hdigits c (List.mem_of_getLast? hlast)

/-- A text whose trim is a numeral ends in a digit or in white space. -/
theorem isDigit_of_spells_trim {t : Str} {c : Char} {n : Nat} (hc : isWhitespace c = false)
    (h : Spells (Str.trim (t ++ [c])) n) : c.isDigit = true := by
  have htrim : Str.trim (t ++ [c]) = Str.trimStart t ++ [c] := by
    rw [Str.trim, Str.trimStart_append_cons hc, Str.trimEnd_append_cons hc]
    rfl
  rw [htrim] at h
  exact h.getLast_isDigit

theorem Spells.exists_digit {s : Str} {n : Nat} (h : Spells s n) : ∃ c ∈ s, c.isDigit = true := by
  obtain ⟨digits, hs, hne, hdigits, -⟩ := h
  obtain ⟨c, hc⟩ := List.exists_mem_of_ne_nil digits hne
  refine ⟨c, ?_, hdigits c hc⟩
  rcases hs with rfl | rfl
  · exact hc
  · exact List.mem_cons_of_mem _ hc

theorem toLower_of_isDigit {c : Char} (h : c.toLower.isDigit = true) : c.toLower = c := by
  rw [isDigit_toLower, isDigit_iff] at h
  rcases toLower_cases c with ⟨hle, -, -⟩ | ⟨-, heq⟩
  · omega
  · exact heq

/-- Numerals have no case. -/
theorem toAsciiLowercase_of_spells {s : Str} {n : Nat} (h : Spells (Str.toAsciiLowercase s) n) :
    Str.toAsciiLowercase s = s := by
  have hchars : ∀ c ∈ Str.toAsciiLowercase s, c = '+' ∨ c.isDigit = true := by
    obtain ⟨digits, heq | heq, -, hdigits, -⟩ := h
    · rw [heq]
      exact fun c hc => Or.inr (hdigits c hc)
    · rw [heq]
      intro c hc
      exact (List.mem_cons.1 hc).imp id (hdigits c)
  unfold Str.toAsciiLowercase at *
  refine (List.map_congr_left fun c hc => ?_).trans (List.map_id s)
  rcases hchars c.toLower (List.mem_map_of_mem hc) with hplus | hdigit
  · rw [hplus, (toLower_eq_iff (by decide) c).1 hplus]
    rfl
  · exact toLower_of_isDigit hdigit

end WorldInfra.Rust
