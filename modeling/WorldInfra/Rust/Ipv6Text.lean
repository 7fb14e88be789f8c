/-
What `Ipv6Addr`'s parser reads: hexadecimal digits, colons and dots only, and two colons at least.
-/
import WorldInfra.Rust.Ipv4Text
import WorldInfra.Rust.Pattern

namespace WorldInfra.Rust.Net

/-- The characters of the texts of IPv6 addresses. -/
def isIpv6Char (c : Char) : Bool := isAsciiHexdigit c || c == ':' || c == '.'

theorem isAsciiHexdigit_of_toDigit {radix : Nat} (hradix : radix ≤ 16) {c : Char}
    (h : (toDigit radix c).isSome = true) :
    isAsciiHexdigit c = true := by
  have ha : 'a'.toNat = 97 := rfl
  have hf : 'f'.toNat = 102 := rfl
  have hA : 'A'.toNat = 65 := rfl
  have hF : 'F'.toNat = 70 := rfl
  unfold toDigit at h
  simp only [Option.isSome_ite] at h
  simp only [isAsciiHexdigit, Bool.or_eq_true, Bool.and_eq_true, decide_eq_true_eq, char_le_iff]
  split at h
  · next hdigit => exact Or.inl (Or.inl hdigit)
  · split at h
    · next hlower =>
      have hrange := isLower_iff.1 hlower
      exact Or.inl (Or.inr (by omega))
    · split at h
      · next hupper =>
        have hrange := isUpper_iff.1 hupper
        exact Or.inr (by omega)
      · omega

theorem isIpv6Char_of_hex {c : Char} (h : isAsciiHexdigit c = true) : isIpv6Char c = true := by
  rw [isIpv6Char, h]
  rfl

theorem readNumber_used {radix bound n : Nat} {maxDigits : Option Nat} {allowZeroPrefix : Bool} {s rest : Str}
    (hradix : radix ≤ 16) (h : readNumber radix maxDigits allowZeroPrefix bound s = some (n, rest)) :
    ∃ used, s = used ++ rest ∧ ∀ c ∈ used, isAsciiHexdigit c = true := by
  unfold readNumber at h
  simp only at h
  split at h
  · cases h
  · split at h
    · cases h
    · split at h
      · cases h
        refine ⟨s.takeWhile fun c => (toDigit radix c).isSome, ?_, fun c hc => ?_⟩
        · exact (List.prefix_iff_eq_append.1 (List.takeWhile_prefix _)).symm
        · have hdigit := List.mem_takeWhile_imp hc
          exact isAsciiHexdigit_of_toDigit hradix hdigit
      · cases h

/-! ## Groups -/

/-- A part of an address with a number of colons, or more. -/
structure Ipv6Part (colons : Nat) (used : Str) : Prop where
  chars : ∀ c ∈ used, isIpv6Char c = true
  le_count : colons ≤ used.count ':'

theorem Ipv6Part.append {m n : Nat} {s t : Str} (hs : Ipv6Part m s) (ht : Ipv6Part n t) :
    Ipv6Part (m + n) (s ++ t) := by
  refine ⟨fun c hc => ?_, ?_⟩
  · rcases List.mem_append.1 hc with hc | hc
    · exact hs.chars c hc
    · exact ht.chars c hc
  · rw [List.count_append]
    exact Nat.add_le_add hs.le_count ht.le_count

theorem Ipv6Part.colon : Ipv6Part 1 [':'] := ⟨by simp [isIpv6Char], by simp⟩

theorem Ipv6Part.nil : Ipv6Part 0 [] := ⟨by simp, by simp⟩

theorem Ipv6Part.of_chars {s : Str} (h : ∀ c ∈ s, isIpv6Char c = true) : Ipv6Part 0 s := ⟨h, Nat.zero_le _⟩

theorem chars_dottedQuad (a : BitVec 32) : ∀ c ∈ dottedQuad a, isIpv6Char c = true := by
  have hdecimal : ∀ n : Nat, ∀ c ∈ decimal n, isIpv6Char c = true := by
    intro n c hc
    rw [decimal_nat] at hc
    rw [isIpv6Char, isAsciiHexdigit, isDigit_of_mem_toDigits hc]
    rfl
  intro c hc
  simp only [dottedQuad, List.mem_append, List.mem_cons] at hc
  rcases hc with hc | rfl | hc | rfl | hc | rfl | hc
  · exact hdecimal _ c hc
  · rfl
  · exact hdecimal _ c hc
  · rfl
  · exact hdecimal _ c hc
  · rfl
  · exact hdecimal _ c hc

/-- What stands behind the colon that a separator is, unless it is left out. -/
theorem readSeparator_used {α : Type} {first : Bool} {inner : Reader α} {s : Str} {r : α × Str}
    (h : readSeparator ':' first inner s = some r) (hinner : ∀ {s}, inner s = some r → ∃ used, s = used ++ r.2 ∧
      ∀ c ∈ used, isIpv6Char c = true) : ∃ used, s = used ++ r.2 ∧ Ipv6Part (if first then 0 else 1) used := by
  cases first with
  | true =>
    obtain ⟨used, hs, hchars⟩ := hinner h
    exact ⟨used, hs, Ipv6Part.of_chars hchars⟩
  | false =>
    obtain ⟨_, rest, hsep, h⟩ := bind_eq_some.1 h
    obtain ⟨used, rfl, hchars⟩ := hinner h
    exact ⟨':' :: used, readGivenChar_eq_some.1 hsep, Ipv6Part.colon.append (Ipv6Part.of_chars hchars)⟩

/-- Groups are separated by colons; two of them may be an IPv4 address. -/
theorem readGroups_used : ∀ (limit : Nat) (first : Bool) (s : Str), ∃ used, s = used ++ (readGroups first limit s).2 ∧
    Ipv6Part ((readGroups first limit s).1.1.length - if first then 2 else 1) used
  | 0, first, s => ⟨[], rfl, by simp [readGroups, Ipv6Part.nil]⟩
  | limit + 1, first, s => by
    rw [readGroups]
    split
    · next v4 rest hv4 =>
      split at hv4
      · obtain ⟨used, hs, hpart⟩ := readSeparator_used hv4 fun {s} hs =>
          ⟨_, (readIpv4Addr_eq_some.1 hs).1, chars_dottedQuad _⟩
        refine ⟨used, hs, ?_⟩
        cases first <;> exact hpart
      · cases hv4
    · split
      · exact ⟨[], rfl, by simp [Ipv6Part.nil]⟩
      · next group rest hgroup =>
        obtain ⟨used, hs, hpart⟩ := readSeparator_used hgroup fun {s} hs => by
          obtain ⟨used, heq, hchars⟩ := readNumber_used (le_refl 16) hs
          exact ⟨used, heq, fun c hc => isIpv6Char_of_hex (hchars c hc)⟩
        obtain ⟨used', hrest, hpart'⟩ := readGroups_used limit false rest
        rcases hread : readGroups false limit rest with ⟨⟨groups, v4⟩, s'⟩
        rw [hread] at hrest hpart'
        simp only at hs hrest hpart' ⊢
        refine ⟨used ++ used', ?_, ?_, ?_⟩
        · rw [hs, hrest, List.append_assoc]
        · exact (hpart.append hpart').chars
        · have hcount := (hpart.append hpart').le_count
          simp only [List.length_cons]
          cases first <;> simp only [if_true, if_false, Bool.false_eq_true] at hcount ⊢ <;> omega

/-- What is read as an address has its characters, and two colons: a gap, or the separators of eight groups. -/
theorem readIpv6Addr_used {s : Str} {r : BitVec 128 × Str} (h : readIpv6Addr s = some r) :
    ∃ used, s = used ++ r.2 ∧ Ipv6Part 2 used := by
  unfold readIpv6Addr at h
  obtain ⟨⟨head, v4⟩, rest, hgroups, h⟩ := bind_eq_some.1 h
  obtain ⟨used, hs, hpart⟩ := readGroups_used 8 true s
  rw [Option.some.injEq] at hgroups
  rw [hgroups] at hs hpart
  simp only at h hs hpart
  split at h
  · next height =>
    cases h
    have hcount := hpart.le_count
    rw [height] at hcount
    exact ⟨used, hs, hpart.chars, by simp only [if_true] at hcount; omega⟩
  -- after fewer than eight groups there has to be a gap, with or without an address in the first part
  · have hgap : ∀ {s}, (do
        readGivenChar ':'
        readGivenChar ':'
        let tail ← fun s => some (readGroups true (8 - (head.length + 1)) s)
        return ofGroups (head ++ List.replicate (8 - head.length - tail.1.length) 0 ++ tail.1)) s = some r →
        ∃ used, s = used ++ r.2 ∧ Ipv6Part 2 used := by
      intro s h
      obtain ⟨_, s₁, h₁, h⟩ := bind_eq_some.1 h
      obtain ⟨_, s₂, h₂, h⟩ := bind_eq_some.1 h
      obtain ⟨⟨tail, v4⟩, s₃, h₃, h⟩ := bind_eq_some.1 h
      rw [readGivenChar_eq_some] at h₁ h₂
      obtain ⟨used, hs₂, hpart⟩ := readGroups_used (8 - (head.length + 1)) true s₂
      rw [Option.some.injEq] at h₃
      rw [h₃] at hs₂
      cases h
      refine ⟨':' :: ':' :: used, ?_, (Ipv6Part.colon.append (Ipv6Part.colon.append (Ipv6Part.of_chars hpart.chars)))⟩
      rw [h₁, h₂, hs₂]
      rfl
    split at h
    · cases h
    · obtain ⟨used', hrest, hpart'⟩ := hgap h
      refine ⟨used ++ used', ?_, (hpart.append hpart').chars, ?_⟩
      · rw [hs, hrest, List.append_assoc]
      · have hcount := (hpart.append hpart').le_count
        omega

end WorldInfra.Rust.Net
