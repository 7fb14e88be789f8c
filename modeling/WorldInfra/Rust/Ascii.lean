/-
Texts of ASCII characters and their bytes. A loop over the bytes of a text that only lets bytes below 128
pass is a loop over its characters.
-/
import WorldInfra.Rust.Utf8

namespace WorldInfra.Rust

def asciiByte (c : Char) : UInt8 := .ofNat c.toNat

theorem toNat_asciiByte {c : Char} (h : c.toNat < 128) : (asciiByte c).toNat = c.toNat :=
  UInt8.toNat_ofNat_of_lt (show c.toNat < 256 by omega)

theorem utf8EncodeChar_ascii {c : Char} (h : c.toNat < 128) : String.utf8EncodeChar c = [asciiByte c] := by
  unfold String.utf8EncodeChar
  exact if_pos (show c.toNat ≤ 0x7f by omega)

/-- A byte below 128 is the whole encoding of a character. -/
theorem ascii_of_mem_utf8EncodeChar {c : Char} {byte : UInt8} (hmem : byte ∈ String.utf8EncodeChar c)
    (h : byte.toNat < 128) : c.toNat < 128 := by
  unfold String.utf8EncodeChar at hmem
  change byte ∈ (if c.toNat ≤ 0x7f then _ else _) at hmem
  split at hmem
  · omega
  · -- every byte of a longer encoding has its high bit
    exfalso
    split at hmem
    · simp only [List.mem_cons, List.not_mem_nil, or_false, ← UInt8.toNat_inj, UInt8.toNat_ofNat'] at hmem
      omega
    · split at hmem
      · simp only [List.mem_cons, List.not_mem_nil, or_false, ← UInt8.toNat_inj, UInt8.toNat_ofNat'] at hmem
        omega
      · simp only [List.mem_cons, List.not_mem_nil, or_false, ← UInt8.toNat_inj, UInt8.toNat_ofNat'] at hmem
        omega

theorem utf8EncodeChar_ne_nil (c : Char) : String.utf8EncodeChar c ≠ [] := by
  intro hnil
  have hlen := String.length_utf8EncodeChar c
  rw [hnil, List.length_nil] at hlen
  exact absurd hlen.symm (Char.utf8Size_pos c).ne'

/-- The bytes of a text of ASCII characters. -/
theorem encode_ascii : ∀ {s : Str}, (∀ c ∈ s, c.toNat < 128) → Utf8.encode s = s.map asciiByte
  | [], _ => rfl
  | c :: s, h => by
    rw [Utf8.encode, List.flatMap_cons, utf8EncodeChar_ascii (h c (List.mem_cons_self ..)), List.map_cons,
      List.singleton_append]
    congr 1
    exact encode_ascii fun d hd => h d (List.mem_cons_of_mem _ hd)

theorem ascii_of_encode {s : Str} (h : ∀ byte ∈ Utf8.encode s, byte.toNat < 128) : ∀ c ∈ s, c.toNat < 128 := by
  intro c hc
  obtain ⟨byte, hbyte⟩ := List.exists_mem_of_ne_nil _ (utf8EncodeChar_ne_nil c)
  exact ascii_of_mem_utf8EncodeChar hbyte (h byte (List.mem_flatMap.2 ⟨c, hc, hbyte⟩))

/-- A test of all bytes as a test of all characters. -/
theorem all_encode {p : UInt8 → Bool} {q : Char → Bool} (hp : ∀ byte, p byte = true → byte.toNat < 128)
    (hq : ∀ c, q c = true → c.toNat < 128) (hpq : ∀ c : Char, c.toNat < 128 → p (asciiByte c) = q c) (s : Str) :
    (Utf8.encode s).all p = s.all q := by
  by_cases hascii : ∀ c ∈ s, c.toNat < 128
  · rw [encode_ascii hascii, List.all_map]
    refine Bool.eq_iff_iff.2 ?_
    rw [List.all_eq_true, List.all_eq_true]
    refine forall₂_congr fun c hc => ?_
    rw [Function.comp_apply, hpq c (hascii c hc)]
  · have hbytes : ¬ (Utf8.encode s).all p = true := fun hall =>
      hascii (ascii_of_encode fun byte hbyte => hp byte (List.all_eq_true.1 hall byte hbyte))
    have hchars : ¬ s.all q = true := fun hall => hascii fun c hc => hq c (List.all_eq_true.1 hall c hc)
    rw [Bool.eq_false_iff.2 hbytes, Bool.eq_false_iff.2 hchars]

end WorldInfra.Rust
