/-
Bytes of integers and texts: `to_be_bytes`, a text behind its 32-bit length, and where the zero byte
stands in them: first in a short length, and in no text without the zero character.
-/
import WorldInfra.Lib.Framing
import WorldInfra.Rust.Utf8

namespace WorldInfra.Rust

open WorldInfra.Lib

/-- `u32::to_be_bytes`. -/
def toBeBytes (n : UInt32) : Bytes :=
  [.ofNat (n.toNat / 2 ^ 24), .ofNat (n.toNat / 2 ^ 16), .ofNat (n.toNat / 2 ^ 8), .ofNat n.toNat]

theorem toBeBytes_injective : Function.Injective toBeBytes := by
  intro m n h
  have hm := m.toNat_lt
  have hn := n.toNat_lt
  simp only [toBeBytes, List.cons.injEq, ← UInt8.toNat_inj, UInt8.toNat_ofNat', and_true] at h
  obtain ⟨h3, h2, h1, h0⟩ := h
  apply UInt32.toNat_inj.1
  omega

/-- `value.len() as u32` in big-endian order, and the bytes of the value. -/
def lenPrefixed (value : Str) : Bytes := toBeBytes (.ofNat value.len) ++ Utf8.encode value

/-- The texts whose length has a zero first byte. -/
def shortTexts : Set Str := {value | value.len < 2 ^ 24}

theorem toNat_len {value : Str} (h : value ∈ shortTexts) : (UInt32.ofNat value.len).toNat = value.len :=
  UInt32.toNat_ofNat_of_lt' (Nat.lt_trans h (by decide))

theorem lenPrefixed_selfDelimiting : SelfDelimitingOn shortTexts lenPrefixed := by
  have hhead : SelfDelimitingOn Set.univ toBeBytes := by
    apply SelfDelimitingOn.of_length (n := 4)
    · intro n _
      rfl
    · exact toBeBytes_injective.injOn
  refine hhead.sized (fun _ _ => Set.mem_univ _) ?_
  intro a ha b hb hsize u v h
  have hlen : a.len = b.len := by rw [← toNat_len ha, ← toNat_len hb, hsize]
  obtain ⟨hab, huv⟩ := List.append_inj h (by rw [Utf8.length_encode, Utf8.length_encode, hlen])
  exact ⟨Utf8.encode_injective hab, huv⟩

theorem lenPrefixed_cons {value : Str} (h : value ∈ shortTexts) : ∃ rest, lenPrefixed value = 0 :: rest := by
  have hzero : (UInt32.ofNat value.len).toNat / 2 ^ 24 = 0 := by
    rw [toNat_len h]
    exact Nat.div_eq_of_lt h
  rw [lenPrefixed, toBeBytes, hzero]
  exact ⟨_, rfl⟩

/-! ## The zero byte -/

theorem zero_eq_ofNat {n : Nat} : (0 : UInt8) = .ofNat n ↔ n % 256 = 0 := by
  rw [← UInt8.toNat_inj, UInt8.toNat_ofNat']
  exact eq_comm

theorem zero_mem_utf8EncodeChar {c : Char} (h : (0 : UInt8) ∈ String.utf8EncodeChar c) : c.toNat = 0 := by
  unfold String.utf8EncodeChar at h
  change (0 : UInt8) ∈ (if c.toNat ≤ 0x7f then _ else _) at h
  split at h
  · rw [List.mem_singleton, zero_eq_ofNat] at h
    exact (Nat.mod_eq_of_lt (by omega)).symm.trans h
  · -- every byte of a longer encoding has its high bit
    exfalso
    split at h
    · simp only [List.mem_cons, List.not_mem_nil, or_false, zero_eq_ofNat] at h
      omega
    · split at h
      · simp only [List.mem_cons, List.not_mem_nil, or_false, zero_eq_ofNat] at h
        omega
      · simp only [List.mem_cons, List.not_mem_nil, or_false, zero_eq_ofNat] at h
        omega

theorem zero_not_mem_encode {s : Str} (h : ∀ c ∈ s, c.toNat ≠ 0) : (0 : UInt8) ∉ Utf8.encode s := by
  intro hmem
  obtain ⟨c, hc, hzero⟩ := List.mem_flatMap.1 hmem
  exact h c hc (zero_mem_utf8EncodeChar hzero)

end WorldInfra.Rust
