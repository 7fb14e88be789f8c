/-
Hexadecimal text of bytes: `LowerHex` of a digest, and what an encoder of such texts writes.
-/
import WorldInfra.Rust.Utf8

namespace WorldInfra.Rust

def hexChar (n : Nat) : Char := "0123456789abcdef".toList.getD n '0'

/-- Two digits for each byte. -/
def lowerHex (bytes : Bytes) : Str := bytes.flatMap fun b => [hexChar (b.toNat / 16), hexChar (b.toNat % 16)]

/-- How bytes are written by an encoder of lower-case digits. -/
structure HexEncodes (encode : Bytes → Str) : Prop where
  nil : encode [] = []
  cons : ∀ b bytes, encode (b :: bytes) = hexChar (b.toNat / 16) :: hexChar (b.toNat % 16) :: encode bytes

def upperHex (bytes : Bytes) : Str := (lowerHex bytes).map Char.toUpper

theorem HexEncodes.eq_lowerHex {encode : Bytes → Str} (h : HexEncodes encode) (bytes : Bytes) :
    encode bytes = lowerHex bytes := by
  induction bytes with
  | nil => exact h.nil
  | cons b bytes ih =>
    rw [h.cons, ih]
    rfl

theorem lowerHex_encodes : HexEncodes lowerHex := ⟨rfl, fun _ _ => rfl⟩

theorem hexChar_injOn : ∀ m < 16, ∀ n < 16, hexChar m = hexChar n → m = n := by decide

theorem lowerHex_injective : Function.Injective lowerHex
  | [], [], _ => rfl
  | [], _ :: _, h => by simp [lowerHex] at h
  | _ :: _, [], h => by simp [lowerHex] at h
  | a :: l, b :: m, h => by
    have ha := a.toNat_lt
    have hb := b.toNat_lt
    simp only [lowerHex, List.flatMap_cons, List.cons_append, List.nil_append, List.cons.injEq] at h
    obtain ⟨hhi, hlo, ht⟩ := h
    have hdiv := hexChar_injOn _ (by omega) _ (by omega) hhi
    have hmod := hexChar_injOn _ (by omega) _ (by omega) hlo
    have hab : a = b := UInt8.toNat_inj.1 (by omega)
    rw [hab, lowerHex_injective ht]

theorem HexEncodes.injective {encode : Bytes → Str} (h : HexEncodes encode) : Function.Injective encode := by
  intro l m heq
  rw [h.eq_lowerHex, h.eq_lowerHex] at heq
  exact lowerHex_injective heq

theorem hexChar_isAlphanum : ∀ n < 16, (hexChar n).isAlphanum = true := by decide

theorem isAlphanum_of_mem_lowerHex {bytes : Bytes} {c : Char} (h : c ∈ lowerHex bytes) : c.isAlphanum = true := by
  obtain ⟨b, -, hc⟩ := List.mem_flatMap.1 h
  have hb := b.toNat_lt
  rw [List.mem_cons, List.mem_singleton] at hc
  rcases hc with rfl | rfl
  · exact hexChar_isAlphanum _ (by omega)
  · exact hexChar_isAlphanum _ (by omega)

end WorldInfra.Rust
