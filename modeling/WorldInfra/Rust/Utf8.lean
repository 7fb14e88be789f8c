/-
UTF-8: `String::as_bytes`, `String::from_utf8` and the error it reports. Decoding is the partial
inverse of encoding; the error's position and length are those of the standard library's
validator.
-/
import WorldInfra.Rust.Text

namespace WorldInfra.Rust

abbrev Bytes := List UInt8

namespace Utf8

def encode (s : Str) : Bytes := s.flatMap String.utf8EncodeChar

/-- The text a byte string encodes, if it is valid UTF-8. -/
def decode (b : Bytes) : Option Str := b.toByteArray.utf8Decode?.map Array.toList

theorem toByteArray_encode (s : Str) : (encode s).toByteArray = s.utf8Encode := rfl

@[simp] theorem decode_encode (s : Str) : decode (encode s) = some s := by
  rw [decode, toByteArray_encode, List.utf8Decode?_utf8Encode]
  rfl

/-- Decoding succeeds exactly on encodings. -/
theorem decode_eq_some_iff {b : Bytes} {s : Str} : decode b = some s ↔ encode s = b := by
  constructor
  · intro h
    rw [decode, Option.map_eq_some_iff] at h
    obtain ⟨a, ha, rfl⟩ := h
    have hs : b.toByteArray.utf8Decode?.isSome := by rw [ha]; rfl
    have he := ByteArray.utf8Encode_get_utf8Decode? (h := hs)
    rw [Option.get_of_eq_some hs ha, ← toByteArray_encode] at he
    exact List.toByteArray_inj.1 he
  · rintro rfl; exact decode_encode s

theorem encode_injective : Function.Injective encode := by
  intro s t h
  have := decode_encode s
  rw [h, decode_encode] at this
  exact (Option.some.inj this).symm

@[simp] theorem encode_nil : encode [] = [] := rfl

@[simp] theorem encode_append (s t : Str) : encode (s ++ t) = encode s ++ encode t := List.flatMap_append

theorem length_encode : ∀ s : Str, (encode s).length = s.len
  | [] => rfl
  | c :: s => by
    rw [encode, List.flatMap_cons, List.length_append, String.length_utf8EncodeChar, Str.len_cons,
      ← length_encode s, encode]

/-! ## The error of `from_utf8` -/

/-- `Utf8Error`: how many bytes are valid, and the length of the bad sequence (`none` when the
input ends inside one). -/
structure Utf8Error where
  validUpTo : Nat
  errorLen : Option Nat
  deriving DecidableEq, Repr

def isTail (b : UInt8) : Bool := 0x80 ≤ b && b ≤ 0xBF

/-- The second bytes allowed after a leading byte of three or of four. -/
def secondOk (a b : UInt8) : Bool :=
  if a == 0xE0 then 0xA0 ≤ b && b ≤ 0xBF
  else if a == 0xED then 0x80 ≤ b && b ≤ 0x9F
  else if a == 0xF0 then 0x90 ≤ b && b ≤ 0xBF
  else if a == 0xF4 then 0x80 ≤ b && b ≤ 0x8F
  else isTail b

/-- The validator's scan from byte `i`: the first error, if there is one. -/
def scanError (i : Nat) : Bytes → Option Utf8Error
  | [] => none
  | a :: rest =>
    if a < 0x80 then scanError (i + 1) rest
    else if 0xC2 ≤ a && a ≤ 0xDF then
      match rest with
      | [] => some ⟨i, none⟩
      | b :: rest => if isTail b then scanError (i + 2) rest else some ⟨i, some 1⟩
    else if 0xE0 ≤ a && a ≤ 0xEF then
      match rest with
      | [] => some ⟨i, none⟩
      | [b] => if secondOk a b then some ⟨i, none⟩ else some ⟨i, some 1⟩
      | b :: c :: rest =>
        if !secondOk a b then some ⟨i, some 1⟩
        else if isTail c then scanError (i + 3) rest else some ⟨i, some 2⟩
    else if 0xF0 ≤ a && a ≤ 0xF4 then
      match rest with
      | [] => some ⟨i, none⟩
      | [b] => if secondOk a b then some ⟨i, none⟩ else some ⟨i, some 1⟩
      | [b, c] =>
        if !secondOk a b then some ⟨i, some 1⟩ else if isTail c then some ⟨i, none⟩ else some ⟨i, some 2⟩
      | b :: c :: d :: rest =>
        if !secondOk a b then some ⟨i, some 1⟩
        else if !isTail c then some ⟨i, some 2⟩
        else if isTail d then scanError (i + 4) rest else some ⟨i, some 3⟩
    else some ⟨i, some 1⟩

def Utf8Error.text (e : Utf8Error) : Str :=
  match e.errorLen with
  | some n => "invalid utf-8 sequence of ".toList ++ Nat.toDigits 10 n ++ " bytes from index ".toList ++
      Nat.toDigits 10 e.validUpTo
  | none => "incomplete utf-8 byte sequence from index ".toList ++ Nat.toDigits 10 e.validUpTo

def fromUtf8 (b : Bytes) : Except Utf8Error Str :=
  match decode b with
  | some s => .ok s
  | none => .error ((scanError 0 b).getD ⟨0, none⟩)

theorem fromUtf8_ok {b : Bytes} {s : Str} : fromUtf8 b = .ok s ↔ encode s = b := by
  rw [← decode_eq_some_iff]
  unfold fromUtf8
  split <;> simp_all

@[simp] theorem fromUtf8_encode (s : Str) : fromUtf8 (encode s) = .ok s := fromUtf8_ok.2 rfl

end Utf8

end WorldInfra.Rust
