/-
Base64 of bytes in the URL-safe alphabet without padding, for any encoder that writes it: four characters for
three bytes, and one more than the bytes left for the last one or two. Different bytes have different texts.
-/
import WorldInfra.Rust.Pattern
import WorldInfra.Rust.Utf8

namespace WorldInfra.Rust

/-- The character of a value below 64. -/
def base64Char (n : Nat) : Char :=
  if n < 26 then .ofNat (n + 65)
  else if n < 52 then .ofNat (n + 71)
  else if n < 62 then .ofNat (n - 4)
  else if n = 62 then '-'
  else '_'

/-- How bytes are written in the alphabet without padding: three bytes as four characters of six bits each,
one or two bytes that are left over as two or three, the bits that lack taken as zero. -/
structure UrlSafeNoPad (encode : Bytes → Str) : Prop where
  nil : encode [] = []
  one : ∀ a, encode [a] = [base64Char (a.toNat / 4), base64Char (a.toNat % 4 * 16)]
  two : ∀ a b, encode [a, b] =
    [base64Char (a.toNat / 4), base64Char (a.toNat % 4 * 16 + b.toNat / 16), base64Char (b.toNat % 16 * 4)]
  three : ∀ a b c bytes, encode (a :: b :: c :: bytes) =
    base64Char (a.toNat / 4) :: base64Char (a.toNat % 4 * 16 + b.toNat / 16) ::
      base64Char (b.toNat % 16 * 4 + c.toNat / 64) :: base64Char (c.toNat % 64) :: encode bytes

theorem toNat_ofNat_ascii {n : Nat} (h : n < 128) : (Char.ofNat n).toNat = n := by
  rw [Char.toNat_ofNat, if_pos (Or.inl (by omega))]

theorem toNat_base64Char (n : Nat) : (base64Char n).toNat =
    if n < 26 then n + 65 else if n < 52 then n + 71 else if n < 62 then n - 4 else if n = 62 then 45 else 95 := by
  unfold base64Char
  split
  · exact toNat_ofNat_ascii (by omega)
  · split
    · exact toNat_ofNat_ascii (by omega)
    · split
      · exact toNat_ofNat_ascii (by omega)
      · split <;> rfl

theorem base64Char_inj {m n : Nat} (hm : m < 64) (hn : n < 64) (h : base64Char m = base64Char n) : m = n := by
  have hnat := congrArg Char.toNat h
  rw [toNat_base64Char, toNat_base64Char] at hnat
  split_ifs at hnat <;> omega

def isUrlSafe (c : Char) : Bool := c.isAlphanum || c == '-' || c == '_'

theorem base64Char_urlSafe (n : Nat) : isUrlSafe (base64Char n) = true := by
  simp only [isUrlSafe, Bool.or_eq_true, isAlphanum_iff, beq_iff_eq, char_eq_iff, toNat_base64Char]
  have hdash : '-'.toNat = 45 := rfl
  have hunderscore : '_'.toNat = 95 := rfl
  rw [hdash, hunderscore]
  split_ifs <;> omega

namespace UrlSafeNoPad

variable {encode : Bytes → Str} (hencode : UrlSafeNoPad encode)
include hencode

theorem urlSafe : ∀ {bytes : Bytes}, ∀ c ∈ encode bytes, isUrlSafe c = true
  | [], c, h => by
    rw [hencode.nil] at h
    exact absurd h List.not_mem_nil
  | [a], c, h => by
    simp only [hencode.one, List.mem_cons, List.not_mem_nil, or_false] at h
    rcases h with rfl | rfl <;> exact base64Char_urlSafe _
  | [a, b], c, h => by
    simp only [hencode.two, List.mem_cons, List.not_mem_nil, or_false] at h
    rcases h with rfl | rfl | rfl <;> exact base64Char_urlSafe _
  | a :: b :: d :: bytes, c, h => by
    simp only [hencode.three, List.mem_cons] at h
    rcases h with rfl | rfl | rfl | rfl | h
    · exact base64Char_urlSafe _
    · exact base64Char_urlSafe _
    · exact base64Char_urlSafe _
    · exact base64Char_urlSafe _
    · exact urlSafe c h

theorem length : ∀ bytes : Bytes, (encode bytes).length = (bytes.length * 4 + 2) / 3
  | [] => by rw [hencode.nil]; rfl
  | [a] => by simp [hencode.one]
  | [a, b] => by simp [hencode.two]
  | a :: b :: c :: bytes => by
    simp only [hencode.three, List.length_cons, length bytes]
    omega

end UrlSafeNoPad

theorem toNat_eq_of_parts {a b : UInt8} {k : Nat} (hdiv : a.toNat / k = b.toNat / k)
    (hmod : a.toNat % k = b.toNat % k) :
    a = b := by
  rw [← UInt8.toNat_inj, ← Nat.div_add_mod a.toNat k, ← Nat.div_add_mod b.toNat k, hdiv, hmod]

namespace UrlSafeNoPad

variable {encode : Bytes → Str} (hencode : UrlSafeNoPad encode)
include hencode

theorem inj_of_length : ∀ {l m : Bytes}, l.length = m.length → encode l = encode m → l = m
  | [], [], _, _ => rfl
  | [a], [a'], _, h => by
    have ha := a.toNat_lt
    have ha' := a'.toNat_lt
    simp only [hencode.one, List.cons.injEq, and_true] at h
    have hdiv := base64Char_inj (by omega) (by omega) h.1
    have hmod := base64Char_inj (by omega) (by omega) h.2
    -- the byte is cut in two, and both parts are in the characters
    rw [toNat_eq_of_parts hdiv (by omega)]
  | [a, b], [a', b'], _, h => by
    have ha := a.toNat_lt
    have ha' := a'.toNat_lt
    have hb := b.toNat_lt
    have hb' := b'.toNat_lt
    simp only [hencode.two, List.cons.injEq, and_true] at h
    have hfirst := base64Char_inj (by omega) (by omega) h.1
    have hsecond := base64Char_inj (by omega) (by omega) h.2.1
    have hthird := base64Char_inj (by omega) (by omega) h.2.2
    rw [toNat_eq_of_parts hfirst (by omega), toNat_eq_of_parts (a := b) (b := b') (k := 16) (by omega) (by omega)]
  | a :: b :: c :: l, a' :: b' :: c' :: m, hlen, h => by
    have ha := a.toNat_lt
    have ha' := a'.toNat_lt
    have hb := b.toNat_lt
    have hb' := b'.toNat_lt
    have hc := c.toNat_lt
    have hc' := c'.toNat_lt
    simp only [hencode.three, List.cons.injEq] at h
    have hfirst := base64Char_inj (by omega) (by omega) h.1
    have hsecond := base64Char_inj (by omega) (by omega) h.2.1
    have hthird := base64Char_inj (by omega) (by omega) h.2.2.1
    have hfourth := base64Char_inj (by omega) (by omega) h.2.2.2.1
    rw [toNat_eq_of_parts hfirst (by omega), toNat_eq_of_parts (a := b) (b := b') (k := 16) (by omega) (by omega),
      toNat_eq_of_parts (a := c) (b := c') (k := 64) (by omega) hfourth,
      inj_of_length (by simpa using hlen) h.2.2.2.2]

theorem injective : Function.Injective encode := by
  intro l m h
  refine hencode.inj_of_length ?_ h
  have hlen := congrArg List.length h
  rw [hencode.length, hencode.length] at hlen
  omega

end UrlSafeNoPad

/-- The texts themselves. -/
def urlSafeNoPad : Bytes → Str
  | [] => []
  | [a] => [base64Char (a.toNat / 4), base64Char (a.toNat % 4 * 16)]
  | [a, b] =>
    [base64Char (a.toNat / 4), base64Char (a.toNat % 4 * 16 + b.toNat / 16), base64Char (b.toNat % 16 * 4)]
  | a :: b :: c :: bytes =>
    base64Char (a.toNat / 4) :: base64Char (a.toNat % 4 * 16 + b.toNat / 16) ::
      base64Char (b.toNat % 16 * 4 + c.toNat / 64) :: base64Char (c.toNat % 64) :: urlSafeNoPad bytes

theorem urlSafeNoPad_format : UrlSafeNoPad urlSafeNoPad :=
  ⟨rfl, fun _ => rfl, fun _ _ => rfl, fun _ _ _ _ => rfl⟩

end WorldInfra.Rust
