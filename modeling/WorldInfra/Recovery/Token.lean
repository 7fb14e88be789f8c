/-
auth-recovery-core: recovery tokens, minted, hashed and checked for their shape. The checks accept exactly
UUIDs and URL-safe texts of one length, and every token that is minted, in any of the crates that see it.
-/
import WorldInfra.Auth.Bearer
import WorldInfra.Refresh.Basic
import WorldInfra.Rust.Ascii
import WorldInfra.Rust.Base64
import WorldInfra.Rust.Hex
import WorldInfra.Ws.Handshake

/-- `mint_refresh_token`, from the random bytes, over `URL_SAFE_NO_PAD.encode`. -/
def WorldInfra.Refresh.mintRefreshToken (encode : WorldInfra.Rust.Bytes → WorldInfra.Rust.Str)
    (bytes : Vector UInt8 32) : WorldInfra.Rust.Str :=
  encode bytes.toList

namespace WorldInfra.Recovery

open WorldInfra.Rust

inductive AuthRecoveryError where
  | emptyToken
  | invalidToken
  | invalidPaddingPolicy
  deriving DecidableEq, Repr

/-! ## Tokens -/

structure RecoveryTokenPolicy where
  allowUuid : Bool
  allowUrlSafe : Bool
  urlSafeLen : Nat
  deriving DecidableEq, Repr

def RecoveryTokenPolicy.default : RecoveryTokenPolicy := ⟨true, true, 43⟩

/-- `mint_recovery_token`, from the random bytes, over `URL_SAFE_NO_PAD.encode`. -/
def mintRecoveryToken (encode : Bytes → Str) (bytes : Vector UInt8 32) : Str := encode bytes.toList

/-- `hash_recovery_token_sha256`, over the digest and `hex::encode`. -/
def hashRecoveryTokenSha256 (sha256 : Bytes → Bytes) (hexEncode : Bytes → Str) (token : Str) : Str :=
  hexEncode (sha256 (Utf8.encode token))

/-- `u8::is_ascii_hexdigit`. -/
def isHexByte (byte : UInt8) : Bool :=
  (48 ≤ byte && byte ≤ 57) || (97 ≤ byte && byte ≤ 102) || (65 ≤ byte && byte ≤ 70)

/-- The loop of `is_uuid_like`, from a byte at `idx` on. -/
def uuidBytes : Nat → Bytes → Bool
  | _, [] => true
  | idx, byte :: bytes =>
    if idx = 8 ∨ idx = 13 ∨ idx = 18 ∨ idx = 23 then
      if byte ≠ 45 then false else uuidBytes (idx + 1) bytes
    else if !isHexByte byte then false
    else uuidBytes (idx + 1) bytes

def isUuidLike (token : Str) : Bool :=
  let bytes := Utf8.encode token
  if bytes.length ≠ 36 then false else uuidBytes 0 bytes

def isUrlSafeByte (byte : UInt8) : Bool :=
  (48 ≤ byte && byte ≤ 57) || (65 ≤ byte && byte ≤ 90) || (97 ≤ byte && byte ≤ 122) || byte == 45 || byte == 95

def validateRecoveryToken (token : Str) (policy : RecoveryTokenPolicy) : Except AuthRecoveryError Str :=
  if token.trim ≠ token then .error .invalidToken
  else if token.isEmpty then .error .emptyToken
  else if token.any isControl then .error .invalidToken
  else if policy.allowUuid && isUuidLike token then .ok token
  else if policy.allowUrlSafe && token.len == policy.urlSafeLen && (Utf8.encode token).all isUrlSafeByte then .ok token
  else .error .invalidToken

def plausibleRecoveryToken (token : Str) (policy : RecoveryTokenPolicy) : Bool :=
  (validateRecoveryToken token policy).isOk

/-! ## Shapes -/

theorem isUrlSafeByte_iff {byte : UInt8} : isUrlSafeByte byte = true ↔
    ((65 ≤ byte.toNat ∧ byte.toNat ≤ 90) ∨ (97 ≤ byte.toNat ∧ byte.toNat ≤ 122)) ∨
      (48 ≤ byte.toNat ∧ byte.toNat ≤ 57) ∨ byte.toNat = 45 ∨ byte.toNat = 95 := by
  simp only [isUrlSafeByte, Bool.or_eq_true, Bool.and_eq_true, decide_eq_true_eq, beq_iff_eq, UInt8.le_iff_toNat_le,
    ← UInt8.toNat_inj, UInt8.toNat_ofNat]
  omega

theorem isUrlSafe_iff {c : Char} : isUrlSafe c = true ↔
    ((65 ≤ c.toNat ∧ c.toNat ≤ 90) ∨ (97 ≤ c.toNat ∧ c.toNat ≤ 122)) ∨
      (48 ≤ c.toNat ∧ c.toNat ≤ 57) ∨ c.toNat = 45 ∨ c.toNat = 95 := by
  rw [isUrlSafe, Bool.or_eq_true, Bool.or_eq_true, isAlphanum_iff, beq_iff_eq, beq_iff_eq, char_eq_iff, char_eq_iff,
    show '-'.toNat = 45 from rfl, show '_'.toNat = 95 from rfl]
  omega

theorem isHexByte_iff {byte : UInt8} : isHexByte byte = true ↔
    ((48 ≤ byte.toNat ∧ byte.toNat ≤ 57) ∨ (97 ≤ byte.toNat ∧ byte.toNat ≤ 102)) ∨
      (65 ≤ byte.toNat ∧ byte.toNat ≤ 70) := by
  simp only [isHexByte, Bool.or_eq_true, Bool.and_eq_true, decide_eq_true_eq, UInt8.le_iff_toNat_le, UInt8.toNat_ofNat]

theorem isAsciiHexdigit_iff {c : Char} : isAsciiHexdigit c = true ↔
    ((48 ≤ c.toNat ∧ c.toNat ≤ 57) ∨ (97 ≤ c.toNat ∧ c.toNat ≤ 102)) ∨ (65 ≤ c.toNat ∧ c.toNat ≤ 70) := by
  rw [isAsciiHexdigit, Bool.or_eq_true, Bool.or_eq_true, isDigit_iff, Bool.and_eq_true, Bool.and_eq_true,
    decide_eq_true_eq, decide_eq_true_eq, decide_eq_true_eq, decide_eq_true_eq, char_le_iff, char_le_iff, char_le_iff,
    char_le_iff]
  exact Iff.rfl

theorem all_urlSafe (s : Str) : (Utf8.encode s).all isUrlSafeByte = s.all isUrlSafe := by
  apply all_encode
  · intro byte h
    rw [isUrlSafeByte_iff] at h
    omega
  · intro c h
    rw [isUrlSafe_iff] at h
    omega
  · intro c hc
    rw [Bool.eq_iff_iff, isUrlSafeByte_iff, isUrlSafe_iff, toNat_asciiByte hc]

theorem all_hex (s : Str) : (Utf8.encode s).all isHexByte = s.all isAsciiHexdigit := by
  apply all_encode
  · intro byte h
    rw [isHexByte_iff] at h
    omega
  · intro c h
    rw [isAsciiHexdigit_iff] at h
    omega
  · intro c hc
    rw [Bool.eq_iff_iff, isHexByte_iff, isAsciiHexdigit_iff, toNat_asciiByte hc]

/-! ## UUIDs -/

/-- A run of bytes with no dash due in it. -/
theorem uuidBytes_append {l : Bytes} (m : Bytes) : ∀ {idx : Nat},
    (∀ i, idx ≤ i → i < idx + l.length → i ≠ 8 ∧ i ≠ 13 ∧ i ≠ 18 ∧ i ≠ 23) →
      uuidBytes idx (l ++ m) = (l.all isHexByte && uuidBytes (idx + l.length) m) := by
  induction l with
  | nil => intro idx _; rfl
  | cons byte l ih =>
    intro idx h
    have hhere := h idx (le_refl _) (by simp)
    have hrest : uuidBytes (idx + 1) (l ++ m) = (l.all isHexByte && uuidBytes (idx + 1 + l.length) m) :=
      ih fun i hi hlt => h i (by omega) (by rw [List.length_cons]; omega)
    rw [List.cons_append, uuidBytes, if_neg (by omega), hrest, List.all_cons, List.length_cons,
      show idx + 1 + l.length = idx + (l.length + 1) by omega]
    cases isHexByte byte <;> simp

/-- A place where a dash is due. -/
theorem uuidBytes_dash {idx : Nat} (h : idx = 8 ∨ idx = 13 ∨ idx = 18 ∨ idx = 23) (byte : UInt8) (m : Bytes) :
    uuidBytes idx (byte :: m) = (byte == 45 && uuidBytes (idx + 1) m) := by
  rw [uuidBytes, if_pos h]
  by_cases hb : byte = 45 <;> simp [hb]

/-- The bytes that are let through. -/
theorem uuidBytes_eq {a b c d e : Bytes} {w x y z : UInt8} (ha : a.length = 8) (hb : b.length = 4) (hc : c.length = 4)
    (hd : d.length = 4) (he : e.length = 12) :
    uuidBytes 0 (a ++ w :: (b ++ x :: (c ++ y :: (d ++ z :: e)))) = true ↔
      (∀ group ∈ [a, b, c, d, e], group.all isHexByte = true) ∧ w = 45 ∧ x = 45 ∧ y = 45 ∧ z = 45 := by
  rw [uuidBytes_append _ (by omega), ha, uuidBytes_dash (by omega), uuidBytes_append _ (by omega), hb,
    uuidBytes_dash (by omega), uuidBytes_append _ (by omega), hc, uuidBytes_dash (by omega),
    uuidBytes_append _ (by omega), hd, uuidBytes_dash (by omega), ← List.append_nil e, uuidBytes_append _ (by omega)]
  simp only [List.append_nil, uuidBytes, Bool.and_true, Bool.and_eq_true, beq_iff_eq, List.forall_mem_cons,
    List.not_mem_nil, false_implies, implies_true, and_true]
  tauto

theorem exists_split_at {α : Type} {n : Nat} {l : List α} (h : n < l.length) :
    ∃ a x b, l = a ++ x :: b ∧ a.length = n :=
  ⟨l.take n, l[n], l.drop (n + 1), by rw [List.getElem_cons_drop, List.take_append_drop], by
    rw [List.length_take]; omega⟩

/-- A text of five groups of hexadecimal digits, as UUIDs are written. -/
def UuidShape (token : Str) : Prop :=
  (token.split '-').map List.length = [8, 4, 4, 4, 12] ∧ ∀ group ∈ token.split '-', group.all isAsciiHexdigit = true

theorem not_dash_of_hex {group : Str} (h : group.all isAsciiHexdigit = true) : '-' ∉ group := fun hmem =>
  absurd (List.all_eq_true.1 h '-' hmem) (by decide)

/-- The five groups of a UUID. -/
theorem uuidShape_iff {token : Str} : UuidShape token ↔ ∃ a b c d e : Str,
    token = a ++ '-' :: (b ++ '-' :: (c ++ '-' :: (d ++ '-' :: e))) ∧
      (a.length = 8 ∧ b.length = 4 ∧ c.length = 4 ∧ d.length = 4 ∧ e.length = 12) ∧
      ∀ group ∈ [a, b, c, d, e], group.all isAsciiHexdigit = true := by
  constructor
  · rintro ⟨hlen, hhex⟩
    have hjoin : ['-'].intercalate (token.split '-') = token := List.intercalate_splitOn '-'
    generalize token.split '-' = groups at hlen hhex hjoin
    obtain ⟨a, groups, rfl, ha, hlen⟩ := List.map_eq_cons_iff.1 hlen
    obtain ⟨b, groups, rfl, hb, hlen⟩ := List.map_eq_cons_iff.1 hlen
    obtain ⟨c, groups, rfl, hc, hlen⟩ := List.map_eq_cons_iff.1 hlen
    obtain ⟨d, groups, rfl, hd, hlen⟩ := List.map_eq_cons_iff.1 hlen
    obtain ⟨e, groups, rfl, he, hlen⟩ := List.map_eq_cons_iff.1 hlen
    obtain rfl := List.map_eq_nil_iff.1 hlen
    refine ⟨a, b, c, d, e, ?_, ⟨ha, hb, hc, hd, he⟩, hhex⟩
    rw [← hjoin, Str.intercalate_cons_eq]
    simp
  · rintro ⟨a, b, c, d, e, rfl, ⟨ha, hb, hc, hd, he⟩, hhex⟩
    have hsplit : Str.split (a ++ '-' :: (b ++ '-' :: (c ++ '-' :: (d ++ '-' :: e)))) '-' = [a, b, c, d, e] := by
      simp only [List.forall_mem_cons] at hhex
      obtain ⟨hha, hhb, hhc, hhd, hhe, -⟩ := hhex
      rw [Str.split_append_cons, Str.split_append_cons, Str.split_append_cons, Str.split_append_cons]
      simp only [Str.split, List.splitOn_eq_singleton (not_dash_of_hex hha),
        List.splitOn_eq_singleton (not_dash_of_hex hhb),
        List.splitOn_eq_singleton (not_dash_of_hex hhc), List.splitOn_eq_singleton (not_dash_of_hex hhd),
        List.splitOn_eq_singleton (not_dash_of_hex hhe)]
      rfl
    rw [UuidShape, hsplit]
    simp only [List.map_cons, List.map_nil, ha, hb, hc, hd, he]
    exact ⟨trivial, hhex⟩

theorem asciiByte_eq_dash {c : Char} (hc : c.toNat < 128) : asciiByte c = 45 ↔ c = '-' := by
  rw [← UInt8.toNat_inj, toNat_asciiByte hc, char_eq_iff]
  rfl

theorem all_map_asciiByte {s : Str} (h : ∀ c ∈ s, c.toNat < 128) :
    (s.map asciiByte).all isHexByte = s.all isAsciiHexdigit := by
  rw [← encode_ascii h, all_hex]

theorem ascii_of_hex {group : Str} (h : group.all isAsciiHexdigit = true) : ∀ c ∈ group, c.toNat < 128 := by
  intro c hc
  have hrange := isAsciiHexdigit_iff.1 (List.all_eq_true.1 h c hc)
  omega

/-- What stands in five groups with a separator between them. -/
theorem mem_groups {α : Type} {sep x : α} {a b c d e : List α} :
    x ∈ a ++ sep :: (b ++ sep :: (c ++ sep :: (d ++ sep :: e))) ↔ (∃ group ∈ [a, b, c, d, e], x ∈ group) ∨ x = sep := by
  simp only [List.mem_append, List.mem_cons, List.not_mem_nil, or_false, exists_eq_or_imp, exists_eq_left]
  tauto

/-- Groups of hexadecimal digits by their bytes. -/
theorem hexGroups_map_asciiByte {groups : List Str} (h : ∀ group ∈ groups, ∀ c ∈ group, c.toNat < 128) :
    (∀ group ∈ groups.map (List.map asciiByte), group.all isHexByte = true) ↔
      ∀ group ∈ groups, group.all isAsciiHexdigit = true := by
  rw [List.forall_mem_map]
  refine forall₂_congr fun group hgroup => ?_
  rw [all_map_asciiByte (h group hgroup)]

theorem uuidShape_of_isUuidLike {token : Str} (h : isUuidLike token = true) : UuidShape token := by
  rw [uuidShape_iff]
  unfold isUuidLike at h
  simp only at h
  split at h
  · cases h
  · next hlen =>
    rw [not_not] at hlen
    generalize hbytes : Utf8.encode token = bytes at h hlen
    obtain ⟨a, w, rest, rfl, ha⟩ := exists_split_at (n := 8) (l := bytes) (by omega)
    rw [List.length_append, List.length_cons, ha] at hlen
    obtain ⟨b, x, rest, rfl, hb⟩ := exists_split_at (n := 4) (l := rest) (by omega)
    rw [List.length_append, List.length_cons, hb] at hlen
    obtain ⟨c, y, rest, rfl, hc⟩ := exists_split_at (n := 4) (l := rest) (by omega)
    rw [List.length_append, List.length_cons, hc] at hlen
    obtain ⟨d, z, e, rfl, hd⟩ := exists_split_at (n := 4) (l := rest) (by omega)
    rw [List.length_append, List.length_cons, hd] at hlen
    have he : e.length = 12 := by omega
    obtain ⟨hhex, rfl, rfl, rfl, rfl⟩ := (uuidBytes_eq ha hb hc hd he).1 h
    -- no byte has its high bit, so the characters are the bytes
    have hascii : ∀ c ∈ token, c.toNat < 128 := by
      refine ascii_of_encode fun byte hbyte => ?_
      rw [hbytes] at hbyte
      rcases mem_groups.1 hbyte with ⟨group, hgroup, hmem⟩ | rfl
      · have hrange := isHexByte_iff.1 (List.all_eq_true.1 (hhex group hgroup) byte hmem)
        omega
      · decide
    rw [encode_ascii hascii] at hbytes
    obtain ⟨a', t₁, rfl, rfl, h₁⟩ := List.map_eq_append_iff.1 hbytes
    obtain ⟨w, t₂, rfl, hw, h₂⟩ := List.map_eq_cons_iff.1 h₁
    obtain ⟨b', t₃, rfl, rfl, h₃⟩ := List.map_eq_append_iff.1 h₂
    obtain ⟨x, t₄, rfl, hx, h₄⟩ := List.map_eq_cons_iff.1 h₃
    obtain ⟨c', t₅, rfl, rfl, h₅⟩ := List.map_eq_append_iff.1 h₄
    obtain ⟨y, t₆, rfl, hy, h₆⟩ := List.map_eq_cons_iff.1 h₅
    obtain ⟨d', t₇, rfl, rfl, h₇⟩ := List.map_eq_append_iff.1 h₆
    obtain ⟨z, e', rfl, hz, rfl⟩ := List.map_eq_cons_iff.1 h₇
    rw [asciiByte_eq_dash (hascii _ (by simp))] at hw hx hy hz
    subst hw hx hy hz
    simp only [List.length_map] at ha hb hc hd he
    have hgroups : ∀ group ∈ [a', b', c', d', e'], ∀ c ∈ group, c.toNat < 128 := fun group hgroup c hc =>
      hascii c (mem_groups.2 (Or.inl ⟨group, hgroup, hc⟩))
    exact ⟨a', b', c', d', e', rfl, ⟨ha, hb, hc, hd, he⟩, (hexGroups_map_asciiByte hgroups).1 hhex⟩

theorem isUuidLike_of_uuidShape {token : Str} (h : UuidShape token) : isUuidLike token = true := by
  obtain ⟨a, b, c, d, e, rfl, ⟨ha, hb, hc, hd, he⟩, hhex⟩ := uuidShape_iff.1 h
  have hgroups : ∀ group ∈ [a, b, c, d, e], ∀ x ∈ group, x.toNat < 128 :=
    fun group hgroup => ascii_of_hex (hhex group hgroup)
  have hascii : ∀ x ∈ a ++ '-' :: (b ++ '-' :: (c ++ '-' :: (d ++ '-' :: e))), x.toNat < 128 := by
    intro x hx
    rcases mem_groups.1 hx with ⟨group, hgroup, hmem⟩ | rfl
    · exact hgroups group hgroup x hmem
    · decide
  unfold isUuidLike
  rw [encode_ascii hascii]
  simp only [List.map_append, List.map_cons, List.length_append, List.length_cons, List.length_map, ha, hb, hc, hd, he]
  rw [if_neg (by decide)]
  refine (uuidBytes_eq (by rwa [List.length_map]) (by rwa [List.length_map]) (by rwa [List.length_map])
    (by rwa [List.length_map]) (by rwa [List.length_map])).2 ⟨?_, rfl, rfl, rfl, rfl⟩
  exact (hexGroups_map_asciiByte hgroups).2 hhex

theorem isUuidLike_iff {token : Str} : isUuidLike token = true ↔ UuidShape token :=
  ⟨uuidShape_of_isUuidLike, isUuidLike_of_uuidShape⟩

/-! ## The check -/

theorem UuidShape.plain {token : Str} (h : UuidShape token) : ∀ c ∈ token, c = '-' ∨ c.isAlphanum = true := by
  obtain ⟨a, b, c, d, e, rfl, -, hhex⟩ := uuidShape_iff.1 h
  have hgroup {group : Str} (hmem : group ∈ [a, b, c, d, e]) : ∀ x ∈ group, x.isAlphanum = true := fun x hx =>
    isAlphanum_of_isAsciiHexdigit (List.all_eq_true.1 (hhex group hmem) x hx)
  intro x hx
  simp only [List.mem_append, List.mem_cons] at hx
  rcases hx with hx | rfl | hx | rfl | hx | rfl | hx | rfl | hx
  · exact .inr (hgroup (by simp) x hx)
  · exact .inl rfl
  · exact .inr (hgroup (by simp) x hx)
  · exact .inl rfl
  · exact .inr (hgroup (by simp) x hx)
  · exact .inl rfl
  · exact .inr (hgroup (by simp) x hx)
  · exact .inl rfl
  · exact .inr (hgroup (by simp) x hx)

theorem urlSafe_of_alphanum {c : Char} (h : c = '-' ∨ c.isAlphanum = true) : isUrlSafe c = true := by
  rcases h with rfl | h
  · rfl
  · rw [isUrlSafe, h]
    rfl

theorem visible_of_urlSafe {c : Char} (h : isUrlSafe c = true) : isWhitespace c = false ∧ isControl c = false := by
  simp only [isUrlSafe, Bool.or_eq_true, beq_iff_eq] at h
  rcases h with (h | rfl) | rfl
  · refine ⟨isWhitespace_of_isAlphanum h, ?_⟩
    rw [isAlphanum_iff] at h
    simp only [isControl, Bool.or_eq_false_iff, Bool.and_eq_false_iff, decide_eq_false_iff_not]
    omega
  · exact ⟨rfl, rfl⟩
  · exact ⟨rfl, rfl⟩

theorem len_of_urlSafe {s : Str} (h : s.all isUrlSafe = true) : s.len = s.length := by
  have hascii : ∀ c ∈ s, c.toNat < 128 := by
    intro c hc
    have hrange := isUrlSafe_iff.1 (List.all_eq_true.1 h c hc)
    omega
  rw [← Utf8.length_encode, encode_ascii hascii, List.length_map]

/-- A UUID where the policy allows one, or a URL-safe text of the policy's length. -/
def Plausible (policy : RecoveryTokenPolicy) (token : Str) : Prop :=
  (policy.allowUuid = true ∧ UuidShape token) ∨
    (policy.allowUrlSafe = true ∧ token.length = policy.urlSafeLen ∧ token.all isUrlSafe = true)

theorem Plausible.urlSafe {policy : RecoveryTokenPolicy} {token : Str} (h : Plausible policy token) :
    token.all isUrlSafe = true := by
  rcases h with ⟨-, hshape⟩ | ⟨-, -, hall⟩
  · exact List.all_eq_true.2 fun c hc => urlSafe_of_alphanum (hshape.plain c hc)
  · exact hall

/-- The two tests of the check, together. -/
theorem plausible_iff {policy : RecoveryTokenPolicy} {token : Str} : Plausible policy token ↔
    (policy.allowUuid && isUuidLike token) = true ∨
      (policy.allowUrlSafe && token.len == policy.urlSafeLen && (Utf8.encode token).all isUrlSafeByte) = true := by
  rw [Plausible, Bool.and_eq_true, Bool.and_eq_true, Bool.and_eq_true, isUuidLike_iff, all_urlSafe, beq_iff_eq]
  refine or_congr_right ⟨?_, ?_⟩
  · rintro ⟨hallow, hlen, hall⟩
    exact ⟨⟨hallow, (len_of_urlSafe hall).trans hlen⟩, hall⟩
  · rintro ⟨⟨hallow, hlen⟩, hall⟩
    exact ⟨hallow, (len_of_urlSafe hall).symm.trans hlen, hall⟩

/-- Texts with white space or a control character are refused by the tests as well. -/
theorem validateRecoveryToken_eq {token : Str} (hne : token ≠ []) (policy : RecoveryTokenPolicy) :
    (Plausible policy token ∧ validateRecoveryToken token policy = .ok token) ∨
      (¬ Plausible policy token ∧ validateRecoveryToken token policy = .error .invalidToken) := by
  unfold validateRecoveryToken
  by_cases h : Plausible policy token
  · have hvisible (c : Char) (hc : c ∈ token) : isWhitespace c = false ∧ isControl c = false :=
      visible_of_urlSafe (List.all_eq_true.1 h.urlSafe c hc)
    have htrim : token.trim = token := Str.trim_eq_self fun c hc => (hvisible c hc).1
    have hctl : ¬ token.any isControl = true := by
      rw [List.any_eq_true]
      rintro ⟨c, hc, hcc⟩
      rw [(hvisible c hc).2] at hcc
      cases hcc
    left
    rw [if_neg (not_not.2 htrim), if_neg fun hempty => hne (List.isEmpty_iff.1 hempty), if_neg hctl]
    refine ⟨h, ?_⟩
    split
    · rfl
    · rename_i huuid
      rw [if_pos ((plausible_iff.1 h).resolve_left huuid)]
  · right
    refine ⟨h, ?_⟩
    rw [plausible_iff, not_or] at h
    rw [if_neg h.1, if_neg h.2, ite_self, if_neg fun hempty => hne (List.isEmpty_iff.1 hempty), ite_self]

/-- The tokens that are accepted, as they stand, and what is said of the others. -/
theorem recovery_token_shapes (token : Str) (policy : RecoveryTokenPolicy) :
    (∀ t, validateRecoveryToken token policy = .ok t ↔ t = token ∧ token ≠ [] ∧ Plausible policy token) ∧
    (validateRecoveryToken token policy = .error .emptyToken ↔ token = []) ∧
    (validateRecoveryToken token policy = .error .invalidToken ↔ token ≠ [] ∧ ¬ Plausible policy token) ∧
    (isUuidLike token = true ↔ UuidShape token) := by
  by_cases hne : token = []
  · subst hne
    have hempty : validateRecoveryToken [] policy = .error .emptyToken := rfl
    rw [hempty]
    exact ⟨by simp, by simp, by simp, isUuidLike_iff⟩
  · rcases validateRecoveryToken_eq hne policy with ⟨h, heq⟩ | ⟨h, heq⟩
    · rw [heq]
      exact ⟨fun t => by simp [hne, h, eq_comm], by simp [hne], by simp [h], isUuidLike_iff⟩
    · rw [heq]
      exact ⟨fun t => by simp [h], by simp [hne], by simp [hne, h], isUuidLike_iff⟩

/-! ## Minted tokens -/

section

variable {encode : Bytes → Str} (hencode : UrlSafeNoPad encode)
include hencode

theorem length_mintRecoveryToken (bytes : Vector UInt8 32) : (mintRecoveryToken encode bytes).length = 43 := by
  rw [mintRecoveryToken, hencode.length, Vector.length_toList]

theorem mintRecoveryToken_urlSafe (bytes : Vector UInt8 32) : (mintRecoveryToken encode bytes).all isUrlSafe = true :=
  List.all_eq_true.2 hencode.urlSafe

theorem mintRecoveryToken_safe (bytes : Vector UInt8 32) :
    Auth.unsafeToken (mintRecoveryToken encode bytes) = false := by
  have hall := List.all_eq_true.1 (mintRecoveryToken_urlSafe hencode bytes)
  have hascii : ∀ c ∈ mintRecoveryToken encode bytes, c.toNat < 128 := by
    intro c hc
    have hrange := isUrlSafe_iff.1 (hall c hc)
    omega
  rw [Auth.unsafeToken, Bool.or_eq_false_iff]
  constructor
  · rw [List.any_eq_false]
    intro c hc
    rw [(visible_of_urlSafe (hall c hc)).1, (visible_of_urlSafe (hall c hc)).2]
    exact Bool.false_ne_true
  · rw [Bool.not_eq_false', encode_ascii hascii, List.all_map, List.all_eq_true]
    intro c hc
    have hrange := isUrlSafe_iff.1 (hall c hc)
    simp only [Function.comp_apply, Auth.isBearerTokenByte, Bool.or_eq_true, Bool.and_eq_true, decide_eq_true_eq,
      beq_iff_eq, UInt8.le_iff_toNat_le, ← UInt8.toNat_inj, UInt8.toNat_ofNat, toNat_asciiByte (hascii c hc)]
    omega

theorem mintRecoveryToken_trim (bytes : Vector UInt8 32) : (mintRecoveryToken encode bytes).trim =
    mintRecoveryToken encode bytes :=
  Str.trim_eq_self (Auth.not_whitespace_of_safe (mintRecoveryToken_safe hencode bytes))

theorem mintRecoveryToken_ne_nil (bytes : Vector UInt8 32) : mintRecoveryToken encode bytes ≠ [] :=
  List.ne_nil_of_length_pos (by rw [length_mintRecoveryToken hencode]; omega)

theorem validateToken_mint (bytes : Vector UInt8 32) :
    Refresh.validateToken (mintRecoveryToken encode bytes) = .ok (mintRecoveryToken encode bytes) := by
  have hall := List.all_eq_true.1 (mintRecoveryToken_urlSafe hencode bytes)
  have hempty : (mintRecoveryToken encode bytes).isEmpty = false :=
    List.isEmpty_eq_false_iff.2 (mintRecoveryToken_ne_nil hencode bytes)
  have hlen : (mintRecoveryToken encode bytes).len = 43 :=
    (len_of_urlSafe (mintRecoveryToken_urlSafe hencode bytes)).trans (length_mintRecoveryToken hencode bytes)
  have hsafe : (mintRecoveryToken encode bytes).any Refresh.unsafeChar = false := by
    rw [List.any_eq_false]
    intro c hc
    rw [Refresh.unsafeChar, (visible_of_urlSafe (hall c hc)).1, (visible_of_urlSafe (hall c hc)).2]
    exact Bool.false_ne_true
  have hurl : (mintRecoveryToken encode bytes).all Refresh.urlSafe = true := mintRecoveryToken_urlSafe hencode bytes
  rw [Refresh.validateToken, hempty, hlen, hsafe, hurl]
  rfl

/-- A minted token is too long for a UUID. -/
theorem not_uuidShape_mint (bytes : Vector UInt8 32) : ¬ UuidShape (mintRecoveryToken encode bytes) := by
  intro h
  have hlen := length_mintRecoveryToken hencode bytes
  obtain ⟨a, b, c, d, e, htoken, ⟨ha, hb, hc, hd, he⟩, -⟩ := uuidShape_iff.1 h
  rw [htoken] at hlen
  simp only [List.length_append, List.length_cons] at hlen
  omega

theorem plausible_mint (bytes : Vector UInt8 32) (policy : RecoveryTokenPolicy) :
    plausibleRecoveryToken (mintRecoveryToken encode bytes) policy = true ↔
      policy.allowUrlSafe = true ∧ policy.urlSafeLen = 43 := by
  have hplausible : Plausible policy (mintRecoveryToken encode bytes) ↔
      policy.allowUrlSafe = true ∧ policy.urlSafeLen = 43 := by
    rw [Plausible, length_mintRecoveryToken hencode]
    constructor
    · rintro (⟨-, h⟩ | ⟨hallow, hlen, -⟩)
      · exact absurd h (not_uuidShape_mint hencode bytes)
      · exact ⟨hallow, hlen.symm⟩
    · rintro ⟨hallow, hlen⟩
      exact .inr ⟨hallow, hlen.symm, mintRecoveryToken_urlSafe hencode bytes⟩
  rw [← hplausible, plausibleRecoveryToken]
  rcases validateRecoveryToken_eq (mintRecoveryToken_ne_nil hencode bytes) policy with ⟨h, heq⟩ | ⟨h, heq⟩
  · rw [heq]
    exact ⟨fun _ => h, fun _ => rfl⟩
  · rw [heq]
    exact ⟨nofun, fun h' => absurd h' h⟩

theorem hashRefreshToken_mint {hexEncode : Bytes → Str} (hhex : HexEncodes hexEncode) (sha256 : Bytes → Bytes)
    (bytes : Vector UInt8 32) :
    Refresh.hashRefreshToken sha256 (mintRecoveryToken encode bytes) =
      .ok (hashRecoveryTokenSha256 sha256 hexEncode (mintRecoveryToken encode bytes)) := by
  rw [Refresh.hashRefreshToken, validateToken_mint hencode bytes, hashRecoveryTokenSha256, hhex.eq_lowerHex]
  rfl

theorem parseBearer_mint (bytes : Vector UInt8 32) :
    Auth.parseBearerAuthorization (some (Auth.bearerPrefix ++ mintRecoveryToken encode bytes)) =
      .ok ⟨mintRecoveryToken encode bytes⟩ := by
  rw [Auth.parseBearerAuthorization_bearer (mintRecoveryToken_trim hencode bytes)
      (mintRecoveryToken_ne_nil hencode bytes),
    mintRecoveryToken_safe hencode bytes]
  rfl

theorem validWsToken_mint (bytes : Vector UInt8 32) : Ws.validWsToken (mintRecoveryToken encode bytes) = true := by
  have hsafe := mintRecoveryToken_safe hencode bytes
  have hctl : ¬ (mintRecoveryToken encode bytes).any isControl = true := fun h => by
    rw [Auth.unsafe_of_control h] at hsafe
    cases hsafe
  have hspace : ¬ (mintRecoveryToken encode bytes).any isWhitespace = true := by
    rw [List.any_eq_true]
    rintro ⟨c, hc, hcc⟩
    rw [Auth.not_whitespace_of_safe hsafe c hc] at hcc
    cases hcc
  refine Ws.validWsToken_iff.2 ⟨mintRecoveryToken_ne_nil hencode bytes, mintRecoveryToken_trim hencode bytes,
    Bool.eq_false_iff.2 hctl, ⟨mintRecoveryToken encode bytes⟩, ?_⟩
  rw [if_neg hspace]
  exact parseBearer_mint hencode bytes

end

/-- Whatever encoders write base64 and digits: minted tokens are told apart, are accepted by every check
they meet, and have one digest in both crates. -/
theorem minted_tokens (encode hexEncode : Bytes → Str) (hencode : UrlSafeNoPad encode) (hhex : HexEncodes hexEncode)
    (sha256 : Bytes → Bytes) (bytes : Vector UInt8 32) (policy : RecoveryTokenPolicy) :
    (∀ other, mintRecoveryToken encode bytes = mintRecoveryToken encode other → bytes = other) ∧
    (plausibleRecoveryToken (mintRecoveryToken encode bytes) policy = true ↔
      policy.allowUrlSafe = true ∧ policy.urlSafeLen = 43) ∧
    Refresh.validateToken (Refresh.mintRefreshToken encode bytes) = .ok (mintRecoveryToken encode bytes) ∧
    Refresh.hashRefreshToken sha256 (Refresh.mintRefreshToken encode bytes) =
      .ok (hashRecoveryTokenSha256 sha256 hexEncode (mintRecoveryToken encode bytes)) ∧
    Auth.parseBearerAuthorization (some (Auth.bearerPrefix ++ Refresh.mintRefreshToken encode bytes)) =
      .ok ⟨Refresh.mintRefreshToken encode bytes⟩ ∧
    Ws.validWsToken (Refresh.mintRefreshToken encode bytes) = true :=
  ⟨fun _ h => Vector.toList_inj.1 (hencode.injective h), plausible_mint hencode bytes policy,
    validateToken_mint hencode bytes, hashRefreshToken_mint hencode hhex sha256 bytes, parseBearer_mint hencode bytes,
    validWsToken_mint hencode bytes⟩

/-- The token of bytes that are all zero is forty-three times the first letter, and is plausible. -/
theorem minted_tokens_zero :
    mintRecoveryToken urlSafeNoPad (Vector.replicate 32 0) = List.replicate 43 'A' ∧
      plausibleRecoveryToken (mintRecoveryToken urlSafeNoPad (Vector.replicate 32 0)) RecoveryTokenPolicy.default =
        true :=
  ⟨by decide, (minted_tokens urlSafeNoPad lowerHex urlSafeNoPad_format lowerHex_encodes id (Vector.replicate 32 0)
    RecoveryTokenPolicy.default).2.1.2 ⟨rfl, rfl⟩⟩

end WorldInfra.Recovery
