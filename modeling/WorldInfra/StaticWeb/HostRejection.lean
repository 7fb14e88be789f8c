/-
The production host policy on URLs whose host spells an IPv4 address: whatever stands around the
host, it is refused unless it is the dotted quad of an address outside the reserved blocks.
-/
import WorldInfra.StaticWeb.Ipv4Spelling

namespace WorldInfra.StaticWeb

open WorldInfra.Rust WorldInfra.Rust.Net

/-! ## Reserved blocks -/

def ipv4 (w x y z : Nat) : Nat := ((w * 256 + x) * 256 + y) * 256 + z

/-- Networks with the lengths of their prefixes: loopback, private, link-local, unspecified, shared and
documentation addresses. -/
def reservedBlocks : List (Nat × Nat) := [
  (ipv4 127 0 0 0, 8), (ipv4 10 0 0 0, 8), (ipv4 172 16 0 0, 12), (ipv4 192 168 0 0, 16), (ipv4 169 254 0 0, 16),
  (ipv4 0 0 0 0, 32), (ipv4 100 64 0 0, 10), (ipv4 192 0 2 0, 24), (ipv4 198 51 100 0, 24), (ipv4 203 0 113 0, 24)]

/-- An address that shares its first bits with the network of a reserved block. -/
def Reserved (a : BitVec 32) : Prop :=
  ∃ block ∈ reservedBlocks, a.toNat / 2 ^ (32 - block.2) = block.1 / 2 ^ (32 - block.2)

theorem shared_bits : ∀ x < 256, 64 ≤ x → x < 128 → x &&& 0b11000000 = 0b01000000 := by
  decide +kernel

theorem rejected_of_reserved {a : BitVec 32} (h : Reserved a) :
    isDocumentationIpv4 a = true ∨ isPrivateLikeIpv4 a = true := by
  obtain ⟨block, hblock, heq⟩ := h
  have hlt := a.isLt
  have h0 : octet a 0 = a.toNat / 2 ^ 24 := by unfold octet; norm_num; omega
  have h1 : octet a 1 = a.toNat / 2 ^ 16 % 256 := rfl
  have h2 : octet a 2 = a.toNat / 2 ^ 8 % 256 := rfl
  simp only [isDocumentationIpv4, isPrivateLikeIpv4, isPrivate, Bool.or_eq_true, Bool.and_eq_true, beq_iff_eq,
    decide_eq_true_eq]
  simp only [reservedBlocks, List.mem_cons, List.not_mem_nil, or_false] at hblock
  have hshared : a.toNat / 2 ^ 22 = 401 → octet a 1 &&& 0b11000000 = 0b01000000 := by
    intro hbits
    apply shared_bits
    · exact octet_lt a 1
    · omega
    · omega
  have hzero : a.toNat = 0 → a = 0 := fun hz => BitVec.eq_of_toNat_eq hz
  -- the blocks in the order of the list, each with the test of the source that covers it
  rcases hblock with rfl | rfl | rfl | rfl | rfl | rfl | rfl | rfl | rfl | rfl
  · right; left; left; left; left
    exact h0.trans heq
  · right; left; left; left; right; left; left
    exact h0.trans heq
  · right; left; left; left; right; left; right
    have hbits : a.toNat / 2 ^ 20 = 2753 := heq
    omega
  · right; left; left; left; right; right
    have hbits : a.toNat / 2 ^ 16 = 49320 := heq
    omega
  · right; left; left; right
    have hbits : a.toNat / 2 ^ 16 = 43518 := heq
    omega
  · right; left; right
    have hbits : a.toNat / 2 ^ 0 = 0 := heq
    exact hzero (by omega)
  · right; right
    have hbits : a.toNat / 2 ^ 22 = 401 := heq
    exact ⟨by omega, hshared hbits⟩
  · left; left; left
    have hbits : a.toNat / 2 ^ 8 = 12582914 := heq
    omega
  · left; left; right
    have hbits : a.toNat / 2 ^ 8 = 12989284 := heq
    omega
  · left; right
    have hbits : a.toNat / 2 ^ 8 = 13303921 := heq
    omega

/-! ## Hosts in URLs -/

/-- What follows a host in a URL ends it. -/
def EndsHost (t : Str) : Prop := ∀ c, t.head? = some c → c = ':' ∨ endsAuthority c = true

/-- A URL with a host, and perhaps a port and a path. -/
def urlText (scheme host : Str) (port path : Option Str) : Str :=
  scheme ++ schemeSeparator ++ host ++
    ((match port with
      | some port => ':' :: port
      | none => []) ++
    match path with
      | some path => '/' :: path
      | none => [])

theorem urlText_eq (scheme host : Str) (port path : Option Str) :
    ∃ tail, EndsHost tail ∧ urlText scheme host port path = scheme ++ schemeSeparator ++ host ++ tail := by
  refine ⟨_, ?_, rfl⟩
  intro c hc
  cases port with
  | some port => exact Or.inl (Option.some.inj hc).symm
  | none =>
    cases path with
    | some path =>
      rw [← Option.some.inj hc]
      exact Or.inr rfl
    | none => cases hc

/-- A URL is refused if the policy refuses its host. -/
theorem validatePublicUrlWithHostPolicy_refused {name value : Str} {kind : PublicUrlKind} {env : EnvKind}
    {hostPolicy : HostPolicy} (h : ∀ url host, validatePublicUrlBase name value kind env = .ok url →
      authorityHost url.remainder = some host → ∃ e, validateHostPolicy name host hostPolicy = .error e) :
    ∃ e, validatePublicUrlWithHostPolicy name value kind env hostPolicy = .error e := by
  unfold validatePublicUrlWithHostPolicy
  cases hbase : validatePublicUrlBase name value kind env with
  | error e => exact ⟨_, rfl⟩
  | ok url =>
    simp only [Except.mapError, bind, Except.bind]
    cases hhost : authorityHost url.remainder with
    | none => exact ⟨_, rfl⟩
    | some host =>
      obtain ⟨e, he⟩ := h url host hbase hhost
      simp only [he]
      exact ⟨e, rfl⟩

section

variable {s : Str} {a : BitVec 32}

theorem host_char {c : Char} (h : c = '.' ∨ c.isAlphanum = true) :
    c ≠ ':' ∧ c ≠ '[' ∧ c ≠ ']' ∧ endsAuthority c = false ∧ isWhitespace c = false := by
  rcases h with rfl | h
  · decide
  · refine ⟨?_, ?_, ?_, ?_, isWhitespace_of_isAlphanum h⟩
    · rintro rfl; cases h
    · rintro rfl; cases h
    · rintro rfl; cases h
    · rw [isAlphanum_iff] at h
      simp only [endsAuthority, Bool.or_eq_false_iff, beq_eq_false_iff_ne, ne_eq, char_eq_iff, Char.reduceToNat]
      omega

theorem authorityHost_append (hne : s ≠ []) (hchars : ∀ c ∈ s, c = '.' ∨ c.isAlphanum = true) {t host : Str}
    (ht : EndsHost t) (h : authorityHost (s ++ t) = some host) : host = s := by
  have hauthority : Str.firstPart endsAuthority (s ++ t) = s ++ t.takeWhile fun c => !endsAuthority c := by
    rw [Str.firstPart_eq_takeWhile, List.takeWhile_append_of_pos]
    intro c hc
    rw [(host_char (hchars c hc)).2.2.2.1]
    rfl
  have hbracket : Str.stripPrefix '[' (s ++ t.takeWhile fun c => !endsAuthority c) = none := by
    cases s with
    | nil => exact absurd rfl hne
    | cons c s => exact if_neg (host_char (hchars c (List.mem_cons_self ..))).2.1
  have hcolon : ':' ∉ s := fun hmem => (host_char (hchars ':' hmem)).1 rfl
  have hsplit : ∃ parts, (s ++ t.takeWhile fun c => !endsAuthority c).split ':' = s :: parts := by
    -- what ends a host is the colon of a port or ends the authority
    cases t with
    | nil => exact ⟨[], by rw [List.takeWhile_nil, List.append_nil]; exact List.splitOn_eq_singleton hcolon⟩
    | cons c t =>
      rw [List.takeWhile_cons]
      split
      · rename_i hc
        have hsep : c = ':' := by
          rcases ht c rfl with rfl | hends
          · rfl
          · rw [hends] at hc
            cases hc
        rw [hsep, Str.split_append_cons, Str.split, List.splitOn_eq_singleton hcolon]
        exact ⟨_, rfl⟩
      · exact ⟨[], by rw [List.append_nil]; exact List.splitOn_eq_singleton hcolon⟩
  obtain ⟨parts, hparts⟩ := hsplit
  unfold authorityHost at h
  simp only [hauthority, hbracket, hparts] at h
  repeat' split at h
  all_goals first
    | cases h; rfl
    | cases h

/-- The remainder behind the scheme begins with the host. -/
theorem validatePublicUrlBase_ok (hne : s ≠ []) (hchars : ∀ c ∈ s, c = '.' ∨ c.isAlphanum = true) {scheme t name : Str}
    (hscheme : ':' ∉ scheme) (ht : EndsHost t) {kind : PublicUrlKind} {env : EnvKind} {url : PublicUrl}
    (h : validatePublicUrlBase name (scheme ++ schemeSeparator ++ s ++ t) kind env = .ok url) :
    ∃ t', EndsHost t' ∧ url.remainder = s ++ t' := by
  -- the last character of the host is visible, so trimming stops at it or after it
  obtain ⟨m, c, rfl⟩ : ∃ m c, s = m ++ [c] := ⟨_, _, (List.dropLast_append_getLast hne).symm⟩
  have hlast : isWhitespace c = false :=
    (host_char (hchars c (List.mem_append_right _ (List.mem_singleton_self c)))).2.2.2.2
  have htrim : (scheme ++ schemeSeparator ++ (m ++ [c]) ++ t).trim =
      scheme.trimStart ++ (schemeSeparator ++ (m ++ [c] ++ t.trimEnd)) := by
    have hshape : scheme ++ schemeSeparator ++ (m ++ [c]) ++ t = scheme ++ ':' :: (("//".toList ++ m) ++ c :: t) := by
      simp [schemeSeparator]
    rw [hshape, Str.trim_around (by decide) hlast]
    simp [schemeSeparator]
  have hsplit : Str.splitOnceText schemeSeparator (scheme.trimStart ++ (schemeSeparator ++ (m ++ [c] ++ t.trimEnd))) =
      some (scheme.trimStart, m ++ [c] ++ t.trimEnd) := by
    have hcolon : ∀ d ∈ scheme.trimStart, d ≠ ':' := by
      rintro d hd rfl
      exact hscheme ((List.dropWhile_suffix _).subset hd)
    have hleft := @Str.splitOnceText_append_left ':' "//".toList _ hcolon (schemeSeparator ++ (m ++ [c] ++ t.trimEnd))
    refine hleft.trans ?_
    rw [show Str.splitOnceText (':' :: "//".toList) (schemeSeparator ++ (m ++ [c] ++ t.trimEnd)) =
      some ([], m ++ [c] ++ t.trimEnd) from rfl, Option.map_some, List.append_nil]
  unfold validatePublicUrlBase at h
  simp only [htrim, hsplit] at h
  split at h
  · cases h
  · split at h
    · cases h
    · split at h
      · cases h
      · cases h
        refine ⟨t.trimEnd, ?_, rfl⟩
        intro d hd
        obtain ⟨rest, hrest⟩ : t.trimEnd <+: t := List.rdropWhile_prefix _ _
        apply ht
        rw [← hrest, List.head?_append, hd]
        rfl

theorem validateHostPolicy_error (h : Spells s a) (hrejected : s ≠ dottedQuad a ∨ Reserved a) (name : Str) :
    ∃ e, validateHostPolicy name s .production = .error e := by
  obtain ⟨-, hchars⟩ := chars_of_spells h
  have htrim : (s.trimMatches fun c => c == '[' || c == ']') = s := by
    apply Str.trimMatches_eq_self
    intro c hc
    obtain ⟨-, hopen, hclose, -⟩ := host_char (hchars c hc)
    rw [Bool.or_eq_false_iff, beq_eq_false_iff_ne, beq_eq_false_iff_ne]
    exact ⟨hopen, hclose⟩
  unfold validateHostPolicy
  simp only [htrim, parse_spelling h, parseNoncanonicalIpv4Literal_lower h]
  by_cases hquad : s = dottedQuad a
  · rw [if_pos hquad]
    have hkind := rejected_of_reserved (hrejected.resolve_left fun hne => hne hquad)
    simp only [HostPolicy.production, Option.isNone_some, Bool.false_eq_true, if_false, Option.isSome_none,
      Bool.and_false,
      Bool.true_and, Option.any_some, isDocumentationIp, isPrivateLikeIp]
    split
    · exact ⟨_, rfl⟩
    · split
      · exact ⟨_, rfl⟩
      · rcases hkind with hdocumentation | hprivate
        · rw [if_pos hdocumentation]
          exact ⟨_, rfl⟩
        · rw [if_pos hprivate]
          split
          · exact ⟨_, rfl⟩
          · exact ⟨_, rfl⟩
  · rw [if_neg hquad]
    exact ⟨_, rfl⟩

end

/-- No spelling of an IPv4 address passes as the host of a URL under the production policy, for any
scheme, port and path, unless it is the dotted quad and the address is in no reserved block; and every
spelling in lower case is read as its address. -/
theorem ipv4Spellings_rejected :
    (∀ (a : BitVec 32) (s : Str), Spells s a → s ≠ dottedQuad a ∨ Reserved a →
      ∀ (name scheme : Str) (port path : Option Str) (kind : PublicUrlKind) (env : EnvKind), ':' ∉ scheme →
        ∃ e, validatePublicUrlWithHostPolicy name (urlText scheme s port path) kind env .production = .error e) ∧
    ∀ (a : BitVec 32) (s : Str), Spells s a → s.toAsciiLowercase = s → parseNoncanonicalIpv4Literal s = some a := by
  constructor
  · intro a s h hrejected name scheme port path kind env hscheme
    obtain ⟨hne, hchars⟩ := chars_of_spells h
    obtain ⟨tail, hends, htext⟩ := urlText_eq scheme s port path
    rw [htext]
    apply validatePublicUrlWithHostPolicy_refused
    intro url host hbase hhost
    obtain ⟨t, ht, hremainder⟩ := validatePublicUrlBase_ok hne hchars hscheme hends hbase
    rw [hremainder] at hhost
    rw [authorityHost_append hne hchars ht hhost]
    exact validateHostPolicy_error h hrejected name
  · intro a s h hlower
    rw [← hlower]
    exact parseNoncanonicalIpv4Literal_lower h

/-- Two spellings of the loopback address that are not its dotted quad. -/
theorem ipv4Spellings_rejected_loopback :
    (∃ e, validatePublicUrlWithHostPolicy "api".toList
      (urlText "https".toList "0X7F.1".toList (some "443".toList) (some "v1".toList)) .http .production .production =
        .error e) ∧
    parseNoncanonicalIpv4Literal "0177.0.0.1".toList = some 0x7f000001 := by
  have hone : SpellsNumber ['1'] 1 := .decimal (by decide) (by decide) (by decide)
  have hzero : SpellsNumber ['0'] 0 := .decimal (by decide) (by decide) (by decide)
  have hhigh : SpellsNumber ['0', 'X', '7', 'F'] 127 := .hexadecimal (Or.inr rfl) (by decide)
  have hhighOctal : SpellsNumber ['0', '1', '7', '7'] 127 := .octal (by decide) (by decide)
  have hhex : Spells "0X7F.1".toList 0x7f000001 :=
    ⟨[['0', 'X', '7', 'F'], ['1']], [127, 1], by decide, .cons hhigh (.cons hone .nil),
      .byte (by decide) (.last (by decide))⟩
  have hoctal : Spells "0177.0.0.1".toList 0x7f000001 :=
    ⟨[['0', '1', '7', '7'], ['0'], ['0'], ['1']], [127, 0, 0, 1], by decide,
      .cons hhighOctal (.cons hzero (.cons hzero (.cons hone .nil))),
      .byte (by decide) (.byte (by decide) (.byte (by decide) (.last (by decide))))⟩
  obtain ⟨hrejected, hread⟩ := ipv4Spellings_rejected
  constructor
  · exact hrejected _ _ hhex (Or.inl (by decide)) _ _ _ _ _ _ (by decide)
  · exact hread _ _ hoctal (by decide)

end WorldInfra.StaticWeb
