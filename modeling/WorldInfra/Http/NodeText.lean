/-
http-primitives: which texts are taken for an address, against the nodes of RFC 7239. An address is
written in one way, with brackets or without and with some text behind it; what is taken for one and what
names one part in a few forms, which are listed.
-/
import WorldInfra.Http.ClientIp
import WorldInfra.Rust.Ipv6Grammar
import WorldInfra.Rust.Numeral

namespace WorldInfra.Http

open WorldInfra.Rust WorldInfra.Rfc

/-! ## How an address is written -/

/-- An address, in brackets or not, and what stands behind it, a colon first. -/
inductive Written : Str → Bool → IpAddr → Str → Prop where
  | v4 (a : BitVec 32) {tail : Str} (htail : tail = [] ∨ ∃ rest, tail = ':' :: rest) :
      Written (dottedQuad a ++ tail) false (.v4 a) tail
  | v6 (a : Ipv6Address) : Written a.text false (.v6 a.address) []
  | bracketed {s : Str} {addr : IpAddr} (h : AddressText s addr) {tail : Str}
      (htail : tail = [] ∨ ∃ rest, tail = ':' :: rest) : Written ('[' :: (s ++ ']' :: tail)) true addr tail

/-- A port number of sixteen bits, in digits. -/
def PortDigits (s : Str) : Prop := (s ≠ [] ∧ ∀ c ∈ s, c.isDigit = true) ∧ digitsFrom 0 s < 2 ^ 16

/-- What is taken for a port, or for none; a sign only behind brackets. -/
inductive TakenTail (bracketed : Bool) : Str → Prop where
  | none : TakenTail bracketed []
  | digits {s : Str} (h : PortDigits s) : TakenTail bracketed (':' :: s)
  | signed {s : Str} (h : PortDigits s) (hbracketed : bracketed = true) : TakenTail bracketed (':' :: '+' :: s)

/-- The text is taken for the address. -/
def Taken (s : Str) (addr : IpAddr) : Prop :=
  ∃ bracketed tail, Written s bracketed addr tail ∧ TakenTail bracketed tail

/-- The ports of nodes. -/
inductive NodeTail : Str → Prop where
  | none : NodeTail []
  | port (p : Port) : NodeTail (':' :: p.digits)
  | obfuscated (o : Obfuscated) : NodeTail (':' :: o.text)

def needsBrackets : IpAddr → Bool
  | .v4 _ => false
  | .v6 _ => true

/-- The forms in which an address is taken from what is no node, or is not taken from a node. -/
inductive Misread : Str → IpAddr → Prop where
  | unbracketed (a : Ipv6Address) : Misread a.text (.v6 a.address)
  | bracketed (a : BitVec 32) {tail : Str} (htail : TakenTail true tail) :
      Misread ('[' :: (dottedQuad a ++ ']' :: tail)) (.v4 a)
  | signed (a : Ipv6Address) {s : Str} (h : PortDigits s) :
      Misread ('[' :: (a.text ++ ']' :: ':' :: '+' :: s)) (.v6 a.address)
  | zeros {s port : Str} {addr : IpAddr} (hs : Written s (needsBrackets addr) addr (':' :: port))
      (hport : PortDigits port) (hlong : 5 < port.length) : Misread s addr
  | large {s : Str} {addr : IpAddr} (p : Port) (hs : Written s (needsBrackets addr) addr (':' :: p.digits))
      (hlarge : 2 ^ 16 ≤ digitsFrom 0 p.digits) : Misread s addr
  | obfuscated {s : Str} {addr : IpAddr} (o : Obfuscated)
      (hs : Written s (needsBrackets addr) addr (':' :: o.text)) : Misread s addr
  | spaced {s : Str} {addr : IpAddr} (hspaced : s.trim ≠ s) (h : Taken s.trim addr) : Misread s addr

/-! ## One way -/

theorem isIpv6Char_excludes {c : Char} (h : Net.isIpv6Char c = true) :
    isWhitespace c = false ∧ c ≠ '\x22' ∧ c ≠ '\\' ∧ c ≠ ';' := by
  rw [Net.isIpv6Char, Bool.or_eq_true, Bool.or_eq_true, beq_iff_eq, beq_iff_eq] at h
  rcases h with (h | rfl) | rfl
  · have halpha := isAlphanum_of_isAsciiHexdigit h
    refine ⟨isWhitespace_of_isAlphanum halpha, ?_, ?_, ?_⟩ <;> rintro rfl <;> cases halpha
  · decide
  · decide

/-- A text is cut at a separator in one way. -/
theorem append_cons_inj {sep : Char} {s t u v : Str} (hs : sep ∉ s) (ht : sep ∉ t)
    (h : s ++ sep :: u = t ++ sep :: v) : s = t ∧ u = v := by
  have hsplit : Str.splitOnce sep (s ++ sep :: u) = some (s, u) := Str.splitOnce_eq_some.2 ⟨rfl, hs⟩
  rw [Str.splitOnce_eq_some.2 ⟨h, ht⟩] at hsplit
  cases hsplit
  exact ⟨rfl, rfl⟩

/-- A dotted quad is read back whatever stands behind a colon behind it. -/
theorem readIpv4Addr_dottedQuad (a : BitVec 32) {tail : Str} (htail : tail = [] ∨ ∃ rest, tail = ':' :: rest) :
    Net.readIpv4Addr (dottedQuad a ++ tail) = some (a, tail) := by
  refine Net.readIpv4Addr_eq_some.2 ⟨rfl, ?_⟩
  rcases htail with rfl | ⟨rest, rfl⟩
  · exact nofun
  · rintro c ⟨⟩
    rfl

/-- What is written without brackets does not begin with one. -/
theorem Written.head_ne {s tail : Str} {addr : IpAddr} (h : Written s false addr tail) (t : Str) : s ≠ '[' :: t := by
  have haddr : ∃ u, AddressText u addr ∧ s = u ++ tail := by
    cases h with
    | v4 a htail => exact ⟨_, .v4 a, rfl⟩
    | v6 a => exact ⟨_, .v6 a, (List.append_nil _).symm⟩
  obtain ⟨u, hu, rfl⟩ := haddr
  obtain ⟨c, u, rfl⟩ := List.exists_cons_of_ne_nil hu.ne_nil
  rw [List.cons_append, Ne, List.cons.injEq, not_and]
  rintro rfl
  exact absurd (hu.chars '[' (List.mem_cons_self ..)) (by decide)

/-- There is one way. -/
theorem Written.unique {s tail tail' : Str} {bracketed bracketed' : Bool} {addr addr' : IpAddr}
    (h : Written s bracketed addr tail) (h' : Written s bracketed' addr' tail') :
    bracketed = bracketed' ∧ addr = addr' ∧ tail = tail' := by
  cases bracketed with
  | false =>
    cases bracketed' with
    | false =>
      refine ⟨rfl, ?_⟩
      -- a dotted quad is read off the text, and off no IPv6 address
      have hread : ∀ {addr : IpAddr} {tail : Str}, Written s false addr tail →
          (∃ a, addr = .v4 a ∧ Net.readIpv4Addr s = some (a, tail)) ∨
            Net.readIpv4Addr s = none ∧ AddressText s addr ∧ tail = [] := by
        intro addr tail h
        cases h with
        | v4 a htail => exact .inl ⟨a, rfl, readIpv4Addr_dottedQuad a htail⟩
        | v6 a => exact .inr ⟨Net.readIpv4Addr_text a, .v6 a, rfl⟩
      rcases hread h with ⟨a, rfl, hv4⟩ | ⟨hv4, htext, rfl⟩
      · rcases hread h' with ⟨a', rfl, hv4'⟩ | ⟨hv4', -⟩
        · rw [hv4] at hv4'
          cases hv4'
          exact ⟨rfl, rfl⟩
        · rw [hv4] at hv4'
          cases hv4'
      · rcases hread h' with ⟨a', rfl, hv4'⟩ | ⟨-, htext', rfl⟩
        · rw [hv4] at hv4'
          cases hv4'
        · exact ⟨htext.unique htext', rfl⟩
    | true =>
      cases h' with
      | bracketed => exact absurd rfl (h.head_ne _)
  | true =>
    cases h with
    | bracketed htext =>
      cases bracketed' with
      | false => exact absurd rfl (h'.head_ne _)
      | true =>
        generalize hs : '[' :: (_ ++ ']' :: tail) = s at h'
        cases h' with
        | bracketed htext' =>
          rw [List.cons.injEq] at hs
          obtain ⟨rfl, rfl⟩ := append_cons_inj (htext.not_mem (by decide)) (htext'.not_mem (by decide)) hs.2
          exact ⟨rfl, htext.unique htext', rfl⟩

/-- What is written of an address and of other characters of texts has neither white space nor a quote in it. -/
theorem Written.chars {s tail : Str} {bracketed : Bool} {addr : IpAddr} (h : Written s bracketed addr tail)
    {P : Char → Prop} (hP : ∀ c, Net.isIpv6Char c = true → P c) (hopen : P '[') (hclose : P ']')
    (htail : ∀ c ∈ tail, P c) : ∀ c ∈ s, P c := by
  cases h with
  | v4 a =>
    rw [List.forall_mem_append]
    exact ⟨fun c hc => hP c ((AddressText.v4 a).chars c hc), htail⟩
  | v6 a => exact fun c hc => hP c ((AddressText.v6 a).chars c hc)
  | bracketed haddr =>
    rw [List.forall_mem_cons, List.forall_mem_append, List.forall_mem_cons]
    exact ⟨hopen, fun c hc => hP c (haddr.chars c hc), hclose, htail⟩

/-! ## What is taken for an address -/

theorem spells_iff {s : Str} {n : Nat} : Spells s n ∧ n < 2 ^ 16 ↔
    (PortDigits s ∧ digitsFrom 0 s = n) ∨ ∃ t, s = '+' :: t ∧ PortDigits t ∧ digitsFrom 0 t = n := by
  constructor
  · rintro ⟨⟨digits, rfl | rfl, hne, hdigits, rfl⟩, hlt⟩
    · exact .inl ⟨⟨⟨hne, hdigits⟩, hlt⟩, rfl⟩
    · exact .inr ⟨digits, rfl, ⟨⟨hne, hdigits⟩, hlt⟩, rfl⟩
  · rintro (⟨⟨⟨hne, hdigits⟩, hlt⟩, rfl⟩ | ⟨t, rfl, ⟨⟨hne, hdigits⟩, hlt⟩, rfl⟩)
    · exact ⟨⟨s, .inl rfl, hne, hdigits, rfl⟩, hlt⟩
    · exact ⟨⟨t, .inr rfl, hne, hdigits, rfl⟩, hlt⟩

/-- The text behind the brackets is empty, or a port of sixteen bits behind a colon. -/
theorem takenTail_iff {tail : Str} : TakenTail true tail ↔
    tail = [] ∨ ∃ port n, tail = ':' :: port ∧ parseU16 port = .ok n := by
  simp only [parseU16_ok]
  constructor
  · rintro (_ | @⟨s, h⟩ | @⟨s, h, -⟩)
    · exact .inl rfl
    · refine .inr ⟨s, UInt16.ofNat (digitsFrom 0 s), rfl, ?_⟩
      rw [UInt16.toNat_ofNat_of_lt' h.2]
      exact (spells_iff.2 (.inl ⟨h, rfl⟩)).1
    · refine .inr ⟨'+' :: s, UInt16.ofNat (digitsFrom 0 s), rfl, ?_⟩
      rw [UInt16.toNat_ofNat_of_lt' h.2]
      exact (spells_iff.2 (.inr ⟨s, rfl, h, rfl⟩)).1
  · rintro (rfl | ⟨port, n, rfl, hspells⟩)
    · exact .none
    · rcases spells_iff.1 ⟨hspells, n.toNat_lt⟩ with ⟨h, -⟩ | ⟨t, rfl, h, -⟩
      · exact .digits h
      · exact .signed h rfl

theorem digitsValue_ten {s : Str} (h : ∀ c ∈ s, c.isDigit = true) : Net.digitsValue 10 s = digitsFrom 0 s := by
  induction s using List.reverseRecOn with
  | nil => rfl
  | append_singleton s c ih =>
    rw [List.forall_mem_append, List.forall_mem_singleton] at h
    have hrange := isDigit_iff.1 h.2
    rw [Net.digitsValue_append, ih h.1, Net.toDigit_of_isDigit h.2 (by omega), Option.getD_some, digitsFrom, digitsFrom,
      List.foldl_append, List.foldl_cons, List.foldl_nil]

theorem PortDigits.readNumber {digits : Str} (h : PortDigits digits) :
    Net.readNumber 10 none true 65535 digits = some (digitsFrom 0 digits, []) := by
  obtain ⟨⟨hne, hdigits⟩, hlt⟩ := h
  exact Net.readNumber_eq_some.2 ⟨digits, (List.append_nil _).symm, ⟨hne, nofun⟩,
    fun c hc => Net.isDigitOf_ten c ▸ hdigits c hc, nofun, digitsValue_ten hdigits, by omega⟩

/-- A socket address without brackets is a dotted quad with a port. -/
theorem socketAddr_parse {t : Str} (ht : ∀ u, t ≠ '[' :: u) {addr : IpAddr} :
    (SocketAddr.parse t).map SocketAddr.ip = some addr ↔
      ∃ a digits, t = dottedQuad a ++ ':' :: digits ∧ PortDigits digits ∧ addr = .v4 a := by
  have hv6 : Net.readSocketAddrV6 t = none := by
    cases hread : Net.readSocketAddrV6 t with
    | none => rfl
    | some r =>
      obtain ⟨_, u, hopen, -⟩ := Net.bind_eq_some.1 hread
      exact absurd (Net.readGivenChar_eq_some.1 hopen) (ht u)
  have hread : (Net.readSocketAddrV4 <|> Net.readSocketAddrV6) t = Net.readSocketAddrV4 t := by
    show (Net.readSocketAddrV4 t <|> Net.readSocketAddrV6 t) = _
    rw [hv6]
    cases Net.readSocketAddrV4 t <;> rfl
  rw [SocketAddr.parse, Net.parseWith, hread]
  constructor
  · intro h
    split at h
    · rename_i sock hsock
      obtain rfl : sock.ip = addr := Option.some.inj h
      obtain ⟨a, rest, hv4, h⟩ := Net.bind_eq_some.1 hsock
      obtain ⟨port, rest', hport, h⟩ := Net.bind_eq_some.1 h
      cases h
      obtain ⟨_, rest'', hcolon, hnumber⟩ := Net.bind_eq_some.1 hport
      obtain ⟨digits, rfl, ⟨hne, -⟩, hdigits, -, rfl, hle⟩ := Net.readNumber_eq_some.1 hnumber
      obtain ⟨rfl, -⟩ := Net.readIpv4Addr_eq_some.1 hv4
      have hdigit : ∀ c ∈ digits, c.isDigit = true := fun c hc => Net.isDigitOf_ten c ▸ hdigits c hc
      rw [digitsValue_ten hdigit] at hle
      refine ⟨a, digits, ?_, ⟨⟨hne, hdigit⟩, by omega⟩, rfl⟩
      rw [Net.readGivenChar_eq_some.1 hcolon, List.append_nil]
    · cases h
  · rintro ⟨a, digits, rfl, hdigits, rfl⟩
    have hport : Net.readPort (':' :: digits) = some (digitsFrom 0 digits, []) :=
      Net.bind_eq_some.2 ⟨(), digits, Net.readGivenChar_eq_some.2 rfl, hdigits.readNumber⟩
    have hsock : Net.readSocketAddrV4 (dottedQuad a ++ ':' :: digits) = some (.v4 a (digitsFrom 0 digits), []) :=
      Net.bind_eq_some.2 ⟨a, _, readIpv4Addr_dottedQuad a (.inr ⟨digits, rfl⟩),
        Net.bind_eq_some.2 ⟨_, [], hport, rfl⟩⟩
    rw [hsock]
    rfl

theorem stripPrefix_eq_some {c : Char} {s t : Str} : Str.stripPrefix c s = some t ↔ s = c :: t := by
  cases s with
  | nil => exact ⟨nofun, nofun⟩
  | cons d s =>
    rw [Str.stripPrefix, List.cons.injEq]
    split
    · next h => simp [h]
    · next h => simp [h]

/-- The branch of `parse_ip_token` for what stands behind the address. -/
theorem tail_eq_some {tail : Str} {o : Option IpAddr} {addr : IpAddr} :
    (if List.isEmpty tail = true then o
      else (Str.stripPrefix ':' tail).bind fun port => (parseU16 port).toOption.bind fun _ => o) = some addr ↔
        TakenTail true tail ∧ o = some addr := by
  rw [takenTail_iff]
  split
  · next h =>
    rw [List.isEmpty_iff] at h
    simp [h]
  · next h =>
    rw [List.isEmpty_iff] at h
    simp only [Option.bind_eq_some_iff, stripPrefix_eq_some, h, false_or]
    constructor
    · rintro ⟨port, rfl, n, hn, ho⟩
      refine ⟨⟨port, n, rfl, ?_⟩, ho⟩
      cases hport : parseU16 port with
      | error e => rw [hport] at hn; cases hn
      | ok m => rw [hport] at hn; cases hn; rfl
    · rintro ⟨⟨port, n, rfl, hn⟩, ho⟩
      exact ⟨port, rfl, n, by rw [hn]; rfl, ho⟩

theorem TakenTail.chars {bracketed : Bool} {tail : Str} (h : TakenTail bracketed tail) {P : Char → Prop}
    (hcolon : P ':') (hplus : P '+') (hdigit : ∀ c, c.isDigit = true → P c) : ∀ c ∈ tail, P c := by
  cases h with
  | none => exact nofun
  | digits h =>
    rw [List.forall_mem_cons]
    exact ⟨hcolon, fun c hc => hdigit c (h.1.2 c hc)⟩
  | signed h =>
    rw [List.forall_mem_cons, List.forall_mem_cons]
    exact ⟨hcolon, hplus, fun c hc => hdigit c (h.1.2 c hc)⟩

theorem TakenTail.colon {bracketed : Bool} {tail : Str} (h : TakenTail bracketed tail) :
    tail = [] ∨ ∃ rest, tail = ':' :: rest := by
  cases h with
  | none => exact .inl rfl
  | digits h => exact .inr ⟨_, rfl⟩
  | signed h => exact .inr ⟨_, rfl⟩

/-- What is taken for an address has no white space, no quote, no backslash and no semicolon in it. -/
theorem Taken.chars {s : Str} {addr : IpAddr} (h : Taken s addr) :
    ∀ c ∈ s, isWhitespace c = false ∧ c ≠ '\x22' ∧ c ≠ '\\' ∧ c ≠ ';' := by
  obtain ⟨bracketed, tail, hs, htail⟩ := h
  refine hs.chars (fun c hc => isIpv6Char_excludes hc) (by decide) (by decide)
    (htail.chars (by decide) (by decide) fun c hc => isIpv6Char_excludes ?_)
  exact Net.isIpv6Char_of_hex (Net.isAsciiHexdigit_of_isDigit hc)

/-- A text with a bracket before it is taken for an address if one stands between brackets and a port behind
them, or nothing. -/
theorem taken_iff_of_bracket {t : Str} {addr : IpAddr} (hopen : t.head? = some '[') : Taken t addr ↔
    ∃ host tail, (t = '[' :: host ++ ']' :: tail ∧ ']' ∉ '[' :: host) ∧ AddressText host addr ∧
      TakenTail true tail := by
  constructor
  · rintro ⟨bracketed, tail, hs, htail⟩
    cases bracketed with
    | false =>
      obtain ⟨u, hu⟩ := List.head?_eq_some_iff.1 hopen
      exact absurd hu (hs.head_ne u)
    | true =>
      cases hs with
      | @bracketed u _ haddr =>
        refine ⟨u, tail, ⟨rfl, ?_⟩, haddr, htail⟩
        rw [List.mem_cons, not_or]
        exact ⟨by decide, haddr.not_mem (by decide)⟩
  · rintro ⟨host, tail, ⟨rfl, -⟩, haddr, htail⟩
    exact ⟨true, tail, .bracketed haddr htail.colon, htail⟩

/-- And without one, if it is an address, or an IPv4 address with a port. -/
theorem taken_iff_of_bare {t : Str} {addr : IpAddr} (ht : ∀ u, t ≠ '[' :: u) : Taken t addr ↔
    AddressText t addr ∨
      IpAddr.parse t = none ∧ ∃ a digits, t = dottedQuad a ++ ':' :: digits ∧ PortDigits digits ∧ addr = .v4 a := by
  have hbare : ∀ {u ip}, AddressText u ip → Written u false ip [] := by
    intro u ip hu
    cases hu with
    | v4 b => exact List.append_nil (dottedQuad b) ▸ .v4 b (.inl rfl)
    | v6 b => exact .v6 b
  constructor
  · rintro ⟨bracketed, tail, hs, htail⟩
    cases hs with
    | v6 a => exact .inl (.v6 a)
    | bracketed => exact absurd rfl (ht _)
    | v4 a hcolon =>
      cases htail with
      | none =>
        rw [List.append_nil]
        exact .inl (.v4 a)
      | signed h hbracketed => cases hbracketed
      | digits h =>
        refine .inr ⟨?_, a, _, rfl, h, rfl⟩
        -- an address is written in one way, and this one has a port behind it
        cases hparse : IpAddr.parse _ with
        | none => rfl
        | some ip => cases ((Written.v4 a hcolon).unique (hbare (IpAddr.parse_iff.1 hparse))).2.2
  · rintro (haddr | ⟨-, a, digits, rfl, hdigits, rfl⟩)
    · exact ⟨false, [], hbare haddr, .none⟩
    · exact ⟨false, _, .v4 a (.inr ⟨digits, rfl⟩), .digits hdigits⟩

/-- What `parse_ip_token` takes for an address, white space around it aside. -/
theorem parseIpToken_eq_some {s : Str} {addr : IpAddr} : parseIpToken s = some addr ↔ Taken s.trim addr := by
  unfold parseIpToken
  generalize s.trim = t
  simp only
  split
  · next hquote =>
    refine ⟨nofun, fun h => ?_⟩
    have hmem : '\x22' ∈ t := by
      rw [Bool.or_eq_true, beq_iff_eq, beq_iff_eq] at hquote
      exact hquote.elim List.mem_of_head? List.mem_of_getLast?
    exact absurd rfl (h.chars _ hmem).2.1
  · split
    · next hopen =>
      rw [taken_iff_of_bracket (beq_iff_eq.1 hopen)]
      simp only [Option.bind_eq_bind, Option.bind_eq_some_iff, stripPrefix_eq_some, Prod.exists, Str.splitOnce_eq_some]
      constructor
      · rintro ⟨_, tail, hcut, host, rfl, hread⟩
        split at hread
        · cases hread
        · obtain ⟨htail, hparse⟩ := tail_eq_some.1 hread
          exact ⟨host, tail, hcut, IpAddr.parse_iff.1 hparse, htail⟩
      · rintro ⟨host, tail, hcut, haddr, htail⟩
        refine ⟨'[' :: host, tail, hcut, host, rfl, ?_⟩
        rw [if_neg]
        · exact tail_eq_some.2 ⟨htail, IpAddr.parse_iff.2 haddr⟩
        · rw [Bool.or_eq_true, List.isEmpty_iff, beq_iff_eq]
          rintro (hnil | hhead)
          · exact haddr.ne_nil hnil
          · exact haddr.not_mem (by decide) (List.mem_of_head? hhead)
    · next hopen =>
      have ht : ∀ u, t ≠ '[' :: u := by
        rintro u rfl
        exact hopen rfl
      rw [Option.orElse_eq_some, IpAddr.parse_iff, socketAddr_parse ht, taken_iff_of_bare ht]

/-- A backslash or a semicolon is in no text that is taken for an address. -/
theorem parseIpToken_eq_none {s : Str} {c : Char} (hc : c = '\\' ∨ c = ';') (hmem : c ∈ s) : parseIpToken s = none := by
  cases hparse : parseIpToken s with
  | none => rfl
  | some addr =>
    have htaken := parseIpToken_eq_some.1 hparse
    obtain ⟨before, after, heq, hbefore, hafter⟩ := Str.exists_trim s
    have hspace : isWhitespace c = false := by
      rcases hc with rfl | rfl <;> decide
    rw [heq, List.mem_append, List.mem_append] at hmem
    rcases hmem with (hmem | hmem) | hmem
    · rw [hbefore c hmem] at hspace
      cases hspace
    · obtain ⟨-, -, hbackslash, hsemicolon⟩ := htaken.chars c hmem
      exact hc.elim (absurd · hbackslash) (absurd · hsemicolon)
    · rw [hafter c hmem] at hspace
      cases hspace

/-! ## What names an address -/

theorem nodeTail_iff {tail : Str} :
    NodeTail tail ↔ ∃ port : Option NodePort, tail = port.elim [] fun port => ':' :: port.text := by
  constructor
  · rintro (_ | p | o)
    · exact ⟨none, rfl⟩
    · exact ⟨some (.port p), rfl⟩
    · exact ⟨some (.obfuscated o), rfl⟩
  · rintro ⟨_ | p | o, rfl⟩
    · exact .none
    · exact .port p
    · exact .obfuscated o

theorem NodeTail.colon {tail : Str} (h : NodeTail tail) : tail = [] ∨ ∃ rest, tail = ':' :: rest := by
  cases h with
  | none => exact .inl rfl
  | port p => exact .inr ⟨_, rfl⟩
  | obfuscated o => exact .inr ⟨_, rfl⟩

/-- A node names an address with brackets around it exactly if it is an IPv6 address. -/
theorem namesAddress_iff {s : Str} {addr : IpAddr} :
    NamesAddress s addr ↔ ∃ tail, Written s (needsBrackets addr) addr tail ∧ NodeTail tail := by
  constructor
  · rintro ⟨⟨name, port⟩, rfl, haddr⟩
    have htail : NodeTail (port.elim [] fun port => ':' :: port.text) := nodeTail_iff.2 ⟨port, rfl⟩
    refine ⟨_, ?_, htail⟩
    cases name with
    | v4 a =>
      cases haddr
      exact .v4 a htail.colon
    | v6 a =>
      cases haddr
      have htext : (⟨.v6 a, port⟩ : Node).text =
          '[' :: (a.text ++ ']' :: port.elim [] fun port => ':' :: port.text) := by
        simp [Node.text, NodeName.text]
      rw [htext]
      exact .bracketed (.v6 a) htail.colon
    | unknown word h => cases haddr
    | obfuscated o => cases haddr
  · rintro ⟨tail, hs, htail⟩
    obtain ⟨port, rfl⟩ := nodeTail_iff.1 htail
    cases addr with
    | v4 a =>
      cases hs with
      | v4 => exact ⟨⟨.v4 a, port⟩, rfl, rfl⟩
    | v6 a =>
      cases hs with
      | bracketed haddr =>
        cases haddr with
        | v6 b => exact ⟨⟨.v6 b, port⟩, by simp [Node.text, NodeName.text], rfl⟩

theorem namesAddress_unique {s : Str} {addr addr' : IpAddr} (h : NamesAddress s addr) (h' : NamesAddress s addr') :
    addr = addr' := by
  obtain ⟨tail, hs, -⟩ := namesAddress_iff.1 h
  obtain ⟨tail', hs', -⟩ := namesAddress_iff.1 h'
  exact (hs.unique hs').2.1

theorem NodeTail.not_whitespace {tail : Str} (h : NodeTail tail) : ∀ c ∈ tail, isWhitespace c = false := by
  cases h with
  | none => exact nofun
  | port p =>
    rw [List.forall_mem_cons]
    refine ⟨by decide, fun c hc => ?_⟩
    exact isWhitespace_of_isAlphanum (isAlphanum_of_isAsciiHexdigit (Net.isAsciiHexdigit_of_isDigit (p.digit c hc)))
  | obfuscated o =>
    rw [Obfuscated.text, List.forall_mem_cons, List.forall_mem_cons]
    refine ⟨by decide, by decide, fun c hc => ?_⟩
    have hchar := List.all_eq_true.1 o.chars c hc
    simp only [Bool.or_eq_true, beq_iff_eq] at hchar
    rcases hchar with ((h | rfl) | rfl) | rfl
    · exact isWhitespace_of_isAlphanum h
    · decide
    · decide
    · decide

theorem trim_of_namesAddress {s : Str} {addr : IpAddr} (h : NamesAddress s addr) : s.trim = s := by
  obtain ⟨tail, hs, htail⟩ := namesAddress_iff.1 h
  exact Str.trim_eq_self (hs.chars (fun c hc => (isIpv6Char_excludes hc).1) (by decide) (by decide)
    htail.not_whitespace)

theorem Taken.trim {s : Str} {addr : IpAddr} (h : Taken s addr) : s.trim = s :=
  Str.trim_eq_self fun c hc => (h.chars c hc).1

/-! ## Where they part -/

theorem isDigit_of_port (p : Port) {c : Char} {t : Str} (h : p.digits = c :: t) : c.isDigit = true :=
  p.digit c (by rw [h]; exact List.mem_cons_self ..)

/-- A text that is taken and names nothing, in one of the forms. -/
theorem misread_of_taken {s : Str} {addr : IpAddr} (h : Taken s addr) (hnot : ¬ NamesAddress s addr) :
    Misread s addr := by
  obtain ⟨bracketed, tail, hs, htail⟩ := h
  -- a port of five digits at most would be that of a node
  have hlong : ∀ {port}, tail = ':' :: port → PortDigits port → bracketed = needsBrackets addr → 5 < port.length := by
    rintro port rfl hport rfl
    by_contra hle
    have hnode : NodeTail (':' :: port) := .port ⟨port, hport.1.1, not_lt.1 hle, hport.1.2⟩
    exact hnot (namesAddress_iff.2 ⟨_, hs, hnode⟩)
  have hnone : tail = [] → bracketed ≠ needsBrackets addr := by
    rintro rfl rfl
    exact hnot (namesAddress_iff.2 ⟨_, hs, .none⟩)
  cases hs with
  | v4 a hcolon =>
    cases htail with
    | none => exact absurd rfl (hnone rfl)
    | digits h => exact .zeros (.v4 a hcolon) h (hlong rfl h rfl)
    | signed h hbracketed => cases hbracketed
  | v6 a => exact .unbracketed a
  | bracketed haddr hcolon =>
    cases haddr with
    | v4 a => exact .bracketed a htail
    | v6 a =>
      cases htail with
      | none => exact absurd rfl (hnone rfl)
      | digits h => exact .zeros (.bracketed (.v6 a) hcolon) h (hlong rfl h rfl)
      | signed h => exact .signed a h

/-- A text that names an address and is not taken for it, in one of the forms. -/
theorem misread_of_names {s : Str} {addr : IpAddr} (h : NamesAddress s addr) (hnot : ¬ Taken s addr) :
    Misread s addr := by
  obtain ⟨tail, hs, htail⟩ := namesAddress_iff.1 h
  cases htail with
  | none => exact absurd ⟨_, _, hs, .none⟩ hnot
  | port p =>
    rcases lt_or_ge (digitsFrom 0 p.digits) (2 ^ 16) with hlt | hge
    · exact absurd ⟨_, _, hs, .digits ⟨⟨p.ne, p.digit⟩, hlt⟩⟩ hnot
    · exact .large p hs hge
  | obfuscated o => exact .obfuscated o hs

theorem Taken.parseIpToken {s : Str} {addr : IpAddr} (h : Taken s addr) : parseIpToken s = some addr :=
  parseIpToken_eq_some.2 (by rwa [h.trim])

section

variable {s tail : Str} {bracketed : Bool} {addr : IpAddr}

theorem Written.not_namesAddress (hs : Written s bracketed addr tail)
    (hnot : bracketed = needsBrackets addr → ¬ NodeTail tail) (a : IpAddr) : ¬ NamesAddress s a := by
  intro h
  obtain ⟨tail', hs', htail⟩ := namesAddress_iff.1 h
  obtain ⟨rfl, rfl, rfl⟩ := hs.unique hs'
  exact hnot rfl htail

theorem Written.parseIpToken_eq_none (hs : Written s bracketed addr tail) (htrim : s.trim = s)
    (hnot : ¬ TakenTail bracketed tail) : parseIpToken s = none := by
  cases hparse : parseIpToken s with
  | none => rfl
  | some a =>
    obtain ⟨bracketed', tail', hs', htail⟩ := parseIpToken_eq_some.1 hparse
    rw [htrim] at hs'
    obtain ⟨rfl, rfl, rfl⟩ := hs.unique hs'
    exact absurd htail hnot

end

/-! ### Tails of one kind only -/

theorem not_nodeTail_signed (s : Str) : ¬ NodeTail (':' :: '+' :: s) := by
  generalize htail : ':' :: '+' :: s = tail
  rintro (_ | p | o)
  · cases htail
  · cases isDigit_of_port p (List.cons.inj htail).2.symm
  · cases htail

theorem length_of_nodeTail {s : Str} (hs : PortDigits s) (h : NodeTail (':' :: s)) : s.length ≤ 5 := by
  generalize htail : ':' :: s = tail at h
  cases h with
  | none => cases htail
  | port p =>
    rw [(List.cons.inj htail).2]
    exact p.length_le
  | obfuscated o =>
    rw [(List.cons.inj htail).2] at hs
    cases hs.1.2 '_' (List.mem_cons_self ..)

theorem lt_of_takenTail {bracketed : Bool} (p : Port) (h : TakenTail bracketed (':' :: p.digits)) :
    digitsFrom 0 p.digits < 2 ^ 16 := by
  generalize htail : ':' :: p.digits = tail at h
  cases h with
  | none => cases htail
  | digits h =>
    rw [← (List.cons.inj htail).2] at h
    exact h.2
  | signed h => cases isDigit_of_port p (List.cons.inj htail).2

theorem not_takenTail_obfuscated {bracketed : Bool} (o : Obfuscated) : ¬ TakenTail bracketed (':' :: o.text) := by
  generalize htail : ':' :: o.text = tail
  rintro (_ | h | h)
  · cases htail
  · rw [← (List.cons.inj htail).2] at h
    cases h.1.2 '_' (List.mem_cons_self ..)
  · cases htail

/-- In each of the forms the text is read otherwise than it says. -/
theorem Misread.differs {s : Str} {addr : IpAddr} (h : Misread s addr) :
    (parseIpToken s = some addr ∧ ∀ a, ¬ NamesAddress s a) ∨ (parseIpToken s = none ∧ NamesAddress s addr) := by
  cases h with
  | unbracketed a =>
    have hs := Written.v6 a
    exact .inl ⟨Taken.parseIpToken ⟨_, _, hs, .none⟩, hs.not_namesAddress nofun⟩
  | bracketed a htail =>
    have hs := Written.bracketed (.v4 a) htail.colon
    exact .inl ⟨Taken.parseIpToken ⟨_, _, hs, htail⟩, hs.not_namesAddress nofun⟩
  | @signed a t h =>
    have hs : Written _ true (.v6 a.address) (':' :: '+' :: t) := .bracketed (.v6 a) (.inr ⟨_, rfl⟩)
    exact .inl ⟨Taken.parseIpToken ⟨_, _, hs, .signed h rfl⟩, hs.not_namesAddress fun _ => not_nodeTail_signed t⟩
  | zeros hs hport hlong =>
    refine .inl ⟨Taken.parseIpToken ⟨_, _, hs, .digits hport⟩, hs.not_namesAddress fun _ hnode => ?_⟩
    exact absurd (length_of_nodeTail hport hnode) (not_le.2 hlong)
  | large p hs hlarge =>
    have hname : NamesAddress s addr := namesAddress_iff.2 ⟨_, hs, .port p⟩
    refine .inr ⟨hs.parseIpToken_eq_none (trim_of_namesAddress hname) fun htaken => ?_, hname⟩
    exact absurd (lt_of_takenTail p htaken) (not_lt.2 hlarge)
  | obfuscated o hs =>
    have hname : NamesAddress s addr := namesAddress_iff.2 ⟨_, hs, .obfuscated o⟩
    exact .inr ⟨hs.parseIpToken_eq_none (trim_of_namesAddress hname) (not_takenTail_obfuscated o), hname⟩
  | spaced hspaced h =>
    exact .inl ⟨parseIpToken_eq_some.2 h, fun a ha => hspaced (trim_of_namesAddress ha)⟩

/-- The forms are those in which a text is taken for an address and names none, or names the address and
is taken for none. -/
theorem misread_iff {s : Str} {addr : IpAddr} : Misread s addr ↔
    (parseIpToken s = some addr ∧ ∀ a, ¬ NamesAddress s a) ∨ (parseIpToken s = none ∧ NamesAddress s addr) := by
  refine ⟨Misread.differs, ?_⟩
  rintro (⟨hparse, hnot⟩ | ⟨hparse, hname⟩)
  · have h := parseIpToken_eq_some.1 hparse
    by_cases hspaced : s.trim = s
    · rw [hspaced] at h
      exact misread_of_taken h (hnot addr)
    · exact .spaced hspaced h
  · refine misread_of_names hname fun h => ?_
    rw [h.parseIpToken] at hparse
    cases hparse

theorem eq_of_names {s : Str} {addr addr' : IpAddr} (h : parseIpToken s = some addr) (h' : NamesAddress s addr') :
    addr = addr' := by
  obtain ⟨bracketed, tail, hs, -⟩ := parseIpToken_eq_some.1 h
  obtain ⟨tail', hs', -⟩ := namesAddress_iff.1 h'
  rw [trim_of_namesAddress h'] at hs
  exact (hs.unique hs').2.1

/-- A text in none of the forms is taken for the address that it names. -/
theorem parseIpToken_eq_some_iff {s : Str} (h : ∀ addr, ¬ Misread s addr) {addr : IpAddr} :
    parseIpToken s = some addr ↔ NamesAddress s addr := by
  simp only [misread_iff, not_or, not_and, not_forall, not_not] at h
  constructor
  · intro hparse
    obtain ⟨a, ha⟩ := (h addr).1 hparse
    rwa [eq_of_names hparse ha]
  · intro hname
    cases hparse : parseIpToken s with
    | none => exact absurd hname ((h addr).2 hparse)
    | some a => rw [eq_of_names hparse hname]

theorem not_misread {s : Str} {a : IpAddr} (hparse : parseIpToken s = some a) (hnames : NamesAddress s a)
    (addr : IpAddr) : ¬ Misread s addr := by
  rw [misread_iff, hparse]
  rintro (⟨-, hnot⟩ | ⟨⟨⟩, -⟩)
  exact hnot a hnames

end WorldInfra.Http
