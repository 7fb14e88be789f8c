/-
http-primitives: origins. `Origin::parse` accepts the texts of a grammar, with one spelling more: it reads
ports as `u16::parse` does, with a plus sign before the digits or none.
-/
import WorldInfra.Http.ClientIp
import WorldInfra.Rust.Ipv6Text
import WorldInfra.Rust.Numeral
import WorldInfra.Rust.Token

namespace WorldInfra.Http

open WorldInfra.Rust

/-- `Origin`: scheme and host in lower case, and the port if one is written. -/
structure Origin where
  scheme : Str
  host : Str
  port : Option UInt16
  deriving DecidableEq

def validOriginHostLabel (label : Str) : Bool :=
  !label.isEmpty && label.len ≤ 63 && !label.startsWith ['-'] && !label.endsWith ['-'] &&
    label.all fun c => c.isAlphanum || c == '-'

def validUnbracketedOriginHost (host : Str) : Bool :=
  !host.isEmpty && !host.startsWith ['.'] && !host.endsWith ['.'] && !host.containsText "..".toList &&
    (host.split '.').all validOriginHostLabel

def parseOriginPort (port : Str) : Except HttpPrimitiveError UInt16 :=
  match parseU16 port with
  | .error _ => .error .invalidOrigin
  | .ok port => if port = 0 then .error .invalidOrigin else .ok port

/-- `str::parse` of an `Ipv6Addr` succeeds. -/
def isIpv6Addr (s : Str) : Bool := (Net.parseWith Net.readIpv6Addr s).isSome

/-- The port behind the closing bracket, if there is one. -/
def parseBracketTail (tail : Str) : Except HttpPrimitiveError (Option UInt16) :=
  if tail.isEmpty then .ok none
  else
    match Str.stripPrefix ':' tail with
    | none => .error .invalidOrigin
    | some port => (parseOriginPort port).map some

def parseHostPort (value : Str) : Except HttpPrimitiveError (Str × Option UInt16) :=
  if value.startsWith ['['] then
    match value.splitOnce ']' with
    | none => .error .invalidOrigin
    | some (host, tail) => do
      let port ← parseBracketTail tail
      match Str.stripPrefix '[' host with
      | none => .error .invalidOrigin
      | some host =>
        if host.isEmpty || host.startsWith ['['] || !isIpv6Addr host then .error .invalidOrigin else .ok (host, port)
  else
    match value.rsplitOnce ':' with
    | some (host, port) =>
      if host.containsText [':'] then
        if isIpv6Addr value then .ok (value, none) else .error .invalidOrigin
      else if !validUnbracketedOriginHost host then .error .invalidOrigin
      else (parseOriginPort port).map fun port => (host, some port)
    | none => if !validUnbracketedOriginHost value then .error .invalidOrigin else .ok (value, none)

def originSchemes : List Str := ["http".toList, "https".toList, "ws".toList, "wss".toList]

namespace Origin

def parse (value : Str) : Except HttpPrimitiveError Origin :=
  match Str.splitOnceText "://".toList value.trim with
  | none => .error .invalidOrigin
  | some (scheme, rest) =>
    let scheme := scheme.toAsciiLowercase
    if !originSchemes.contains scheme then .error .invalidOrigin
    else if rest.isEmpty || rest.containsText ['/'] then .error .invalidOrigin
    else do
      let (host, port) ← parseHostPort rest
      .ok ⟨scheme, host.toAsciiLowercase, port⟩

end Origin

def parseAllowedOrigins (value : Str) : Except HttpPrimitiveError (List Origin) :=
  (((value.split ',').map Str.trim).filter fun item => !item.isEmpty).mapM Origin.parse

/-! ## The grammar -/

/-- A host label: 1 to 63 letters, digits or hyphens, and no hyphen at either end. -/
structure IsLabel (label : Str) : Prop where
  length_pos : 1 ≤ label.length
  length_le : label.length ≤ 63
  chars : ∀ c ∈ label, c.isAlphanum = true ∨ c = '-'
  first : label.head? ≠ some '-'
  last : label.getLast? ≠ some '-'

/-- A host: labels with dots between them. -/
def IsHost (host : Str) : Prop :=
  ∃ labels, labels ≠ [] ∧ (∀ label ∈ labels, IsLabel label) ∧ host = ['.'].intercalate labels

/-- A port: digits, for a number that is not 0. -/
structure IsPort (digits : Str) (port : UInt16) : Prop where
  nonempty : digits ≠ []
  isDigit : ∀ c ∈ digits, c.isDigit = true
  value : digitsFrom 0 digits = port.toNat
  positive : 1 ≤ port.toNat

/-- The texts of authorities with their host and port, for a way to write ports. -/
inductive Authority (Port : Str → UInt16 → Prop) : Str → Str → Option UInt16 → Prop
  | host {host : Str} : IsHost host → Authority Port host host none
  | hostPort {host digits : Str} {port : UInt16} : IsHost host → Port digits port →
    Authority Port (host ++ ':' :: digits) host (some port)
  | bracketed {host : Str} : isIpv6Addr host = true → Authority Port ('[' :: (host ++ [']'])) host none
  | bracketedPort {host digits : Str} {port : UInt16} : isIpv6Addr host = true → Port digits port →
    Authority Port ('[' :: (host ++ ']' :: ':' :: digits)) host (some port)
  | bare {host : Str} : isIpv6Addr host = true → Authority Port host host none

/-- The texts of origins, up to outer white space, and the origins they stand for. -/
def OriginText (Port : Str → UInt16 → Prop) (value : Str) (origin : Origin) : Prop :=
  ∃ scheme authority host, value.trim = scheme ++ "://".toList ++ authority ∧
    scheme.toAsciiLowercase ∈ originSchemes ∧ Authority Port authority host origin.port ∧
    origin.scheme = scheme.toAsciiLowercase ∧ origin.host = host.toAsciiLowercase

/-! ## Hosts -/

theorem startsWith_char {s : Str} {c : Char} : s.startsWith [c] = true ↔ s.head? = some c := by
  rw [Str.startsWith, List.isPrefixOf_iff_prefix]
  constructor
  · rintro ⟨t, rfl⟩
    rfl
  · intro h
    obtain ⟨t, rfl⟩ := List.head?_eq_some_iff.1 h
    exact ⟨t, rfl⟩

theorem endsWith_char {s : Str} {c : Char} : s.endsWith [c] = true ↔ s.getLast? = some c := by
  rw [Str.endsWith, List.isSuffixOf_iff_suffix]
  constructor
  · rintro ⟨t, rfl⟩
    simp
  · intro h
    obtain ⟨t, rfl⟩ := List.getLast?_eq_some_iff.1 h
    exact ⟨t, rfl⟩

theorem utf8Size_of_labelChar {c : Char} (h : c.isAlphanum = true ∨ c = '-') : c.utf8Size = 1 := by
  rcases h with h | rfl
  · exact utf8Size_of_isAlphanum h
  · rfl

theorem len_of_labelChars : ∀ {s : Str}, (∀ c ∈ s, c.isAlphanum = true ∨ c = '-') → s.len = s.length
  | [], _ => rfl
  | c :: s, h => by
    rw [Str.len_cons, List.length_cons, utf8Size_of_labelChar (h c (List.mem_cons_self ..)),
      len_of_labelChars fun d hd => h d (List.mem_cons_of_mem _ hd), Nat.add_comm]

theorem validOriginHostLabel_iff {label : Str} : validOriginHostLabel label = true ↔ IsLabel label := by
  simp only [validOriginHostLabel, Bool.and_eq_true, Bool.not_eq_true', ← Bool.not_eq_true, List.isEmpty_iff,
    decide_eq_true_eq, startsWith_char, endsWith_char, List.all_eq_true, Bool.or_eq_true, beq_iff_eq]
  constructor
  · rintro ⟨⟨⟨⟨hne, hlen⟩, hfirst⟩, hlast⟩, hchars⟩
    rw [len_of_labelChars hchars] at hlen
    exact ⟨List.length_pos_iff.2 hne, hlen, hchars, hfirst, hlast⟩
  · intro h
    rw [len_of_labelChars h.chars]
    exact ⟨⟨⟨⟨List.length_pos_iff.1 h.length_pos, h.length_le⟩, h.first⟩, h.last⟩, h.chars⟩

theorem IsLabel.dot_not_mem {label : Str} (h : IsLabel label) : '.' ∉ label := by
  intro hmem
  rcases h.chars '.' hmem with hdot | hdot
  · exact absurd hdot (by decide)
  · exact absurd hdot (by decide)

/-- If every part between dots is a label, no dot stands first, last, or after another. -/
theorem dots_of_parts {host : Str} (h : ∀ part ∈ host.split '.', part ≠ []) :
    host ≠ [] ∧ host.head? ≠ some '.' ∧ host.getLast? ≠ some '.' ∧ ¬ "..".toList <:+: host := by
  refine ⟨?_, ?_, ?_, ?_⟩
  · rintro rfl
    exact h [] (by simp) rfl
  · intro hfirst
    obtain ⟨t, rfl⟩ := List.head?_eq_some_iff.1 hfirst
    refine h [] ?_ rfl
    rw [← List.nil_append ('.' :: t), Str.split_append_cons]
    simp
  · intro hlast
    obtain ⟨t, rfl⟩ := List.getLast?_eq_some_iff.1 hlast
    refine h [] ?_ rfl
    rw [Str.split_append_cons]
    simp
  · rintro ⟨before, after, heq⟩
    refine h [] ?_ rfl
    have hdots : host = before ++ '.' :: ([] ++ '.' :: after) := by simp [← heq]
    rw [hdots, Str.split_append_cons, Str.split_append_cons]
    simp

theorem validUnbracketedOriginHost_iff {host : Str} : validUnbracketedOriginHost host = true ↔ IsHost host := by
  simp only [validUnbracketedOriginHost, Bool.and_eq_true, Bool.not_eq_true', ← Bool.not_eq_true, List.isEmpty_iff,
    startsWith_char, endsWith_char, List.all_eq_true, Str.containsText, decide_eq_true_eq, validOriginHostLabel_iff]
  constructor
  · rintro ⟨-, hlabels⟩
    exact ⟨host.split '.', List.splitOn_ne_nil _ _, hlabels, (List.intercalate_splitOn '.').symm⟩
  · rintro ⟨labels, hne, hlabels, rfl⟩
    have hsplit : Str.split (['.'].intercalate labels) '.' = labels := by
      apply List.splitOn_intercalate
      · exact fun label hlabel => (hlabels label hlabel).dot_not_mem
      · exact hne
    rw [← hsplit] at hlabels
    obtain ⟨h₁, h₂, h₃, h₄⟩ := dots_of_parts fun part hpart => List.length_pos_iff.1 (hlabels part hpart).length_pos
    exact ⟨⟨⟨⟨h₁, h₂⟩, h₃⟩, h₄⟩, hlabels⟩

theorem IsHost.chars {host : Str} (h : IsHost host) : ∀ c ∈ host, c.isAlphanum = true ∨ c = '-' ∨ c = '.' := by
  obtain ⟨labels, -, hlabels, rfl⟩ := h
  intro c hc
  rcases Str.mem_intercalate hc with rfl | ⟨label, hlabel, hc⟩
  · exact Or.inr (Or.inr rfl)
  · rcases (hlabels label hlabel).chars c hc with hc | hc
    · exact Or.inl hc
    · exact Or.inr (Or.inl hc)

theorem IsHost.ne_nil {host : Str} (h : IsHost host) : host ≠ [] := by
  rw [← validUnbracketedOriginHost_iff] at h
  rintro rfl
  exact absurd h (by decide)

/-! ## Authorities -/

/-- A port as `u16::parse` reads it. -/
def ReadPort (text : Str) (port : UInt16) : Prop := Spells text port.toNat ∧ 1 ≤ port.toNat

theorem parseOriginPort_eq_ok {text : Str} {port : UInt16} : parseOriginPort text = .ok port ↔ ReadPort text port := by
  unfold parseOriginPort ReadPort
  have hzero : port = 0 ↔ port.toNat = 0 := by
    rw [← UInt16.toNat_inj]
    rfl
  rw [← parseU16_ok]
  cases h : parseU16 text with
  | error e => simp
  | ok n =>
    simp only [Except.ok.injEq]
    by_cases hn : n = 0
    · rw [if_pos hn]
      constructor
      · rintro ⟨⟩
      · rintro ⟨rfl, hpos⟩
        rw [hn] at hpos
        exact absurd hpos (by decide)
    · rw [if_neg hn, Except.ok.injEq]
      constructor
      · rintro rfl
        exact ⟨rfl, Nat.pos_of_ne_zero fun h0 => hn (hzero.2 h0)⟩
      · exact fun h => h.1

/-- What the texts of IPv6 addresses are made of, and that they have two colons. -/
theorem part_of_isIpv6Addr {s : Str} (h : isIpv6Addr s = true) : Net.Ipv6Part 2 s := by
  unfold isIpv6Addr Net.parseWith at h
  cases hread : Net.readIpv6Addr s with
  | none =>
    rw [hread] at h
    cases h
  | some r =>
    obtain ⟨a, rest⟩ := r
    rw [hread] at h
    cases rest with
    | cons c rest => cases h
    | nil =>
      obtain ⟨used, hs, hpart⟩ := Net.readIpv6Addr_used hread
      rw [List.append_nil] at hs
      rwa [hs]

theorem not_mem_of_isIpv6Addr {s : Str} (h : isIpv6Addr s = true) {c : Char} (hc : Net.isIpv6Char c = false) :
    c ∉ s := by
  intro hmem
  rw [(part_of_isIpv6Addr h).chars c hmem] at hc
  cases hc

theorem ne_nil_of_isIpv6Addr {s : Str} (h : isIpv6Addr s = true) : s ≠ [] := by
  rintro rfl
  have hcount := (part_of_isIpv6Addr h).le_count
  simp at hcount

theorem map_eq_ok {ε α β : Type} {x : Except ε α} {f : α → β} {b : β} :
    x.map f = .ok b ↔ ∃ a, x = .ok a ∧ f a = b := by
  cases x <;> simp [Except.map]

theorem parseBracketTail_eq_ok {tail : Str} {port : Option UInt16} : parseBracketTail tail = .ok port ↔
    (tail = [] ∧ port = none) ∨ ∃ text n, tail = ':' :: text ∧ ReadPort text n ∧ port = some n := by
  unfold parseBracketTail
  cases tail with
  | nil => simp [eq_comm]
  | cons c tail =>
    rw [if_neg (by simp), Str.stripPrefix]
    by_cases hc : c = ':'
    · subst hc
      rw [if_pos rfl]
      show (parseOriginPort tail).map some = .ok port ↔ _
      simp only [map_eq_ok, parseOriginPort_eq_ok]
      constructor
      · rintro ⟨n, hread, rfl⟩
        exact Or.inr ⟨tail, n, rfl, hread, rfl⟩
      · rintro (⟨⟨⟩, -⟩ | ⟨text, n, heq, hread, rfl⟩)
        obtain rfl := List.tail_eq_of_cons_eq heq
        exact ⟨n, hread, rfl⟩
    · rw [if_neg hc]
      constructor
      · rintro ⟨⟩
      · rintro (⟨⟨⟩, -⟩ | ⟨text, n, heq, -⟩)
        exact absurd (List.head_eq_of_cons_eq heq) hc

theorem isIpv6Addr_bare {s : Str} (h : isIpv6Addr s = true) :
    (s.isEmpty || s.startsWith ['['] || !isIpv6Addr s) = false := by
  have hopen : '[' ∉ s := not_mem_of_isIpv6Addr h (by decide)
  have hhead : s.startsWith ['['] = false := by
    rw [← Bool.not_eq_true, startsWith_char]
    exact fun hhead => hopen (List.mem_of_mem_head? hhead)
  have hne : s.isEmpty = false := by
    rw [← Bool.not_eq_true, List.isEmpty_iff]
    exact ne_nil_of_isIpv6Addr h
  rw [hne, hhead, h]
  rfl

/-- A bracketed authority: an address up to the closing bracket, then the port. -/
theorem parseHostPort_bracket {rest host : Str} {port : Option UInt16} :
    parseHostPort ('[' :: rest) = .ok (host, port) ↔
      ∃ tail, rest = host ++ ']' :: tail ∧ isIpv6Addr host = true ∧ parseBracketTail tail = .ok port := by
  unfold parseHostPort
  rw [if_pos (startsWith_char.2 rfl)]
  constructor
  · intro h
    cases hsplit : Str.splitOnce ']' ('[' :: rest) with
    | none =>
      rw [hsplit] at h
      cases h
    | some p =>
      obtain ⟨before, tail⟩ := p
      rw [hsplit] at h
      obtain ⟨heq, -⟩ := Str.splitOnce_eq_some.1 hsplit
      obtain ⟨port', hport, h⟩ := Str.bind_eq_ok.1 h
      cases before with
      | nil => cases h
      | cons c before =>
        obtain ⟨rfl, rfl⟩ := List.cons.inj heq
        simp only [Str.stripPrefix, if_true] at h
        split at h
        · cases h
        · next hplain =>
          cases h
          simp only [Bool.or_eq_true, not_or, Bool.not_eq_true', Bool.not_eq_false] at hplain
          exact ⟨tail, rfl, hplain.2, hport⟩
  · rintro ⟨tail, rfl, hv6, hport⟩
    have hsplit : Str.splitOnce ']' ('[' :: (host ++ ']' :: tail)) = some ('[' :: host, tail) := by
      rw [Str.splitOnce_eq_some]
      -- an address has no bracket of its own, so the first one closes it
      refine ⟨rfl, ?_⟩
      rw [List.mem_cons, not_or]
      exact ⟨by decide, not_mem_of_isIpv6Addr hv6 (by decide)⟩
    rw [hsplit]
    refine Str.bind_eq_ok.2 ⟨port, hport, ?_⟩
    simp only [Str.stripPrefix, if_true]
    rw [isIpv6Addr_bare hv6, if_neg Bool.false_ne_true]

theorem ReadPort.colon_not_mem {text : Str} {port : UInt16} (h : ReadPort text port) : ':' ∉ text := by
  obtain ⟨⟨digits, htext, -, hdigits, -⟩, -⟩ := h
  have hcolon : ':' ∉ digits := fun hmem => absurd (hdigits ':' hmem) (by decide)
  rcases htext with rfl | rfl
  · exact hcolon
  · rw [List.mem_cons, not_or]
    exact ⟨by decide, hcolon⟩

theorem IsHost.not_mem {host : Str} (h : IsHost host) {c : Char} (hc : c.isAlphanum = false) (hhyphen : c ≠ '-')
    (hdot : c ≠ '.') : c ∉ host := by
  intro hmem
  rcases h.chars c hmem with hc' | hc' | hc'
  · rw [hc] at hc'
    cases hc'
  · exact hhyphen hc'
  · exact hdot hc'

theorem IsHost.colon_not_mem {host : Str} (h : IsHost host) : ':' ∉ host :=
    h.not_mem (by decide) (by decide) (by decide)

section

variable {value host before after : Str} {port : Option UInt16}

theorem parseHostPort_noColon (hopen : value.head? ≠ some '[') (hsplit : value.rsplitOnce ':' = none) :
    parseHostPort value = .ok (host, port) ↔ IsHost value ∧ host = value ∧ port = none := by
  rw [parseHostPort, if_neg (by rwa [startsWith_char]), hsplit, ← validUnbracketedOriginHost_iff]
  cases validUnbracketedOriginHost value <;> simp [eq_comm]

/-- With more than one colon only an address is read. -/
theorem parseHostPort_colons (hopen : value.head? ≠ some '[') (hsplit : value.rsplitOnce ':' = some (before, after))
    (hbefore : ':' ∈ before) :
    parseHostPort value = .ok (host, port) ↔ isIpv6Addr value = true ∧ host = value ∧ port = none := by
  have hcontains : before.containsText [':'] = true := by
    rw [Str.containsText, decide_eq_true_eq]
    exact (List.singleton_infix_iff ':' before).2 hbefore
  rw [parseHostPort, if_neg (by rwa [startsWith_char]), hsplit]
  simp only [hcontains, if_true]
  cases isIpv6Addr value <;> simp [eq_comm]

/-- With one colon a host and a port are read. -/
theorem parseHostPort_colon (hopen : value.head? ≠ some '[') (hsplit : value.rsplitOnce ':' = some (before, after))
    (hbefore : ':' ∉ before) : parseHostPort value = .ok (host, port) ↔
      host = before ∧ IsHost before ∧ ∃ n, ReadPort after n ∧ port = some n := by
  have hcontains : before.containsText [':'] = false := by
    rw [Str.containsText, decide_eq_false_iff_not]
    exact fun h => hbefore ((List.singleton_infix_iff ':' before).1 h)
  rw [parseHostPort, if_neg (by rwa [startsWith_char]), hsplit]
  simp only [hcontains, Bool.false_eq_true, if_false]
  constructor
  · intro h
    split at h
    · cases h
    · next hvalid =>
      obtain ⟨n, hn, heq⟩ := map_eq_ok.1 h
      cases heq
      simp only [Bool.not_eq_true', Bool.not_eq_false, validUnbracketedOriginHost_iff] at hvalid
      exact ⟨rfl, hvalid, n, parseOriginPort_eq_ok.1 hn, rfl⟩
  · rintro ⟨rfl, hhost, n, hread, rfl⟩
    rw [if_neg (by simp [validUnbracketedOriginHost_iff.2 hhost])]
    exact map_eq_ok.2 ⟨n, parseOriginPort_eq_ok.2 hread, rfl⟩

/-- An authority without a bracket at its start: the last colon tells the port, or there are more of them
and it is an address. -/
theorem parseHostPort_plain (hopen : value.head? ≠ some '[') :
    parseHostPort value = .ok (host, port) ↔ (IsHost value ∧ host = value ∧ port = none) ∨
      (∃ text n, value = host ++ ':' :: text ∧ IsHost host ∧ ReadPort text n ∧ port = some n) ∨
      (isIpv6Addr value = true ∧ host = value ∧ port = none) := by
  have hcolons (h : isIpv6Addr value = true) : 2 ≤ value.count ':' := (part_of_isIpv6Addr h).le_count
  -- a host and a port are split at the last colon
  have hsame {text : Str} {n : UInt16} (heq : value = host ++ ':' :: text) (hread : ReadPort text n) :
      value.rsplitOnce ':' = some (host, text) := Str.rsplitOnce_eq_some.2 ⟨heq, hread.colon_not_mem⟩
  cases hsplit : value.rsplitOnce ':' with
  | none =>
    have hcount : value.count ':' = 0 := List.count_eq_zero.2 (Str.rsplitOnce_eq_none.1 hsplit)
    refine (parseHostPort_noColon hopen hsplit).trans ⟨Or.inl, ?_⟩
    rintro (h | ⟨text, n, heq, -, hread, -⟩ | ⟨hv6, -⟩)
    · exact h
    · rw [hsame heq hread] at hsplit
      cases hsplit
    · have := hcolons hv6
      omega
  | some p =>
    obtain ⟨before, after⟩ := p
    obtain ⟨hvalue, hafter⟩ := Str.rsplitOnce_eq_some.1 hsplit
    have hnotHost : ¬ IsHost value := fun h => h.colon_not_mem (by simp [hvalue])
    by_cases hbefore : ':' ∈ before
    · refine (parseHostPort_colons hopen hsplit hbefore).trans ⟨fun h => Or.inr (Or.inr h), ?_⟩
      rintro (⟨hhost, -⟩ | ⟨text, n, heq, hhost, hread, -⟩ | h)
      · exact absurd hhost hnotHost
      · cases hsplit.symm.trans (hsame heq hread)
        exact absurd hbefore hhost.colon_not_mem
      · exact h
    · have hcount : value.count ':' = 1 := by
        rw [hvalue, List.count_append, List.count_cons_self, List.count_eq_zero.2 hbefore, List.count_eq_zero.2 hafter]
      rw [parseHostPort_colon hopen hsplit hbefore]
      constructor
      · rintro ⟨rfl, hhost, n, hread, rfl⟩
        exact Or.inr (Or.inl ⟨after, n, hvalue, hhost, hread, rfl⟩)
      · rintro (⟨hhost, -⟩ | ⟨text, n, heq, hhost, hread, rfl⟩ | ⟨hv6, -⟩)
        · exact absurd hhost hnotHost
        · cases hsplit.symm.trans (hsame heq hread)
          exact ⟨rfl, hhost, n, hread, rfl⟩
        · have := hcolons hv6
          omega

end

theorem head_ne_bracket {Port : Str → UInt16 → Prop} {value host : Str} {port : Option UInt16}
    (h : (IsHost value ∧ host = value ∧ port = none) ∨
      (∃ text n, value = host ++ ':' :: text ∧ IsHost host ∧ Port text n ∧ port = some n) ∨
      (isIpv6Addr value = true ∧ host = value ∧ port = none)) : value.head? ≠ some '[' := by
  intro hhead
  rcases h with ⟨hhost, -⟩ | ⟨text, n, rfl, hhost, -⟩ | ⟨hv6, -⟩
  · exact hhost.not_mem (c := '[') (by decide) (by decide) (by decide) (List.mem_of_mem_head? hhead)
  · rw [List.head?_append_of_ne_nil _ hhost.ne_nil] at hhead
    exact hhost.not_mem (c := '[') (by decide) (by decide) (by decide) (List.mem_of_mem_head? hhead)
  · exact not_mem_of_isIpv6Addr (c := '[') hv6 (by decide) (List.mem_of_mem_head? hhead)

/-- The grammar's authorities, by whether they begin with a bracket. -/
theorem authority_iff {Port : Str → UInt16 → Prop} {value host : Str} {port : Option UInt16} :
    Authority Port value host port ↔
      (∃ tail, value = '[' :: (host ++ ']' :: tail) ∧ isIpv6Addr host = true ∧
        ((tail = [] ∧ port = none) ∨ ∃ text n, tail = ':' :: text ∧ Port text n ∧ port = some n)) ∨
      (IsHost value ∧ host = value ∧ port = none) ∨
      (∃ text n, value = host ++ ':' :: text ∧ IsHost host ∧ Port text n ∧ port = some n) ∨
      (isIpv6Addr value = true ∧ host = value ∧ port = none) := by
  constructor
  · rintro (hhost | ⟨hhost, hport⟩ | hv6 | ⟨hv6, hport⟩ | hv6)
    · exact Or.inr (Or.inl ⟨hhost, rfl, rfl⟩)
    · exact Or.inr (Or.inr (Or.inl ⟨_, _, rfl, hhost, hport, rfl⟩))
    · exact Or.inl ⟨[], rfl, hv6, Or.inl ⟨rfl, rfl⟩⟩
    · exact Or.inl ⟨_, rfl, hv6, Or.inr ⟨_, _, rfl, hport, rfl⟩⟩
    · exact Or.inr (Or.inr (Or.inr ⟨hv6, rfl, rfl⟩))
  · rintro (⟨tail, rfl, hv6, ⟨rfl, rfl⟩ | ⟨text, n, rfl, hport, rfl⟩⟩ | ⟨hhost, rfl, rfl⟩ |
      ⟨text, n, rfl, hhost, hport, rfl⟩ | ⟨hv6, rfl, rfl⟩)
    · exact .bracketed hv6
    · exact .bracketedPort hv6 hport
    · exact .host hhost
    · exact .hostPort hhost hport
    · exact .bare hv6

/-- The authorities accepted are those of the grammar, with ports as they are read. -/
theorem parseHostPort_eq_ok {value host : Str} {port : Option UInt16} :
    parseHostPort value = .ok (host, port) ↔ Authority ReadPort value host port := by
  rw [authority_iff]
  by_cases hopen : value.head? = some '['
  · obtain ⟨rest, rfl⟩ := List.head?_eq_some_iff.1 hopen
    rw [parseHostPort_bracket]
    simp only [parseBracketTail_eq_ok]
    constructor
    · rintro ⟨tail, rfl, h⟩
      exact Or.inl ⟨tail, rfl, h⟩
    · rintro (⟨tail, heq, h⟩ | h)
      · exact ⟨tail, List.tail_eq_of_cons_eq heq, h⟩
      · exact absurd hopen (head_ne_bracket h)
  · rw [parseHostPort_plain hopen]
    refine ⟨Or.inr, ?_⟩
    rintro (⟨tail, rfl, -⟩ | h)
    · exact absurd rfl hopen
    · exact h

/-! ## Origins -/

/-- No character of an authority of the grammar is anything but these. -/
theorem Authority.not_mem {Port : Str → UInt16 → Prop} {c : Char} (hport : ∀ text n, Port text n → c ∉ text)
    (hc : c.isAlphanum = false) (hhyphen : c ≠ '-') (hv6 : Net.isIpv6Char c = false)
    (hopen : c ≠ '[') (hclose : c ≠ ']')
    {value host : Str} {port : Option UInt16} (h : Authority Port value host port) : c ∉ value := by
  have hdot : c ≠ '.' := by
    rintro rfl
    exact absurd hv6 (by decide)
  have hcolon : c ≠ ':' := by
    rintro rfl
    exact absurd hv6 (by decide)
  cases h with
  | host hhost => exact hhost.not_mem hc hhyphen hdot
  | hostPort hhost hp => simp [hhost.not_mem hc hhyphen hdot, hcolon, hport _ _ hp]
  | bracketed h => simp [not_mem_of_isIpv6Addr h hv6, hopen, hclose]
  | bracketedPort h hp => simp [not_mem_of_isIpv6Addr h hv6, hopen, hclose, hcolon, hport _ _ hp]
  | bare h => exact not_mem_of_isIpv6Addr h hv6

theorem Authority.mono {Port Port' : Str → UInt16 → Prop} (hle : ∀ text n, Port text n → Port' text n)
    {value host : Str}
    {port : Option UInt16} (h : Authority Port value host port) : Authority Port' value host port := by
  cases h with
  | host hhost => exact .host hhost
  | hostPort hhost hp => exact .hostPort hhost (hle _ _ hp)
  | bracketed h => exact .bracketed h
  | bracketedPort h hp => exact .bracketedPort h (hle _ _ hp)
  | bare h => exact .bare h

theorem Authority.ne_nil {Port : Str → UInt16 → Prop} {value host : Str} {port : Option UInt16}
    (h : Authority Port value host port) : value ≠ [] := by
  cases h with
  | host hhost => exact hhost.ne_nil
  | hostPort hhost hp => simp
  | bracketed h => simp
  | bracketedPort h hp => simp
  | bare h => exact ne_nil_of_isIpv6Addr h

/-- A scheme has no character that is not a letter. -/
theorem scheme_not_mem {c : Char} (hc : c.isAlpha = false) (hall : ∀ s ∈ originSchemes, c ∉ s) {scheme : Str}
    (h : scheme.toAsciiLowercase ∈ originSchemes) : c ∉ scheme := by
  intro hmem
  have hlower : c.toLower ∈ scheme.toAsciiLowercase := List.mem_map_of_mem hmem
  rw [(toLower_eq_iff hc c).2 rfl] at hlower
  exact hall _ h hlower

theorem splitOnceText_scheme {scheme : Str} (h : scheme.toAsciiLowercase ∈ originSchemes) (rest : Str) :
    Str.splitOnceText "://".toList (scheme ++ "://".toList ++ rest) = some (scheme, rest) := by
  have hcolon : ':' ∉ scheme := scheme_not_mem (by decide) (by decide) h
  have hstart : Str.splitOnceText "://".toList ("://".toList ++ rest) = some ([], rest) := rfl
  have hsep : "://".toList = ':' :: "//".toList := rfl
  rw [List.append_assoc, hsep, Str.splitOnceText_append_left (fun c hc (heq : c = ':') => hcolon (heq ▸ hc)), ← hsep,
    hstart,
    Option.map_some, List.append_nil]

namespace Origin

/-- The texts accepted are those of the grammar, with ports as they are read. -/
theorem parse_eq_ok {value : Str} {origin : Origin} : parse value = .ok origin ↔ OriginText ReadPort value origin := by
  unfold parse OriginText
  constructor
  · intro h
    split at h
    · cases h
    · next scheme rest hsplit =>
      simp only at h
      split at h
      · cases h
      · next hscheme =>
        split at h
        · cases h
        · obtain ⟨⟨host, port⟩, hhost, h⟩ := Str.bind_eq_ok.1 h
          cases h
          simp only [Bool.not_eq_true', Bool.not_eq_false, List.contains_iff_mem] at hscheme
          exact ⟨scheme, rest, host, Str.eq_append_of_splitOnceText hsplit, hscheme, parseHostPort_eq_ok.1 hhost, rfl,
            rfl⟩
  · rintro ⟨scheme, rest, host, hvalue, hscheme, hauthority, hs, hh⟩
    have hslash : '/' ∉ rest := by
      refine hauthority.not_mem (fun text n hread => ?_) (by decide) (by decide) (by decide) (by decide) (by decide)
      obtain ⟨⟨digits, htext, -, hdigits, -⟩, -⟩ := hread
      have hmem : '/' ∉ digits := fun hmem => absurd (hdigits '/' hmem) (by decide)
      rcases htext with rfl | rfl
      · exact hmem
      · simp [hmem]
    have hrest : (rest.isEmpty || rest.containsText ['/']) = false := by
      rw [Bool.or_eq_false_iff, Str.containsText, decide_eq_false_iff_not, ← Bool.not_eq_true, List.isEmpty_iff]
      exact ⟨hauthority.ne_nil, fun h => hslash ((List.singleton_infix_iff '/' rest).1 h)⟩
    rw [hvalue, splitOnceText_scheme hscheme]
    simp only
    rw [if_neg (by simp [hscheme]), hrest, if_neg Bool.false_ne_true, parseHostPort_eq_ok.2 hauthority]
    exact congrArg Except.ok (by cases origin; cases hs; cases hh; rfl)

end Origin

/-- A list of origins is accepted if every item that is not blank is. -/
theorem parseAllowedOrigins_eq_ok {value : Str} {origins : List Origin} : parseAllowedOrigins value = .ok origins ↔
    List.Forall₂ (OriginText ReadPort) (((value.split ',').map Str.trim).filter fun item => !item.isEmpty) origins := by
  unfold parseAllowedOrigins
  simp only [Str.mapM_eq_ok, Origin.parse_eq_ok]

/-! ## Plus signs -/

/-- A port with a plus sign before its digits. -/
def PlusPort (text : Str) (port : UInt16) : Prop := ∃ digits, text = '+' :: digits ∧ IsPort digits port

theorem readPort_iff {text : Str} {port : UInt16} : ReadPort text port ↔ IsPort text port ∨ PlusPort text port := by
  constructor
  · rintro ⟨⟨digits, rfl | rfl, hne, hdigits, hvalue⟩, hpos⟩
    · exact Or.inl ⟨hne, hdigits, hvalue, hpos⟩
    · exact Or.inr ⟨digits, rfl, hne, hdigits, hvalue, hpos⟩
  · rintro (⟨hne, hdigits, hvalue, hpos⟩ | ⟨digits, rfl, hne, hdigits, hvalue, hpos⟩)
    · exact ⟨⟨_, Or.inl rfl, hne, hdigits, hvalue⟩, hpos⟩
    · exact ⟨⟨digits, Or.inr rfl, hne, hdigits, hvalue⟩, hpos⟩

/-- The text is an origin of the grammar but for a plus sign before its port. -/
def PlusBeforePort (value : Str) : Prop := ∃ origin : Origin, origin.port ≠ none ∧ OriginText PlusPort value origin

theorem originText_readPort {value : Str} {origin : Origin} : OriginText ReadPort value origin ↔
    OriginText IsPort value origin ∨ (origin.port ≠ none ∧ OriginText PlusPort value origin) := by
  constructor
  · rintro ⟨scheme, rest, host, hvalue, hscheme, hauthority, hs⟩
    cases hport : origin.port with
    | none =>
      rw [hport] at hauthority
      refine Or.inl ⟨scheme, rest, host, hvalue, hscheme, ?_, hs⟩
      rw [hport]
      cases hauthority with
      | host h => exact .host h
      | bracketed h => exact .bracketed h
      | bare h => exact .bare h
    | some n =>
      rw [hport] at hauthority
      cases hauthority with
      | hostPort h hread =>
        rcases readPort_iff.1 hread with hread | hread
        · exact Or.inl ⟨scheme, _, host, hvalue, hscheme, hport ▸ .hostPort h hread, hs⟩
        · exact Or.inr ⟨nofun, scheme, _, host, hvalue, hscheme, hport ▸ .hostPort h hread, hs⟩
      | bracketedPort h hread =>
        rcases readPort_iff.1 hread with hread | hread
        · exact Or.inl ⟨scheme, _, host, hvalue, hscheme, hport ▸ .bracketedPort h hread, hs⟩
        · exact Or.inr ⟨nofun, scheme, _, host, hvalue, hscheme, hport ▸ .bracketedPort h hread, hs⟩
  · have hmono {Port : Str → UInt16 → Prop} (hle : ∀ {text n}, Port text n → ReadPort text n) :
        OriginText Port value origin → OriginText ReadPort value origin := by
      rintro ⟨scheme, rest, host, hvalue, hscheme, hauthority, hs⟩
      exact ⟨scheme, rest, host, hvalue, hscheme, hauthority.mono fun _ _ => hle, hs⟩
    rintro (h | ⟨-, h⟩)
    · exact hmono (fun hp => readPort_iff.2 (Or.inl hp)) h
    · exact hmono (fun hp => readPort_iff.2 (Or.inr hp)) h

/-- The grammar has no plus sign. -/
theorem OriginText.plus_not_mem {value : Str} {origin : Origin} (h : OriginText IsPort value origin) :
    '+' ∉ value.trim := by
  obtain ⟨scheme, rest, host, hvalue, hscheme, hauthority, -⟩ := h
  have hrest : '+' ∉ rest := by
    refine hauthority.not_mem (fun text n hport hmem => ?_) (by decide) (by decide) (by decide) (by decide) (by decide)
    exact absurd (hport.isDigit '+' hmem) (by decide)
  have hplus : '+' ∉ scheme := scheme_not_mem (by decide) (by decide) hscheme
  rw [hvalue]
  simp [hplus, hrest]

theorem plus_mem_of_plusPort {value : Str} {origin : Origin} (hport : origin.port ≠ none)
    (h : OriginText PlusPort value origin) : '+' ∈ value.trim := by
  obtain ⟨scheme, rest, host, hvalue, -, hauthority, -⟩ := h
  rw [hvalue]
  cases hp : origin.port with
  | none => exact absurd hp hport
  | some n =>
    rw [hp] at hauthority
    cases hauthority with
    | hostPort _ hplus =>
      obtain ⟨digits, rfl, -⟩ := hplus
      simp
    | bracketedPort _ hplus =>
      obtain ⟨digits, rfl, -⟩ := hplus
      simp

namespace Origin

/-- `parse` accepts exactly the texts of the grammar, with their lower-cased scheme and host and their port,
unless the text is an origin of the grammar but for a plus sign before its port. -/
theorem parse_grammar_iff (value : Str) :
    (∀ origin, parse value = .ok origin ↔ OriginText IsPort value origin) ↔ ¬ PlusBeforePort value := by
  constructor
  · rintro h ⟨origin, hport, hplus⟩
    have hread : OriginText ReadPort value origin := originText_readPort.2 (Or.inr ⟨hport, hplus⟩)
    exact ((h origin).1 (parse_eq_ok.2 hread)).plus_not_mem (plus_mem_of_plusPort hport hplus)
  · intro hnone origin
    rw [parse_eq_ok, originText_readPort]
    exact ⟨fun h => h.resolve_right fun hplus => hnone ⟨origin, hplus⟩, Or.inl⟩

/-- A plus sign before the port is accepted, and is not in the grammar. -/
theorem parse_plus_port :
    ¬ ∀ origin, parse "http://example.com:+80".toList = .ok origin ↔
      OriginText IsPort "http://example.com:+80".toList origin := by
  intro h
  have hparse : parse "http://example.com:+80".toList = .ok ⟨"http".toList, "example.com".toList, some 80⟩ := by
    decide +kernel
  exact ((h _).1 hparse).plus_not_mem (by decide)

end Origin

end WorldInfra.Http
