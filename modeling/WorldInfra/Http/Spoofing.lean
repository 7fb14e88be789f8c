/-
http-primitives: what a client can and cannot decide. Entries are read from the right, where the
trusted proxies append, up to the first that is no trusted proxy; nothing to its left is looked at.
-/
import WorldInfra.Http.ClientIp
import WorldInfra.Rust.Utf8

namespace WorldInfra.Http

open WorldInfra.Rust

/-! ## The scan -/

section

variable {parseEntry : Str → Option IpAddr} {trustedProxies : List Cidr}

/-- An entry that ends the scan: it is not blank, and no address of a trusted proxy. -/
def Decisive (parseEntry : Str → Option IpAddr) (trustedProxies : List Cidr) (entry : Str) : Prop :=
  entry.trim ≠ [] ∧ ∀ addr, parseEntry entry.trim = some addr → isTrustedProxy addr trustedProxies = false

/-- The entries that are looked at, of a list from the right. -/
def nonblank (entries : List Str) : List Str := (entries.map Str.trim).filter fun entry => !entry.isEmpty

theorem nonblank_blank {entry : Str} (h : entry.trim = []) (entries : List Str) :
    nonblank (entry :: entries) = nonblank entries := by
  simp [nonblank, h]

theorem nonblank_cons {entry : Str} (h : entry.trim ≠ []) (entries : List Str) :
    nonblank (entry :: entries) = entry.trim :: nonblank entries := by
  simp [nonblank, h]

/-- Past a decisive entry nothing is looked at. -/
theorem scanEntries_decisive : ∀ {entries : List Str}, (∃ entry ∈ entries, Decisive parseEntry trustedProxies entry) →
    ∀ (saw saw' : Bool) (rest rest' : List Str),
      scanEntries parseEntry trustedProxies saw (nonblank (entries ++ rest)) =
        scanEntries parseEntry trustedProxies saw' (nonblank (entries ++ rest'))
  | [], h, _, _, _, _ => by
    obtain ⟨_, h, -⟩ := h
    cases h
  | entry :: entries, h, saw, saw', rest, rest' => by
    rw [List.cons_append, List.cons_append]
    by_cases hblank : entry.trim = []
    · have hlater : ∃ entry ∈ entries, Decisive parseEntry trustedProxies entry := by
        obtain ⟨e, he, hd⟩ := h
        rcases List.mem_cons.1 he with rfl | he
        · exact absurd hblank hd.1
        · exact ⟨e, he, hd⟩
      rw [nonblank_blank hblank, nonblank_blank hblank]
      exact scanEntries_decisive hlater saw saw' rest rest'
    · rw [nonblank_cons hblank, nonblank_cons hblank, scanEntries, scanEntries]
      rcases haddr : parseEntry entry.trim with _ | addr
      · rfl
      · cases htrusted : isTrustedProxy addr trustedProxies with
        | false => simp only [htrusted, Bool.not_false, if_true]
        | true =>
          -- the entry is a trusted proxy, so the decisive one is to its left
          have hlater : ∃ entry ∈ entries, Decisive parseEntry trustedProxies entry := by
            obtain ⟨e, he, hd⟩ := h
            rcases List.mem_cons.1 he with rfl | he
            · have := hd.2 addr haddr
              rw [htrusted] at this
              cases this
            · exact ⟨e, he, hd⟩
          simp only [htrusted, Bool.not_true, Bool.false_eq_true, if_false]
          exact scanEntries_decisive hlater true true rest rest'

theorem scanEntries_ne_missing : ∀ entries : List Str, scanEntries parseEntry trustedProxies true entries ≠ .missing
  | [] => fun h => nomatch h
  | entry :: entries => by
    rw [scanEntries]
    split
    · exact fun h => nomatch h
    · split
      · exact fun h => nomatch h
      · exact scanEntries_ne_missing entries

/-- The address found is no trusted proxy's, and everything looked at before it was. -/
theorem scanEntries_found {addr : IpAddr} : ∀ {entries : List Str} {saw : Bool},
    scanEntries parseEntry trustedProxies saw (nonblank entries) = .found addr →
      isTrustedProxy addr trustedProxies = false ∧ ∃ right entry left, entries = right ++ entry :: left ∧
        entry.trim ≠ [] ∧ parseEntry entry.trim = some addr ∧ ∀ e ∈ right, e.trim ≠ [] →
          ∃ proxy, parseEntry e.trim = some proxy ∧ isTrustedProxy proxy trustedProxies = true
  | [], saw, h => by cases saw <;> cases h
  | entry :: entries, saw, h => by
    by_cases hblank : entry.trim = []
    · -- a blank entry is not looked at
      rw [nonblank_blank hblank] at h
      obtain ⟨huntrusted, right, e, left, rfl, hne, hparse, hright⟩ := scanEntries_found h
      refine ⟨huntrusted, entry :: right, e, left, rfl, hne, hparse, ?_⟩
      intro e' he' hne'
      rcases List.mem_cons.1 he' with rfl | he'
      · exact absurd hblank hne'
      · exact hright e' he' hne'
    · rw [nonblank_cons hblank, scanEntries] at h
      rcases haddr : parseEntry entry.trim with _ | a
      · rw [haddr] at h
        cases h
      · rw [haddr] at h
        cases htrusted : isTrustedProxy a trustedProxies with
        | false =>
          simp only [htrusted, Bool.not_false, if_true] at h
          cases h
          exact ⟨htrusted, [], entry, entries, rfl, hblank, haddr, fun _ he => nomatch he⟩
        | true =>
          -- a trusted proxy: the address found is to its left
          simp only [htrusted, Bool.not_true, Bool.false_eq_true, if_false] at h
          obtain ⟨huntrusted, right, e, left, rfl, hne, hparse, hright⟩ := scanEntries_found h
          refine ⟨huntrusted, entry :: right, e, left, rfl, hne, hparse, ?_⟩
          intro e' he' hne'
          rcases List.mem_cons.1 he' with rfl | he'
          · exact ⟨a, haddr, htrusted⟩
          · exact hright e' he' hne'

end

/-! ## Headers -/

section

variable (parseEntry : Str → Option IpAddr) (trustedProxies : List Cidr)

/-- The scan of a header's value, if it has one. -/
def scanHeader (value : Option Str) : HeaderClientIp :=
  match value with
  | none => .missing
  | some value => scanEntries parseEntry trustedProxies false (entriesFromRight value)

/-- The value ends in these entries. -/
def EndsIn (suffix : List Str) (value : Option Str) : Prop :=
  ∃ joined before, value = some joined ∧ joined.split ',' = before ++ suffix

/-- The value has no entry, or blank ones only. -/
def NoEntry (value : Option Str) : Prop := ∀ joined, value = some joined → ∀ entry ∈ joined.split ',', entry.trim = []

/-- The address stands in the value, it is no trusted proxy's, and the entries to its right are. -/
def TakenFrom (addr : IpAddr) (value : Option Str) : Prop :=
  isTrustedProxy addr trustedProxies = false ∧ ∃ joined left entry right, value = some joined ∧
    joined.split ',' = left ++ entry :: right ∧ entry.trim ≠ [] ∧ parseEntry entry.trim = some addr ∧
    ∀ e ∈ right, e.trim ≠ [] → ∃ proxy, parseEntry e.trim = some proxy ∧ isTrustedProxy proxy trustedProxies = true

variable {parseEntry trustedProxies}

theorem entriesFromRight_eq {joined : Str} : entriesFromRight joined = nonblank (joined.split ',').reverse := rfl

/-- Values with one decisive suffix are scanned alike. -/
theorem scanHeader_suffix {suffix : List Str} (h : ∃ entry ∈ suffix, Decisive parseEntry trustedProxies entry)
    {value value' : Option Str} (hv : EndsIn suffix value) (hv' : EndsIn suffix value') :
    scanHeader parseEntry trustedProxies value = scanHeader parseEntry trustedProxies value' := by
  obtain ⟨joined, before, rfl, hsplit⟩ := hv
  obtain ⟨joined', before', rfl, hsplit'⟩ := hv'
  have hrev : ∃ entry ∈ suffix.reverse, Decisive parseEntry trustedProxies entry := by
    obtain ⟨entry, hentry, hd⟩ := h
    exact ⟨entry, List.mem_reverse.2 hentry, hd⟩
  rw [scanHeader, scanHeader, entriesFromRight_eq, entriesFromRight_eq, hsplit, hsplit', List.reverse_append,
    List.reverse_append]
  exact scanEntries_decisive hrev false false before.reverse before'.reverse

theorem scanHeader_ne_missing {suffix : List Str} (h : ∃ entry ∈ suffix, Decisive parseEntry trustedProxies entry)
    {value : Option Str} (hv : EndsIn suffix value) : scanHeader parseEntry trustedProxies value ≠ .missing := by
  obtain ⟨joined, before, rfl, hsplit⟩ := hv
  have hrev : ∃ entry ∈ suffix.reverse, Decisive parseEntry trustedProxies entry := by
    obtain ⟨entry, hentry, hd⟩ := h
    exact ⟨entry, List.mem_reverse.2 hentry, hd⟩
  rw [scanHeader, entriesFromRight_eq, hsplit, List.reverse_append,
    scanEntries_decisive hrev false true before.reverse before.reverse]
  exact scanEntries_ne_missing _

theorem scanHeader_noEntry {value : Option Str} (h : NoEntry value) :
    scanHeader parseEntry trustedProxies value = .missing := by
  rcases value with _ | joined
  · rfl
  · have hnone : nonblank (joined.split ',').reverse = [] := by
      rw [nonblank, List.filter_eq_nil_iff]
      intro entry hentry
      obtain ⟨e, he, rfl⟩ := List.mem_map.1 hentry
      rw [h joined rfl e (List.mem_reverse.1 he)]
      exact Bool.false_ne_true
    rw [scanHeader, entriesFromRight_eq, hnone]
    rfl

theorem scanHeader_found {value : Option Str} {addr : IpAddr}
    (h : scanHeader parseEntry trustedProxies value = .found addr) :
      TakenFrom parseEntry trustedProxies addr value := by
  rcases value with _ | joined
  · cases h
  · rw [scanHeader, entriesFromRight_eq] at h
    obtain ⟨huntrusted, right, entry, left, hsplit, hne, hparse, hright⟩ := scanEntries_found h
    refine ⟨huntrusted, joined, left.reverse, entry, right.reverse, rfl, ?_, hne, hparse, ?_⟩
    · rw [← List.reverse_reverse (joined.split ','), hsplit]
      simp
    · intro e he
      exact hright e (List.mem_reverse.1 he)

end

theorem parseForwardedFor_eq (value : Option Str) (trustedProxies : List Cidr) :
    parseForwardedFor value trustedProxies = scanHeader forwardedAddr trustedProxies value := rfl

theorem parseXForwardedFor_eq (value : Option Str) (trustedProxies : List Cidr) :
    parseXForwardedFor value trustedProxies = scanHeader parseIpToken trustedProxies value := rfl

/-! ## The client -/

/-- Where the client's address comes from: the headers in their order, the first two of them by
what stands to the right of the address, or the peer. -/
theorem extractClientIp_cases (peer : IpAddr) (trustedProxies : List Cidr)
    (forwarded xForwardedFor xRealIp : Option Str) :
    let addr := extractClientIp peer trustedProxies forwarded xForwardedFor xRealIp
    addr = peer ∨
    (parseForwardedFor forwarded trustedProxies = .found addr ∧ TakenFrom forwardedAddr trustedProxies addr forwarded) ∨
    (parseForwardedFor forwarded trustedProxies = .missing ∧
      parseXForwardedFor xForwardedFor trustedProxies = .found addr ∧
      TakenFrom parseIpToken trustedProxies addr xForwardedFor) ∨
    (parseForwardedFor forwarded trustedProxies = .missing ∧
      parseXForwardedFor xForwardedFor trustedProxies = .missing ∧ parseSingleIpHeader xRealIp = .found addr) := by
  unfold extractClientIp
  split
  · exact Or.inl rfl
  · rcases hforwarded : parseForwardedFor forwarded trustedProxies with _ | _ | a
    · rcases hx : parseXForwardedFor xForwardedFor trustedProxies with _ | _ | a
      · rcases hreal : parseSingleIpHeader xRealIp with _ | _ | a
        · exact Or.inl rfl
        · exact Or.inl rfl
        · exact Or.inr (Or.inr (Or.inr ⟨rfl, rfl, rfl⟩))
      · exact Or.inl rfl
      · exact Or.inr (Or.inr (Or.inl ⟨rfl, rfl, scanHeader_found hx⟩))
    · exact Or.inl rfl
    · exact Or.inr (Or.inl ⟨rfl, scanHeader_found hforwarded⟩)

theorem extractClientIp_untrusted {peer : IpAddr} {trustedProxies : List Cidr}
    (h : trustedProxies.any (fun proxy => proxy.contains peer) = false) (forwarded xForwardedFor xRealIp : Option Str) :
    extractClientIp peer trustedProxies forwarded xForwardedFor xRealIp = peer := by
  rw [extractClientIp, h]
  rfl

/-- A decisive suffix of `Forwarded` decides. -/
theorem extractClientIp_forwarded (peer : IpAddr) {trustedProxies : List Cidr} {suffix : List Str}
    (h : ∃ entry ∈ suffix, Decisive forwardedAddr trustedProxies entry) {forwarded forwarded' : Option Str}
    (hv : EndsIn suffix forwarded) (hv' : EndsIn suffix forwarded')
    (xForwardedFor xForwardedFor' xRealIp xRealIp' : Option Str) :
    extractClientIp peer trustedProxies forwarded xForwardedFor xRealIp =
      extractClientIp peer trustedProxies forwarded' xForwardedFor' xRealIp' := by
  have hsome : parseForwardedFor forwarded' trustedProxies ≠ .missing := scanHeader_ne_missing h hv'
  unfold extractClientIp
  rw [parseForwardedFor_eq, scanHeader_suffix h hv hv', ← parseForwardedFor_eq]
  rcases hforwarded : parseForwardedFor forwarded' trustedProxies with _ | _ | a
  · exact absurd hforwarded hsome
  · rfl
  · rfl

/-- Without an entry in `Forwarded`, a decisive suffix of `X-Forwarded-For` decides. -/
theorem extractClientIp_xForwardedFor (peer : IpAddr) {trustedProxies : List Cidr} {forwarded forwarded' : Option Str}
    (hnone : NoEntry forwarded) (hnone' : NoEntry forwarded') {suffix : List Str}
    (h : ∃ entry ∈ suffix, Decisive parseIpToken trustedProxies entry) {xForwardedFor xForwardedFor' : Option Str}
    (hv : EndsIn suffix xForwardedFor) (hv' : EndsIn suffix xForwardedFor') (xRealIp xRealIp' : Option Str) :
    extractClientIp peer trustedProxies forwarded xForwardedFor xRealIp =
      extractClientIp peer trustedProxies forwarded' xForwardedFor' xRealIp' := by
  have hsome : parseXForwardedFor xForwardedFor' trustedProxies ≠ .missing := scanHeader_ne_missing h hv'
  unfold extractClientIp
  rw [parseForwardedFor_eq, parseForwardedFor_eq, scanHeader_noEntry hnone, scanHeader_noEntry hnone',
    parseXForwardedFor_eq, scanHeader_suffix h hv hv', ← parseXForwardedFor_eq]
  rcases hx : parseXForwardedFor xForwardedFor' trustedProxies with _ | _ | a
  · exact absurd hx hsome
  · rfl
  · rfl

/-- An untrusted peer is the client. Header maps whose decisive header ends in the same entries, one
of them decisive, give the same client, whatever stands before and in the headers after it. And an
address taken from a list of proxies is no trusted proxy's, while all to its right are. -/
theorem clientIp_not_spoofed {V : Type} (toStr : V → Option Str) (peer : IpAddr) (config : TrustedProxyConfig) :
    (config.trustsPeer peer = false → ∀ headers, clientIpFromHeaderMap toStr headers peer config = peer) ∧
    (∀ (headers headers' : HeaderMap V) (suffix : List Str),
      (∃ entry ∈ suffix, Decisive forwardedAddr config.trustedProxies entry) →
      EndsIn suffix (joinedHeaderValues toStr headers "forwarded".toList) →
      EndsIn suffix (joinedHeaderValues toStr headers' "forwarded".toList) →
      clientIpFromHeaderMap toStr headers peer config = clientIpFromHeaderMap toStr headers' peer config) ∧
    (∀ (headers headers' : HeaderMap V) (suffix : List Str),
      NoEntry (joinedHeaderValues toStr headers "forwarded".toList) →
      NoEntry (joinedHeaderValues toStr headers' "forwarded".toList) →
      (∃ entry ∈ suffix, Decisive parseIpToken config.trustedProxies entry) →
      EndsIn suffix (joinedHeaderValues toStr headers "x-forwarded-for".toList) →
      EndsIn suffix (joinedHeaderValues toStr headers' "x-forwarded-for".toList) →
      clientIpFromHeaderMap toStr headers peer config = clientIpFromHeaderMap toStr headers' peer config) ∧
    ∀ headers : HeaderMap V,
      let forwarded := joinedHeaderValues toStr headers "forwarded".toList
      let xForwardedFor := joinedHeaderValues toStr headers "x-forwarded-for".toList
      let xRealIp := joinedHeaderValues toStr headers "x-real-ip".toList
      let addr := clientIpFromHeaderMap toStr headers peer config
      addr = peer ∨
      (parseForwardedFor forwarded config.trustedProxies = .found addr ∧
        TakenFrom forwardedAddr config.trustedProxies addr forwarded) ∨
      (parseForwardedFor forwarded config.trustedProxies = .missing ∧
        parseXForwardedFor xForwardedFor config.trustedProxies = .found addr ∧
        TakenFrom parseIpToken config.trustedProxies addr xForwardedFor) ∨
      (parseForwardedFor forwarded config.trustedProxies = .missing ∧
        parseXForwardedFor xForwardedFor config.trustedProxies = .missing ∧
          parseSingleIpHeader xRealIp = .found addr) := by
  refine ⟨fun h headers => ?_, ?_, ?_, fun headers => ?_⟩
  · exact extractClientIp_untrusted h _ _ _
  · intro headers headers' suffix h hv hv'
    exact extractClientIp_forwarded peer h hv hv' _ _ _ _
  · intro headers headers' suffix hnone hnone' h hv hv'
    exact extractClientIp_xForwardedFor peer hnone hnone' h hv hv' _ _
  · exact extractClientIp_cases peer config.trustedProxies _ _ _

/-! ## Header lines -/

/-- `HeaderValue::to_str`: the text of a value of visible ASCII bytes, spaces and tabs. -/
def visibleAscii (value : Bytes) : Option Str :=
  if value.all fun b => (0x20 ≤ b && b < 0x7F) || b == 0x09 then some (value.map fun b => Char.ofNat b.toNat) else none

def HeaderMap.ofLines (lines : List (Str × Bytes)) : HeaderMap Bytes where
  getAll name := (lines.filter fun line => line.1.eqIgnoreAsciiCase name).map Prod.snd

/-- What a client prepends, a line that does not decode among it, is not looked at. -/
theorem clientIp_not_spoofed_prepended :
    let line (text : String) : Str × Bytes := ("Forwarded".toList, Utf8.encode text.toList)
    let config : TrustedProxyConfig := ⟨[⟨.v4 0x0A000000, 8, by decide⟩]⟩
    clientIpFromHeaderMap visibleAscii (.ofLines [("Forwarded".toList, [0xFF]), line "for=198.51.100.7,for=\"[::1]\"",
      line "for=203.0.113.9, for=10.0.0.2"]) (.v4 0x0A000001) config =
    clientIpFromHeaderMap visibleAscii (.ofLines [line "for=10.9.9.9", line "for=203.0.113.9, for=10.0.0.2"])
      (.v4 0x0A000001) config := by
  intro line config
  refine (clientIp_not_spoofed visibleAscii (.v4 0x0A000001) config).2.1 _ _
    ["for=203.0.113.9".toList, " for=10.0.0.2".toList] ?_ ?_ ?_
  · refine ⟨"for=203.0.113.9".toList, List.mem_cons_self .., by decide, ?_⟩
    have haddr : forwardedAddr (Str.trim "for=203.0.113.9".toList) = some (.v4 0xCB007109) := by decide
    intro addr h
    rw [haddr, Option.some.injEq] at h
    subst h
    decide
  · exact ⟨_, ["__invalid_header_value__".toList, "for=198.51.100.7".toList, "for=\"[::1]\"".toList], rfl, by decide⟩
  · exact ⟨_, ["for=10.9.9.9".toList], rfl, by decide⟩

end WorldInfra.Http
