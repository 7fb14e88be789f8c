/-
What a user agent reads from the two header values of a refresh cookie. Each validator keeps out
the characters that would end its field, so the header values are well-formed cookies.
-/
import WorldInfra.AuthHttp.Cookie
import WorldInfra.Rfc.SetCookie

namespace WorldInfra.AuthHttp

open WorldInfra.Rust

/-! ## What the validators exclude -/

def printable (c : Char) : Prop := 0x20 ≤ c.toNat ∧ c.toNat < 0x7F

theorem cookieNameChar_excludes {c : Char} (h : cookieNameChar c = true) :
    printable c ∧ c ≠ '=' ∧ c ≠ ';' ∧ Rfc.isWsp c = false := by
  simp only [cookieNameChar, Bool.or_eq_true, Bool.and_eq_true, beq_iff_eq, decide_eq_true_eq, char_eq_iff, char_le_iff,
    Char.reduceToNat] at h
  simp only [printable, Rfc.isWsp, Bool.or_eq_false_iff, beq_eq_false_iff_ne, ne_eq, char_eq_iff, Char.reduceToNat]
  omega

theorem validateCookieName_ok {name : Str} (h : validateCookieName name = .ok ()) :
    name ≠ [] ∧ ∀ c ∈ name, cookieNameChar c = true := by
  unfold validateCookieName at h
  split at h
  · cases h
  · rename_i hbad
    simp only [Bool.or_eq_true, not_or, List.isEmpty_iff, List.any_eq_true, not_exists, not_and, Bool.not_eq_true',
      Bool.not_eq_false] at hbad
    exact ⟨hbad.1.1, hbad.2⟩

theorem validateCookieValue_ok {value : Str} (h : validateCookieValue value = .ok ()) :
    ∀ c ∈ value, printable c ∧ c ≠ ';' ∧ Rfc.isWsp c = false := by
  unfold validateCookieValue at h
  split at h
  · cases h
  · rename_i hbad
    rw [Bool.or_eq_true, not_or] at hbad
    intro c hc
    have hgood := mt (fun hcbad => List.any_eq_true.2 ⟨c, hc, hcbad⟩) hbad.2
    simp only [isAscii, isAsciiControl, isAsciiWhitespace, Bool.or_eq_true, Bool.not_eq_true', decide_eq_false_iff_not,
      decide_eq_true_eq, beq_iff_eq, char_eq_iff, Char.reduceToNat] at hgood
    simp only [printable, Rfc.isWsp, Bool.or_eq_false_iff, beq_eq_false_iff_ne, ne_eq, char_eq_iff, Char.reduceToNat]
    omega

theorem validateCookiePath_ok {path : Str} (h : validateCookiePath path = .ok ()) :
    (∃ rest, path = '/' :: rest) ∧ ∀ c ∈ path, printable c ∧ c ≠ ';' := by
  unfold validateCookiePath at h
  split at h
  · cases h
  · rename_i hbad
    rw [Bool.or_eq_true, not_or, Bool.not_eq_true', Bool.not_eq_false] at hbad
    constructor
    · obtain ⟨rest, hrest⟩ := List.isPrefixOf_iff_prefix.1 hbad.1
      exact ⟨rest, hrest.symm⟩
    · intro c hc
      have hgood := mt (fun hcbad => List.any_eq_true.2 ⟨c, hc, hcbad⟩) hbad.2
      simp only [isAscii, isAsciiControl, Bool.or_eq_true, Bool.not_eq_true', decide_eq_false_iff_not,
        decide_eq_true_eq, beq_iff_eq, char_eq_iff, Char.reduceToNat] at hgood
      simp only [printable, ne_eq, char_eq_iff, Char.reduceToNat]
      omega

theorem validateCookieDomain_ok {domain : Str} (h : validateCookieDomain domain = .ok ()) :
    ∀ c ∈ domain, printable c ∧ c ≠ ';' ∧ Rfc.isWsp c = false := by
  unfold validateCookieDomain at h
  split at h
  · cases h
  · split at h
    · cases h
    · rename_i hbad
      simp only [Bool.or_eq_true, not_or, Bool.not_eq_true', Bool.not_eq_false] at hbad
      intro c hc
      simp only [printable, Rfc.isWsp, Bool.or_eq_false_iff, beq_eq_false_iff_ne, ne_eq, char_eq_iff, Char.reduceToNat]
      have hlabels : c = '.' ∨ ∃ label ∈ domain.split '.', c ∈ label := Str.mem_splitOn hc
      rcases hlabels with rfl | ⟨label, hlabel, hc⟩
      · decide
      · have hvalid := List.all_eq_true.1 hbad.2 label hlabel
        rw [validCookieDomainLabel, Bool.and_eq_true, List.all_eq_true] at hvalid
        have hchar := hvalid.2 c hc
        simp only [Bool.or_eq_true, isAlphanum_iff, beq_iff_eq, char_eq_iff, Char.reduceToNat] at hchar
        omega

/-! ## The configuration -/

namespace RefreshCookieConfig

theorem validate_ok {config : RefreshCookieConfig} (h : config.validate = .ok ()) :
    validateCookieName config.name = .ok () ∧ validateCookiePath config.path = .ok () ∧
      (∀ domain, config.domain = some domain → validateCookieDomain domain = .ok ()) ∧
      (config.name.startsWith hostPrefixText = true →
        config.secure = true ∧ config.path = "/".toList ∧ config.domain = none) := by
  unfold validate at h
  obtain ⟨_, hname, h⟩ := Str.bind_eq_ok.1 h
  obtain ⟨_, hpath, h⟩ := Str.bind_eq_ok.1 h
  obtain ⟨_, hdomain, h⟩ := Str.bind_eq_ok.1 h
  refine ⟨hname, hpath, ?_, ?_⟩
  · intro domain hsome
    rw [hsome] at hdomain
    exact hdomain
  · intro hnamed
    split at h
    · cases h
    · rename_i hbad
      simp only [hnamed, Bool.true_and, Bool.or_eq_true, not_or, Bool.not_eq_true', Bool.not_eq_false, bne_iff_ne,
        ne_eq, not_not, Bool.not_eq_true, Option.isSome_eq_false_iff, Option.isNone_iff_eq_none] at hbad
      exact ⟨hbad.1.1, hbad.1.2, hbad.2⟩

/-! ## The texts written -/

/-- The attributes after the age, as texts. -/
def tailTexts (config : RefreshCookieConfig) : List Str :=
  (match config.domain with
    | some domain => ["Domain=".toList ++ domain]
    | none => []) ++
  (if config.httpOnly then ["HttpOnly".toList] else []) ++
  (if config.secure then ["Secure".toList] else []) ++ ["SameSite=".toList ++ config.sameSite.asStr]

theorem pushAttributes_write (config : RefreshCookieConfig) (name value : Str) (avs : List Str) :
    config.pushAttributes (Rfc.writeSetCookie name value avs) =
      Rfc.writeSetCookie name value (avs ++ config.tailTexts) := by
  rw [Rfc.writeSetCookie_append]
  generalize Rfc.writeSetCookie name value avs = written
  unfold pushAttributes tailTexts
  cases config.domain <;> cases config.httpOnly <;> cases config.secure <;> simp

theorem buildSetCookie_ok {config : RefreshCookieConfig} {value cookie : Str}
    (h : config.buildSetCookie value = .ok cookie) :
    config.validate = .ok () ∧ validateCookieValue value = .ok () ∧
      cookie = Rfc.writeSetCookie config.name value
        (["Path=".toList ++ config.path, "Max-Age=".toList ++ decimal (durationSecs config.maxAge)] ++
          config.tailTexts) := by
  unfold buildSetCookie at h
  obtain ⟨_, hvalid, h⟩ := Str.bind_eq_ok.1 h
  obtain ⟨_, hvalue, h⟩ := Str.bind_eq_ok.1 h
  refine ⟨hvalid, hvalue, ?_⟩
  rw [← pushAttributes_write]
  injection h with h
  rw [← h]
  congr 1
  simp only [Rfc.writeSetCookie, List.flatMap_cons, List.flatMap_nil, List.append_nil, List.append_assoc]
  rfl

theorem buildClearCookie_eq {config : RefreshCookieConfig} (h : config.validate = .ok ()) :
    config.buildClearCookie = .ok (Rfc.writeSetCookie config.name [] (["Path=".toList ++ config.path,
      "Max-Age=0".toList, "Expires=Thu, 01 Jan 1970 00:00:00 GMT".toList] ++ config.tailTexts)) := by
  unfold buildClearCookie
  rw [Str.bind_eq_ok]
  refine ⟨(), h, ?_⟩
  rw [← pushAttributes_write]
  congr 2
  simp only [Rfc.writeSetCookie, List.flatMap_cons, List.flatMap_nil, List.append_nil, List.append_assoc]
  rfl

/-! ## The attributes read -/

/-- The attributes after the age: those that say which cookie it is and how it may be used. -/
def tail (config : RefreshCookieConfig) : List (Str × Str) :=
  (match config.domain with
    | some domain => [("Domain".toList, domain)]
    | none => []) ++
  (if config.httpOnly then [("HttpOnly".toList, [])] else []) ++
  (if config.secure then [("Secure".toList, [])] else []) ++ [("SameSite".toList, config.sameSite.asStr)]

theorem readAttribute_tail {config : RefreshCookieConfig} (h : config.validate = .ok ()) :
    config.tailTexts.map (fun av => Rfc.readAttribute (' ' :: av)) = config.tail := by
  obtain ⟨-, -, hdomain, -⟩ := validate_ok h
  have hsite : Rfc.readAttribute (' ' :: ("SameSite=".toList ++ config.sameSite.asStr)) =
      ("SameSite".toList, config.sameSite.asStr) := by
    cases config.sameSite <;> rfl
  unfold tailTexts tail
  simp only [List.map_append, List.map_singleton, hsite]
  congr 1
  congr 1
  · congr 1
    · cases hsome : config.domain with
      | none => rfl
      | some domain =>
        have hwsp := fun c hc => (validateCookieDomain_ok (hdomain domain hsome) c hc).2.2
        have hname : Rfc.attributeName "Domain".toList = true := by decide
        have hread := Rfc.readAttribute_pair hname domain
        rw [Rfc.trimWsp_eq_self hwsp] at hread
        exact congrArg (· :: []) hread
    · cases config.httpOnly <;> rfl
  · cases config.secure <;> rfl

theorem readAttribute_path {config : RefreshCookieConfig} (h : config.validate = .ok ()) :
    Rfc.readAttribute (' ' :: ("Path=".toList ++ config.path)) =
      ("Path".toList, config.path.rdropWhile (· == ' ')) := by
  obtain ⟨-, hpath, -⟩ := validate_ok h
  obtain ⟨⟨rest, hrest⟩, hchars⟩ := validateCookiePath_ok hpath
  have hname : Rfc.attributeName "Path".toList = true := by decide
  have hread := Rfc.readAttribute_pair hname config.path
  refine Eq.trans hread ?_
  rw [Prod.mk.injEq]
  refine ⟨rfl, ?_⟩
  rw [hrest] at hchars ⊢
  apply Str.trimMatches_cons
  · decide
  · intro c hc
    have hprint := (hchars c hc).1
    have htab : (c == '	') = false := by
      simp only [printable, beq_eq_false_iff_ne, ne_eq, char_eq_iff, Char.reduceToNat] at hprint ⊢
      omega
    rw [Rfc.isWsp, htab, Bool.or_false]

theorem printable_decimal (n : Nat) : ∀ c ∈ decimal n, printable c ∧ c ≠ ';' ∧ Rfc.isWsp c = false := by
  intro c hc
  rw [decimal, if_neg (by omega)] at hc
  have hdigit := isAlphanum_iff.1 (Bool.or_eq_true_iff.2 (Or.inr (isDigit_of_mem_toDigits hc)))
  simp only [printable, Rfc.isWsp, Bool.or_eq_false_iff, beq_eq_false_iff_ne, ne_eq, char_eq_iff, Char.reduceToNat]
  omega

theorem readAttribute_maxAge (n : Nat) :
    Rfc.readAttribute (' ' :: ("Max-Age=".toList ++ decimal n)) = ("Max-Age".toList, decimal n) := by
  have hname : Rfc.attributeName "Max-Age".toList = true := by decide
  have hread := Rfc.readAttribute_pair hname (decimal n)
  rw [Rfc.trimWsp_eq_self fun c hc => (printable_decimal n c hc).2.2] at hread
  exact hread

/-- A character that may stand in an attribute. -/
def attributeChar (c : Char) : Bool := 0x20 ≤ c.toNat && c.toNat < 0x7F && c != ';'

theorem attributeChar_iff {c : Char} : attributeChar c = true ↔ printable c ∧ c ≠ ';' := by
  simp only [attributeChar, printable, Bool.and_eq_true, decide_eq_true_eq, bne_iff_ne, ne_eq]

theorem tailTexts_chars {config : RefreshCookieConfig} (h : config.validate = .ok ()) :
    ∀ av ∈ config.tailTexts, av.all attributeChar = true := by
  obtain ⟨-, -, hdomain, -⟩ := validate_ok h
  intro av hav
  unfold tailTexts at hav
  simp only [List.mem_append, List.mem_singleton] at hav
  rcases hav with ((hav | hav) | hav) | rfl
  · cases hsome : config.domain with
    | none => rw [hsome] at hav; cases hav
    | some domain =>
      rw [hsome] at hav
      rw [List.mem_singleton.1 hav, List.all_append, Bool.and_eq_true, List.all_eq_true (l := domain)]
      refine ⟨by decide, ?_⟩
      intro c hc
      have hchar := validateCookieDomain_ok (hdomain domain hsome) c hc
      exact attributeChar_iff.2 ⟨hchar.1, hchar.2.1⟩
  · split at hav
    · rw [List.mem_singleton.1 hav]
      decide
    · cases hav
  · split at hav
    · rw [List.mem_singleton.1 hav]
      decide
    · cases hav
  · cases config.sameSite <;> decide

/-- A cookie written from a valid configuration is read back, and all of it is printable. -/
theorem readSetCookie_config {config : RefreshCookieConfig} (h : config.validate = .ok ()) {value : Str}
    (hvalue : ∀ c ∈ value, printable c ∧ c ≠ ';' ∧ Rfc.isWsp c = false) {middle : List Str}
    (hmiddle : ∀ av ∈ middle, av.all attributeChar = true) :
    let cookie := Rfc.writeSetCookie config.name value (("Path=".toList ++ config.path) :: middle ++ config.tailTexts)
    Rfc.readSetCookie cookie = some ⟨config.name, value, ("Path".toList, config.path.rdropWhile (· == ' ')) ::
      middle.map (fun av => Rfc.readAttribute (' ' :: av)) ++ config.tail⟩ ∧
    ∀ c ∈ cookie, printable c := by
  intro cookie
  obtain ⟨hname, hpath, -⟩ := validate_ok h
  obtain ⟨hne, hname⟩ := validateCookieName_ok hname
  obtain ⟨-, hpath⟩ := validateCookiePath_ok hpath
  have hchars : ∀ av ∈ ("Path=".toList ++ config.path) :: middle ++ config.tailTexts, ∀ c ∈ av,
      printable c ∧ c ≠ ';' := by
    intro av hav c hc
    rw [← attributeChar_iff]
    rcases List.mem_append.1 hav with hav | hav
    · rcases List.mem_cons.1 hav with rfl | hav
      · rcases List.mem_append.1 hc with hc | hc
        · exact List.all_eq_true.1 (by decide : "Path=".toList.all attributeChar = true) c hc
        · exact attributeChar_iff.2 (hpath c hc)
      · exact List.all_eq_true.1 (hmiddle av hav) c hc
    · exact List.all_eq_true.1 (tailTexts_chars h av hav) c hc
  constructor
  · rw [Rfc.readSetCookie_write hne]
    · rw [List.map_append, List.map_cons, readAttribute_path h, readAttribute_tail h]
    · intro c hc
      exact (cookieNameChar_excludes (hname c hc)).2
    · intro c hc
      exact (hvalue c hc).2
    · intro av hav hsemi
      exact (hchars av hav _ hsemi).2 rfl
  · apply Rfc.forall_mem_writeSetCookie
    · unfold printable; decide
    · unfold printable; decide
    · unfold printable; decide
    · intro c hc
      exact (cookieNameChar_excludes (hname c hc)).1
    · intro c hc
      exact (hvalue c hc).1
    · intro av hav c hc
      exact (hchars av hav c hc).1

theorem ageText_chars (n : Nat) : ∀ av ∈ ["Max-Age=".toList ++ decimal n], av.all attributeChar = true := by
  intro av hav
  rw [List.mem_singleton.1 hav, List.all_append, Bool.and_eq_true, List.all_eq_true (l := decimal n)]
  refine ⟨by decide, ?_⟩
  intro c hc
  have hchar := printable_decimal n c hc
  exact attributeChar_iff.2 ⟨hchar.1, hchar.2.1⟩

theorem expiryTexts_chars : ∀ av ∈ ["Max-Age=0".toList, "Expires=Thu, 01 Jan 1970 00:00:00 GMT".toList],
    av.all attributeChar = true :=
  List.all_eq_true.1 (by decide)

theorem tail_all_ne_domain {config : RefreshCookieConfig} (h : config.domain = none) :
    (config.tail.all fun av => av.1 != "Domain".toList) = true := by
  rw [tail, h]
  cases config.httpOnly <;> cases config.secure <;> rfl

/-- The whole seconds that cover a duration, as far as 64 bits go, and at least one. -/
theorem durationSecs_eq (duration : Duration) :
    durationSecs duration = max 1 (min ((duration.nanos + (10 ^ 9 - 1)) / 10 ^ 9) (2 ^ 64 - 1)) := by
  unfold durationSecs Duration.asSecs Duration.subsecNanos
  split
  · omega
  · omega

/-- Under the host prefix a cookie is secure, for the path `/` and no domain. -/
theorem hostPrefix_attributes {config : RefreshCookieConfig} (h : config.validate = .ok ())
    (hnamed : config.name.startsWith hostPrefixText = true) :
    ("Path".toList, config.path.rdropWhile (· == ' ')) = ("Path".toList, "/".toList) ∧
      ("Secure".toList, []) ∈ config.tail ∧ ∀ domain, ("Domain".toList, domain) ∉ config.tail := by
  obtain ⟨-, -, -, hhost⟩ := validate_ok h
  obtain ⟨hsecure, hpath, hdomain⟩ := hhost hnamed
  refine ⟨?_, ?_, ?_⟩
  · rw [hpath]
    rfl
  · rw [tail, hsecure]
    exact List.mem_append_left _ (List.mem_append_right _ (List.mem_singleton_self _))
  · intro domain hmem
    have hother := List.all_eq_true.1 (tail_all_ne_domain hdomain) _ hmem
    exact bne_iff_ne.1 hother rfl

/-- A user agent reads from the header value built for a token exactly the configured cookie: the name,
the token, the path without spaces at its end, the age in seconds rounded up, at least one and at most
what 64 bits hold, and the other attributes as configured. The header value that clears the cookie can
then be built too and is read with the same name, path and attributes, no value and no age. Both are
printable throughout, and under the host prefix both are secure, for the path `/` and no domain. -/
theorem setCookie_readBack {config : RefreshCookieConfig} {value cookie : Str}
    (h : config.buildSetCookie value = .ok cookie) :
    let path := ("Path".toList, config.path.rdropWhile (· == ' '))
    let secs : Nat := max 1 (min ((config.maxAge.nanos + (10 ^ 9 - 1)) / 10 ^ 9) (2 ^ 64 - 1))
    Rfc.readSetCookie cookie =
      some ⟨config.name, value, path :: ("Max-Age".toList, decimal secs) :: config.tail⟩ ∧
    (∀ c ∈ cookie, printable c) ∧
    (∃ clear, config.buildClearCookie = .ok clear ∧
      Rfc.readSetCookie clear = some ⟨config.name, [], path :: ("Max-Age".toList, "0".toList) ::
        ("Expires".toList, "Thu, 01 Jan 1970 00:00:00 GMT".toList) :: config.tail⟩ ∧
      ∀ c ∈ clear, printable c) ∧
    (config.name.startsWith hostPrefixText = true → path = ("Path".toList, "/".toList) ∧
      ("Secure".toList, []) ∈ config.tail ∧ ∀ domain, ("Domain".toList, domain) ∉ config.tail) := by
  intro path secs
  obtain ⟨hvalid, hvalue, rfl⟩ := buildSetCookie_ok h
  have hsecs : durationSecs config.maxAge = secs := durationSecs_eq config.maxAge
  obtain ⟨hset, hsetChars⟩ := readSetCookie_config hvalid (validateCookieValue_ok hvalue) (ageText_chars secs)
  have hempty : ∀ c ∈ ([] : Str), printable c ∧ c ≠ ';' ∧ Rfc.isWsp c = false := fun c hc => nomatch hc
  obtain ⟨hclear, hclearChars⟩ := readSetCookie_config hvalid hempty expiryTexts_chars
  refine ⟨?_, ?_, ⟨_, buildClearCookie_eq hvalid, ?_, hclearChars⟩, ?_⟩
  · rw [List.map_singleton, readAttribute_maxAge] at hset
    rw [hsecs]
    exact hset
  · rw [hsecs]
    exact hsetChars
  · exact hclear
  · exact hostPrefix_attributes hvalid

/-- A token under a host prefix that expires after half a second. -/
theorem setCookie_readBack_hostPrefix :
    let config : RefreshCookieConfig :=
      ⟨"__Host-r".toList, "/".toList, none, true, true, .lax, ⟨500000000, by decide⟩⟩
    ∃ cookie, config.buildSetCookie "t".toList = .ok cookie ∧ Rfc.readSetCookie cookie =
      some ⟨"__Host-r".toList, "t".toList, [("Path".toList, "/".toList), ("Max-Age".toList, "1".toList),
        ("HttpOnly".toList, []), ("Secure".toList, []), ("SameSite".toList, "Lax".toList)]⟩ := by
  intro config
  have h : config.buildSetCookie "t".toList =
      .ok "__Host-r=t; Path=/; Max-Age=1; HttpOnly; Secure; SameSite=Lax".toList := by decide
  refine ⟨_, h, (setCookie_readBack h).1.trans ?_⟩
  decide

/-- The longest duration is written one second too short: rounded up it is more than 64 bits hold. -/
theorem setCookie_longestAge :
    let config : RefreshCookieConfig :=
      ⟨"__Host-r".toList, "/".toList, none, true, true, .lax, ⟨2 ^ 64 * 10 ^ 9 - 1, by decide⟩⟩
    (config.maxAge.nanos + (10 ^ 9 - 1)) / 10 ^ 9 = 18446744073709551616 ∧
    ∃ cookie, config.buildSetCookie "t".toList = .ok cookie ∧ (Rfc.readSetCookie cookie).map Rfc.Cookie.attributes =
      some [("Path".toList, "/".toList), ("Max-Age".toList, "18446744073709551615".toList), ("HttpOnly".toList, []),
        ("Secure".toList, []), ("SameSite".toList, "Lax".toList)] := by
  intro config
  refine ⟨?_, "__Host-r=t; Path=/; Max-Age=18446744073709551615; HttpOnly; Secure; SameSite=Lax".toList, ?_, ?_⟩
  · show (2 ^ 64 * 10 ^ 9 - 1 + (10 ^ 9 - 1)) / 10 ^ 9 = 18446744073709551616
    norm_num
  · decide
  · decide

end RefreshCookieConfig

end WorldInfra.AuthHttp
