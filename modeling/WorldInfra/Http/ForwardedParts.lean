/-
http-primitives: what an entry of the `Forwarded` header is read as, against the elements of its grammar.
The entry is cut at semicolons, and the first part that looks like a `for` parameter decides; its value is
read with its escapes, and as an address in some forms that the grammar does not have.
-/
import WorldInfra.Http.NodeText
import WorldInfra.Rfc.Forwarded

namespace WorldInfra.Http

open WorldInfra.Rust WorldInfra.Rfc

/-! ## Parts that look like a parameter -/

/-- The part reads as a `for` parameter of the value. -/
def ForPart (part value : Str) : Prop :=
  ∃ name, part.trim = name ++ '=' :: value ∧ name.eqIgnoreAsciiCase "for".toList = true

/-- Up to the first `for`, no part behind a quoted semicolon reads as another. -/
def UnechoedPairs : ForwardedElement → Prop
  | [] => True
  | none :: element => UnechoedPairs element
  | some pair :: element => pair.name.text.eqIgnoreAsciiCase "for".toList = false →
    (∀ part ∈ (pair.value.text.split ';').tail, ∀ value, ¬ ForPart part value) ∧ UnechoedPairs element

/-- The first part of the text that reads as a `for` parameter has the address for its value. -/
def Supplies (entry : Str) (addr : IpAddr) : Prop :=
  ∃ parts part rest value, entry.split ';' = parts ++ part :: rest ∧ (∀ p ∈ parts, ∀ v, ¬ ForPart p v) ∧
    ForPart part value ∧ Taken value.trim addr

theorem UnechoedPairs.cons_for {pair : ForwardedPair} {element : ForwardedElement}
    (hname : pair.name.text.eqIgnoreAsciiCase "for".toList = true) : UnechoedPairs (some pair :: element) := by
  intro hother
  rw [hname] at hother
  cases hother

theorem splitOnce_of_forPart {part value : Str} (h : ForPart part value) : ∃ name,
    part.trim.splitOnce '=' = some (name, value) ∧ name.eqIgnoreAsciiCase "for".toList = true := by
  obtain ⟨name, hpart, hname⟩ := h
  refine ⟨name, Str.splitOnce_eq_some.2 ⟨hpart, fun hmem => ?_⟩, hname⟩
  have hlower := List.mem_map_of_mem (f := Char.toLower) hmem
  rw [beq_iff_eq.1 hname] at hlower
  exact absurd hlower (by decide)

theorem parseForwardedParts_append {rest : List Str} : ∀ {parts : List Str}, (∀ p ∈ parts, ∀ v, ¬ ForPart p v) →
    parseForwardedParts (parts ++ rest) = parseForwardedParts rest
  | [], _ => rfl
  | part :: parts, h => by
    obtain ⟨hpart, hparts⟩ := List.forall_mem_cons.1 h
    rw [List.cons_append, parseForwardedParts, parseForwardedParts_append hparts]
    cases hcut : part.trim.splitOnce '=' with
    | none => rfl
    | some p =>
      obtain ⟨name, raw⟩ := p
      cases hname : name.eqIgnoreAsciiCase "for".toList with
      | true => exact absurd ⟨name, (Str.splitOnce_eq_some.1 hcut).1, hname⟩ (hpart raw)
      | false => simp only [hname, Bool.false_eq_true, if_false]

/-- What is read of the value of a `for` part. -/
theorem parseForwardedParts_cons_for {part value : Str} (h : ForPart part value) (rest : List Str) :
    parseForwardedParts (part :: rest) =
      (((unquoteForwardedValue value.trim).bind parseIpToken).map .found).getD .invalid := by
  obtain ⟨name, hcut, hname⟩ := splitOnce_of_forPart h
  rw [parseForwardedParts, hcut]
  simp only [hname, if_true]
  cases unquoteForwardedValue value.trim <;> rfl

/-! ## Values -/

def IsEscaped : QuotedChar → Prop
  | .plain .. => False
  | .escaped .. => True

/-- The value is read without its quotes only. -/
def Verbatim : ForwardedValue → Prop
  | .token _ => True
  | .quoted chars => ∀ c ∈ chars, ¬ IsEscaped c

/-- The value is read otherwise than it says, with the address at stake. -/
inductive MisreadValue (value : ForwardedValue) (addr : IpAddr) : Prop where
  | said (h : Verbatim value) (hmisread : Misread value.said addr)
  | escaped (h : ¬ Verbatim value) (hnames : NamesAddress value.said addr)

theorem Verbatim.flatMap_text : ∀ {chars : List QuotedChar}, (∀ c ∈ chars, ¬ IsEscaped c) →
    chars.flatMap QuotedChar.text = chars.map QuotedChar.char
  | [], _ => rfl
  | c :: chars, h => by
    obtain ⟨hc, hchars⟩ := List.forall_mem_cons.1 h
    rw [List.flatMap_cons, List.map_cons, Verbatim.flatMap_text hchars]
    cases c with
    | plain c hqd => rfl
    | escaped c hquotable => exact absurd trivial hc

/-- A quote stands behind a backslash. -/
theorem backslash_mem_of_quote : ∀ {chars : List QuotedChar} {s : Str}, s <+: chars.flatMap QuotedChar.text →
    '\x22' ∈ s → '\\' ∈ s
  | [], s, h, hmem => by
    rw [List.flatMap_nil, List.prefix_nil] at h
    rw [h] at hmem
    cases hmem
  | .plain c hqd :: chars, [], h, hmem => nomatch hmem
  | .plain c hqd :: chars, d :: s, h, hmem => by
    obtain ⟨rfl, hs⟩ := List.cons_prefix_cons.1 h
    rcases List.mem_cons.1 hmem with rfl | hmem
    · cases hqd
    · exact List.mem_cons_of_mem _ (backslash_mem_of_quote hs hmem)
  | .escaped c hquotable :: chars, [], h, hmem => nomatch hmem
  | .escaped c hquotable :: chars, d :: s, h, hmem => by
    obtain ⟨rfl, -⟩ := List.cons_prefix_cons.1 h
    exact List.mem_cons_self ..

theorem Token.excludes (t : Token) {c : Char} (hc : tchar c = false) : c ∉ t.text := by
  intro hmem
  rw [List.all_eq_true.1 t.chars c hmem] at hc
  cases hc

theorem unquoteForwardedValue_bare {s : Str} (h : '\x22' ∉ s) : unquoteForwardedValue s = some s := by
  have hnotQuoted : Str.stripPrefix '"' s = none := by
    cases hstrip : Str.stripPrefix '"' s with
    | none => rfl
    | some t =>
      rw [stripPrefix_eq_some.1 hstrip] at h
      exact absurd (List.mem_cons_self ..) h
  rw [unquoteForwardedValue, hnotQuoted]
  exact if_neg fun hlast => h (List.mem_of_getLast? (beq_iff_eq.1 hlast))

theorem unquoteForwardedValue_quoted (chars : List QuotedChar) :
    unquoteForwardedValue (ForwardedValue.quoted chars).text = some (chars.flatMap QuotedChar.text) := by
  show Str.stripSuffix '"' (chars.flatMap QuotedChar.text ++ ['"']) = _
  rw [Str.stripSuffix, List.getLast?_concat, List.dropLast_concat]
  rfl

/-- What is read of a `for` value. -/
def readForValue (value : ForwardedValue) : Option IpAddr := (unquoteForwardedValue value.text).bind parseIpToken

theorem readForValue_verbatim {value : ForwardedValue} (h : Verbatim value) :
    readForValue value = parseIpToken value.said := by
  cases value with
  | token t =>
    show (unquoteForwardedValue t.text).bind parseIpToken = parseIpToken t.text
    rw [unquoteForwardedValue_bare (Token.excludes t (by decide)), Option.bind_some]
  | quoted chars =>
    rw [readForValue, unquoteForwardedValue_quoted, Option.bind_some, Verbatim.flatMap_text h]
    rfl

/-- A backslash is in no text that is taken for an address. -/
theorem readForValue_escaped {value : ForwardedValue} (h : ¬ Verbatim value) : readForValue value = none := by
  cases value with
  | token t => exact absurd trivial h
  | quoted chars =>
    have hbackslash : '\\' ∈ chars.flatMap QuotedChar.text := by
      simp only [Verbatim, not_forall, not_not] at h
      obtain ⟨c, hc, hescaped⟩ := h
      refine List.mem_flatMap.2 ⟨c, hc, ?_⟩
      cases c with
      | plain c hqd => exact absurd hescaped id
      | escaped c hquotable => exact List.mem_cons_self ..
    rw [readForValue, unquoteForwardedValue_quoted, Option.bind_some, parseIpToken_eq_none (.inl rfl) hbackslash]

/-- A value is read as it says, unless it is misread. -/
theorem readForValue_said {value : ForwardedValue} (h : ∀ addr, ¬ MisreadValue value addr) {addr : IpAddr} :
    readForValue value = some addr ↔ NamesAddress value.said addr := by
  by_cases hverbatim : Verbatim value
  · rw [readForValue_verbatim hverbatim]
    exact parseIpToken_eq_some_iff fun addr hmisread => h addr (.said hverbatim hmisread)
  · rw [readForValue_escaped hverbatim]
    exact ⟨nofun, fun hnames => absurd (.escaped hverbatim hnames) (h addr)⟩

/-- A value that is misread is read as the address though it names none, or as none though it names it. -/
theorem readForValue_misread {value : ForwardedValue} {addr : IpAddr} (h : MisreadValue value addr) :
    (readForValue value = some addr ∧ ∀ a, ¬ NamesAddress value.said a) ∨
      (readForValue value = none ∧ NamesAddress value.said addr) := by
  cases h with
  | said h hmisread =>
    rw [readForValue_verbatim h]
    exact misread_iff.1 hmisread
  | escaped h hnames => exact .inr ⟨readForValue_escaped h, hnames⟩

theorem not_misreadValue {value : ForwardedValue} {a : IpAddr} (h : Verbatim value)
    (hparse : parseIpToken value.said = some a) (hnames : NamesAddress value.said a) (addr : IpAddr) :
    ¬ MisreadValue value addr := by
  rintro (⟨-, hmisread⟩ | ⟨hnot, -⟩)
  · exact not_misread hparse hnames addr hmisread
  · exact hnot h

/-! ## Pairs -/

/-- The first part of a pair begins with the name, and the others are those of the value. -/
theorem split_pair (pair : ForwardedPair) : ∃ first rest,
    pair.text.split ';' = (pair.name.text ++ '=' :: first) :: rest ∧ pair.value.text.split ';' = first :: rest := by
  have hhead : ∀ {s : Str}, ';' ∉ s → (pair.name.text ++ '=' :: s).split ';' = [pair.name.text ++ '=' :: s] := by
    intro s hs
    apply List.splitOn_eq_singleton
    rw [List.mem_append, List.mem_cons]
    rintro (hname | heq | hmem)
    · exact Token.excludes pair.name (by decide) hname
    · cases heq
    · exact hs hmem
  cases hcut : pair.value.text.splitOnce ';' with
  | none =>
    have hmem := Str.splitOnce_eq_none.1 hcut
    exact ⟨_, [], hhead hmem, List.splitOn_eq_singleton hmem⟩
  | some p =>
    obtain ⟨first, more⟩ := p
    obtain ⟨hvalue, hmem⟩ := Str.splitOnce_eq_some.1 hcut
    refine ⟨first, more.split ';', ?_, ?_⟩
    · have htext : pair.text = (pair.name.text ++ '=' :: first) ++ ';' :: more := by
        rw [ForwardedPair.text, hvalue, List.append_assoc, List.cons_append]
      rw [htext, Str.split_append_cons, hhead hmem, List.singleton_append]
    · rw [hvalue, Str.split_append_cons]
      exact congrArg (· ++ _) (List.splitOn_eq_singleton hmem)

/-- The white space behind the first part of a value is trimmed, before it is cut from the name or after. -/
theorem trim_name_append (name : Token) (s : Str) :
    (name.text ++ '=' :: s).trim = name.text ++ '=' :: s.trimEnd := by
  obtain ⟨c, text, htext⟩ := List.exists_cons_of_ne_nil name.ne
  have hc : isWhitespace c = false := (tchar_excludes (List.all_eq_true.1 name.chars c (by simp [htext]))).1
  rw [htext]
  exact Str.trim_around hc (by decide) [] text s

theorem forPart_name {name : Token} (hname : name.text.eqIgnoreAsciiCase "for".toList = true) (s : Str) :
    ForPart (name.text ++ '=' :: s) s.trimEnd := ⟨name.text, trim_name_append name s, hname⟩

theorem not_forPart_name {name : Token} (hname : name.text.eqIgnoreAsciiCase "for".toList = false) (s v : Str) :
    ¬ ForPart (name.text ++ '=' :: s) v := by
  intro h
  obtain ⟨name', hcut, hname'⟩ := splitOnce_of_forPart h
  rw [trim_name_append, Str.splitOnce_eq_some.2 ⟨rfl, Token.excludes name (by decide)⟩] at hcut
  cases hcut
  rw [hname] at hname'
  cases hname'

/-- What stands before a semicolon in a quoted string is no address; its last quote, if it ends with one, is escaped. -/
theorem read_before_semicolon {chars : List QuotedChar} {first more : Str}
    (h : (ForwardedValue.quoted chars).text = first ++ ';' :: more) :
    (unquoteForwardedValue first.trimEnd.trim).bind parseIpToken = none := by
  cases first with
  | nil => cases (List.cons.inj h).1
  | cons c inner =>
    obtain rfl : '"' = c := (List.cons.inj h).1
    have hinner : chars.flatMap QuotedChar.text ++ ['"'] = inner ++ ';' :: more := (List.cons.inj h).2
    have hprefix : inner <+: chars.flatMap QuotedChar.text := by
      refine List.prefix_of_prefix_length_le ⟨_, hinner.symm⟩ (List.prefix_append _ ['"']) ?_
      have hlength := congrArg List.length hinner
      simp only [List.length_append, List.length_cons, List.length_nil] at hlength
      omega
    have htrimEnd : ∀ s : Str, Str.trimEnd ('"' :: s) = '"' :: s.trimEnd := Str.trimEnd_append_cons (by decide) []
    have htrim : Str.trim ('"' :: Str.trimEnd inner) = '"' :: Str.trimEnd inner := by
      show Str.trimEnd ('"' :: Str.trimEnd inner) = _
      rw [htrimEnd]
      exact congrArg _ (List.rdropWhile_idempotent ..)
    rw [htrimEnd, htrim]
    show (Str.stripSuffix '"' (Str.trimEnd inner)).bind parseIpToken = none
    cases hstrip : Str.stripSuffix '"' (Str.trimEnd inner) with
    | none => rfl
    | some v =>
      have hv : Str.trimEnd inner = v ++ ['"'] := Str.eq_append_of_stripSuffix hstrip
      have hbackslash : '\\' ∈ Str.trimEnd inner :=
        backslash_mem_of_quote ((List.rdropWhile_prefix _ _).trans hprefix) (by simp [hv])
      rw [hv, List.mem_append] at hbackslash
      rw [Option.bind_some]
      exact parseIpToken_eq_none (.inl rfl) (hbackslash.resolve_right (by decide))

/-- A `for` value that holds a semicolon is no address, nor is what stands before the semicolon. -/
theorem read_first_part {value : ForwardedValue} {first : Str} {rest : List Str}
    (h : value.text.split ';' = first :: rest) :
    (unquoteForwardedValue first.trimEnd.trim).bind parseIpToken = readForValue value := by
  cases hcut : value.text.splitOnce ';' with
  | none =>
    rw [Str.split, List.splitOn_eq_singleton (Str.splitOnce_eq_none.1 hcut)] at h
    cases h
    rw [value.tight.2, value.tight.trim, readForValue]
  | some p =>
    obtain ⟨u, more⟩ := p
    obtain ⟨hvalue, hmem⟩ := Str.splitOnce_eq_some.1 hcut
    rw [hvalue, Str.split_append_cons, Str.split, List.splitOn_eq_singleton hmem] at h
    cases h
    cases value with
    | token t =>
      have hnot : ';' ∉ t.text := Token.excludes t (by decide)
      rw [show t.text = first ++ ';' :: more from hvalue] at hnot
      exact absurd (List.mem_append_right _ (List.mem_cons_self ..)) hnot
    | quoted chars =>
      have hsemicolon : ';' ∈ '"' :: (chars.flatMap QuotedChar.text ++ ['"']) := by
        rw [show '"' :: (chars.flatMap QuotedChar.text ++ ['"']) = first ++ ';' :: more from hvalue]
        exact List.mem_append_right _ (List.mem_cons_self ..)
      rw [List.mem_cons, List.mem_append, List.mem_singleton] at hsemicolon
      replace hsemicolon := (hsemicolon.resolve_left (by decide)).resolve_right (by decide)
      rw [read_before_semicolon hvalue, readForValue, unquoteForwardedValue_quoted, Option.bind_some,
        parseIpToken_eq_none (.inr rfl) hsemicolon]

theorem parseForwardedParts_pairs : ∀ {element : ForwardedElement}, UnechoedPairs element →
    parseForwardedParts (element.flatMap fun slot => (slotText slot).split ';') =
      (((parameter "for".toList element).bind readForValue).map .found).getD .invalid
  | [], _ => rfl
  | none :: element, h => by
    show parseForwardedParts (element.flatMap fun slot => (slotText slot).split ';') = _
    have hpairs : UnechoedPairs element := h
    rw [parseForwardedParts_pairs hpairs]
    rfl
  | some pair :: element, h => by
    obtain ⟨first, rest, hpair, hvalue⟩ := split_pair pair
    have hparts : (slotText (some pair)).split ';' = (pair.name.text ++ '=' :: first) :: rest := hpair
    rw [List.flatMap_cons, hparts, parameter]
    cases hname : pair.name.text.eqIgnoreAsciiCase "for".toList with
    | true =>
      rw [List.cons_append, parseForwardedParts_cons_for (forPart_name hname first), read_first_part hvalue]
      rfl
    | false =>
      obtain ⟨hothers, hrest⟩ := h hname
      rw [hvalue, List.tail_cons] at hothers
      rw [parseForwardedParts_append (List.forall_mem_cons.2 ⟨not_forPart_name hname first, hothers⟩),
        parseForwardedParts_pairs hrest]
      rfl

/-! ## Entries -/

/-- The entry of an element, if no part of it is taken for another parameter. -/
theorem forwardedAddr_elementText {element : ForwardedElement} (h : UnechoedPairs element) :
    forwardedAddr (elementText element) = (parameter "for".toList element).bind readForValue := by
  have hentry : parseForwardedEntry (elementText element) =
      (((parameter "for".toList element).bind readForValue).map .found).getD .invalid := by
    rw [parseForwardedEntry, elementText]
    cases element with
    | nil => rfl
    | cons slot element =>
      rw [Str.split_intercalate ';' (by exact List.cons_ne_nil _ _), List.flatMap_map]
      exact parseForwardedParts_pairs h
  rw [forwardedAddr, hentry]
  cases (parameter "for".toList element).bind readForValue <;> rfl

/-- The entry that supplies an address is read as it. -/
theorem forwardedAddr_of_supplies {entry : Str} {addr : IpAddr} (h : Supplies entry addr) :
    forwardedAddr entry = some addr := by
  obtain ⟨parts, part, rest, value, hsplit, hothers, hpart, htaken⟩ := h
  have hquote : '\x22' ∉ value.trim := fun hmem => (htaken.chars _ hmem).2.1 rfl
  rw [forwardedAddr, parseForwardedEntry, hsplit, parseForwardedParts_append hothers,
    parseForwardedParts_cons_for hpart, unquoteForwardedValue_bare hquote, Option.bind_some, htaken.parseIpToken]
  rfl

/-- And one of which no part reads as a `for` parameter is read as none. -/
theorem forwardedAddr_of_no_forPart {entry : Str} (h : ∀ part ∈ entry.split ';', ∀ v, ¬ ForPart part v) :
    forwardedAddr entry = none := by
  have hparts : parseForwardedParts (entry.split ';' ++ []) = .invalid := parseForwardedParts_append h
  rw [List.append_nil] at hparts
  rw [forwardedAddr, parseForwardedEntry, hparts]

theorem Supplies.ne_nil {entry : Str} {addr : IpAddr} (h : Supplies entry addr) : entry ≠ [] := by
  rintro rfl
  obtain ⟨parts, part, rest, value, hsplit, -, ⟨name, hpart, -⟩, -⟩ := h
  have hmem : part ∈ Str.split [] ';' := by
    rw [hsplit]
    exact List.mem_append_right _ (List.mem_cons_self ..)
  rw [show Str.split [] ';' = [[]] from rfl, List.mem_singleton] at hmem
  rw [hmem] at hpart
  cases name <;> cases hpart

end WorldInfra.Http
