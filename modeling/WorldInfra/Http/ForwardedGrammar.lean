/-
http-primitives: the `Forwarded` header against its grammar. The header is cut at commas and its
pieces at semicolons before anything is known of quotes, so that a quoted string can begin an entry.
-/
import WorldInfra.Http.ForwardedParts
import WorldInfra.Http.Spoofing

namespace WorldInfra.Http

open WorldInfra.Rust WorldInfra.Rfc

/-! ## What a header says -/

/-- The `for` parameter of the element is a node that names the address. -/
def ForAddress (element : ForwardedElement) (addr : IpAddr) : Prop :=
  ∃ value, parameter "for".toList element = some value ∧ NamesAddress value.said addr

/-- The element carries the address of a trusted proxy. -/
def CarriesTrusted (trustedProxies : List Cidr) (element : ForwardedElement) : Prop :=
  ∃ proxy, ForAddress element proxy ∧ isTrustedProxy proxy trustedProxies = true

/-- The answer a list of elements gives: the rightmost that does not carry the address of a trusted
proxy decides it. -/
structure AnswersFor (trustedProxies : List Cidr) (elements : List ForwardedElement) (answer : HeaderClientIp) :
    Prop where
  found : ∀ addr, answer = .found addr ↔ ∃ left element right, elements = left ++ element :: right ∧
    ForAddress element addr ∧ isTrustedProxy addr trustedProxies = false ∧
      ∀ e ∈ right, CarriesTrusted trustedProxies e
  invalid : ∀ left element right, elements = left ++ element :: right → (∀ addr, ¬ ForAddress element addr) →
    (∀ e ∈ right, CarriesTrusted trustedProxies e) → answer = .invalid

/-! ## Element by element -/

theorem ForAddress.unique {element : ForwardedElement} {addr addr' : IpAddr} (h : ForAddress element addr)
    (h' : ForAddress element addr') : addr = addr' := by
  obtain ⟨value, hvalue, hnames⟩ := h
  obtain ⟨value', hvalue', hnames'⟩ := h'
  rw [hvalue, Option.some.injEq] at hvalue'
  subst hvalue'
  exact namesAddress_unique hnames hnames'

/-- The answer of elements in the order in which they are looked at, from the right. -/
structure AnswersFromRight (trustedProxies : List Cidr) (elements : List ForwardedElement) (answer : HeaderClientIp) :
    Prop where
  found : ∀ addr, answer = .found addr ↔ ∃ before element after, elements = before ++ element :: after ∧
    ForAddress element addr ∧ isTrustedProxy addr trustedProxies = false ∧
      ∀ e ∈ before, CarriesTrusted trustedProxies e
  invalid : ∀ before element after, elements = before ++ element :: after → (∀ addr, ¬ ForAddress element addr) →
    (∀ e ∈ before, CarriesTrusted trustedProxies e) → answer = .invalid

section

variable {trustedProxies : List Cidr} {element : ForwardedElement} {elements : List ForwardedElement}
  {answer : HeaderClientIp}

theorem answersFor_iff_fromRight :
    AnswersFor trustedProxies elements answer ↔ AnswersFromRight trustedProxies elements.reverse answer := by
  have hsplit : ∀ {left right : List ForwardedElement} {element : ForwardedElement},
      elements.reverse = right ++ element :: left ↔ elements = left.reverse ++ element :: right.reverse := by
    intro left right element
    rw [List.reverse_eq_iff, List.reverse_append, List.reverse_cons, List.append_assoc, List.singleton_append]
  have hall : ∀ {l : List ForwardedElement}, (∀ e ∈ l.reverse, CarriesTrusted trustedProxies e) ↔
      ∀ e ∈ l, CarriesTrusted trustedProxies e := by
    intro l
    simp only [List.mem_reverse]
  constructor
  · intro h
    constructor
    · intro addr
      rw [h.found]
      constructor
      · rintro ⟨left, element, right, rfl, haddr, huntrusted, hright⟩
        exact ⟨right.reverse, element, left.reverse, by simp, haddr, huntrusted, hall.2 hright⟩
      · rintro ⟨before, element, after, heq, haddr, huntrusted, hbefore⟩
        exact ⟨_, element, _, hsplit.1 heq, haddr, huntrusted, hall.2 hbefore⟩
    · intro before element after heq hmissing hbefore
      exact h.invalid _ element _ (hsplit.1 heq) hmissing (hall.2 hbefore)
  · intro h
    constructor
    · intro addr
      rw [h.found]
      constructor
      · rintro ⟨before, element, after, heq, haddr, huntrusted, hbefore⟩
        exact ⟨_, element, _, hsplit.1 heq, haddr, huntrusted, hall.2 hbefore⟩
      · rintro ⟨left, element, right, rfl, haddr, huntrusted, hright⟩
        exact ⟨right.reverse, element, left.reverse, by simp, haddr, huntrusted, hall.2 hright⟩
    · intro left element right heq hmissing hright
      exact h.invalid right.reverse element left.reverse (by simp [heq]) hmissing (hall.2 hright)

namespace AnswersFromRight

theorem nil (h : ∀ addr, answer ≠ .found addr) : AnswersFromRight trustedProxies [] answer := by
  constructor
  · intro addr
    refine ⟨fun hfound => absurd hfound (h addr), ?_⟩
    rintro ⟨before, element, after, heq, -⟩
    cases before <;> cases heq
  · intro before element after heq
    cases before <;> cases heq

/-- An element without an address decides. -/
theorem cons_missing (h : ∀ addr, ¬ ForAddress element addr) :
    AnswersFromRight trustedProxies (element :: elements) .invalid := by
  constructor
  · intro addr
    refine ⟨nofun, ?_⟩
    rintro ⟨before, element', after, heq, haddr, -, hbefore⟩
    cases before with
    | nil =>
      cases heq
      exact absurd haddr (h addr)
    | cons e before =>
      cases heq
      obtain ⟨proxy, hproxy, -⟩ := hbefore element (List.mem_cons_self ..)
      exact absurd hproxy (h proxy)
  · intro before element' after heq hmissing hbefore
    rfl

/-- And so does one whose address is not trusted. -/
theorem cons_untrusted {addr : IpAddr} (h : ForAddress element addr)
    (huntrusted : isTrustedProxy addr trustedProxies = false) :
    AnswersFromRight trustedProxies (element :: elements) (.found addr) := by
  have hnot : ¬ CarriesTrusted trustedProxies element := by
    rintro ⟨proxy, hproxy, htrusted⟩
    rw [hproxy.unique h, huntrusted] at htrusted
    cases htrusted
  constructor
  · intro addr'
    constructor
    · rintro ⟨⟩
      exact ⟨[], element, elements, rfl, h, huntrusted, nofun⟩
    · rintro ⟨before, element', after, heq, haddr, -, hbefore⟩
      cases before with
      | nil =>
        cases heq
        rw [h.unique haddr]
      | cons e before =>
        cases heq
        exact absurd (hbefore element (List.mem_cons_self ..)) hnot
  · intro before element' after heq hmissing hbefore
    cases before with
    | nil =>
      cases heq
      exact absurd h (hmissing addr)
    | cons e before =>
      cases heq
      exact absurd (hbefore element (List.mem_cons_self ..)) hnot

/-- A trusted proxy leaves the answer to the elements to its left. -/
theorem cons_trusted (h : CarriesTrusted trustedProxies element) :
    AnswersFromRight trustedProxies (element :: elements) answer ↔ AnswersFromRight trustedProxies elements answer := by
  obtain ⟨proxy, hproxy, htrusted⟩ := h
  have hdecides : ∀ addr, (∃ before element' after, element :: elements = before ++ element' :: after ∧
      ForAddress element' addr ∧ isTrustedProxy addr trustedProxies = false ∧
        ∀ e ∈ before, CarriesTrusted trustedProxies e) ↔
      ∃ before element' after, elements = before ++ element' :: after ∧ ForAddress element' addr ∧
        isTrustedProxy addr trustedProxies = false ∧ ∀ e ∈ before, CarriesTrusted trustedProxies e := by
    intro addr
    constructor
    · rintro ⟨before, element', after, heq, haddr, huntrusted, hbefore⟩
      cases before with
      | nil =>
        cases heq
        rw [haddr.unique hproxy, htrusted] at huntrusted
        cases huntrusted
      | cons e before =>
        cases heq
        exact ⟨before, element', after, rfl, haddr, huntrusted, fun e he => hbefore e (List.mem_cons_of_mem _ he)⟩
    · rintro ⟨before, element', after, rfl, haddr, huntrusted, hbefore⟩
      exact ⟨element :: before, element', after, rfl, haddr, huntrusted,
        List.forall_mem_cons.2 ⟨⟨proxy, hproxy, htrusted⟩, hbefore⟩⟩
  constructor
  · intro h
    refine ⟨fun addr => (h.found addr).trans (hdecides addr), fun before element' after heq hmissing hbefore => ?_⟩
    exact h.invalid (element :: before) element' after (by rw [heq]; rfl) hmissing
      (List.forall_mem_cons.2 ⟨⟨proxy, hproxy, htrusted⟩, hbefore⟩)
  · intro h
    refine ⟨fun addr => (h.found addr).trans (hdecides addr).symm, fun before element' after heq hmissing hbefore => ?_⟩
    cases before with
    | nil =>
      cases heq
      exact absurd hproxy (hmissing proxy)
    | cons e before =>
      cases heq
      exact h.invalid before element' after rfl hmissing fun e he => hbefore e (List.mem_cons_of_mem _ he)

end AnswersFromRight

end

/-- The element's address is that of its value. -/
theorem forAddress_iff {element : ForwardedElement} {value : ForwardedValue}
    (h : parameter "for".toList element = some value) {addr : IpAddr} :
    ForAddress element addr ↔ NamesAddress value.said addr := by
  simp only [ForAddress, h, Option.some.injEq, exists_eq_left']

theorem bind_readForValue {element : ForwardedElement}
    (h : ∀ value, parameter "for".toList element = some value → ∀ a, ¬ MisreadValue value a) {addr : IpAddr} :
    (parameter "for".toList element).bind readForValue = some addr ↔ ForAddress element addr := by
  cases hvalue : parameter "for".toList element with
  | none =>
    rw [Option.bind_none]
    refine ⟨nofun, ?_⟩
    rintro ⟨value, hsome, -⟩
    rw [hvalue] at hsome
    cases hsome
  | some value => rw [Option.bind_some, forAddress_iff hvalue, readForValue_said (h value hvalue)]

/-! ## The entries of a header -/

/-- The entries between the commas of a header, item by item. -/
theorem entriesFromRight_headerText (items : List ListItem) :
    entriesFromRight (headerText items) = items.reverse.flatMap fun item => nonblank (item.text.split ',').reverse := by
  rw [entriesFromRight_eq]
  cases items with
  | nil => rfl
  | cons item items =>
    rw [headerText, Str.split_intercalate ',' (by exact List.cons_ne_nil _ _), List.flatMap_map, List.reverse_flatMap,
      nonblank, List.map_flatMap, List.filter_flatMap]
    rfl

theorem comma_not_mem_wsp {s : Str} (h : s.all isWsp = true) : ',' ∉ s := fun hmem =>
  absurd (List.all_eq_true.1 h ',' hmem) (by decide)

/-- An element with no comma in it has one entry, its text. -/
theorem nonblank_split_unsplit {item : ListItem} (h : ',' ∉ elementText item.element) :
    nonblank (item.text.split ',').reverse = nonblank [elementText item.element] := by
  have hcomma : ',' ∉ item.text := by
    rw [ListItem.text, List.mem_append, List.mem_append]
    rintro ((hbefore | helement) | hafter)
    · exact comma_not_mem_wsp item.before_ows hbefore
    · exact h helement
    · exact comma_not_mem_wsp item.after_ows hafter
  rw [Str.split, List.splitOn_eq_singleton hcomma, List.reverse_singleton, nonblank, nonblank, List.map_singleton,
    List.map_singleton, item.trim_text, (elementText_tight item.element).trim]

theorem nonblank_elementText {element : ForwardedElement} (h : elementText element ≠ []) :
    nonblank [elementText element] = [elementText element] := by
  have htrim := (elementText_tight element).trim
  rw [nonblank_cons (by rw [htrim]; exact h), htrim]
  rfl

/-! ### Elements -/

/-- No comma of the element is quoted, nor does anything quoted read as its `for` parameter. -/
def Unechoed (element : ForwardedElement) : Prop := ',' ∉ elementText element ∧ UnechoedPairs element

/-- The `for` value of the element is read as it is said, if there is one. -/
def ReadAsSaid (element : ForwardedElement) : Prop :=
  ∀ value, parameter "for".toList element = some value → ∀ addr, ¬ MisreadValue value addr

/-- What stands behind the last comma of the element. -/
def BehindCommas (element : ForwardedElement) (entry : Str) : Prop :=
  (elementText element = entry ∨ ∃ left, elementText element = left ++ ',' :: entry) ∧ ',' ∉ entry

/-- The element is read otherwise than it says, with an address at stake that is not trusted: its `for` value
is misread, or something quoted supplies an address, or all behind a quoted comma has no `for` parameter. -/
inductive MisreadElement (trustedProxies : List Cidr) (element : ForwardedElement) : Prop where
  | misread {value addr} (h : Unechoed element) (hvalue : parameter "for".toList element = some value)
      (hmisread : MisreadValue value addr) (huntrusted : isTrustedProxy addr trustedProxies = false)
  | echoed {entry addr} (hentry : BehindCommas element entry) (hsupplies : Supplies entry.trim addr)
      (huntrusted : isTrustedProxy addr trustedProxies = false) (hother : ¬ ForAddress element addr)
      (hcarries : ¬ CarriesTrusted trustedProxies element)
  | hidden {entry addr} (hentry : BehindCommas element entry) (hne : entry.trim ≠ [])
      (hparts : ∀ part ∈ entry.trim.split ';', ∀ value, ¬ ForPart part value) (hfor : ForAddress element addr)
      (huntrusted : isTrustedProxy addr trustedProxies = false)

/-- From the right, up to the first element that does not carry the address of a trusted proxy, all
elements are read as they say. -/
def ReadPlainly (trustedProxies : List Cidr) : List ForwardedElement → Prop
  | [] => True
  | element :: elements => Unechoed element ∧ ReadAsSaid element ∧
    (CarriesTrusted trustedProxies element → ReadPlainly trustedProxies elements)

/-- From the right, the first element that is not so read, behind elements that carry the addresses of trusted
proxies, is misread with an address at stake. -/
def MisreadFirst (trustedProxies : List Cidr) : List ForwardedElement → Prop
  | [] => False
  | element :: elements => MisreadElement trustedProxies element ∨
    Unechoed element ∧ ReadAsSaid element ∧ CarriesTrusted trustedProxies element ∧ MisreadFirst trustedProxies elements

/-- The entries of items from the right. -/
def entriesOf (items : List ListItem) : List Str := items.flatMap fun item => nonblank (item.text.split ',').reverse

theorem entriesOf_cons_blank {item : ListItem} (h : elementText item.element = []) (items : List ListItem) :
    entriesOf (item :: items) = entriesOf items := by
  have hcomma : ',' ∉ elementText item.element := by
    rw [h]
    exact List.not_mem_nil
  rw [entriesOf, List.flatMap_cons, nonblank_split_unsplit hcomma, h]
  rfl

theorem entriesOf_cons {item : ListItem} (h : elementText item.element ≠ []) (hcomma : ',' ∉ elementText item.element)
    (items : List ListItem) : entriesOf (item :: items) = elementText item.element :: entriesOf items := by
  rw [entriesOf, List.flatMap_cons, nonblank_split_unsplit hcomma, nonblank_elementText h]
  rfl

/-- The first entry of an element is what stands behind its last comma. -/
theorem entriesOf_cons_behind {item : ListItem} {entry : Str} (h : BehindCommas item.element entry)
    (hne : entry.trim ≠ []) (items : List ListItem) : ∃ more, entriesOf (item :: items) = entry.trim :: more := by
  obtain ⟨hentry, hcomma⟩ := h
  rcases hentry with rfl | ⟨left, htext⟩
  · rw [entriesOf, List.flatMap_cons, nonblank_split_unsplit hcomma, nonblank_cons hne]
    exact ⟨_, rfl⟩
  · have hafter : ',' ∉ entry ++ item.after := by
      rw [List.mem_append, not_or]
      exact ⟨hcomma, comma_not_mem_wsp item.after_ows⟩
    have hitem : item.text = (item.before ++ left) ++ ',' :: (entry ++ item.after) := by
      simp only [ListItem.text, htext, List.append_assoc, List.cons_append]
    have htrim : (entry ++ item.after).trim = entry.trim :=
      Str.trim_append_ws (isWhitespace_of_wsp item.after_ows) entry
    have hsplit : (entry ++ item.after).split ',' = [entry ++ item.after] := List.splitOn_eq_singleton hafter
    rw [entriesOf, List.flatMap_cons, hitem, Str.split_append_cons, hsplit, List.reverse_append,
      List.reverse_singleton, List.singleton_append, nonblank_cons (by rwa [htrim]), htrim]
    exact ⟨_, rfl⟩

theorem scanEntries_nil_ne {parseEntry : Str → Option IpAddr} {trustedProxies : List Cidr} {saw : Bool}
    (addr : IpAddr) : scanEntries parseEntry trustedProxies saw [] ≠ .found addr := by
  cases saw <;> exact nofun

theorem scan_readPlainly {trustedProxies : List Cidr} : ∀ {items : List ListItem} {saw : Bool},
    ReadPlainly trustedProxies (listElements items) →
      AnswersFromRight trustedProxies (listElements items)
        (scanEntries forwardedAddr trustedProxies saw (entriesOf items))
  | [], saw, _ => .nil fun addr => scanEntries_nil_ne addr
  | item :: items, saw, h => by
    by_cases hblank : elementText item.element = []
    · rw [listElements_cons_blank hblank] at h ⊢
      rw [entriesOf_cons_blank hblank]
      exact scan_readPlainly h
    · rw [listElements_cons hblank] at h ⊢
      obtain ⟨⟨hcomma, hpairs⟩, hsaid, hrest⟩ := h
      have haddr : ∀ addr, (parameter "for".toList item.element).bind readForValue = some addr ↔
          ForAddress item.element addr := fun addr => bind_readForValue hsaid
      rw [entriesOf_cons hblank hcomma, scanEntries, forwardedAddr_elementText hpairs]
      generalize (parameter "for".toList item.element).bind readForValue = read at haddr
      cases read with
      | none =>
        refine .cons_missing fun addr hfor => ?_
        cases (haddr addr).2 hfor
      | some addr =>
        have hfor := (haddr addr).1 rfl
        simp only
        cases htrusted : isTrustedProxy addr trustedProxies with
        | false => exact .cons_untrusted hfor htrusted
        | true =>
          -- a trusted proxy: what decides is to its left
          have hcarries : CarriesTrusted trustedProxies item.element := ⟨addr, hfor, htrusted⟩
          exact (AnswersFromRight.cons_trusted hcarries).2 (scan_readPlainly (hrest hcarries))

/-- An element whose address is none, or another, is not found at the address. -/
theorem not_answers_found {trustedProxies : List Cidr} {element : ForwardedElement} {elements : List ForwardedElement}
    {addr : IpAddr} (hother : ¬ ForAddress element addr) (hcarries : ¬ CarriesTrusted trustedProxies element) :
    ¬ AnswersFromRight trustedProxies (element :: elements) (.found addr) := by
  intro h
  obtain ⟨before, decisive, after, heq, hfor, -, hbefore⟩ := (h.found addr).1 rfl
  cases before with
  | nil =>
    cases heq
    exact hother hfor
  | cons e before =>
    cases heq
    exact hcarries (hbefore _ (List.mem_cons_self ..))

/-- And one whose address is not trusted is found. -/
theorem not_answers_invalid {trustedProxies : List Cidr} {element : ForwardedElement}
    {elements : List ForwardedElement} {addr : IpAddr} (hfor : ForAddress element addr)
    (huntrusted : isTrustedProxy addr trustedProxies = false) :
    ¬ AnswersFromRight trustedProxies (element :: elements) .invalid := by
  intro h
  cases (h.found addr).2 ⟨[], element, elements, rfl, hfor, huntrusted, List.forall_mem_nil _⟩

theorem scan_misreadElement {trustedProxies : List Cidr} {item : ListItem} (hblank : elementText item.element ≠ [])
    (h : MisreadElement trustedProxies item.element) (elements : List ForwardedElement) (items : List ListItem)
    (saw : Bool) : ¬ AnswersFromRight trustedProxies (item.element :: elements)
      (scanEntries forwardedAddr trustedProxies saw (entriesOf (item :: items))) := by
  cases h with
  | @misread value addr hunechoed hvalue hmisread huntrusted =>
    rw [entriesOf_cons hblank hunechoed.1, scanEntries, forwardedAddr_elementText hunechoed.2, hvalue, Option.bind_some]
    rcases readForValue_misread hmisread with ⟨hread, hnone⟩ | ⟨hread, hnames⟩
    -- found where there is no address, or not found where there is one
    · rw [hread]
      simp only [huntrusted]
      refine not_answers_found (fun hfor => hnone addr ((forAddress_iff hvalue).1 hfor)) ?_
      rintro ⟨proxy, hproxy, -⟩
      exact hnone proxy ((forAddress_iff hvalue).1 hproxy)
    · rw [hread]
      exact not_answers_invalid ((forAddress_iff hvalue).2 hnames) huntrusted
  | echoed hentry hsupplies huntrusted hother hcarries =>
    obtain ⟨more, hentries⟩ := entriesOf_cons_behind hentry hsupplies.ne_nil items
    rw [hentries, scanEntries, forwardedAddr_of_supplies hsupplies]
    simp only [huntrusted]
    exact not_answers_found hother hcarries
  | hidden hentry hne hparts hfor huntrusted =>
    obtain ⟨more, hentries⟩ := entriesOf_cons_behind hentry hne items
    rw [hentries, scanEntries, forwardedAddr_of_no_forPart hparts]
    exact not_answers_invalid hfor huntrusted

theorem scan_misreadFirst {trustedProxies : List Cidr} : ∀ {items : List ListItem} {saw : Bool},
    MisreadFirst trustedProxies (listElements items) →
      ¬ AnswersFromRight trustedProxies (listElements items)
        (scanEntries forwardedAddr trustedProxies saw (entriesOf items))
  | item :: items, saw, h => by
    by_cases hblank : elementText item.element = []
    · rw [listElements_cons_blank hblank] at h ⊢
      rw [entriesOf_cons_blank hblank]
      exact scan_misreadFirst h
    · rw [listElements_cons hblank] at h ⊢
      rcases h with hmisread | ⟨⟨hcomma, hpairs⟩, hsaid, hcarries, hrest⟩
      · exact scan_misreadElement hblank hmisread _ items saw
      · obtain ⟨proxy, hproxy, htrusted⟩ := hcarries
        rw [entriesOf_cons hblank hcomma, scanEntries, forwardedAddr_elementText hpairs,
          (bind_readForValue hsaid).2 hproxy]
        simp only [htrusted]
        rw [AnswersFromRight.cons_trusted ⟨proxy, hproxy, htrusted⟩]
        exact scan_misreadFirst hrest

/-! ## The header -/

/-- A header is answered as its elements say if, as far as it is looked at, nothing quoted is taken for an element
or for a `for` parameter and no address is misread; and it is not so answered if the first element of which
this is not true loses an address that is not trusted, or is answered with another. -/
theorem parseForwardedFor_answersFor (items : List ListItem) (trustedProxies : List Cidr) :
    (ReadPlainly trustedProxies (listElements items).reverse →
      AnswersFor trustedProxies (listElements items) (parseForwardedFor (some (headerText items)) trustedProxies)) ∧
    (MisreadFirst trustedProxies (listElements items).reverse →
      ¬ AnswersFor trustedProxies (listElements items)
        (parseForwardedFor (some (headerText items)) trustedProxies)) := by
  have hanswer : parseForwardedFor (some (headerText items)) trustedProxies =
      scanEntries forwardedAddr trustedProxies false (entriesOf items.reverse) := by
    rw [parseForwardedFor, entriesFromRight_headerText]
    rfl
  rw [hanswer, answersFor_iff_fromRight, ← listElements_reverse]
  exact ⟨scan_readPlainly, scan_misreadFirst⟩

/-- A pair whose value is a token, and one whose value is quoted. -/
def tokenPair (name value : Token) : Option ForwardedPair := some ⟨name, .token value⟩

def quotedPair (name : Token) (value : Str) : Option ForwardedPair := some ⟨name, .quoted (QuotedChar.ofText value)⟩

def forName : Token := ⟨"for".toList, by decide, by decide⟩

def hostName : Token := ⟨"host".toList, by decide, by decide⟩

theorem verbatim_ofText (s : Str) : Verbatim (.quoted (QuotedChar.ofText s)) := by
  intro c hc
  obtain ⟨d, -, hd⟩ := List.mem_filterMap.1 hc
  split at hd
  · cases hd
    exact id
  · cases hd

/-- Two proxies, the second of them an IPv6 address with its port. -/
def twoHops : List ListItem :=
  [⟨[], [tokenPair forName ⟨"192.0.2.60".toList, by decide, by decide⟩, quotedPair hostName "a;b".toList], [], rfl,
    rfl⟩,
    ⟨" ".toList, [quotedPair forName "[2001:db8::17]:4711".toList], [], by decide, rfl⟩]

/-- The address of the second proxy, and a port with a sign behind it. -/
def signedPort : List ListItem := [⟨[], [quotedPair forName "[2001:db8::17]:+80".toList], [], rfl, rfl⟩]

/-- The IPv6 address `2001:db8::17`. -/
def secondHop : Ipv6Address :=
  .gap [⟨"2001".toList, by decide, by decide, by decide⟩, ⟨"db8".toList, by decide, by decide, by decide⟩]
    ⟨[⟨"17".toList, by decide, by decide, by decide⟩], none⟩ (by decide)

theorem secondHop_address : secondHop.address = 0x20010DB8000000000000000000000017 := by
  have hvalues : secondHop.values = [0x2001, 0xdb8, 0, 0, 0, 0, 0, 0x17] := by decide
  rw [Ipv6Address.address, hvalues]
  norm_num [Nat.ofDigits]
  rfl

theorem secondHop_text : secondHop.text = "2001:db8::17".toList := by decide

theorem twoHops_answersFor :
    let proxy : Cidr := .singleIp (.v6 0x20010DB8000000000000000000000017)
    headerText twoHops = "for=192.0.2.60;host=\"a;b\", for=\"[2001:db8::17]:4711\"".toList ∧
      AnswersFor [proxy] (listElements twoHops) (parseForwardedFor (some (headerText twoHops)) [proxy]) ∧
      ¬ AnswersFor [] (listElements signedPort) (parseForwardedFor (some (headerText signedPort)) []) := by
  intro proxy
  refine ⟨by decide, (parseForwardedFor_answersFor twoHops [proxy]).1 ?_,
    (parseForwardedFor_answersFor signedPort []).2 ?_⟩
  · have hsecond : ∀ addr, ¬ MisreadValue (.quoted (QuotedChar.ofText "[2001:db8::17]:4711".toList)) addr := by
      refine not_misreadValue (a := .v6 0x20010DB8000000000000000000000017) (verbatim_ofText _) (by decide) ?_
      refine ⟨⟨.v6 secondHop, some (.port ⟨"4711".toList, by decide, by decide, List.all_eq_true.1 (by decide)⟩)⟩,
        ?_, ?_⟩
      · rw [Node.text, NodeName.text, secondHop_text]
        rfl
      · rw [← secondHop_address]
        rfl
    have hfirst : ∀ addr, ¬ MisreadValue (.token ⟨"192.0.2.60".toList, by decide, by decide⟩) addr := by
      refine not_misreadValue (a := .v4 0xC000023C) trivial (by decide) ?_
      exact ⟨⟨.v4 0xC000023C, none⟩, by decide, rfl⟩
    refine ⟨⟨by decide, .cons_for (by decide)⟩, ?_, fun _ => ⟨⟨by decide, .cons_for (by decide)⟩, ?_, fun _ => trivial⟩⟩
    · rintro value ⟨⟩
      exact hsecond
    · rintro value ⟨⟩
      exact hfirst
  · have hsaid : (ForwardedValue.quoted (QuotedChar.ofText "[2001:db8::17]:+80".toList)).said =
        '[' :: (secondHop.text ++ ']' :: ':' :: '+' :: "80".toList) := by
      rw [secondHop_text]
      rfl
    have hmisread : Misread ('[' :: (secondHop.text ++ ']' :: ':' :: '+' :: "80".toList)) (.v6 secondHop.address) :=
      .signed secondHop ⟨⟨by decide, List.all_eq_true.1 (by decide)⟩, by decide⟩
    rw [← hsaid] at hmisread
    exact .inl (.misread ⟨by decide, .cons_for (by decide)⟩ rfl (.said (verbatim_ofText _) hmisread) rfl)

/-- An echoed host that looks like an entry. -/
def echoedHost : List ListItem :=
  [⟨[], [tokenPair forName ⟨"10.0.0.1".toList, by decide, by decide⟩, quotedPair hostName "x,for=6.6.6.6;y".toList], [],
    rfl, rfl⟩]

theorem echoedHost_found :
    let proxy : IpAddr := .v4 0xC0000201
    headerText echoedHost = "for=10.0.0.1;host=\"x,for=6.6.6.6;y\"".toList ∧
      extractClientIp proxy [.singleIp proxy] (some (headerText echoedHost)) none none = .v4 0x06060606 ∧
      ¬ AnswersFor [.singleIp proxy] (listElements echoedHost)
        (parseForwardedFor (some (headerText echoedHost)) [.singleIp proxy]) := by
  intro proxy
  have hfound : parseForwardedFor (some (headerText echoedHost)) [.singleIp proxy] = .found (.v4 0x06060606) := by
    decide
  refine ⟨by decide, by decide, ?_⟩
  intro h
  have hlisted : parseForwardedFor (some (headerText echoedHost)) [.singleIp proxy] = .found (.v4 0x0A000001) :=
    (h.found _).2 ⟨[], _, [], rfl, ⟨_, rfl, ⟨.v4 0x0A000001, none⟩, by decide, rfl⟩, by decide, nofun⟩
  rw [hfound] at hlisted
  cases hlisted

end WorldInfra.Http
