/-
RFC 7239: the grammar of the `Forwarded` header, as values that are grammatical by construction, the
texts they are written as, and what a parameter's value says.
-/
import WorldInfra.Rfc.SetCookie

namespace WorldInfra.Rfc

open WorldInfra.Rust

/-! ## The grammar -/

/-- `tchar`. -/
def tchar (c : Char) : Bool := c.isAlphanum || "!#$%&'*+-.^_`|~".toList.contains c

/-- `qdtext`: neither the double quote nor the backslash. -/
def qdtext (c : Char) : Bool :=
  c == '\t' || c == ' ' || c == '!' || (0x23 ≤ c.toNat && c.toNat ≤ 0x5B) || (0x5D ≤ c.toNat && c.toNat ≤ 0x7E) ||
    0x80 ≤ c.toNat

/-- What may follow a backslash in a `quoted-pair`. -/
def quotable (c : Char) : Bool := c == '\t' || c == ' ' || (0x21 ≤ c.toNat && c.toNat ≤ 0x7E) || 0x80 ≤ c.toNat

structure Token where
  text : Str
  ne : text ≠ []
  chars : text.all tchar = true

inductive QuotedChar where
  | plain (c : Char) (h : qdtext c = true)
  | escaped (c : Char) (h : quotable c = true)

/-- The characters of a text that need no backslash. -/
def QuotedChar.ofText (s : Str) : List QuotedChar :=
  s.filterMap fun c => if h : qdtext c = true then some (.plain c h) else none

inductive ForwardedValue where
  | token (token : Token)
  | quoted (chars : List QuotedChar)

/-- `forwarded-pair`. -/
structure ForwardedPair where
  name : Token
  value : ForwardedValue

/-- `forwarded-element`: the pairs between the semicolons, any of which may be left out. -/
abbrev ForwardedElement := List (Option ForwardedPair)

/-- An element of the list, or nothing, between optional white space. -/
structure ListItem where
  before : Str
  element : ForwardedElement
  after : Str
  before_ows : before.all isWsp = true
  after_ows : after.all isWsp = true

/-! ## Texts -/

def QuotedChar.text : QuotedChar → Str
  | plain c _ => [c]
  | escaped c _ => ['\\', c]

def ForwardedValue.text : ForwardedValue → Str
  | .token t => t.text
  | .quoted chars => '\x22' :: (chars.flatMap QuotedChar.text ++ ['\x22'])

def ForwardedPair.text (pair : ForwardedPair) : Str := pair.name.text ++ '=' :: pair.value.text

def slotText : Option ForwardedPair → Str
  | some pair => pair.text
  | none => []

def elementText (element : ForwardedElement) : Str := [';'].intercalate (element.map slotText)

def ListItem.text (item : ListItem) : Str := item.before ++ elementText item.element ++ item.after

/-- The value of a header. -/
def headerText (items : List ListItem) : Str := [','].intercalate (items.map ListItem.text)

/-- The elements of a list; items that are left out are none. -/
def listElements (items : List ListItem) : List ForwardedElement :=
  (items.map ListItem.element).filter fun element => !(elementText element).isEmpty

/-- Nothing between two commas is no element. -/
theorem listElements_cons_blank {item : ListItem} (h : elementText item.element = []) (items : List ListItem) :
    listElements (item :: items) = listElements items := by
  rw [listElements, listElements, List.map_cons, List.filter_cons_of_neg]
  rw [h]
  exact Bool.false_ne_true

theorem listElements_cons {item : ListItem} (h : elementText item.element ≠ []) (items : List ListItem) :
    listElements (item :: items) = item.element :: listElements items := by
  rw [listElements, listElements, List.map_cons, List.filter_cons_of_pos]
  rw [List.isEmpty_eq_false_iff.2 h]
  rfl

theorem listElements_reverse (items : List ListItem) : listElements items.reverse = (listElements items).reverse := by
  rw [listElements, listElements, List.map_reverse, List.filter_reverse]

/-! ## Meaning -/

def QuotedChar.char : QuotedChar → Char
  | plain c _ => c
  | escaped c _ => c

/-- What a value says: a quoted string says its characters, without the backslashes before them. -/
def ForwardedValue.said : ForwardedValue → Str
  | .token t => t.text
  | .quoted chars => chars.map QuotedChar.char

/-- The value of the first pair of a name. -/
def parameter (name : Str) : ForwardedElement → Option ForwardedValue
  | [] => none
  | none :: element => parameter name element
  | some pair :: element =>
    if pair.name.text.eqIgnoreAsciiCase name then some pair.value else parameter name element

/-! ## Characters -/

theorem tchar_excludes {c : Char} (h : tchar c = true) :
    isWhitespace c = false ∧ c ≠ '=' ∧ c ≠ ',' ∧ c ≠ ';' ∧ c ≠ '\x22' := by
  rw [tchar, Bool.or_eq_true] at h
  rcases h with h | h
  · refine ⟨isWhitespace_of_isAlphanum h, ?_, ?_, ?_, ?_⟩
    · rintro rfl; cases h
    · rintro rfl; cases h
    · rintro rfl; cases h
    · rintro rfl; cases h
  · have hall := List.all_eq_true.1 (by decide : ("!#$%&'*+-.^_`|~".toList.all fun c =>
      !isWhitespace c && c != '=' && c != ',' && c != ';' && c != '\x22') = true) c (List.contains_iff_mem.1 h)
    simpa only [Bool.and_eq_true, Bool.not_eq_true', bne_iff_ne, and_assoc] using hall

/-- A text with no white space at either end. -/
def Tight (s : Str) : Prop := s.trimStart = s ∧ s.trimEnd = s

theorem Tight.trim {s : Str} (h : Tight s) : s.trim = s := by
  rw [Str.trim, h.1, h.2]

theorem tight_nil : Tight [] := ⟨rfl, rfl⟩

theorem tight_of_chars {s : Str} (h : ∀ c ∈ s, isWhitespace c = false) : Tight s := by
  constructor
  · cases s with
    | nil => rfl
    | cons c s =>
      apply List.dropWhile_cons_of_neg
      rw [h c (List.mem_cons_self ..)]
      exact Bool.false_ne_true
  · rw [Str.trimEnd, List.rdropWhile_eq_self_iff]
    intro hne
    rw [h _ (List.getLast_mem hne)]
    exact Bool.false_ne_true

/-- Texts put together around a character that is no white space. -/
theorem Tight.append {s t : Str} {c : Char} (hs : Tight s) (ht : Tight t) (hc : isWhitespace c = false) :
    Tight (s ++ c :: t) := by
  constructor
  · rw [Str.trimStart_append_cons hc, hs.1]
  · rw [Str.trimEnd_append_cons hc, ht.2]

theorem Token.tight (t : Token) : Tight t.text :=
  tight_of_chars fun c hc => (tchar_excludes (List.all_eq_true.1 t.chars c hc)).1

theorem ForwardedValue.tight (value : ForwardedValue) : Tight value.text := by
  cases value with
  | token t => exact t.tight
  | quoted chars =>
    constructor
    · exact Str.trimStart_append_cons (by decide) [] _
    · exact Str.trimEnd_append_cons (by decide) ('\x22' :: chars.flatMap QuotedChar.text) []

theorem ForwardedPair.tight (pair : ForwardedPair) : Tight pair.text :=
  pair.name.tight.append pair.value.tight (by decide)

theorem slotText_tight (slot : Option ForwardedPair) : Tight (slotText slot) := by
  cases slot with
  | none => exact tight_nil
  | some pair => exact pair.tight

theorem elementText_tight : ∀ element : ForwardedElement, Tight (elementText element)
  | [] => tight_nil
  | [slot] => by
    rw [elementText, List.map_singleton, List.intercalate_singleton]
    exact slotText_tight slot
  | slot :: next :: element => by
    have htail := elementText_tight (next :: element)
    rw [elementText, List.map_cons, List.map_cons, List.intercalate_cons_cons, List.append_assoc, List.singleton_append]
    exact (slotText_tight slot).append htail (by decide)

theorem isWhitespace_of_isWsp {c : Char} (h : isWsp c = true) : isWhitespace c = true := by
  rw [isWsp, Bool.or_eq_true, beq_iff_eq, beq_iff_eq] at h
  rcases h with rfl | rfl
  · decide
  · decide

theorem isWhitespace_of_wsp {s : Str} (h : s.all isWsp = true) : ∀ c ∈ s, isWhitespace c = true := fun c hc =>
  isWhitespace_of_isWsp (List.all_eq_true.1 h c hc)

/-- The white space around an element is no part of it. -/
theorem ListItem.trim_text (item : ListItem) : item.text.trim = elementText item.element := by
  rw [ListItem.text, Str.trim_append_ws (isWhitespace_of_wsp item.after_ows),
    Str.trim_ws_append (isWhitespace_of_wsp item.before_ows)]
  exact (elementText_tight item.element).trim

end WorldInfra.Rfc
