/-
Text as `str` has it: a list of Unicode scalar values, with the character classes, the byte
length, trimming, splitting and the prefix operations the crates use.
-/
import Mathlib

namespace WorldInfra.Rust

/-- A `str` (and a `String`): its scalar values in order. -/
abbrev Str := List Char

/-- `char::is_whitespace`: the Unicode property `White_Space`. -/
def isWhitespace (c : Char) : Bool :=
  let n := c.toNat
  (9 ≤ n && n ≤ 13) || n == 0x20 || n == 0x85 || n == 0xA0 || n == 0x1680 ||
    (0x2000 ≤ n && n ≤ 0x200A) || n == 0x2028 || n == 0x2029 || n == 0x202F || n == 0x205F || n == 0x3000

/-- `char::is_control`: the general category `Cc`. -/
def isControl (c : Char) : Bool :=
  let n := c.toNat
  n < 0x20 || (0x7F ≤ n && n ≤ 0x9F)

def isAsciiHexdigit (c : Char) : Bool :=
  c.isDigit || ('a' ≤ c && c ≤ 'f') || ('A' ≤ c && c ≤ 'F')

theorem isAlphanum_iff {c : Char} : c.isAlphanum = true ↔
    ((65 ≤ c.toNat ∧ c.toNat ≤ 90) ∨ (97 ≤ c.toNat ∧ c.toNat ≤ 122)) ∨ (48 ≤ c.toNat ∧ c.toNat ≤ 57) := by
  simp only [Char.isAlphanum, Char.isAlpha, Char.isUpper, Char.isLower, Char.isDigit, Bool.or_eq_true,
    Bool.and_eq_true, decide_eq_true_eq, UInt32.le_iff_toNat_le, ge_iff_le]
  rfl

theorem isDigit_iff {c : Char} : c.isDigit = true ↔ 48 ≤ c.toNat ∧ c.toNat ≤ 57 := by
  simp only [Char.isDigit, Bool.and_eq_true, decide_eq_true_eq, UInt32.le_iff_toNat_le, ge_iff_le]
  rfl

theorem isLower_iff {c : Char} : c.isLower = true ↔ 97 ≤ c.toNat ∧ c.toNat ≤ 122 := by
  simp only [Char.isLower, Bool.and_eq_true, decide_eq_true_eq, UInt32.le_iff_toNat_le, ge_iff_le]
  rfl

theorem isUpper_iff {c : Char} : c.isUpper = true ↔ 65 ≤ c.toNat ∧ c.toNat ≤ 90 := by
  simp only [Char.isUpper, decide_eq_true_eq, UInt32.le_iff_toNat_le, ge_iff_le]
  rfl

theorem isWhitespace_of_isAlphanum {c : Char} (h : c.isAlphanum = true) : isWhitespace c = false := by
  rw [isAlphanum_iff] at h
  simp only [isWhitespace, Bool.or_eq_false_iff, Bool.and_eq_false_iff, decide_eq_false_iff_not,
    beq_eq_false_iff_ne]
  omega

theorem isAlphanum_of_isAsciiHexdigit {c : Char} (h : isAsciiHexdigit c = true) : c.isAlphanum = true := by
  simp only [isAsciiHexdigit, Char.isDigit, Bool.or_eq_true, Bool.and_eq_true, decide_eq_true_eq, Char.le_def,
    UInt32.le_iff_toNat_le, ge_iff_le] at h
  rw [isAlphanum_iff]
  change (((48 ≤ c.toNat ∧ c.toNat ≤ 57) ∨ (97 ≤ c.toNat ∧ c.toNat ≤ 102)) ∨ (65 ≤ c.toNat ∧ c.toNat ≤ 70)) at h
  omega

theorem utf8Size_of_isAlphanum {c : Char} (h : c.isAlphanum = true) : c.utf8Size = 1 := by
  rw [isAlphanum_iff] at h
  rw [Char.utf8Size_eq_one_iff, UInt32.le_iff_toNat_le]
  change c.toNat ≤ 127
  omega

namespace Str

/-- `str::len`: the number of bytes of the UTF-8 encoding. -/
def len (s : Str) : Nat := (s.map Char.utf8Size).sum

def trimStart (s : Str) : Str := s.dropWhile isWhitespace

def trimEnd (s : Str) : Str := s.rdropWhile isWhitespace

def trim (s : Str) : Str := trimEnd (trimStart s)

/-- `str::split_once`: the text before and after the first separator. -/
def splitOnce (sep : Char) : Str → Option (Str × Str)
  | [] => none
  | c :: s => if c = sep then some ([], s) else (splitOnce sep s).map fun p => (c :: p.1, p.2)

/-- `str::split`: the parts between the separators. -/
abbrev split (s : Str) (sep : Char) : List Str := s.splitOn sep

def stripPrefix (c : Char) : Str → Option Str
  | [] => none
  | d :: s => if d = c then some s else none

def stripSuffix (c : Char) (s : Str) : Option Str :=
  if s.getLast? = some c then some s.dropLast else none

/-- `str::replace` of one character by a text. -/
def replace (s : Str) (c : Char) (by' : Str) : Str := s.flatMap fun d => if d = c then by' else [d]

def eqIgnoreAsciiCase (s t : Str) : Bool := s.map Char.toLower == t.map Char.toLower

def toAsciiUppercase (s : Str) : Str := s.map Char.toUpper

/-- `str::cmp`. The order of the bytes is the order of the scalar values. -/
def cmp (s t : Str) : Ordering := if s < t then .lt else if s = t then .eq else .gt

/-! ## Comparison -/

theorem cmp_of_lt {s t : Str} (h : s < t) : cmp s t = .lt := if_pos h

@[simp] theorem cmp_self (s : Str) : cmp s s = .eq := by
  rw [cmp, if_neg (lt_irrefl s), if_pos rfl]

theorem cmp_of_gt {s t : Str} (h : t < s) : cmp s t = .gt := by
  rw [cmp, if_neg (lt_asymm h), if_neg (ne_of_gt h)]

theorem cmp_eq_eq {s t : Str} : cmp s t = .eq ↔ s = t := by
  constructor
  · intro h
    rcases lt_trichotomy s t with hlt | heq | hgt
    · rw [cmp_of_lt hlt] at h; cases h
    · exact heq
    · rw [cmp_of_gt hgt] at h; cases h
  · rintro rfl; exact cmp_self s

/-! ## Byte lengths -/

@[simp] theorem len_nil : len [] = 0 := rfl

@[simp] theorem len_cons (c : Char) (s : Str) : len (c :: s) = c.utf8Size + len s := by simp [len]

@[simp] theorem len_append (s t : Str) : len (s ++ t) = len s + len t := by simp [len]

theorem length_le_len : ∀ s : Str, s.length ≤ len s
  | [] => le_refl _
  | c :: s => by
    have := length_le_len s
    have := c.utf8Size_pos
    rw [len_cons, List.length_cons]; omega

/-- Texts cut after as many bytes are cut at the same place. -/
theorem append_inj_of_len : ∀ {s t u v : Str}, s ++ u = t ++ v → len s = len t → s = t ∧ u = v
  | [], [], _, _, h, _ => ⟨rfl, h⟩
  | [], c :: t, _, _, _, hlen => by
    have := c.utf8Size_pos
    rw [len_nil, len_cons] at hlen; omega
  | c :: s, [], _, _, _, hlen => by
    have := c.utf8Size_pos
    rw [len_nil, len_cons] at hlen; omega
  | c :: s, d :: t, u, v, h, hlen => by
    rw [List.cons_append, List.cons_append, List.cons.injEq] at h
    obtain ⟨rfl, h⟩ := h
    rw [len_cons, len_cons] at hlen
    obtain ⟨rfl, rfl⟩ := append_inj_of_len h (by omega)
    exact ⟨rfl, rfl⟩

/-! ## Trimming -/

/-- A text of which no character is white space is its own trim. -/
theorem trim_eq_self {s : Str} (h : ∀ c ∈ s, isWhitespace c = false) : trim s = s := by
  have hstart : trimStart s = s := by
    cases s with
    | nil => rfl
    | cons c s => simp [trimStart, h c]
  rw [trim, hstart, trimEnd, List.rdropWhile_eq_self_iff]
  intro hs
  rw [h _ (List.getLast_mem hs)]
  exact Bool.false_ne_true

theorem trimEnd_suffix_ws {w : Str} (hw : ∀ c ∈ w, isWhitespace c = true) (s : Str) :
    trimEnd (s ++ w) = trimEnd s := by
  induction w using List.reverseRecOn with
  | nil => rw [List.append_nil]
  | append_singleton w c ih =>
    rw [← List.append_assoc, trimEnd,
      List.rdropWhile_concat_pos _ _ _ (hw c (List.mem_append_right _ (List.mem_singleton_self c)))]
    exact ih fun d hd => hw d (List.mem_append_left _ hd)

/-- White space at the end of a text is invisible to `trim`. -/
theorem trim_append_ws {w : Str} (hw : ∀ c ∈ w, isWhitespace c = true) (s : Str) :
    trim (s ++ w) = trim s := by
  unfold trim
  by_cases hs : ∀ c ∈ s, isWhitespace c = true
  · -- all white space: both sides are empty
    have h1 : trimStart s = [] := by rw [trimStart, List.dropWhile_eq_nil_iff]; exact hs
    have h2 : trimStart (s ++ w) = [] := by
      rw [trimStart, List.dropWhile_eq_nil_iff]
      intro c hc
      rcases List.mem_append.1 hc with hc | hc
      · exact hs c hc
      · exact hw c hc
    rw [h1, h2]
  · have : trimStart (s ++ w) = trimStart s ++ w := by
      rw [trimStart, List.dropWhile_append, if_neg]
      · rfl
      · rw [List.isEmpty_iff, List.dropWhile_eq_nil_iff]; exact hs
    rw [this, trimEnd_suffix_ws hw]

theorem trim_within (s : Str) : trim s <:+: s :=
  (List.rdropWhile_prefix _ _).isInfix.trans (List.dropWhile_suffix _).isInfix

theorem mem_of_mem_trim {s : Str} {c : Char} (h : c ∈ trim s) : c ∈ s := (trim_within s).subset h

/-! ## Validation of trimmed texts -/

/-- The operator `?`: a chain succeeds if its parts do. -/
theorem bind_eq_ok {ε α β : Type} {x : Except ε α} {f : α → Except ε β} {b : β} :
    (x >>= f) = .ok b ↔ ∃ a, x = .ok a ∧ f a = .ok b := by
  cases x with
  | error e =>
    constructor
    · rintro ⟨⟩
    · rintro ⟨a, ⟨⟩, -⟩
  | ok a =>
    constructor
    · intro h
      exact ⟨a, rfl, h⟩
    · rintro ⟨a', ha, hf⟩
      cases ha
      exact hf

/-- What the crates' validators of names and keys have in common: no control character anywhere, and
nothing bad about the trimmed text, which is the result. -/
def validateTrimmed {ε : Type} (error : ε) (bad : Str → Bool) (value : Str) : Except ε Str :=
  if value.any isControl then .error error
  else
    let value := value.trim
    if bad value then .error error else .ok value

section

variable {ε : Type} {error : ε} {bad : Str → Bool}

theorem validateTrimmed_cases {value v : Str} (h : validateTrimmed error bad value = .ok v) :
    value.any isControl = false ∧ v = value.trim ∧ bad v = false := by
  unfold validateTrimmed at h
  split at h
  · cases h
  · rename_i hctl
    simp only at h
    split at h
    · cases h
    · rename_i hbad
      cases h
      exact ⟨Bool.not_eq_true _ ▸ hctl, rfl, Bool.not_eq_true _ ▸ hbad⟩

theorem validateTrimmed_error {value : Str} {e : ε} (h : validateTrimmed error bad value = .error e) : e = error := by
  unfold validateTrimmed at h
  split at h
  · cases h; rfl
  · simp only at h
    split at h
    · cases h; rfl
    · cases h

/-- A validator that refuses white space accepts what it returns, as it stands. -/
theorem validateTrimmed_ok (hspace : ∀ v, bad v = false → ∀ c ∈ v, isWhitespace c = false) {value v : Str}
    (h : validateTrimmed error bad value = .ok v) : validateTrimmed error bad v = .ok v := by
  obtain ⟨hctl, rfl, hbad⟩ := validateTrimmed_cases h
  have hctl' : ¬ value.trim.any isControl = true := by
    rw [List.any_eq_true]
    rintro ⟨c, hc, hcc⟩
    rw [List.any_eq_true.2 ⟨c, mem_of_mem_trim hc, hcc⟩] at hctl
    cases hctl
  unfold validateTrimmed
  rw [if_neg hctl']
  simp only
  rw [trim_eq_self (hspace _ hbad), hbad, if_neg Bool.false_ne_true]

end

/-! ## Suffixes and cases -/

theorem eq_append_of_stripSuffix {c : Char} {s t : Str} (h : stripSuffix c s = some t) : s = t ++ [c] := by
  unfold stripSuffix at h
  split at h
  · rename_i hlast
    cases h
    exact (List.dropLast_append_getLast? c hlast).symm
  · cases h

theorem len_of_hexdigits : ∀ {s : Str}, (∀ c ∈ s, isAsciiHexdigit c = true) → len s = s.length
  | [], _ => rfl
  | c :: s, h => by
    rw [len_cons, utf8Size_of_isAlphanum (isAlphanum_of_isAsciiHexdigit (h c (List.mem_cons_self ..))),
      len_of_hexdigits fun d hd => h d (List.mem_cons_of_mem _ hd), List.length_cons, Nat.add_comm]

/-! ## Splitting once -/

theorem splitOnce_eq_some {sep : Char} : ∀ {s a b : Str},
    splitOnce sep s = some (a, b) ↔ s = a ++ sep :: b ∧ sep ∉ a
  | [], a, b => by simp [splitOnce]
  | c :: s, a, b => by
    unfold splitOnce
    split
    · rename_i h
      subst h
      cases a with
      | nil => simp
      | cons d a =>
        simp only [Option.some.injEq, Prod.mk.injEq, List.cons_append, List.cons.injEq, List.mem_cons,
          not_or]
        constructor
        · rintro ⟨h, -⟩; cases h
        · rintro ⟨⟨rfl, -⟩, h, -⟩; exact absurd rfl h
    · rename_i h
      simp only [Option.map_eq_some_iff, Prod.exists, Prod.mk.injEq]
      constructor
      · rintro ⟨a', b', hs, rfl, rfl⟩
        obtain ⟨rfl, hn⟩ := splitOnce_eq_some.1 hs
        refine ⟨rfl, ?_⟩
        rw [List.mem_cons, not_or]
        exact ⟨fun e => h e.symm, hn⟩
      · rintro ⟨hs, hn⟩
        cases a with
        | nil => rw [List.nil_append, List.cons.injEq] at hs; exact absurd hs.1 h
        | cons d a =>
          rw [List.cons_append, List.cons.injEq] at hs
          obtain ⟨rfl, rfl⟩ := hs
          exact ⟨a, b, splitOnce_eq_some.2 ⟨rfl, fun hm => hn (List.mem_cons_of_mem _ hm)⟩, rfl, rfl⟩

theorem splitOnce_eq_none {sep : Char} : ∀ {s : Str}, splitOnce sep s = none ↔ sep ∉ s
  | [] => by simp [splitOnce]
  | c :: s => by
    unfold splitOnce
    split
    · rename_i h; subst h; simp
    · rename_i h
      rw [Option.map_eq_none_iff, splitOnce_eq_none, List.mem_cons, not_or]
      exact ⟨fun hs => ⟨fun e => h e.symm, hs⟩, fun hs => hs.2⟩

/-! ## Splitting -/

theorem mem_intercalate {sep c : Char} : ∀ {parts : List Str}, c ∈ [sep].intercalate parts →
    c = sep ∨ ∃ part ∈ parts, c ∈ part
  | [], h => by simp [List.intercalate] at h
  | [part], h => by
    rw [List.intercalate_singleton] at h
    exact Or.inr ⟨part, List.mem_singleton_self _, h⟩
  | part :: next :: parts, h => by
    rw [List.intercalate_cons_cons] at h
    rcases List.mem_append.1 h with h | h
    · rcases List.mem_append.1 h with h | h
      · exact Or.inr ⟨part, List.mem_cons_self .., h⟩
      · exact Or.inl (List.mem_singleton.1 h)
    · rcases mem_intercalate h with rfl | ⟨p, hp, hc⟩
      · exact Or.inl rfl
      · exact Or.inr ⟨p, List.mem_cons_of_mem _ hp, hc⟩

/-- A character is the separator, or stands in one of the parts. -/
theorem mem_splitOn {sep c : Char} {s : Str} (h : c ∈ s) : c = sep ∨ ∃ part ∈ s.splitOn sep, c ∈ part := by
  have hs : [sep].intercalate (s.splitOn sep) = s := List.intercalate_splitOn sep
  rw [← hs] at h
  exact mem_intercalate h

end Str

end WorldInfra.Rust
