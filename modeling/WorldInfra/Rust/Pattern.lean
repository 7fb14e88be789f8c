/-
Patterns in texts: prefixes, suffixes and parts that are texts themselves, trimming by a class of
characters, and the mapping of ASCII letters to lower case, which every class the crates test for
is blind to.
-/
import WorldInfra.Rust.Text

namespace WorldInfra.Rust

/-! ## ASCII -/

/-- `u8::is_ascii_control` of the bytes of a character. -/
def isAsciiControl (c : Char) : Bool := c.toNat < 0x20 || c.toNat == 0x7F

/-- `u8::is_ascii_whitespace`, which leaves out the vertical tab. -/
def isAsciiWhitespace (c : Char) : Bool := c == ' ' || c == '\t' || c == '\n' || c == '\x0c' || c == '\r'

def isAscii (c : Char) : Bool := c.toNat < 0x80

/-- What `to_ascii_lowercase` does to a character: nothing, or it moves an upper-case letter. -/
theorem toLower_cases (c : Char) :
    (65 ≤ c.toNat ∧ c.toNat ≤ 90 ∧ c.toLower.toNat = c.toNat + 32) ∨
      ((c.toNat < 65 ∨ 90 < c.toNat) ∧ c.toLower = c) := by
  by_cases h : c.val ≥ 'A'.val ∧ c.val ≤ 'Z'.val
  · left
    have h1 : 65 ≤ c.val.toNat := UInt32.le_iff_toNat_le.1 h.1
    have h2 : c.val.toNat ≤ 90 := UInt32.le_iff_toNat_le.1 h.2
    refine ⟨h1, h2, ?_⟩
    rw [Char.toLower, dif_pos h]
    show (c.val + ('a'.val - 'A'.val)).toNat = c.val.toNat + 32
    rw [UInt32.toNat_add]
    have h32 : ('a'.val - 'A'.val).toNat = 32 := by decide
    rw [h32]
    omega
  · right
    refine ⟨?_, dif_neg h⟩
    by_contra hn
    apply h
    constructor
    · exact UInt32.le_iff_toNat_le.2 (show 65 ≤ c.toNat by omega)
    · exact UInt32.le_iff_toNat_le.2 (show c.toNat ≤ 90 by omega)

theorem char_eq_of_toNat {c d : Char} (h : c.toNat = d.toNat) : c = d := Char.ext (UInt32.toNat_inj.1 h)

theorem char_eq_iff {c d : Char} : c = d ↔ c.toNat = d.toNat := ⟨congrArg Char.toNat, char_eq_of_toNat⟩

theorem char_le_iff {c d : Char} : c ≤ d ↔ c.toNat ≤ d.toNat := UInt32.le_iff_toNat_le

/-- A character that is no letter is only the lower case of itself. -/
theorem toLower_eq_iff {d : Char} (hd : d.isAlpha = false) (c : Char) : c.toLower = d ↔ c = d := by
  have hd' : ¬ ((65 ≤ d.toNat ∧ d.toNat ≤ 90) ∨ (97 ≤ d.toNat ∧ d.toNat ≤ 122)) := by
    intro h
    have : d.isAlpha = true := by
      simp only [Char.isAlpha, Char.isUpper, Char.isLower, Bool.or_eq_true, Bool.and_eq_true, decide_eq_true_eq,
        UInt32.le_iff_toNat_le, ge_iff_le]
      exact h
    rw [hd] at this
    cases this
  rcases toLower_cases c with ⟨h1, h2, h3⟩ | ⟨-, h⟩
  · constructor
    · rintro rfl
      omega
    · rintro rfl
      omega
  · rw [h]

/-- A test that only looks at a character's number, and not at the case of letters. -/
theorem toLower_invariant {p : Char → Bool} (h : ∀ c d : Char, 65 ≤ c.toNat → c.toNat ≤ 90 → d.toNat = c.toNat + 32 →
    p d = p c) (c : Char) : p c.toLower = p c := by
  rcases toLower_cases c with ⟨h1, h2, h3⟩ | ⟨-, h3⟩
  · exact h c _ h1 h2 h3
  · rw [h3]

@[simp] theorem isWhitespace_toLower (c : Char) : isWhitespace c.toLower = isWhitespace c := by
  refine toLower_invariant (fun c d h1 h2 h3 => ?_) c
  rw [isWhitespace_of_isAlphanum (isAlphanum_iff.2 (by omega)),
    isWhitespace_of_isAlphanum (isAlphanum_iff.2 (by omega))]

@[simp] theorem isAlphanum_toLower (c : Char) : c.toLower.isAlphanum = c.isAlphanum := by
  refine toLower_invariant (fun c d h1 h2 h3 => ?_) c
  rw [isAlphanum_iff.2 (by omega), isAlphanum_iff.2 (by omega)]

@[simp] theorem isAsciiControl_toLower (c : Char) : isAsciiControl c.toLower = isAsciiControl c := by
  refine toLower_invariant (p := isAsciiControl) (fun c d h1 h2 h3 => ?_) c
  rw [Bool.eq_iff_iff]
  simp only [isAsciiControl, Bool.or_eq_true, decide_eq_true_eq, beq_iff_eq]
  omega

@[simp] theorem isDigit_toLower (c : Char) : c.toLower.isDigit = c.isDigit := by
  refine toLower_invariant (p := Char.isDigit) (fun c d h1 h2 h3 => ?_) c
  rw [Bool.eq_iff_iff, isDigit_iff, isDigit_iff]
  omega

@[simp] theorem isAsciiWhitespace_toLower (c : Char) : isAsciiWhitespace c.toLower = isAsciiWhitespace c := by
  rw [Bool.eq_iff_iff]
  simp only [isAsciiWhitespace, Bool.or_eq_true, beq_iff_eq]
  rw [toLower_eq_iff (by decide), toLower_eq_iff (by decide), toLower_eq_iff (by decide), toLower_eq_iff (by decide),
    toLower_eq_iff (by decide)]

@[simp] theorem utf8Size_toLower (c : Char) : c.toLower.utf8Size = c.utf8Size := by
  rcases toLower_cases c with ⟨h1, h2, h3⟩ | ⟨-, h⟩
  · rw [utf8Size_of_isAlphanum (isAlphanum_iff.2 (by omega)), utf8Size_of_isAlphanum (isAlphanum_iff.2 (by omega))]
  · rw [h]

@[simp] theorem toLower_toLower (c : Char) : c.toLower.toLower = c.toLower := by
  rcases toLower_cases c with ⟨h1, h2, h3⟩ | ⟨-, h⟩
  · rcases toLower_cases c.toLower with ⟨h1', h2', -⟩ | ⟨-, h⟩
    · omega
    · exact h
  · rw [h, h]

namespace Str

def startsWith (s p : Str) : Bool := p.isPrefixOf s

def endsWith (s p : Str) : Bool := p.isSuffixOf s

/-- `str::contains` of a text. -/
def containsText (s p : Str) : Bool := decide (p <:+: s)

/-- `str::strip_prefix` of a text. -/
def stripPrefixText (s p : Str) : Option Str := if s.startsWith p then some (s.drop p.length) else none

/-- `str::strip_suffix` of a text. -/
def stripSuffixText (s p : Str) : Option Str := if s.endsWith p then some (s.take (s.length - p.length)) else none

theorem eq_append_of_stripPrefixText {p s rest : Str} (h : stripPrefixText s p = some rest) : s = p ++ rest := by
  unfold stripPrefixText startsWith at h
  split at h
  · rename_i hp
    obtain ⟨t, rfl⟩ := List.isPrefixOf_iff_prefix.1 hp
    cases h
    rw [List.drop_left]
  · cases h

theorem stripSuffixText_eq_some {p s t : Str} : stripSuffixText s p = some t ↔ s = t ++ p := by
  unfold stripSuffixText endsWith
  constructor
  · intro h
    split at h
    · rename_i hp
      obtain ⟨front, rfl⟩ := List.isSuffixOf_iff_suffix.1 hp
      cases h
      rw [List.length_append, Nat.add_sub_cancel, List.take_left]
    · cases h
  · rintro rfl
    rw [if_pos (List.isSuffixOf_iff_suffix.2 (List.suffix_append t p)), List.length_append, Nat.add_sub_cancel,
      List.take_left]

theorem stripSuffix_eq_some {c : Char} {s t : Str} : stripSuffix c s = some t ↔ s = t ++ [c] := by
  constructor
  · exact eq_append_of_stripSuffix
  · rintro rfl
    rw [stripSuffix, List.getLast?_concat, if_pos rfl, List.dropLast_concat]

theorem endsWith_of_stripSuffix_none {c : Char} {s : Str} (h : stripSuffix c s = none) : s.endsWith [c] = false := by
  unfold stripSuffix at h
  split at h
  · cases h
  · rename_i hlast
    rw [← Bool.not_eq_true]
    intro hends
    obtain ⟨t, rfl⟩ := List.isSuffixOf_iff_suffix.1 hends
    exact hlast List.getLast?_concat

theorem head_of_startsWith {c d : Char} {s : Str} (h : startsWith (c :: s) [d] = true) : c = d := by
  obtain ⟨t, ht⟩ := List.isPrefixOf_iff_prefix.1 h
  rw [List.singleton_append, List.cons.injEq] at ht
  exact ht.1.symm

/-- `str::split_once` of a text: what stands before and after its first occurrence. -/
def splitOnceText (sep : Str) : Str → Option (Str × Str)
  | [] => if sep.isEmpty then some ([], []) else none
  | c :: s =>
    if startsWith (c :: s) sep then some ([], (c :: s).drop sep.length)
    else (splitOnceText sep s).map fun p => (c :: p.1, p.2)

theorem eq_append_of_splitOnceText {sep : Str} : ∀ {s a b : Str}, splitOnceText sep s = some (a, b) → s = a ++ sep ++ b
  | [], a, b, h => by
    rw [splitOnceText] at h
    split at h
    · rename_i hempty
      cases h
      rw [List.isEmpty_iff.1 hempty]
      rfl
    · cases h
  | c :: s, a, b, h => by
    rw [splitOnceText] at h
    split at h
    · rename_i hstart
      obtain ⟨t, ht⟩ := List.isPrefixOf_iff_prefix.1 hstart
      cases h
      rw [← ht, List.drop_left, List.nil_append]
    · obtain ⟨p, hp, heq⟩ := Option.map_eq_some_iff.1 h
      cases heq
      rw [eq_append_of_splitOnceText (a := p.1) (b := p.2) hp]
      rfl

/-- What stands before a text and has not the separator's first character goes to the first part. -/
theorem splitOnceText_append_left {d : Char} {sep : Str} : ∀ {w : Str}, (∀ c ∈ w, c ≠ d) → ∀ s : Str,
    splitOnceText (d :: sep) (w ++ s) = (splitOnceText (d :: sep) s).map fun p => (w ++ p.1, p.2)
  | [], _, s => by
    rw [List.nil_append]
    cases splitOnceText (d :: sep) s <;> rfl
  | c :: w, hw, s => by
    have hstart : ¬ startsWith (c :: (w ++ s)) (d :: sep) = true := by
      intro hstart
      obtain ⟨t, ht⟩ := List.isPrefixOf_iff_prefix.1 hstart
      rw [List.cons_append, List.cons.injEq] at ht
      exact hw c (List.mem_cons_self ..) ht.1.symm
    rw [List.cons_append, splitOnceText, if_neg hstart,
      splitOnceText_append_left (fun e he => hw e (List.mem_cons_of_mem _ he)) s, Option.map_map]
    rfl

/-- A separator found in a text is found at the same place when characters it has not are appended. -/
theorem splitOnceText_append_right {sep w : Str} (hsep : sep ≠ []) (hw : ∀ c ∈ w, c ∉ sep) : ∀ {s a b : Str},
    splitOnceText sep s = some (a, b) → splitOnceText sep (s ++ w) = some (a, b ++ w)
  | [], a, b, h => by
    rw [splitOnceText, if_neg (by rw [List.isEmpty_iff]; exact hsep)] at h
    cases h
  | c :: s, a, b, h => by
    have hstart : startsWith (c :: (s ++ w)) sep = startsWith (c :: s) sep := by
      rw [Bool.eq_iff_iff, startsWith, startsWith, List.isPrefixOf_iff_prefix, List.isPrefixOf_iff_prefix,
        ← List.cons_append]
      constructor
      · intro hpre
        rcases List.prefix_or_prefix_of_prefix hpre (List.prefix_append (c :: s) w) with hpre' | ⟨t, rfl⟩
        · exact hpre'
        · -- the separator would reach into what is appended
          cases t with
          | nil => rw [List.append_nil]
          | cons d t =>
            obtain ⟨t', ht'⟩ := hpre
            rw [List.append_assoc, List.append_cancel_left_eq, List.cons_append] at ht'
            have hmem : d ∈ w := by
              rw [← ht']
              exact List.mem_cons_self ..
            exact absurd (List.mem_append_right _ (List.mem_cons_self ..)) (hw d hmem)
      · intro hpre
        exact hpre.trans (List.prefix_append _ _)
    rw [splitOnceText] at h
    rw [List.cons_append, splitOnceText, hstart]
    split
    · rename_i hpre
      rw [if_pos hpre] at h
      cases h
      have hlen := (List.isPrefixOf_iff_prefix.1 hpre).length_le
      rw [← List.cons_append, List.drop_append_of_le_length hlen]
    · rename_i hpre
      rw [if_neg hpre] at h
      obtain ⟨p, hp, heq⟩ := Option.map_eq_some_iff.1 h
      cases heq
      rw [splitOnceText_append_right hsep hw (a := p.1) (b := p.2) hp]
      rfl

/-- `str::rsplit_once`: the text before and after the last separator. -/
def rsplitOnce (sep : Char) (s : Str) : Option (Str × Str) :=
  (splitOnce sep s.reverse).map fun p => (p.2.reverse, p.1.reverse)

theorem rsplitOnce_eq_some {sep : Char} {s a b : Str} :
    rsplitOnce sep s = some (a, b) ↔ s = a ++ sep :: b ∧ sep ∉ b := by
  have hreverse : s = a ++ sep :: b ↔ s.reverse = b.reverse ++ sep :: a.reverse := by
    rw [← List.reverse_inj]
    simp
  rw [hreverse, ← List.mem_reverse, ← splitOnce_eq_some, rsplitOnce, Option.map_eq_some_iff]
  constructor
  · rintro ⟨p, hp, heq⟩
    cases heq
    simpa using hp
  · intro h
    exact ⟨_, h, by simp⟩

theorem rsplitOnce_eq_none {sep : Char} {s : Str} : rsplitOnce sep s = none ↔ sep ∉ s := by
  rw [rsplitOnce, Option.map_eq_none_iff, splitOnce_eq_none, List.mem_reverse]

theorem split_append_cons (s t : Str) (sep : Char) : (s ++ sep :: t).split sep = s.split sep ++ t.split sep :=
  List.splitOn_append_cons_self s t

/-- A text is its trim between white space. -/
theorem exists_trim (s : Str) : ∃ before after : Str, s = before ++ trim s ++ after ∧
    (∀ c ∈ before, isWhitespace c = true) ∧ ∀ c ∈ after, isWhitespace c = true := by
  refine ⟨s.takeWhile isWhitespace, (trimStart s).rtakeWhile isWhitespace, ?_, ?_, ?_⟩
  · rw [List.append_assoc]
    have hend : trim s ++ (trimStart s).rtakeWhile isWhitespace = trimStart s := List.rdropWhile_append_rtakeWhile
    rw [hend]
    exact List.takeWhile_append_dropWhile.symm
  · intro c hc
    exact List.mem_takeWhile_imp hc
  · intro c hc
    exact List.mem_rtakeWhile_imp hc

/-- `str::trim_matches` of a class of characters. -/
def trimMatches (p : Char → Bool) (s : Str) : Str := (s.dropWhile p).rdropWhile p

/-- Joined texts are split into their own parts, one after the other. -/
theorem split_intercalate (sep : Char) : ∀ {parts : List Str}, parts ≠ [] →
    split ([sep].intercalate parts) sep = parts.flatMap fun part => part.split sep
  | [], h => absurd rfl h
  | [part], _ => by
    rw [List.intercalate_singleton, List.flatMap_singleton]
  | part :: next :: parts, _ => by
    rw [List.intercalate_cons_cons, List.append_assoc, List.singleton_append, split_append_cons,
      split_intercalate sep (List.cons_ne_nil next parts)]
    rfl

/-- A joined text, word after word. -/
theorem intercalate_cons_eq (sep : Char) (w : Str) : ∀ words : List Str,
    [sep].intercalate (w :: words) = w ++ words.flatMap (sep :: ·)
  | [] => by rw [List.intercalate_singleton, List.flatMap_nil, List.append_nil]
  | v :: words => by
    rw [List.intercalate_cons_cons, intercalate_cons_eq sep v words, List.flatMap_cons, List.append_assoc,
      List.singleton_append, List.cons_append]

theorem intercalate_append (sep : Char) {parts more : List Str} (hparts : parts ≠ []) (hmore : more ≠ []) :
    [sep].intercalate (parts ++ more) = [sep].intercalate parts ++ sep :: [sep].intercalate more := by
  obtain ⟨v, parts, rfl⟩ := List.exists_cons_of_ne_nil hparts
  obtain ⟨w, more, rfl⟩ := List.exists_cons_of_ne_nil hmore
  rw [List.cons_append, intercalate_cons_eq, intercalate_cons_eq, intercalate_cons_eq, List.flatMap_append,
    List.flatMap_cons, List.append_assoc, List.cons_append]

/-- The parts of a text end with those of another exactly if the text is the other, or ends with it
behind a separator. -/
theorem split_suffix_iff {sep : Char} {s t : Str} :
    s.split sep <:+ t.split sep ↔ t = s ∨ ∃ before, t = before ++ sep :: s := by
  have hjoin : ∀ u : Str, [sep].intercalate (u.split sep) = u := fun u => List.intercalate_splitOn sep
  constructor
  · rintro ⟨before, h⟩
    cases before with
    | nil =>
      left
      rw [← hjoin t, ← h, List.nil_append, hjoin]
    | cons part before =>
      right
      have hs : s.split sep ≠ [] := List.splitOnP_ne_nil _ s
      refine ⟨[sep].intercalate (part :: before), ?_⟩
      rw [← hjoin t, ← h, intercalate_append sep (List.cons_ne_nil part before) hs, hjoin]
  · rintro (rfl | ⟨before, rfl⟩)
    · exact List.suffix_refl _
    · rw [split_append_cons]
      exact List.suffix_append _ _

theorem dropWhile_congr {p q : Char → Bool} : ∀ {s : Str}, (∀ c ∈ s, p c = q c) → s.dropWhile p = s.dropWhile q
  | [], _ => rfl
  | c :: s, h => by
    rw [List.dropWhile_cons, List.dropWhile_cons, h c (List.mem_cons_self ..),
      dropWhile_congr fun d hd => h d (List.mem_cons_of_mem _ hd)]

/-- Trimming a text that begins with a character outside the class only looks at its end. -/
theorem trimMatches_cons {p q : Char → Bool} {c : Char} {s : Str} (hc : p c = false) (h : ∀ d ∈ c :: s, p d = q d) :
    trimMatches p (c :: s) = (c :: s).rdropWhile q := by
  have hstart : (c :: s).dropWhile p = c :: s := List.dropWhile_cons_of_neg (by rw [hc]; exact Bool.false_ne_true)
  rw [trimMatches, hstart, List.rdropWhile, List.rdropWhile, dropWhile_congr]
  intro d hd
  exact h d (List.mem_reverse.1 hd)

theorem trimMatches_eq_self {p : Char → Bool} {s : Str} (h : ∀ c ∈ s, p c = false) : trimMatches p s = s := by
  cases s with
  | nil => rfl
  | cons c s =>
    rw [trimMatches_cons (q := p) (h c (List.mem_cons_self ..)) fun _ _ => rfl, List.rdropWhile_eq_self_iff]
    intro hne
    rw [h _ (List.getLast_mem hne)]
    exact Bool.false_ne_true

theorem first_of_trimMatches {p : Char → Bool} {s t : Str} {c : Char} (h : trimMatches p s = c :: t) : p c = false := by
  obtain ⟨rest, hrest⟩ : c :: t <+: s.dropWhile p := by
    rw [← h]
    exact List.rdropWhile_prefix _ _
  have hhead := List.head?_dropWhile_not p s
  rw [← hrest] at hhead
  exact hhead

theorem trimMatches_idem (p : Char → Bool) (s : Str) : trimMatches p (trimMatches p s) = trimMatches p s := by
  cases htrim : trimMatches p s with
  | nil => rfl
  | cons c t =>
    rw [trimMatches_cons (first_of_trimMatches htrim) fun _ _ => rfl, ← htrim]
    exact List.rdropWhile_idempotent p _

theorem trimMatches_within (p : Char → Bool) (s : Str) : trimMatches p s <:+: s :=
  (List.rdropWhile_prefix _ _).isInfix.trans (List.dropWhile_suffix _).isInfix

theorem trim_trim (s : Str) : trim (trim s) = trim s := trimMatches_idem isWhitespace s

theorem trim_ws_append {w : Str} (hw : ∀ c ∈ w, isWhitespace c = true) (s : Str) : trim (w ++ s) = trim s := by
  rw [trim, trimStart, List.dropWhile_append_of_pos hw]
  rfl

/-- Trimming at the start does not reach past a character that is no white space. -/
theorem trimStart_append_cons {c : Char} (hc : isWhitespace c = false) (s t : Str) :
    trimStart (s ++ c :: t) = trimStart s ++ c :: t := by
  have hnot : (c :: t).dropWhile isWhitespace = c :: t :=
    List.dropWhile_cons_of_neg (by rw [hc]; exact Bool.false_ne_true)
  rw [trimStart, List.dropWhile_append, hnot]
  split
  · rename_i hempty
    rw [trimStart, List.isEmpty_iff.1 hempty, List.nil_append]
  · rfl

theorem trimEnd_append_cons {c : Char} (hc : isWhitespace c = false) (s t : Str) :
    trimEnd (s ++ c :: t) = s ++ c :: trimEnd t := by
  induction t using List.reverseRecOn with
  | nil =>
    rw [trimEnd, trimEnd, List.rdropWhile_concat_neg _ _ _ (by rw [hc]; exact Bool.false_ne_true)]
    rfl
  | append_singleton t d ih =>
    have hassoc : s ++ c :: (t ++ [d]) = (s ++ c :: t) ++ [d] := by rw [List.append_assoc, List.cons_append]
    rw [hassoc, trimEnd, trimEnd, List.rdropWhile_concat, List.rdropWhile_concat]
    split
    · exact ih
    · exact hassoc.symm

theorem trim_around {c d : Char} (hc : isWhitespace c = false) (hd : isWhitespace d = false) (s m t : Str) :
    trim (s ++ c :: (m ++ d :: t)) = trimStart s ++ c :: (m ++ d :: trimEnd t) := by
  have hassoc : trimStart s ++ c :: (m ++ d :: t) = (trimStart s ++ c :: m) ++ d :: t := by
    rw [List.append_assoc, List.cons_append]
  rw [trim, trimStart_append_cons hc, hassoc, trimEnd_append_cons hd, List.append_assoc, List.cons_append]

/-- The first of the parts `str::split` of a class of characters makes. -/
def firstPart (p : Char → Bool) (s : Str) : Str := (s.splitOnP p).headD []

theorem firstPart_eq_takeWhile (p : Char → Bool) : ∀ s : Str, firstPart p s = s.takeWhile fun c => !p c
  | [] => rfl
  | c :: s => by
    have ih := firstPart_eq_takeWhile p s
    unfold firstPart at ih ⊢
    rw [List.splitOnP_cons_eq_if_modifyHead, List.takeWhile_cons]
    cases hc : p c with
    | true => rfl
    | false =>
      rw [if_neg Bool.false_ne_true, Bool.not_false, if_pos rfl, ← ih]
      cases hparts : s.splitOnP p with
      | nil => exact absurd hparts (List.splitOnP_ne_nil p s)
      | cons part parts => rfl

/-- `str::splitn(2, _)` of a class of characters: the first part, and what follows its separator. -/
def splitn2 (p : Char → Bool) : Str → Str × Option Str
  | [] => ([], none)
  | c :: s => if p c then ([], some s) else (splitn2 p s).map (c :: ·) id

theorem splitn2_append {p : Char → Bool} {c : Char} (hc : p c = true) {t : Str} : ∀ {s : Str},
    (∀ d ∈ s, p d = false) → splitn2 p (s ++ c :: t) = (s, some t)
  | [], _ => by rw [List.nil_append, splitn2, if_pos hc]
  | d :: s, h => by
    have hd : ¬ p d = true := by rw [h d (List.mem_cons_self ..)]; exact Bool.false_ne_true
    rw [List.cons_append, splitn2, if_neg hd, splitn2_append hc fun e he => h e (List.mem_cons_of_mem _ he)]
    rfl

theorem splitn2_eq_self {p : Char → Bool} : ∀ {s : Str}, (∀ d ∈ s, p d = false) → splitn2 p s = (s, none)
  | [], _ => rfl
  | d :: s, h => by
    have hd : ¬ p d = true := by rw [h d (List.mem_cons_self ..)]; exact Bool.false_ne_true
    rw [splitn2, if_neg hd, splitn2_eq_self fun e he => h e (List.mem_cons_of_mem _ he)]
    rfl

/-- A trimmed text ends in a character that is not white space. -/
theorem getLast_of_trim {s : Str} (h : trim s = s) (hne : s ≠ []) : isWhitespace (s.getLast hne) = false := by
  have hend : trimEnd s = s := by
    conv_lhs => rw [← h]
    exact (List.rdropWhile_idempotent _ _).trans h
  exact Bool.eq_false_iff.2 (List.rdropWhile_eq_self_iff.1 hend hne)

/-- A text with neither end white space is its own trim. -/
theorem trim_cons_append {c : Char} (hc : isWhitespace c = false) (s : Str) {t : Str} (ht : trim t = t) (hne : t ≠ []) :
    trim (c :: s ++ t) = c :: s ++ t := by
  have hstart : trimStart (c :: s ++ t) = c :: s ++ t := by
    rw [List.cons_append, trimStart, List.dropWhile_cons_of_neg]
    rw [hc]
    exact Bool.false_ne_true
  rw [trim, hstart, trimEnd, List.rdropWhile_eq_self_iff]
  intro hcons
  rw [List.getLast_append_of_ne_nil hcons hne, getLast_of_trim ht hne]
  exact Bool.false_ne_true

def toAsciiLowercase (s : Str) : Str := s.map Char.toLower

end Str

end WorldInfra.Rust
