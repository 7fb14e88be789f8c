/-
Texts up to the case of ASCII letters. Every test and every split the crates make at a character
that is no letter gives the same on a text and on its lower case, and so do the readers behind the
parser of internet addresses.
-/
import WorldInfra.Rust.Net
import WorldInfra.Rust.Pattern

namespace WorldInfra.Rust

/-! ## Texts -/

namespace Str

@[simp] theorem toAsciiLowercase_nil : toAsciiLowercase [] = [] := rfl

@[simp] theorem toAsciiLowercase_cons (c : Char) (s : Str) :
    toAsciiLowercase (c :: s) = c.toLower :: toAsciiLowercase s := rfl

@[simp] theorem toAsciiLowercase_append (s t : Str) :
    toAsciiLowercase (s ++ t) = toAsciiLowercase s ++ toAsciiLowercase t := List.map_append

@[simp] theorem toAsciiLowercase_idem (s : Str) : toAsciiLowercase (toAsciiLowercase s) = toAsciiLowercase s := by
  rw [toAsciiLowercase, toAsciiLowercase, List.map_map]
  apply List.map_congr_left
  intro c _
  exact toLower_toLower c

@[simp] theorem isEmpty_lower (s : Str) : (toAsciiLowercase s).isEmpty = s.isEmpty := List.isEmpty_map

@[simp] theorem len_lower (s : Str) : len (toAsciiLowercase s) = len s := by
  rw [len, len, toAsciiLowercase, List.map_map]
  congr 1
  apply List.map_congr_left
  intro c _
  exact utf8Size_toLower c

theorem any_lower {p : Char → Bool} (hp : ∀ c, p c.toLower = p c) (s : Str) : (toAsciiLowercase s).any p = s.any p := by
  rw [toAsciiLowercase, List.any_map]
  congr 1
  funext c
  exact hp c

theorem all_lower {p : Char → Bool} (hp : ∀ c, p c.toLower = p c) (s : Str) : (toAsciiLowercase s).all p = s.all p := by
  rw [toAsciiLowercase, List.all_map]
  congr 1
  funext c
  exact hp c

def noLetters (s : Str) : Bool := s.all fun c => !c.isAlpha

/-- A text without letters is only the lower case of itself. -/
theorem lower_eq_iff : ∀ {p : Str}, noLetters p = true → ∀ {s : Str}, toAsciiLowercase s = p ↔ s = p
  | [], _, s => List.map_eq_nil_iff
  | d :: p, hp, [] => ⟨nofun, nofun⟩
  | d :: p, hp, c :: s => by
    rw [noLetters, List.all_cons, Bool.and_eq_true, Bool.not_eq_true'] at hp
    rw [toAsciiLowercase_cons, List.cons.injEq, List.cons.injEq, toLower_eq_iff hp.1, lower_eq_iff hp.2]

/-- Digits have no case. -/
theorem lower_of_digits {s : Str} (h : s.all Char.isDigit = true) : toAsciiLowercase s = s := by
  refine (List.map_congr_left ?_).trans (List.map_id s)
  intro c hc
  have hdigit := isDigit_iff.1 (List.all_eq_true.1 h c hc)
  rcases toLower_cases c with ⟨hle, -, -⟩ | ⟨-, heq⟩
  · omega
  · exact heq

theorem startsWith_lower {p : Str} (hp : noLetters p = true) (s : Str) :
    (toAsciiLowercase s).startsWith p = s.startsWith p := by
  rw [Bool.eq_iff_iff, startsWith, startsWith, List.isPrefixOf_iff_prefix, List.isPrefixOf_iff_prefix]
  constructor
  · rintro ⟨t, ht⟩
    obtain ⟨p', t', rfl, hp', -⟩ := List.map_eq_append_iff.1 ht.symm
    rw [(lower_eq_iff hp).1 hp']
    exact List.prefix_append _ _
  · rintro ⟨t, rfl⟩
    rw [toAsciiLowercase_append, (lower_eq_iff hp).2 rfl]
    exact List.prefix_append _ _

theorem endsWith_lower {p : Str} (hp : noLetters p = true) (s : Str) :
    (toAsciiLowercase s).endsWith p = s.endsWith p := by
  rw [Bool.eq_iff_iff, endsWith, endsWith, List.isSuffixOf_iff_suffix, List.isSuffixOf_iff_suffix]
  constructor
  · rintro ⟨t, ht⟩
    obtain ⟨t', p', rfl, -, hp'⟩ := List.map_eq_append_iff.1 ht.symm
    rw [(lower_eq_iff hp).1 hp']
    exact List.suffix_append _ _
  · rintro ⟨t, rfl⟩
    rw [toAsciiLowercase_append, (lower_eq_iff hp).2 rfl]
    exact List.suffix_append _ _

theorem containsText_lower {p : Str} (hp : noLetters p = true) (s : Str) :
    (toAsciiLowercase s).containsText p = s.containsText p := by
  rw [Bool.eq_iff_iff, containsText, containsText, decide_eq_true_eq, decide_eq_true_eq]
  constructor
  · rintro ⟨a, b, hab⟩
    obtain ⟨ap, b', rfl, hap, -⟩ := List.map_eq_append_iff.1 hab.symm
    obtain ⟨a', p', rfl, -, hp'⟩ := List.map_eq_append_iff.1 hap
    rw [(lower_eq_iff hp).1 hp']
    exact ⟨a', b', rfl⟩
  · rintro ⟨a, b, rfl⟩
    rw [toAsciiLowercase_append, toAsciiLowercase_append, (lower_eq_iff hp).2 rfl]
    exact ⟨_, _, rfl⟩

theorem stripPrefix_lower {d : Char} (hd : d.isAlpha = false) (s : Str) :
    stripPrefix d (toAsciiLowercase s) = (stripPrefix d s).map toAsciiLowercase := by
  cases s with
  | nil => rfl
  | cons c s =>
    simp only [toAsciiLowercase_cons, stripPrefix, toLower_eq_iff hd]
    split
    · rfl
    · rfl

theorem splitOnce_lower {d : Char} (hd : d.isAlpha = false) : ∀ s : Str, splitOnce d (toAsciiLowercase s) =
    (splitOnce d s).map fun p => (toAsciiLowercase p.1, toAsciiLowercase p.2)
  | [] => rfl
  | c :: s => by
    rw [toAsciiLowercase_cons, splitOnce, splitOnce, splitOnce_lower hd s]
    simp only [toLower_eq_iff hd]
    split
    · rfl
    · rw [Option.map_map, Option.map_map]
      rfl

theorem rsplitOnce_lower {d : Char} (hd : d.isAlpha = false) (s : Str) : rsplitOnce d (toAsciiLowercase s) =
    (rsplitOnce d s).map fun p => (toAsciiLowercase p.1, toAsciiLowercase p.2) := by
  have hreverse : (toAsciiLowercase s).reverse = toAsciiLowercase s.reverse := List.map_reverse.symm
  rw [rsplitOnce, rsplitOnce, hreverse, splitOnce_lower hd, Option.map_map, Option.map_map]
  congr 1
  funext p
  exact Prod.ext List.map_reverse.symm List.map_reverse.symm

theorem splitOnceText_lower {sep : Str} (hsep : noLetters sep = true) : ∀ s : Str,
    splitOnceText sep (toAsciiLowercase s) =
      (splitOnceText sep s).map fun p => (toAsciiLowercase p.1, toAsciiLowercase p.2)
  | [] => by
    rw [toAsciiLowercase_nil, splitOnceText]
    split
    · rfl
    · rfl
  | c :: s => by
    have hstart := startsWith_lower hsep (c :: s)
    rw [toAsciiLowercase_cons] at hstart
    rw [toAsciiLowercase_cons, splitOnceText, splitOnceText, hstart, splitOnceText_lower hsep s]
    split
    · rw [← toAsciiLowercase_cons, Option.map_some, toAsciiLowercase, ← List.map_drop]
      rfl
    · rw [Option.map_map, Option.map_map]
      rfl

theorem split_lower {d : Char} (hd : d.isAlpha = false) : ∀ s : Str,
    (toAsciiLowercase s).split d = (s.split d).map toAsciiLowercase
  | [] => by
    simp [split]
  | c :: s => by
    have ih := split_lower hd s
    rw [split, split] at ih
    rw [toAsciiLowercase_cons, split, split, List.splitOn_cons_eq_if_modifyHead, List.splitOn_cons_eq_if_modifyHead, ih]
    simp only [beq_iff_eq, toLower_eq_iff hd]
    split
    · rfl
    · cases s.splitOn d <;> rfl

theorem count_lower {d : Char} (hd : d.isAlpha = false) (s : Str) : (toAsciiLowercase s).count d = s.count d := by
  unfold List.count
  rw [toAsciiLowercase, List.countP_map]
  apply List.countP_congr
  intro c _
  rw [Function.comp_apply, beq_iff_eq, beq_iff_eq, toLower_eq_iff hd]

theorem eqIgnoreAsciiCase_lower (s t : Str) : (toAsciiLowercase s).eqIgnoreAsciiCase t = s.eqIgnoreAsciiCase t := by
  show (toAsciiLowercase (toAsciiLowercase s) == toAsciiLowercase t) = _
  rw [toAsciiLowercase_idem]
  rfl

theorem trim_lower (s : Str) : trim (toAsciiLowercase s) = toAsciiLowercase (trim s) := by
  have hdrop : ∀ s : Str, (toAsciiLowercase s).dropWhile isWhitespace =
      toAsciiLowercase (s.dropWhile isWhitespace) := by
    intro s
    rw [toAsciiLowercase, toAsciiLowercase, List.dropWhile_map]
    congr 2
    funext c
    exact isWhitespace_toLower c
  have hreverse : ∀ s : Str, (toAsciiLowercase s).reverse = toAsciiLowercase s.reverse := fun s => List.map_reverse.symm
  rw [trim, trimStart, trimEnd, List.rdropWhile, hdrop, hreverse, hdrop, hreverse]
  rfl

end Str

/-! ## Readers of addresses -/

namespace Net

theorem toDigit_toLower (radix : Nat) (c : Char) : toDigit radix c.toLower = toDigit radix c := by
  rcases toLower_cases c with ⟨h1, h2, h3⟩ | ⟨-, h⟩
  · have hdigit : ∀ d : Char, 65 ≤ d.toNat → d.isDigit = false := by
      intro d hd
      rw [← Bool.not_eq_true, isDigit_iff]
      omega
    have hlower : c.isLower = false := by
      rw [← Bool.not_eq_true, isLower_iff]
      omega
    have hupper : c.isUpper = true := isUpper_iff.2 ⟨h1, h2⟩
    have hlower' : c.toLower.isLower = true := isLower_iff.2 (by omega)
    have hvalue : c.toLower.toNat - 'a'.toNat = c.toNat - 'A'.toNat := by
      rw [h3]
      change c.toNat + 32 - 97 = c.toNat - 65
      omega
    simp only [toDigit, hdigit c h1, hdigit c.toLower (by omega), hlower, hupper, hlower', hvalue, if_true, if_false,
      Bool.false_eq_true]
  · rw [h]

/-- The reader reads the same from a text and its lower case, and leaves the same. -/
def CaseBlind {α : Type} (reader : Reader α) : Prop :=
  ∀ s : Str, reader s.toAsciiLowercase = (reader s).map fun p => (p.1, p.2.toAsciiLowercase)

section

variable {α β : Type}

theorem CaseBlind.pure (a : α) : CaseBlind (Pure.pure a : Reader α) := fun _ => rfl

theorem CaseBlind.failure : CaseBlind (Alternative.failure : Reader α) := fun _ => rfl

theorem CaseBlind.bind {reader : Reader α} {next : α → Reader β} (h : CaseBlind reader)
    (hnext : ∀ a, CaseBlind (next a)) : CaseBlind (reader >>= next) := by
  intro s
  show (reader s.toAsciiLowercase).bind (fun p => next p.1 p.2) = ((reader s).bind fun p => next p.1 p.2).map _
  rw [h s]
  cases reader s with
  | none => rfl
  | some p => exact hnext p.1 p.2

theorem CaseBlind.map {reader : Reader α} (f : α → β) (h : CaseBlind reader) : CaseBlind (f <$> reader) := by
  intro s
  show (reader s.toAsciiLowercase).bind (fun p => some (f p.1, p.2)) =
    ((reader s).bind fun p => some (f p.1, p.2)).map _
  rw [h s]
  cases reader s with
  | none => rfl
  | some p => rfl

theorem CaseBlind.orElse {reader other : Reader α} (h : CaseBlind reader) (hother : CaseBlind other) :
    CaseBlind (reader <|> other) := by
  intro s
  show (reader s.toAsciiLowercase <|> other s.toAsciiLowercase) = (reader s <|> other s).map _
  rw [h s, hother s]
  cases reader s with
  | none => rfl
  | some p => rfl

theorem CaseBlind.readGivenChar {target : Char} (h : target.isAlpha = false) :
    CaseBlind (Net.readGivenChar target) := by
  intro s
  cases s with
  | nil => rfl
  | cons c s =>
    rw [Str.toAsciiLowercase_cons]
    simp only [Net.readGivenChar, toLower_eq_iff h]
    split
    · rfl
    · rfl

theorem CaseBlind.readNumber (radix : Nat) (maxDigits : Option Nat) (allowZeroPrefix : Bool) (bound : Nat) :
    CaseBlind (Net.readNumber radix maxDigits allowZeroPrefix bound) := by
  intro s
  have hdigits : s.toAsciiLowercase.takeWhile (fun c => (toDigit radix c).isSome) =
      Str.toAsciiLowercase (s.takeWhile fun c => (toDigit radix c).isSome) := by
    rw [Str.toAsciiLowercase, Str.toAsciiLowercase, List.takeWhile_map]
    congr 2
    funext c
    exact congrArg Option.isSome (toDigit_toLower radix c)
  have hvalue : ∀ (digits : Str) (n : Nat),
      digits.toAsciiLowercase.foldl (fun n c => n * radix + (toDigit radix c).getD 0) n =
        digits.foldl (fun n c => n * radix + (toDigit radix c).getD 0) n := by
    intro digits n
    rw [Str.toAsciiLowercase, List.foldl_map]
    congr 1
    funext n c
    rw [toDigit_toLower]
  have hzero : ∀ digits : Str, (digits.toAsciiLowercase.head? == some '0') = (digits.head? == some '0') := by
    intro digits
    cases digits with
    | nil => rfl
    | cons c digits =>
      rw [Bool.eq_iff_iff, beq_iff_eq, beq_iff_eq, Str.toAsciiLowercase_cons, List.head?_cons, List.head?_cons,
        Option.some.injEq, Option.some.injEq, toLower_eq_iff (by decide)]
  have hlength : ∀ digits : Str, digits.toAsciiLowercase.length = digits.length := fun _ => List.length_map _
  -- every test of the reader is blind to case, so both sides take the same branch
  simp only [Net.readNumber, hdigits, hvalue, hzero, hlength, Str.isEmpty_lower]
  split
  · rfl
  · split
    · rfl
    · split
      · rw [Str.toAsciiLowercase, ← List.map_drop]
        rfl
      · rfl

theorem CaseBlind.readSeparator {sep : Char} (hsep : sep.isAlpha = false) (first : Bool) {inner : Reader α}
    (h : CaseBlind inner) : CaseBlind (Net.readSeparator sep first inner) := by
  cases first with
  | true => exact h
  | false => exact CaseBlind.bind (CaseBlind.readGivenChar hsep) fun _ => h

theorem caseBlind_readOctet (first : Bool) : CaseBlind (readOctet first) :=
  CaseBlind.readSeparator (by decide) first (CaseBlind.readNumber 10 (some 3) false 255)

theorem caseBlind_readIpv4Addr : CaseBlind readIpv4Addr := by
  unfold readIpv4Addr
  apply CaseBlind.bind (caseBlind_readOctet true)
  intro a
  apply CaseBlind.bind (caseBlind_readOctet false)
  intro b
  apply CaseBlind.bind (caseBlind_readOctet false)
  intro c
  apply CaseBlind.bind (caseBlind_readOctet false)
  intro d
  exact CaseBlind.pure _

theorem readGroups_lower : ∀ (limit : Nat) (first : Bool) (s : Str), readGroups first limit s.toAsciiLowercase =
    ((readGroups first limit s).1, (readGroups first limit s).2.toAsciiLowercase)
  | 0, _, _ => rfl
  | limit + 1, first, s => by
    have hcolon : (':').isAlpha = false := by decide
    have hv4 := CaseBlind.readSeparator hcolon first caseBlind_readIpv4Addr s
    have hgroup := CaseBlind.readSeparator hcolon first (CaseBlind.readNumber 16 (some 4) true 65535) s
    have hfirst : (if 0 < limit then readSeparator ':' first readIpv4Addr s.toAsciiLowercase else none) =
        (if 0 < limit then readSeparator ':' first readIpv4Addr s else none).map
          fun p => (p.1, p.2.toAsciiLowercase) := by
      split
      · exact hv4
      · rfl
    rw [readGroups, readGroups, hfirst]
    cases (if 0 < limit then readSeparator ':' first readIpv4Addr s else none) with
    | some p => rfl
    | none =>
      rw [Option.map_none, hgroup]
      cases readSeparator ':' first (readNumber 16 (some 4) true 65535) s with
      | none => rfl
      | some p =>
        rw [Option.map_some]
        simp only [readGroups_lower limit false p.2]

theorem caseBlind_readGroups (first : Bool) (limit : Nat) :
    CaseBlind fun s => some (readGroups first limit s) := fun s => congrArg some (readGroups_lower limit first s)

theorem caseBlind_readIpv6Addr : CaseBlind readIpv6Addr := by
  unfold readIpv6Addr
  apply CaseBlind.bind (caseBlind_readGroups true 8)
  rintro ⟨head, v4⟩
  simp only
  split
  · exact CaseBlind.pure _
  · have htail : CaseBlind (do
        readGivenChar ':'
        readGivenChar ':'
        let tail ← fun s => some (readGroups true (8 - (head.length + 1)) s)
        return ofGroups (head ++ List.replicate (8 - head.length - tail.1.length) 0 ++ tail.1)) := by
      apply CaseBlind.bind (CaseBlind.readGivenChar (by decide))
      intro _
      apply CaseBlind.bind (CaseBlind.readGivenChar (by decide))
      intro _
      apply CaseBlind.bind (caseBlind_readGroups true _)
      intro _
      exact CaseBlind.pure _
    split
    · exact CaseBlind.failure.bind fun _ => htail
    · exact htail

theorem caseBlind_readIpAddr : CaseBlind readIpAddr :=
  (caseBlind_readIpv4Addr.map IpAddr.v4).orElse (caseBlind_readIpv6Addr.map IpAddr.v6)

theorem parseWith_lower {reader : Reader α} (h : CaseBlind reader) (s : Str) :
    parseWith reader s.toAsciiLowercase = parseWith reader s := by
  rw [parseWith, parseWith, h s]
  rcases reader s with _ | ⟨a, _ | ⟨c, rest⟩⟩
  · rfl
  · rfl
  · rfl

end

end Net

theorem IpAddr.parse_lower (s : Str) : IpAddr.parse s.toAsciiLowercase = IpAddr.parse s :=
  Net.parseWith_lower Net.caseBlind_readIpAddr s

end WorldInfra.Rust
