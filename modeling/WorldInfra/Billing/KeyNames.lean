/-
billing-risk-core: the normal form of a snapshot key. A list of words has one normal form under every
naming convention, normalization is idempotent, and a key is sensitive exactly if the words of its
normal form end with those of a normalized sensitive key.
-/
import WorldInfra.Billing.Redaction

namespace WorldInfra.Billing

open WorldInfra.Rust

/-! ## Naming conventions -/

/-- A word of at least two small letters. -/
structure IsWord (word : Str) : Prop where
  lower : ∀ c ∈ word, c.isLower = true
  two : 2 ≤ word.length

def capitalize : Str → Str
  | [] => []
  | c :: s => c.toUpper :: s

inductive Convention where
  | snake
  | kebab
  | camel
  | pascal
  | screamingSnake
  deriving DecidableEq, Repr

def snakeCase (words : List Str) : Str := ['_'].intercalate words

/-- The spelling of a list of words. -/
def Convention.spell : Convention → List Str → Str
  | .snake, words => snakeCase words
  | .kebab, words => ['-'].intercalate words
  | .camel, words => words.headD [] ++ words.tail.flatMap capitalize
  | .pascal, words => words.flatMap capitalize
  | .screamingSnake, words => ['_'].intercalate (words.map Str.toAsciiUppercase)

/-! ## Single characters -/

theorem endsWith_singleton {text : Str} {c : Char} : text.endsWith [c] = true ↔ text.getLast? = some c := by
  rw [Str.endsWith, List.isSuffixOf_iff_suffix, List.singleton_suffix_iff_getLast?_eq_some]

/-- Neither empty nor at a boundary: a word goes on. -/
def InWord (text : Str) : Prop := ∃ c, text.getLast? = some c ∧ c ≠ '_'

theorem InWord.endsWith {text : Str} (h : InWord text) : text.endsWith ['_'] = false := by
  obtain ⟨c, hc, hne⟩ := h
  rw [← Bool.not_eq_true, endsWith_singleton, hc, Option.some.injEq]
  exact hne

theorem InWord.isEmpty {text : Str} (h : InWord text) : text.isEmpty = false := by
  obtain ⟨c, hc, -⟩ := h
  cases text with
  | nil => cases hc
  | cons d text => rfl

theorem IsWord.ne_nil {word : Str} (h : IsWord word) : word ≠ [] := by
  rintro rfl
  exact absurd h.two (by decide)

theorem IsWord.exists_cons_cons {word : Str} (h : IsWord word) : ∃ c d s, word = c :: d :: s := by
  have htwo := h.two
  cases word with
  | nil => exact absurd rfl h.ne_nil
  | cons c s =>
    cases s with
    | nil => exact absurd htwo (by simp)
    | cons d s => exact ⟨c, d, s, rfl⟩

theorem IsWord.inWord {word : Str} (h : IsWord word) (text : Str) : InWord (text ++ word) := by
  have hne := h.ne_nil
  refine ⟨word.getLast hne, ?_, ?_⟩
  · rw [List.getLast?_append_of_ne_nil _ hne, List.getLast?_eq_some_getLast hne]
  · intro hlast
    have hlower := h.lower _ (List.getLast_mem hne)
    rw [hlast] at hlower
    cases hlower

section Steps

variable {text rest : Str} {lower upper : Bool} {c : Char} {next : Option Char}

theorem capital_of_lower (hc : c.isLower = true) : c.toUpper.isUpper = true ∧ c.toUpper.toLower = c := by
  constructor
  · rw [Char.isUpper_toUpper_eq_isAlpha, Char.isAlpha, hc, Bool.or_true]
  · rw [Char.toLower_toUpper_eq_toLower, Char.toLower_eq_of_not_isUpper]
    rw [isLower_iff] at hc
    rw [isUpper_iff]
    omega

theorem step_lower (h : c.isLower = true ∨ c.isDigit = true) (self : KeyNormalizer) :
    self.step c next = ⟨self.normalized ++ [c], true, false⟩ := by
  have hupper : ¬ c.isUpper = true := by
    rw [isLower_iff, isDigit_iff] at h
    rw [isUpper_iff]
    omega
  rw [KeyNormalizer.step, if_neg hupper, if_pos (Bool.or_eq_true .. ▸ h), Char.toLower_eq_of_not_isUpper hupper]

/-- A character that is no letter or digit closes the word. -/
theorem step_separator (hc : c.isAlphanum = false) (h : InWord text) :
    (KeyNormalizer.mk text lower upper).step c next = ⟨text ++ ['_'], false, false⟩ := by
  simp only [Char.isAlphanum, Char.isAlpha, Bool.or_eq_false_iff] at hc
  rw [KeyNormalizer.step, if_neg (by rw [hc.1.1]; exact Bool.false_ne_true), if_neg (by simp [hc.1.2, hc.2])]
  simp only [h.isEmpty, h.endsWith]
  rfl

/-- A capital at which no word begins. -/
theorem step_upper (hc : c.isLower = true) (hnext : (upper && next.any Char.isLower) = false) :
    (KeyNormalizer.mk text false upper).step c.toUpper next = ⟨text ++ [c], false, true⟩ := by
  obtain ⟨hupper, hlower⟩ := capital_of_lower hc
  rw [KeyNormalizer.step, if_pos hupper, hlower]
  simp [hnext]

/-- A capital after a small letter or a digit begins a word. -/
theorem step_capital (hc : c.isLower = true) (h : InWord text) :
    (KeyNormalizer.mk text true upper).step c.toUpper next = ⟨text ++ ['_', c], false, true⟩ := by
  obtain ⟨hupper, hlower⟩ := capital_of_lower hc
  rw [KeyNormalizer.step, if_pos hupper, hlower]
  simp [h.endsWith]

/-! ## Words -/

theorem run_lower : ∀ {word : Str}, (∀ c ∈ word, c.isLower = true) → word ≠ [] → ∀ (self : KeyNormalizer) (rest : Str),
    self.run (word ++ rest) = (KeyNormalizer.mk (self.normalized ++ word) true false).run rest
  | [], _, h, _, _ => absurd rfl h
  | [c], h, _, self, rest => by
    rw [List.singleton_append, KeyNormalizer.run, step_lower (Or.inl (h c (List.mem_singleton_self c)))]
  | c :: d :: word, h, _, self, rest => by
    rw [List.cons_append, KeyNormalizer.run, step_lower (Or.inl (h c (List.mem_cons_self ..))),
      run_lower (fun e he => h e (List.mem_cons_of_mem _ he)) (List.cons_ne_nil d word), List.append_assoc,
      List.singleton_append]

/-- Capitals up to the end of a word. -/
theorem run_upper (hrest : rest.head?.any Char.isLower = false) : ∀ {word : Str}, (∀ c ∈ word, c.isLower = true) →
    word ≠ [] → ∀ (text : Str) (upper : Bool), (KeyNormalizer.mk text false upper).run (word.map Char.toUpper ++ rest) =
      (KeyNormalizer.mk (text ++ word) false true).run rest
  | [], _, h, _, _ => absurd rfl h
  | [c], h, _, text, upper => by
    have hnext : (upper && rest.head?.any Char.isLower) = false := by rw [hrest, Bool.and_false]
    rw [List.map_singleton, List.singleton_append, KeyNormalizer.run,
      step_upper (h c (List.mem_singleton_self c)) hnext]
  | c :: d :: word, h, _, text, upper => by
    have hnext : (upper && ((d :: word).map Char.toUpper ++ rest).head?.any Char.isLower) = false := by
      rw [List.map_cons, List.cons_append, List.head?_cons, Option.any_some, Char.isLower_toUpper_eq_false,
        Bool.and_false]
    rw [List.map_cons, List.cons_append, KeyNormalizer.run, step_upper (h c (List.mem_cons_self ..)) hnext,
      run_upper hrest (fun e he => h e (List.mem_cons_of_mem _ he)) (List.cons_ne_nil d word), List.append_assoc,
      List.singleton_append]

/-- A capitalized word behind another. -/
theorem run_capitalize {word : Str} (h : IsWord word) (text : Str) (upper : Bool) (htext : InWord text) :
    (KeyNormalizer.mk text true upper).run (capitalize word ++ rest) =
      (KeyNormalizer.mk (text ++ '_' :: word) true false).run rest := by
  obtain ⟨c, d, s, rfl⟩ := h.exists_cons_cons
  have hrest : ∀ e ∈ d :: s, e.isLower = true := fun e he => h.lower e (List.mem_cons_of_mem _ he)
  rw [capitalize, List.cons_append, KeyNormalizer.run, step_capital (h.lower c (List.mem_cons_self ..)) htext,
    run_lower hrest (List.cons_ne_nil d s), List.append_assoc, List.cons_append, List.cons_append, List.nil_append]

/-- A capitalized word at the start: its capital begins no word, since nothing stands before it. -/
theorem run_capitalize_first {word : Str} (h : IsWord word) :
    ({} : KeyNormalizer).run (capitalize word ++ rest) = (KeyNormalizer.mk word true false).run rest := by
  obtain ⟨c, d, s, rfl⟩ := h.exists_cons_cons
  have hrest : ∀ e ∈ d :: s, e.isLower = true := fun e he => h.lower e (List.mem_cons_of_mem _ he)
  rw [capitalize, List.cons_append, KeyNormalizer.run, step_upper (h.lower c (List.mem_cons_self ..)) rfl,
    run_lower hrest (List.cons_ne_nil d s), List.nil_append, List.singleton_append]

end Steps

/-! ## Spellings -/

/-- What every spelling does with a word after the first: from the flags it leaves behind, it appends a
boundary and the word, whatever follows, unless that begins with a small letter. -/
structure Appends (spell : Str → Str) (lower upper : Bool) : Prop where
  head : ∀ {word}, IsWord word → ∃ c s, spell word = c :: s ∧ c.isLower = false
  run : ∀ {word}, IsWord word → ∀ {text}, InWord text → ∀ {rest : Str}, rest.head?.any Char.isLower = false →
    (KeyNormalizer.mk text lower upper).run (spell word ++ rest) =
      (KeyNormalizer.mk (text ++ '_' :: word) lower upper).run rest

theorem appends_lower {sep : Char} (hsep : sep.isAlphanum = false) : Appends (sep :: ·) true false where
  head {word} _ := by
    simp only [Char.isAlphanum, Char.isAlpha, Bool.or_eq_false_iff] at hsep
    exact ⟨sep, word, rfl, hsep.1.2⟩
  run {word} hword text htext rest _ := by
    rw [List.cons_append, KeyNormalizer.run, step_separator hsep htext, run_lower hword.lower hword.ne_nil,
      List.append_assoc, List.singleton_append]

theorem appends_upper : Appends (fun word => '_' :: Str.toAsciiUppercase word) false true where
  head {word} _ := ⟨'_', Str.toAsciiUppercase word, rfl, rfl⟩
  run {word} hword text htext rest hrest := by
    rw [List.cons_append, KeyNormalizer.run, step_separator rfl htext, Str.toAsciiUppercase,
      run_upper hrest hword.lower hword.ne_nil, List.append_assoc, List.singleton_append]

theorem appends_capitalize : Appends capitalize true false where
  head {word} hword := by
    obtain ⟨c, s, rfl⟩ := List.exists_cons_of_ne_nil hword.ne_nil
    exact ⟨c.toUpper, s, rfl, Char.isLower_toUpper_eq_false c⟩
  run {word} hword text htext rest _ := run_capitalize hword text false htext

/-- The words after the first. -/
theorem Appends.run_flatMap {spell : Str → Str} {lower upper : Bool} (h : Appends spell lower upper) :
    ∀ {words : List Str}, (∀ w ∈ words, IsWord w) → ∀ {text}, InWord text →
      ((KeyNormalizer.mk text lower upper).run (words.flatMap spell)).normalized = text ++ words.flatMap ('_' :: ·)
  | [], _, text, _ => (List.append_nil text).symm
  | w :: words, hwords, text, htext => by
    have hw := hwords w (List.mem_cons_self ..)
    have hrest : ∀ v ∈ words, IsWord v := fun v hv => hwords v (List.mem_cons_of_mem _ hv)
    have hhead : (words.flatMap spell).head?.any Char.isLower = false := by
      cases words with
      | nil => rfl
      | cons v words =>
        obtain ⟨c, s, hspell, hc⟩ := h.head (hrest v (List.mem_cons_self ..))
        rw [List.flatMap_cons, hspell]
        exact hc
    have hnext : InWord (text ++ '_' :: w) := by
      rw [List.append_cons]
      exact hw.inWord _
    rw [List.flatMap_cons, h.run hw htext hhead, h.run_flatMap hrest hnext, List.append_assoc, List.flatMap_cons]

/-- A text that neither begins nor ends with a boundary is its own trim. -/
theorem trimMatches_of_ends {text : Str} {c : Char} (h : InWord (c :: text)) (hc : c ≠ '_') :
    Str.trimMatches (· == '_') (c :: text) = c :: text := by
  have hfirst : (c == '_') = false := beq_eq_false_iff_ne.2 hc
  rw [Str.trimMatches_cons (p := (· == '_')) (q := (· == '_')) hfirst fun _ _ => rfl, List.rdropWhile_eq_self_iff]
  intro hne
  obtain ⟨d, hd, hdne⟩ := h
  rw [List.getLast?_eq_some_getLast hne, Option.some.injEq] at hd
  rw [hd, beq_iff_eq]
  exact hdne

/-- The first word, from the start of the loop. -/
theorem normalized_spell {words : List Str} (hne : words ≠ []) (hwords : ∀ w ∈ words, IsWord w)
    (convention : Convention) :
    (({} : KeyNormalizer).run (convention.spell words)).normalized = snakeCase words := by
  obtain ⟨w, words, rfl⟩ := List.exists_cons_of_ne_nil hne
  have hw := hwords w (List.mem_cons_self ..)
  have hrest : ∀ v ∈ words, IsWord v := fun v hv => hwords v (List.mem_cons_of_mem _ hv)
  have hin : InWord w := hw.inWord []
  rw [snakeCase, Str.intercalate_cons_eq]
  cases convention with
  | snake =>
    rw [Convention.spell, snakeCase, Str.intercalate_cons_eq, run_lower hw.lower hw.ne_nil]
    exact (appends_lower rfl).run_flatMap hrest hin
  | kebab =>
    rw [Convention.spell, Str.intercalate_cons_eq, run_lower hw.lower hw.ne_nil]
    exact (appends_lower rfl).run_flatMap hrest hin
  | camel =>
    rw [Convention.spell, List.headD_cons, List.tail_cons, run_lower hw.lower hw.ne_nil]
    exact appends_capitalize.run_flatMap hrest hin
  | pascal =>
    rw [Convention.spell, List.flatMap_cons, run_capitalize_first hw]
    exact appends_capitalize.run_flatMap hrest hin
  | screamingSnake =>
    have hhead : (words.flatMap fun v => '_' :: Str.toAsciiUppercase v).head?.any Char.isLower = false := by
      cases words with
      | nil => rfl
      | cons v words => rfl
    rw [Convention.spell, List.map_cons, Str.intercalate_cons_eq, List.flatMap_map, Str.toAsciiUppercase,
      run_upper hhead hw.lower hw.ne_nil]
    exact appends_upper.run_flatMap hrest hin

theorem inWord_flatMap : ∀ {words : List Str}, (∀ w ∈ words, IsWord w) → ∀ {text}, InWord text →
    InWord (text ++ words.flatMap ('_' :: ·))
  | [], _, text, htext => by rwa [List.flatMap_nil, List.append_nil]
  | w :: words, hwords, text, _ => by
    have hnext : InWord (text ++ ['_'] ++ w) := (hwords w (List.mem_cons_self ..)).inWord _
    have hmore := inWord_flatMap (fun v hv => hwords v (List.mem_cons_of_mem _ hv)) hnext
    rwa [List.append_assoc, List.append_assoc, List.singleton_append, ← List.cons_append,
      ← List.flatMap_cons (f := ('_' :: ·))] at hmore

theorem normalizeSnapshotKey_spell {words : List Str} (hne : words ≠ []) (hwords : ∀ w ∈ words, IsWord w)
    (convention : Convention) : normalizeSnapshotKey (convention.spell words) = snakeCase words := by
  rw [normalizeSnapshotKey, normalized_spell hne hwords]
  obtain ⟨w, words, rfl⟩ := List.exists_cons_of_ne_nil hne
  have hw := hwords w (List.mem_cons_self ..)
  have hin := inWord_flatMap (fun v hv => hwords v (List.mem_cons_of_mem _ hv)) (hw.inWord [])
  obtain ⟨c, s, rfl⟩ := List.exists_cons_of_ne_nil hw.ne_nil
  rw [snakeCase, Str.intercalate_cons_eq, List.cons_append]
  apply trimMatches_of_ends hin
  rintro rfl
  cases hw.lower '_' (List.mem_cons_self ..)

/-! ## Idempotence -/

def snakeChar (c : Char) : Bool := c.isLower || c.isDigit || c == '_'

/-- What the loop writes: small letters, digits and single boundaries, none of them first. -/
structure Tidy (text : Str) : Prop where
  chars : ∀ c ∈ text, snakeChar c = true
  head : text.head? ≠ some '_'
  single : text.IsChain fun a b => a ≠ '_' ∨ b ≠ '_'

theorem tidy_nil : Tidy [] := ⟨nofun, nofun, List.isChain_nil⟩

theorem Tidy.within {s text : Str} (h : Tidy text) (hs : s <:+: text) (hhead : s.head? ≠ some '_') : Tidy s :=
  ⟨fun c hc => h.chars c (hs.subset hc), hhead, h.single.infix hs⟩

theorem Tidy.start {s t : Str} (h : Tidy (s ++ t)) : Tidy s := by
  refine h.within (List.prefix_append s t).isInfix ?_
  intro hsome
  apply h.head
  rw [List.head?_append, hsome]
  rfl

/-- A boundary may follow a character of a word, and another character may follow any. -/
theorem tidy_concat {text : Str} {c : Char} : Tidy (text ++ [c]) ↔
    Tidy text ∧ snakeChar c = true ∧ (c = '_' → InWord text) := by
  constructor
  · intro h
    refine ⟨h.start, h.chars c (by simp), ?_⟩
    rintro rfl
    cases hlast : text.getLast? with
    | none =>
      rw [List.getLast?_eq_none_iff.1 hlast] at h
      exact absurd rfl h.head
    | some d =>
      -- no two underscores in a row, so the one before is inside a word
      have hpair := (List.isChain_append.1 h.single).2.2 d hlast '_' rfl
      exact ⟨d, hlast, hpair.resolve_right (fun hne => hne rfl)⟩
  · rintro ⟨h, hc, hbound⟩
    refine ⟨?_, ?_, ?_⟩
    · intro d hd
      rcases List.mem_append.1 hd with hd | hd
      · exact h.chars d hd
      · rwa [List.mem_singleton.1 hd]
    · cases text with
      | nil =>
        rw [List.nil_append, List.head?_cons, ne_eq, Option.some.injEq]
        intro heq
        obtain ⟨d, hd, -⟩ := hbound heq
        cases hd
      | cons d text => exact h.head
    · refine List.isChain_append.2 ⟨h.single, List.isChain_singleton c, ?_⟩
      intro d hd e he
      cases he
      by_cases hce : c = '_'
      · obtain ⟨d', hd', hne⟩ := hbound hce
        rw [hd] at hd'
        cases hd'
        exact Or.inl hne
      · exact Or.inr hce

/-- What the loop keeps: the text is tidy, and a flag is only up inside a word. -/
structure Sound (state : KeyNormalizer) : Prop where
  tidy : Tidy state.normalized
  flagged : (state.previousWasLowerOrDigit || state.previousWasUppercase) = true → InWord state.normalized

theorem inWord_concat {text : Str} {c : Char} (hc : c ≠ '_') : InWord (text ++ [c]) :=
  ⟨c, List.getLast?_concat, hc⟩

theorem inWord_of_endsWith {text : Str} (hne : text ≠ []) (h : text.endsWith ['_'] = false) : InWord text := by
  refine ⟨text.getLast hne, List.getLast?_eq_some_getLast hne, ?_⟩
  intro hlast
  rw [endsWith_singleton.2 (by rw [List.getLast?_eq_some_getLast hne, hlast])] at h
  cases h

theorem snakeChar_of_alphanum {c : Char} (h : c.isLower = true ∨ c.isDigit = true) :
    snakeChar c = true ∧ c ≠ '_' := by
  constructor
  · rw [snakeChar, Bool.or_eq_true, Bool.or_eq_true]
    exact Or.inl h
  · rintro rfl
    rcases h with h | h
    · cases h
    · cases h

theorem step_sound {self : KeyNormalizer} (h : Sound self) (c : Char) (next : Option Char) :
    Sound (self.step c next) := by
  by_cases hupper : c.isUpper = true
  · have hlower : c.toLower.isLower = true := by
      rw [Char.isLower_toLower_eq_isAlpha, Char.isAlpha, hupper, Bool.true_or]
    obtain ⟨hsnake, hne⟩ := snakeChar_of_alphanum (Or.inl hlower)
    rw [KeyNormalizer.step, if_pos hupper]
    refine ⟨?_, fun _ => inWord_concat hne⟩
    refine tidy_concat.2 ⟨?_, hsnake, fun heq => absurd heq hne⟩
    split
    · next hboundary =>
      -- a boundary is written behind a flag, so inside a word
      rw [Bool.and_eq_true] at hboundary
      refine tidy_concat.2 ⟨h.tidy, rfl, fun _ => h.flagged ?_⟩
      have hflags := hboundary.1
      rw [Bool.or_eq_true, Bool.and_eq_true] at hflags
      rcases hflags with hflag | hflag
      · rw [hflag, Bool.true_or]
      · rw [hflag.1, Bool.or_true]
    · exact h.tidy
  · by_cases hlower : c.isLower = true ∨ c.isDigit = true
    · obtain ⟨hsnake, hne⟩ := snakeChar_of_alphanum hlower
      rw [step_lower hlower]
      exact ⟨tidy_concat.2 ⟨h.tidy, hsnake, fun heq => absurd heq hne⟩, fun _ => inWord_concat hne⟩
    · rw [KeyNormalizer.step, if_neg hupper, if_neg (by rwa [Bool.or_eq_true])]
      refine ⟨?_, fun hflag => absurd hflag Bool.false_ne_true⟩
      split
      · next hsep =>
        rw [Bool.and_eq_true, Bool.not_eq_true', Bool.not_eq_true', List.isEmpty_eq_false_iff] at hsep
        exact tidy_concat.2 ⟨h.tidy, rfl, fun _ => inWord_of_endsWith hsep.1 hsep.2⟩
      · exact h.tidy

theorem run_sound : ∀ {self : KeyNormalizer}, Sound self → ∀ value : Str, Sound (self.run value)
  | _, h, [] => h
  | _, h, c :: value => run_sound (step_sound h c value.head?) value

/-- The loop copies a tidy text. -/
theorem run_tidy : ∀ (self : KeyNormalizer) {value : Str}, Tidy (self.normalized ++ value) →
    (self.run value).normalized = self.normalized ++ value
  | _, [], _ => (List.append_nil _).symm
  | self, c :: value, h => by
    have hassoc : self.normalized ++ c :: value = self.normalized ++ [c] ++ value := List.append_cons ..
    have hstep : (self.step c value.head?).normalized = self.normalized ++ [c] := by
      rw [hassoc] at h
      obtain ⟨-, hsnake, hbound⟩ := tidy_concat.1 h.start
      rw [snakeChar, Bool.or_eq_true, Bool.or_eq_true, beq_iff_eq] at hsnake
      rcases hsnake with hlower | rfl
      · rw [step_lower hlower]
      · rw [show self = ⟨self.normalized, self.previousWasLowerOrDigit, self.previousWasUppercase⟩ from rfl,
          step_separator rfl (hbound rfl)]
    rw [KeyNormalizer.run, run_tidy _ (by rw [hstep, ← hassoc]; exact h), hstep, ← hassoc]

theorem normalizeSnapshotKey_tidy (value : Str) : Tidy (normalizeSnapshotKey value) := by
  have hsound : Sound ({} : KeyNormalizer) := ⟨tidy_nil, fun h => absurd h Bool.false_ne_true⟩
  refine (run_sound hsound value).tidy.within (Str.trimMatches_within _ _) ?_
  intro hhead
  obtain ⟨rest, hrest⟩ := List.head?_eq_some_iff.1 hhead
  cases Str.first_of_trimMatches hrest

/-- Normalization is idempotent. -/
theorem normalizeSnapshotKey_idem (value : Str) :
    normalizeSnapshotKey (normalizeSnapshotKey value) = normalizeSnapshotKey value := by
  have hrun : (({} : KeyNormalizer).run (normalizeSnapshotKey value)).normalized = normalizeSnapshotKey value :=
    run_tidy {} (normalizeSnapshotKey_tidy value)
  rw [normalizeSnapshotKey, hrun]
  exact Str.trimMatches_idem _ _

/-! ## Sensitive keys -/

theorem isSensitiveSnapshotKey_iff (key : Str) (sensitiveKeys : List Str) :
    isSensitiveSnapshotKey key sensitiveKeys = true ↔ ∃ sensitive ∈ sensitiveKeys, normalizeSnapshotKey sensitive ≠ [] ∧
      (normalizeSnapshotKey sensitive).split '_' <:+ (normalizeSnapshotKey key).split '_' := by
  have hentry : ∀ key sensitive : Str, (key == sensitive ||
      (key.stripSuffixText sensitive).any fun before => before.endsWith ['_']) = true ↔
        sensitive.split '_' <:+ key.split '_' := by
    intro key sensitive
    rw [Str.split_suffix_iff, Bool.or_eq_true, beq_iff_eq, Option.any_eq_true]
    refine or_congr Iff.rfl ?_
    constructor
    · rintro ⟨before, hstrip, hends⟩
      obtain ⟨s, rfl⟩ := List.isSuffixOf_iff_suffix.1 hends
      exact ⟨s, by rw [Str.stripSuffixText_eq_some.1 hstrip, List.append_assoc, List.singleton_append]⟩
    · rintro ⟨before, rfl⟩
      refine ⟨before ++ ['_'], Str.stripSuffixText_eq_some.2 (List.append_cons ..), ?_⟩
      exact endsWith_singleton.2 List.getLast?_concat
  unfold isSensitiveSnapshotKey
  simp only [List.any_eq_true, Bool.and_eq_true, Bool.not_eq_true', List.isEmpty_eq_false_iff, hentry]

/-- A key is as sensitive in one naming convention as in another. -/
theorem isSensitiveSnapshotKey_spell {words : List Str} (hne : words ≠ []) (hwords : ∀ w ∈ words, IsWord w)
    (convention convention' : Convention) (sensitiveKeys : List Str) :
    isSensitiveSnapshotKey (convention.spell words) sensitiveKeys =
      isSensitiveSnapshotKey (convention'.spell words) sensitiveKeys := by
  unfold isSensitiveSnapshotKey
  rw [normalizeSnapshotKey_spell hne hwords, normalizeSnapshotKey_spell hne hwords]

/-- Every naming convention of a list of words has the one normal form, its snake case; normalization is
idempotent; and a key is sensitive exactly if the words of its normal form end with those of a sensitive
key whose normal form is not empty. -/
theorem keyNames_normal :
    (∀ words : List Str, words ≠ [] → (∀ w ∈ words, IsWord w) →
      ∀ convention : Convention, normalizeSnapshotKey (convention.spell words) = snakeCase words) ∧
    (∀ value : Str, normalizeSnapshotKey (normalizeSnapshotKey value) = normalizeSnapshotKey value) ∧
    (∀ (key : Str) (sensitiveKeys : List Str), isSensitiveSnapshotKey key sensitiveKeys = true ↔
      ∃ sensitive ∈ sensitiveKeys, normalizeSnapshotKey sensitive ≠ [] ∧
        (normalizeSnapshotKey sensitive).split '_' <:+ (normalizeSnapshotKey key).split '_') ∧
    isSensitiveSnapshotKey "provider_secret_key".toList defaultSensitiveKeys = true ∧
    isSensitiveSnapshotKey "safe_tokenized_count".toList defaultSensitiveKeys = false := by
  refine ⟨?_, normalizeSnapshotKey_idem, isSensitiveSnapshotKey_iff, ?_, ?_⟩
  · intro words hne hwords convention
    exact normalizeSnapshotKey_spell hne hwords convention
  · decide
  · decide

/-- `webhookSecret` and `WEBHOOK_SECRET`. -/
theorem keyNames_normal_webhook :
    normalizeSnapshotKey (Convention.camel.spell ["webhook".toList, "secret".toList]) =
      normalizeSnapshotKey (Convention.screamingSnake.spell ["webhook".toList, "secret".toList]) := by
  have hwords : ∀ w ∈ ["webhook".toList, "secret".toList], IsWord w := by
    intro w hw
    simp only [List.mem_cons, List.not_mem_nil, or_false] at hw
    have hlower : "webhook".toList.all Char.isLower = true ∧ "secret".toList.all Char.isLower = true := ⟨rfl, rfl⟩
    rcases hw with rfl | rfl
    · exact ⟨List.all_eq_true.1 hlower.1, by decide⟩
    · exact ⟨List.all_eq_true.1 hlower.2, by decide⟩
  have hspell := keyNames_normal.1 ["webhook".toList, "secret".toList] (List.cons_ne_nil _ _) hwords
  rw [hspell, hspell]

end WorldInfra.Billing
