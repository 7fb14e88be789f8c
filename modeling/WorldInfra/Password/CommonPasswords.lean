/-
The two normalizations of common passwords. The alphanumeric one filters what the trimming one
returns, so it merges whatever the other merges, and sends every text without an ASCII letter or
digit to the empty text, which is no common password.
-/
import WorldInfra.Password.Policy
import WorldInfra.Rust.Hex

namespace WorldInfra.Password

open WorldInfra.Lib WorldInfra.Rust
open CommonPasswordNormalization

/-! ## The normalizations -/

theorem filter_isAlphanum_trim (s : Str) : s.trim.filter Char.isAlphanum = s.filter Char.isAlphanum := by
  obtain ⟨before, after, hs, hbefore, hafter⟩ := Str.exists_trim s
  have hdrop : ∀ w : Str, (∀ c ∈ w, isWhitespace c = true) → w.filter Char.isAlphanum = [] := by
    intro w hw
    rw [List.filter_eq_nil_iff]
    intro c hc halpha
    have hspace := hw c hc
    rw [isWhitespace_of_isAlphanum halpha] at hspace
    cases hspace
  conv_rhs => rw [hs]
  rw [List.filter_append, List.filter_append, hdrop before hbefore, hdrop after hafter, List.nil_append,
    List.append_nil]

theorem normalize_alphanumeric (s : Str) : normalizeCommonPassword s asciiAlphanumericLowercase =
    (normalizeCommonPassword s trimLowercase).filter Char.isAlphanum := by
  show Str.toAsciiLowercase (s.filter Char.isAlphanum) = (Str.toAsciiLowercase s.trim).filter Char.isAlphanum
  rw [Str.toAsciiLowercase, Str.toAsciiLowercase, List.filter_map, ← filter_isAlphanum_trim]
  congr 1
  apply List.filter_congr
  intro c _
  exact (isAlphanum_toLower c).symm

theorem normalize_trim_eq_nil {s : Str} : normalizeCommonPassword s trimLowercase = [] ↔ s.trim = [] :=
  List.map_eq_nil_iff

theorem normalize_alphanumeric_eq_nil {s : Str} :
    normalizeCommonPassword s asciiAlphanumericLowercase = [] ↔ ¬ ∃ c ∈ s, c.isAlphanum = true := by
  rw [normalizeCommonPassword, Str.toAsciiLowercase, List.map_eq_nil_iff, List.filter_eq_nil_iff]
  simp only [not_exists, not_and]

/-! ## The denylists -/

section

variable {additional : List Str} {password entry : Str} {normalization : CommonPasswordNormalization}

/-- An entry is common if it normalizes to anything at all. -/
theorem entry_common (h : entry ∈ additional) : isCommonPasswordWithPolicy entry normalization additional = true ↔
    normalizeCommonPassword entry normalization ≠ [] := by
  rw [isCommonPasswordWithPolicy_iff]
  constructor
  · rintro ⟨hne, -⟩
    exact hne
  · intro hne
    exact ⟨hne, entry, List.mem_append_right _ h, rfl⟩

theorem common_alphanumeric (h : isCommonPasswordWithPolicy password trimLowercase additional = true) :
    isCommonPasswordWithPolicy password asciiAlphanumericLowercase additional = true ↔
      ∃ c ∈ password, c.isAlphanum = true := by
  obtain ⟨-, common, hmem, heq⟩ := isCommonPasswordWithPolicy_iff.1 h
  rw [isCommonPasswordWithPolicy_iff, Ne, normalize_alphanumeric_eq_nil, not_not]
  constructor
  · rintro ⟨hsome, -⟩
    exact hsome
  · intro hsome
    refine ⟨hsome, common, hmem, ?_⟩
    rw [normalize_alphanumeric, normalize_alphanumeric, heq]

/-- When a text that is not blank normalizes to something. -/
theorem normalize_ne_nil (h : entry.trim ≠ []) : normalizeCommonPassword entry normalization ≠ [] ↔
    normalization = trimLowercase ∨ ∃ c ∈ entry, c.isAlphanum = true := by
  cases normalization with
  | trimLowercase =>
    rw [Ne, normalize_trim_eq_nil]
    exact ⟨fun _ => Or.inl rfl, fun _ => h⟩
  | asciiAlphanumericLowercase =>
    rw [Ne, normalize_alphanumeric_eq_nil, not_not]
    constructor
    · intro hsome
      exact Or.inr hsome
    · rintro (hmode | hsome)
      · cases hmode
      · exact hsome

end

/-! ## Denied passwords -/

/-- A policy refuses an entry of its own denylist exactly if the entry normalizes to something, or the
length or the breach file speak against it; and a password that is common by trimming is common by its
letters and digits exactly if it has one. -/
theorem deniedPasswords_refused (sha1 : Bytes → Bytes) (encodeUpper : Bytes → Str) :
    (∀ (policy : PasswordPolicy) (entry : Str), policy.rejectCommon = true →
      entry ∈ policy.additionalCommonPasswords → entry.trim ≠ [] →
      ((∃ e, policy.validate sha1 encodeUpper entry = some (.error e)) ↔
        (policy.commonPasswordNormalization = trimLowercase ∨ ∃ c ∈ entry, c.isAlphanum = true) ∨
        entry.length < policy.minChars ∨ policy.maxChars < entry.length ∨
          ¬ policy.NotBreached sha1 encodeUpper entry)) ∧
    ∀ (additional : List Str) (password : Str),
      isCommonPasswordWithPolicy password trimLowercase additional = true →
      (isCommonPasswordWithPolicy password asciiAlphanumericLowercase additional = true ↔
        ∃ c ∈ password, c.isAlphanum = true) := by
  refine ⟨?_, fun additional password h => common_alphanumeric h⟩
  intro policy entry hreject hmem hblank
  have hne : entry ≠ [] := by
    rintro rfl
    exact hblank rfl
  rw [validate_error_iff, Ne, validate_ok_iff, validatePasswordLengthRange_ok, entry_common hmem,
    normalize_ne_nil hblank]
  -- an entry of the list is refused as common unless normalizing leaves nothing of it
  constructor
  · intro hrefused
    by_contra hn
    simp only [not_or, Nat.not_lt, not_not] at hn
    obtain ⟨⟨hmode, hnone⟩, hmin, hmax, hbreach⟩ := hn
    refine hrefused ⟨⟨hne, hmin, hmax⟩, ?_, hbreach⟩
    rintro ⟨-, hcommon⟩
    exact hcommon.elim hmode hnone
  · rintro hcond ⟨⟨-, hmin, hmax⟩, hcommon, hbreach⟩
    rcases hcond with hnormal | hshort | hlong | hlisted
    · exact hcommon ⟨hreject, hnormal⟩
    · omega
    · omega
    · exact hlisted hbreach

/-- An entry with a separator in it is refused in both modes, and so is its variant without one. -/
theorem deniedPasswords_refused_variant :
    let policy : PasswordPolicy :=
      { additionalCommonPasswords := ["acme-2024".toList], commonPasswordNormalization := asciiAlphanumericLowercase }
    (∃ e, policy.validate (fun _ => []) upperHex "acme-2024".toList = some (.error e)) ∧
      isCommonPasswordWithPolicy " Acme-2024".toList asciiAlphanumericLowercase ["acme-2024".toList] = true := by
  intro policy
  obtain ⟨hentry, hcommon⟩ := deniedPasswords_refused (fun _ => []) upperHex
  constructor
  · exact (hentry policy "acme-2024".toList rfl (by decide) (by decide)).2 (Or.inl (Or.inr ⟨'a', by decide, by decide⟩))
  · exact (hcommon ["acme-2024".toList] " Acme-2024".toList (by decide)).2 ⟨'A', by decide, by decide⟩

/-- A denied password in Cyrillic letters is accepted in the alphanumeric mode, though the trimming mode
finds it common. -/
theorem deniedPasswords_cyrillicAccepted :
    let entry : Str := "пароль".toList
    let policy : PasswordPolicy :=
      { additionalCommonPasswords := [entry], commonPasswordNormalization := asciiAlphanumericLowercase }
    policy.rejectCommon = true ∧ entry ∈ policy.additionalCommonPasswords ∧ entry.trim ≠ [] ∧
      policy.validate (fun _ => []) upperHex entry = some (.ok ()) ∧
      isCommonPasswordWithPolicy entry trimLowercase [entry] = true ∧
      isCommonPasswordWithPolicy entry asciiAlphanumericLowercase [entry] = false := by
  decide

end WorldInfra.Password
