/-
rate-limit-core: the key of a prefix, a label and a subject. The three stand in the key behind their
byte lengths, and the word before the last says whether the subject itself follows or its digest.
SHA-256 is a parameter.
-/
import WorldInfra.RateLimit.Basic
import WorldInfra.Rust.Hex
import WorldInfra.Rust.Num
import WorldInfra.Rust.Pattern

namespace WorldInfra.RateLimit

open WorldInfra.Lib WorldInfra.Rust

def lengthPrefixedSubjectKey (keyPrefix label subjectKind subject : Str) : Str :=
  "subject:v2:p".toList ++ lengthField keyPrefix ++ ":l".toList ++ lengthField label ++ ':' :: subjectKind ++
    ":s".toList ++ lengthField subject

/-- The key with the subject as it stands, if the subject is safe and the key is not too long. -/
def rawSubjectKey (keyPrefix label subject : Str) : Option RateLimitKey :=
  match validateKeyPart subject with
  | .ok _ => (RateLimitKey.new (lengthPrefixedSubjectKey keyPrefix label "raw".toList subject)).toOption
  | .error _ => none

def subjectKey (sha256 : Bytes → Bytes) (keyPrefix label subject : Str) : Except RateLimitError RateLimitKey := do
  let keyPrefix ← validateKeyPart keyPrefix
  let label ← validateKeyPart label
  let subject := subject.trim
  if subject.isEmpty then .error .invalidKey
  else
    match rawSubjectKey keyPrefix label subject with
    | some key => .ok key
    | none =>
      let digest := lowerHex (sha256 (Utf8.encode subject))
      RateLimitKey.new (lengthPrefixedSubjectKey keyPrefix label "sha256".toList digest)

instance : DecidableEq RateLimitKey := fun a b =>
  decidable_of_iff (a.value = b.value) ⟨RateLimitKey.ext, congrArg RateLimitKey.value⟩

/-! ## Reading a key back -/

/-- Texts whose kinds have no colon are composed of the same four parts if they are equal. -/
theorem lengthPrefixedSubjectKey_inj {p l d s p' l' d' s' : Str} (hd : ':' ∉ d) (hd' : ':' ∉ d')
    (h : lengthPrefixedSubjectKey p l d s = lengthPrefixedSubjectKey p' l' d' s') :
    p = p' ∧ l = l' ∧ d = d' ∧ s = s' := by
  have hmark : ":s".toList = [':', 's'] := rfl
  unfold lengthPrefixedSubjectKey at h
  rw [hmark] at h
  generalize "subject:v2:p".toList = head, ":l".toList = mark at h
  simp only [List.append_assoc, List.append_cancel_left_eq, List.cons_append, List.nil_append] at h
  obtain ⟨hp, h⟩ := lengthField_inj h
  rw [List.append_cancel_left_eq] at h
  obtain ⟨hl, h⟩ := lengthField_inj h
  rw [List.cons.injEq] at h
  -- the kind ends at the next colon
  obtain ⟨hkind, h⟩ := append_sep_inj hd hd' h.2
  rw [List.cons.injEq] at h
  exact ⟨hp, hl, hkind, lengthField_injective h.2⟩

/-- A text without white space. -/
def Solid (s : Str) : Prop := s.any isWhitespace = false

theorem solid_iff {s : Str} : Solid s ↔ ∀ c ∈ s, isWhitespace c = false := by
  simp [Solid]

theorem Solid.append {s t : Str} (hs : Solid s) (ht : Solid t) : Solid (s ++ t) := by
  unfold Solid at *
  rw [List.any_append, hs, ht, Bool.or_self]

theorem validateKeyPart_solid {value v : Str} (h : validateKeyPart value = .ok v) : v = value.trim ∧ Solid v := by
  obtain ⟨-, hv, hbad⟩ := Str.validateTrimmed_cases h
  refine ⟨hv, solid_iff.2 fun c hc => ?_⟩
  simp only [Bool.or_eq_false_iff, List.any_eq_false, Bool.not_eq_true, Bool.not_eq_false'] at hbad
  exact keyChar_not_whitespace (hbad.2 c hc)

theorem lowerHex_solid (bytes : Bytes) : Solid (lowerHex bytes) :=
  solid_iff.2 fun _ hc => isWhitespace_of_isAlphanum (isAlphanum_of_mem_lowerHex hc)

theorem lengthField_solid {s : Str} (hs : Solid s) : Solid (lengthField s) := by
  have hdigits : Solid (decimal s.len) := by
    refine solid_iff.2 fun c hc => ?_
    rw [decimal, if_neg (by omega)] at hc
    exact isWhitespace_of_isAlphanum (isAlphanum_iff.2 (Or.inr (isDigit_iff.1 (isDigit_of_mem_toDigits hc))))
  have hcolon : Solid [':'] := rfl
  exact (hdigits.append hcolon).append hs

theorem lengthPrefixedSubjectKey_solid {p l d s : Str} (hp : Solid p) (hl : Solid l) (hd : Solid d) (hs : Solid s) :
    Solid (lengthPrefixedSubjectKey p l d s) := by
  have hhead : Solid "subject:v2:p".toList := rfl
  have hlabel : Solid ":l".toList := rfl
  have hcolon : Solid [':'] := rfl
  have hsubject : Solid ":s".toList := rfl
  unfold lengthPrefixedSubjectKey
  rw [← List.singleton_append]
  exact (((((hhead.append (lengthField_solid hp)).append hlabel).append (lengthField_solid hl)).append
    (hcolon.append hd)).append hsubject).append (lengthField_solid hs)

/-- A key made of solid text holds that text. -/
theorem rateLimitKey_new_ok {value : Str} {key : RateLimitKey} (hvalue : Solid value)
    (h : RateLimitKey.new value = .ok key) : key.value = value := by
  unfold RateLimitKey.new at h
  split at h
  · rename_i v hv
    cases h
    have hv' : v = value.trim := (Str.validateTrimmed_cases hv).2.1
    rw [Str.trim_eq_self (solid_iff.1 hvalue)] at hv'
    exact hv'
  · cases h

/-- What `subject_key` returns: the composed text, with the subject or with its digest. -/
theorem subjectKey_ok {sha256 : Bytes → Bytes} {p l s : Str} {key : RateLimitKey}
    (h : subjectKey sha256 p l s = .ok key) :
    key.value = lengthPrefixedSubjectKey p.trim l.trim "raw".toList s.trim ∨
      key.value = lengthPrefixedSubjectKey p.trim l.trim "sha256".toList (lowerHex (sha256 (Utf8.encode s.trim))) := by
  have hraw : Solid "raw".toList := rfl
  have hsha : Solid "sha256".toList := rfl
  obtain ⟨p', hp', h⟩ := Str.bind_eq_ok.1 h
  obtain ⟨l', hl', h⟩ := Str.bind_eq_ok.1 h
  obtain ⟨rfl, hp⟩ := validateKeyPart_solid hp'
  obtain ⟨rfl, hl⟩ := validateKeyPart_solid hl'
  simp only at h
  split at h
  · cases h
  · split at h
    · rename_i key' hkey
      cases h
      left
      unfold rawSubjectKey at hkey
      split at hkey
      · rename_i v hv
        have hs : Solid s.trim := by
          obtain ⟨hvs, hsolid⟩ := validateKeyPart_solid hv
          rwa [hvs, Str.trim_trim] at hsolid
        rcases hnew : RateLimitKey.new (lengthPrefixedSubjectKey p.trim l.trim "raw".toList s.trim) with e | k
        · rw [hnew] at hkey
          cases hkey
        · rw [hnew] at hkey
          cases hkey
          exact rateLimitKey_new_ok (lengthPrefixedSubjectKey_solid hp hl hraw hs) hnew
      · cases hkey
    · right
      exact rateLimitKey_new_ok (lengthPrefixedSubjectKey_solid hp hl hsha (lowerHex_solid _)) h

/-! ## Different subjects have different keys -/

/-- Equal keys are of equal prefixes, labels and subjects, if SHA-256 tells the two subjects apart; and
no subject that is written out, be it the text of a digest, has the key of a digest. -/
theorem subjectKey_inj (sha256 : Bytes → Bytes) :
    (∀ {p l s p' l' s' : Str} {k : RateLimitKey},
      (sha256 (Utf8.encode s.trim) = sha256 (Utf8.encode s'.trim) → s.trim = s'.trim) →
      subjectKey sha256 p l s = .ok k → subjectKey sha256 p' l' s' = .ok k →
        p.trim = p'.trim ∧ l.trim = l'.trim ∧ s.trim = s'.trim) ∧
    ∀ p l s p' l' digest : Str, lengthPrefixedSubjectKey p l "raw".toList s ≠
      lengthPrefixedSubjectKey p' l' "sha256".toList digest := by
  have hraw : ':' ∉ "raw".toList := by decide
  have hsha : ':' ∉ "sha256".toList := by decide
  have hkinds : "raw".toList ≠ "sha256".toList := by decide
  constructor
  · intro p l s p' l' s' k hcollision h h'
    -- within a form the parts are read back; across the forms the kinds differ
    rcases subjectKey_ok h with hk | hk <;> rcases subjectKey_ok h' with hk' | hk'
    · obtain ⟨hp, hl, -, hs⟩ := lengthPrefixedSubjectKey_inj hraw hraw (hk.symm.trans hk')
      exact ⟨hp, hl, hs⟩
    · obtain ⟨-, -, hkind, -⟩ := lengthPrefixedSubjectKey_inj hraw hsha (hk.symm.trans hk')
      exact absurd hkind hkinds
    · obtain ⟨-, -, hkind, -⟩ := lengthPrefixedSubjectKey_inj hsha hraw (hk.symm.trans hk')
      exact absurd hkind.symm hkinds
    · obtain ⟨hp, hl, -, hdigest⟩ := lengthPrefixedSubjectKey_inj hsha hsha (hk.symm.trans hk')
      exact ⟨hp, hl, hcollision (lowerHex_injective hdigest)⟩
  · intro p l s p' l' digest h
    obtain ⟨-, -, hkind, -⟩ := lengthPrefixedSubjectKey_inj hraw hsha h
    exact hkinds hkind

/-- SHA-256 on the subject `a@b`. -/
def sha256OfMail (b : Bytes) : Bytes :=
  if b = Utf8.encode "a@b".toList then
    [117, 8, 216, 181, 1, 142, 166, 64, 184, 82, 105, 134, 26, 16, 18, 3, 240, 194, 105, 0, 85, 82, 104, 233, 48,
      2, 93, 172, 132, 75, 15, 53]
  else []

theorem subjectKey_inj_padded :
    Str.trim " login".toList = Str.trim "login".toList ∧ Str.trim "ip:v4".toList = Str.trim "ip:v4 ".toList ∧
      Str.trim " a@b".toList = Str.trim "a@b  ".toList :=
  (subjectKey_inj sha256OfMail).1
    (k := ⟨("subject:v2:p5:login:l5:ip:v4:sha256:s64:" ++
      "7508d8b5018ea640b85269861a101203f0c26900555268e930025dac844b0f35").toList, by decide +kernel⟩)
    (fun _ => by decide) (by decide +kernel) (by decide +kernel)

end WorldInfra.RateLimit
