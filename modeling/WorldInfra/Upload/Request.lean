/-
upload-core: content types, size limits, and the request that has to pass all checks. The parsers of content types
differ only in the space around a text and in the alias of one type; what an error names is refused again.
-/
import WorldInfra.Rust.Case
import WorldInfra.Upload.ObjectKey

namespace WorldInfra.Upload

open WorldInfra.Rust

/-! ## Content types -/

inductive UploadContentType where
  | png
  | jpeg
  | webp
  | gif
  | pdf
  deriving DecidableEq, Repr

/-- `image/jpg`. -/
def jpegAlias : Str := "image/jpg".toList

structure ContentTypePolicy where
  allowed : List UploadContentType
  allowJpegAlias : Bool := false

namespace UploadContentType

def asStr : UploadContentType → Str
  | png => "image/png".toList
  | jpeg => "image/jpeg".toList
  | webp => "image/webp".toList
  | gif => "image/gif".toList
  | pdf => "application/pdf".toList

def requireAllowed (self : UploadContentType) (allowed : List UploadContentType) :
    Except UploadError UploadContentType :=
  if self ∈ allowed then .ok self else .error (.unsupportedContentType self.asStr)

/-- The test in front of the strict parsers. -/
def unclean (value : Str) : Bool := value.isEmpty || value != value.trim || value.any isControl

def parseRegisteredStrict (value : Str) : Except UploadError UploadContentType :=
  if unclean value then .error (.unsupportedContentType value)
  else
    let other := value.toAsciiLowercase
    if other = "image/png".toList then .ok png
    else if other = "image/jpeg".toList then .ok jpeg
    else if other = "image/webp".toList then .ok webp
    else if other = "image/gif".toList then .ok gif
    else if other = "application/pdf".toList then .ok pdf
    else .error (.unsupportedContentType other)

def parseStrict (value : Str) : Except UploadError UploadContentType := parseRegisteredStrict value

def parseStrictWithOptionalJpegAlias (value : Str) : Except UploadError UploadContentType :=
  if unclean value then .error (.unsupportedContentType value)
  else if value.eqIgnoreAsciiCase jpegAlias then .ok jpeg
  else parseRegisteredStrict value

/-- The two branches of `parse_with_policy`. -/
def parseNamed (value : Str) (policy : ContentTypePolicy) : Except UploadError UploadContentType :=
  if policy.allowJpegAlias then parseStrictWithOptionalJpegAlias value else parseRegisteredStrict value

def parseWithPolicy (value : Str) (policy : ContentTypePolicy) : Except UploadError UploadContentType := do
  let parsed ← parseNamed value policy
  parsed.requireAllowed policy.allowed

/-- `FromStr`. -/
def fromStr (value : Str) : Except UploadError UploadContentType :=
  let other := value.trim.toAsciiLowercase
  if other = "image/png".toList then .ok png
  else if other = "image/jpeg".toList ∨ other = jpegAlias then .ok jpeg
  else if other = "image/webp".toList then .ok webp
  else if other = "image/gif".toList then .ok gif
  else if other = "application/pdf".toList then .ok pdf
  else .error (.unsupportedContentType other)

end UploadContentType

/-! ## Requests -/

/-- `UploadSizeLimit`: at least one byte. -/
structure UploadSizeLimit where
  maxBytes : UInt64
  positive : maxBytes ≠ 0

namespace UploadSizeLimit

def new (maxBytes : UInt64) : Except UploadError UploadSizeLimit :=
  if h : maxBytes = 0 then .error .emptyUpload else .ok ⟨maxBytes, h⟩

def validate (self : UploadSizeLimit) (size : UInt64) : Except UploadError Unit :=
  if size = 0 then .error .emptyUpload
  else if self.maxBytes < size then .error (.uploadTooLarge size self.maxBytes)
  else .ok ()

end UploadSizeLimit

structure ValidatedUploadRequest where
  objectKey : ScopedObjectKey
  contentType : UploadContentType
  size : UInt64

def validateUploadRequest (objectKey : Str) (objectKeyPolicy : ObjectKeyPolicy) (contentType : Str)
    (contentTypePolicy : ContentTypePolicy) (size : UInt64) (sizeLimit : UploadSizeLimit) :
    Except UploadError ValidatedUploadRequest := do
  let objectKey ← ScopedObjectKey.newWithPolicy objectKey objectKeyPolicy
  let contentType ← UploadContentType.parseWithPolicy contentType contentTypePolicy
  sizeLimit.validate size
  .ok ⟨objectKey, contentType, size⟩

/-! ## Spellings -/

theorem isControl_toLower (c : Char) : isControl c.toLower = isControl c := by
  rcases toLower_cases c with ⟨hle, hlt, heq⟩ | ⟨-, heq⟩
  · have h1 : isControl c = false := by
      simp only [isControl]
      grind
    have h2 : isControl c.toLower = false := by
      simp only [isControl]
      grind
    rw [h1, h2]
  · rw [heq]

namespace UploadContentType

theorem unclean_lower (value : Str) : unclean value.toAsciiLowercase = unclean value := by
  have htrim : value.toAsciiLowercase = Str.trim value.toAsciiLowercase ↔ value = value.trim := by
    rw [Str.trim_lower]
    constructor
    · intro h
      have hlen : value.trim.length = value.length := by
        have hmap := congrArg List.length h
        rw [Str.toAsciiLowercase, Str.toAsciiLowercase, List.length_map, List.length_map] at hmap
        exact hmap.symm
      exact ((Str.trim_within value).eq_of_length hlen).symm
    · intro h
      rw [← h]
  unfold unclean
  rw [Str.isEmpty_lower, Str.any_lower isControl_toLower, Bool.eq_iff_iff]
  simp only [Bool.or_eq_true, bne_iff_ne, ne_eq, htrim]

/-- A name of visible characters. -/
def plain (name : Str) : Bool := !name.isEmpty && name.all fun c => !isWhitespace c && !isControl c

/-- A text that spells such a name in some case is clean. -/
theorem clean_of_lower {value name : Str} (hplain : plain name = true) (h : value.toAsciiLowercase = name) :
    unclean value = false := by
  simp only [plain, Bool.and_eq_true, Bool.not_eq_true', List.all_eq_true] at hplain
  obtain ⟨hempty, hvisible⟩ := hplain
  have htrim : name.trim = name := Str.trim_eq_self fun c hc => (hvisible c hc).1
  have hcontrol : name.any isControl = false := List.any_eq_false.2 fun c hc => by simp [(hvisible c hc).2]
  rw [← unclean_lower, h]
  simp [unclean, hempty, htrim, hcontrol]

theorem plain_asStr (t : UploadContentType) : plain t.asStr = true := by
  cases t <;> rfl

theorem plain_jpegAlias : plain jpegAlias = true := rfl

theorem parseRegisteredStrict_eq_ok {value : Str} {t : UploadContentType} :
    parseRegisteredStrict value = .ok t ↔ value.toAsciiLowercase = t.asStr := by
  constructor
  · intro h
    unfold parseRegisteredStrict at h
    split at h
    · cases h
    · simp only at h
      repeat' split at h
      all_goals cases h
      all_goals assumption
  · intro h
    have hclean := clean_of_lower t.plain_asStr h
    rw [parseRegisteredStrict, hclean, if_neg Bool.false_ne_true, h]
    cases t <;> rfl

/-- What the strict parsers read, whether they know the alias or not. -/
def Spells (policy : ContentTypePolicy) (value : Str) (t : UploadContentType) : Prop :=
  value.toAsciiLowercase = t.asStr ∨ policy.allowJpegAlias = true ∧ t = jpeg ∧ value.toAsciiLowercase = jpegAlias

theorem eqIgnoreAsciiCase_jpegAlias {value : Str} :
    value.eqIgnoreAsciiCase jpegAlias = true ↔ value.toAsciiLowercase = jpegAlias := by
  have hlower : jpegAlias.map Char.toLower = jpegAlias := rfl
  rw [Str.eqIgnoreAsciiCase, hlower, beq_iff_eq]
  rfl

theorem parseStrictWithOptionalJpegAlias_eq_ok {value : Str} {t : UploadContentType} :
    parseStrictWithOptionalJpegAlias value = .ok t ↔
      value.toAsciiLowercase = t.asStr ∨ t = jpeg ∧ value.toAsciiLowercase = jpegAlias := by
  have halias : value.eqIgnoreAsciiCase jpegAlias = true ↔ value.toAsciiLowercase = jpegAlias :=
    eqIgnoreAsciiCase_jpegAlias
  unfold parseStrictWithOptionalJpegAlias
  cases hclean : unclean value with
  | true =>
    rw [if_pos rfl]
    constructor
    · rintro ⟨⟩
    · rintro (h | ⟨-, h⟩)
      · rw [clean_of_lower t.plain_asStr h] at hclean
        cases hclean
      · rw [clean_of_lower plain_jpegAlias h] at hclean
        cases hclean
  | false =>
    rw [if_neg Bool.false_ne_true]
    split
    · next h =>
      have hvalue := halias.1 h
      have hother : value.toAsciiLowercase = t.asStr → t = jpeg := by
        intro heq
        rw [hvalue] at heq
        cases t <;> exact absurd heq (by decide)
      constructor
      · rintro ⟨⟩
        exact Or.inr ⟨rfl, hvalue⟩
      · rintro (heq | ⟨rfl, -⟩)
        · rw [hother heq]
        · rfl
    · next h =>
      rw [parseRegisteredStrict_eq_ok]
      exact ⟨Or.inl, fun hor => hor.resolve_right fun hright => h (halias.2 hright.2)⟩

theorem parseNamed_eq_ok {value : Str} {policy : ContentTypePolicy} {t : UploadContentType} :
    parseNamed value policy = .ok t ↔ Spells policy value t := by
  unfold parseNamed Spells
  cases policy.allowJpegAlias with
  | true =>
    rw [if_pos rfl, parseStrictWithOptionalJpegAlias_eq_ok]
    simp
  | false =>
    rw [if_neg Bool.false_ne_true, parseRegisteredStrict_eq_ok]
    simp

theorem parseWithPolicy_eq_ok {value : Str} {policy : ContentTypePolicy} {t : UploadContentType} :
    parseWithPolicy value policy = .ok t ↔ Spells policy value t ∧ t ∈ policy.allowed := by
  rw [parseWithPolicy, Str.bind_eq_ok]
  simp only [parseNamed_eq_ok, requireAllowed]
  constructor
  · rintro ⟨t', hspells, h⟩
    split at h
    · next hmem =>
      cases h
      exact ⟨hspells, hmem⟩
    · cases h
  · rintro ⟨hspells, hmem⟩
    exact ⟨t, hspells, if_pos hmem⟩

/-- What the error of a strict parser names gets the same error again. -/
theorem parseRegisteredStrict_error {value : Str} {e : UploadError} (h : parseRegisteredStrict value = .error e) :
    ∃ shown, e = .unsupportedContentType shown ∧ parseRegisteredStrict shown = .error e ∧
      (shown = value ∨ shown = value.toAsciiLowercase) := by
  cases hclean : unclean value with
  | true =>
    have hvalue := h
    rw [parseRegisteredStrict, hclean, if_pos rfl] at h
    cases h
    exact ⟨value, rfl, hvalue, Or.inl rfl⟩
  | false =>
    have hlower : parseRegisteredStrict value.toAsciiLowercase = parseRegisteredStrict value := by
      rw [parseRegisteredStrict, parseRegisteredStrict, unclean_lower, Str.toAsciiLowercase_idem, hclean]
      rfl
    refine ⟨value.toAsciiLowercase, ?_, hlower.trans h, Or.inr rfl⟩
    unfold parseRegisteredStrict at h
    rw [hclean, if_neg Bool.false_ne_true] at h
    simp only at h
    repeat' split at h
    all_goals cases h
    rfl

theorem parseStrictWithOptionalJpegAlias_error {value : Str} {e : UploadError}
    (h : parseStrictWithOptionalJpegAlias value = .error e) :
    ∃ shown, e = .unsupportedContentType shown ∧ parseStrictWithOptionalJpegAlias shown = .error e := by
  cases hclean : unclean value with
  | true =>
    have hvalue := h
    rw [parseStrictWithOptionalJpegAlias, hclean, if_pos rfl] at h
    cases h
    exact ⟨value, rfl, hvalue⟩
  | false =>
    rw [parseStrictWithOptionalJpegAlias, hclean, if_neg Bool.false_ne_true] at h
    split at h
    · cases h
    · next halias =>
      obtain ⟨shown, he, hshown, hcase⟩ := parseRegisteredStrict_error h
      -- neither test in front of the strict parser sees the case
      have hsame : unclean shown = false ∧ shown.eqIgnoreAsciiCase jpegAlias = value.eqIgnoreAsciiCase jpegAlias := by
        rcases hcase with rfl | rfl
        · exact ⟨hclean, rfl⟩
        · exact ⟨(unclean_lower value).trans hclean, Str.eqIgnoreAsciiCase_lower value jpegAlias⟩
      refine ⟨shown, he, ?_⟩
      rw [parseStrictWithOptionalJpegAlias, hsame.1, if_neg Bool.false_ne_true, hsame.2, if_neg halias, hshown]

theorem parseNamed_error {value : Str} {policy : ContentTypePolicy} {e : UploadError}
    (h : parseNamed value policy = .error e) :
    ∃ shown, e = .unsupportedContentType shown ∧ parseNamed shown policy = .error e := by
  unfold parseNamed at h ⊢
  cases hpolicy : policy.allowJpegAlias with
  | false =>
    rw [hpolicy, if_neg Bool.false_ne_true] at h
    obtain ⟨shown, he, hshown, -⟩ := parseRegisteredStrict_error h
    exact ⟨shown, he, (if_neg Bool.false_ne_true).trans hshown⟩
  | true =>
    rw [hpolicy, if_pos rfl] at h
    obtain ⟨shown, he, hshown⟩ := parseStrictWithOptionalJpegAlias_error h
    exact ⟨shown, he, (if_pos rfl).trans hshown⟩

theorem parseWithPolicy_error {value : Str} {policy : ContentTypePolicy} {e : UploadError}
    (h : parseWithPolicy value policy = .error e) :
    ∃ shown, e = .unsupportedContentType shown ∧ parseWithPolicy shown policy = .error e := by
  cases hparsed : parseNamed value policy with
  | error e' =>
    obtain ⟨shown, he, hshown⟩ := parseNamed_error hparsed
    rw [parseWithPolicy, hparsed] at h
    cases h
    exact ⟨shown, he, by rw [parseWithPolicy, hshown]; rfl⟩
  | ok t =>
    -- the type has a name of its own, by which it is refused again
    have hname : parseNamed t.asStr policy = .ok t := parseNamed_eq_ok.2 (Or.inl (by cases t <;> rfl))
    have hnamed : parseWithPolicy t.asStr policy = parseWithPolicy value policy := by
      rw [parseWithPolicy, parseWithPolicy, hname, hparsed]
    refine ⟨t.asStr, ?_, hnamed.trans h⟩
    rw [parseWithPolicy, hparsed] at h
    change t.requireAllowed policy.allowed = .error e at h
    unfold requireAllowed at h
    split at h
    · cases h
    · cases h
      rfl

theorem fromStr_eq_ok {value : Str} {t : UploadContentType} : fromStr value = .ok t ↔
    value.trim.toAsciiLowercase = t.asStr ∨ t = jpeg ∧ value.trim.toAsciiLowercase = jpegAlias := by
  constructor
  · intro h
    unfold fromStr at h
    simp only at h
    repeat' split at h
    all_goals cases h
    · exact Or.inl ‹_›
    · next hor => exact hor.imp id fun heq => ⟨rfl, heq⟩
    · exact Or.inl ‹_›
    · exact Or.inl ‹_›
    · exact Or.inl ‹_›
  · rintro (h | ⟨rfl, h⟩)
    · rw [fromStr, h]
      cases t <;> rfl
    · rw [fromStr, h]
      rfl

end UploadContentType

/-! ## What is accepted -/

theorem UploadSizeLimit.validate_eq_ok {limit : UploadSizeLimit} {size : UInt64} :
    limit.validate size = .ok () ↔ 1 ≤ size.toNat ∧ size ≤ limit.maxBytes := by
  have hzero : size = 0 ↔ size.toNat = 0 := by rw [← UInt64.toNat_inj]; rfl
  unfold validate
  split
  · next h =>
    rw [hzero.1 h]
    simp
  · next h =>
    have hpos : 1 ≤ size.toNat := Nat.one_le_iff_ne_zero.2 fun h0 => h (hzero.2 h0)
    split
    · next hlt => simp [UInt64.not_le.2 hlt]
    · next hlt => simp [hpos, UInt64.not_lt.1 hlt]

/-- A request is accepted exactly if its key is, its content type is spelled in some case, also by the alias if the
policy says so, and allowed, and its size is within the limit; its parts are those. The case of the content type makes
no difference. What an error about the content type names is refused with the same error. `FromStr` reads what a policy
for all types with the alias does, whatever the space around it. -/
theorem upload_requests (objectKey : Str) (objectKeyPolicy : ObjectKeyPolicy) (contentType : Str)
    (contentTypePolicy : ContentTypePolicy) (size : UInt64) (sizeLimit : UploadSizeLimit) :
    (∀ request, validateUploadRequest objectKey objectKeyPolicy contentType contentTypePolicy size sizeLimit =
        .ok request ↔
      ScopedObjectKey.newWithPolicy objectKey objectKeyPolicy = .ok request.objectKey ∧
        UploadContentType.Spells contentTypePolicy contentType request.contentType ∧
        request.contentType ∈ contentTypePolicy.allowed ∧ request.size = size ∧
        1 ≤ size.toNat ∧ size ≤ sizeLimit.maxBytes) ∧
    (∀ t, UploadContentType.parseWithPolicy contentType.toAsciiLowercase contentTypePolicy = .ok t ↔
      UploadContentType.parseWithPolicy contentType contentTypePolicy = .ok t) ∧
    (∀ e, UploadContentType.parseWithPolicy contentType contentTypePolicy = .error e →
      ∃ shown, e = .unsupportedContentType shown ∧
        UploadContentType.parseWithPolicy shown contentTypePolicy = .error e) ∧
    ∀ t allowed, t ∈ allowed → (UploadContentType.fromStr contentType = .ok t ↔
      UploadContentType.parseWithPolicy contentType.trim ⟨allowed, true⟩ = .ok t) := by
  refine ⟨fun request => ?_, fun t => ?_, fun e => UploadContentType.parseWithPolicy_error, fun t allowed hmem => ?_⟩
  · simp only [validateUploadRequest, Str.bind_eq_ok, UploadContentType.parseWithPolicy_eq_ok]
    constructor
    · rintro ⟨key, hkey, t, ⟨hspells, hallowed⟩, ⟨⟩, hsize, h⟩
      cases h
      exact ⟨hkey, hspells, hallowed, rfl, UploadSizeLimit.validate_eq_ok.1 hsize⟩
    · rintro ⟨hkey, hspells, hallowed, rfl, hsize⟩
      exact ⟨_, hkey, _, ⟨hspells, hallowed⟩, (), UploadSizeLimit.validate_eq_ok.2 hsize, rfl⟩
  · simp only [UploadContentType.parseWithPolicy_eq_ok, UploadContentType.Spells, Str.toAsciiLowercase_idem]
  · rw [UploadContentType.fromStr_eq_ok, UploadContentType.parseWithPolicy_eq_ok]
    simp only [UploadContentType.Spells, true_and, hmem, and_true]

end WorldInfra.Upload
