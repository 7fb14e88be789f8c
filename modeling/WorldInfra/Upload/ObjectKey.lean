/-
upload-core: object keys. An accepted key is a path of proper segments, and it lies below the
required prefix segment by segment: the text prefix the code tests for and the boundary rule
behind it amount to a prefix of segments.
-/
import WorldInfra.Rust.Pattern

namespace WorldInfra.Upload

open WorldInfra.Rust

inductive UploadError where
  | empty (field : Str)
  | invalidObjectKey
  | unsupportedContentType (contentType : Str)
  | emptyUpload
  | uploadTooLarge (size max : UInt64)
  deriving DecidableEq, Repr

def dotPart (part : Str) : Bool := part == ".".toList || part == "..".toList

/-- A part no object key has. -/
def improperPart (part : Str) : Bool := dotPart part || part.isEmpty

def defaultObjectKeyMaxLen : Nat := 512

def conservativeObjectKeyChar (ch : Char) : Bool :=
  ch.isAlphanum || ch == '/' || ch == '_' || ch == '-' || ch == '.'

structure ObjectKeyPolicy where
  requiredPrefix : Str
  maxLen : Nat := defaultObjectKeyMaxLen
  allowedChar : Char → Bool := conservativeObjectKeyChar

/-- `ScopedObjectKey`: a key, all of whose segments are proper. -/
structure ScopedObjectKey where
  text : Str
  proper : ∀ part ∈ text.split '/', improperPart part = false

def invalidKeySyntax (value : Str) (allowedChar : Char → Bool) : Bool :=
  value.startsWith ['/'] || value.containsText "//".toList || (value.split '/').any dotPart || value.any isControl ||
    value.containsText ['\\'] || !value.all allowedChar

def hasPrefixBoundary (value requiredPrefix : Str) : Bool :=
  match value.stripPrefixText requiredPrefix with
  | none => false
  | some rest => rest.isEmpty || requiredPrefix.endsWith ['/'] || rest.startsWith ['/']

/-- The test of `new_with_policy` that follows the ones for emptiness and length. -/
def invalidObjectKey (value : Str) (policy : ObjectKeyPolicy) : Bool :=
  invalidKeySyntax policy.requiredPrefix policy.allowedChar || value.startsWith ['/'] || value.endsWith ['/'] ||
    value.containsText "//".toList || (value.split '/').any improperPart || value.any isControl ||
    value.containsText ['\\'] || !value.all policy.allowedChar || !hasPrefixBoundary value policy.requiredPrefix

theorem improperPart_of_valid {value : Str} {policy : ObjectKeyPolicy} (h : ¬ invalidObjectKey value policy = true) :
    ∀ part ∈ value.split '/', improperPart part = false := by
  intro part hpart
  simp only [invalidObjectKey, Bool.or_eq_true, not_or] at h
  obtain ⟨⟨⟨⟨⟨-, hparts⟩, -⟩, -⟩, -⟩, -⟩ := h
  rw [← Bool.not_eq_true]
  intro hp
  exact hparts (List.any_eq_true.2 ⟨part, hpart, hp⟩)

theorem hasPrefixBoundary_of_valid {value : Str} {policy : ObjectKeyPolicy}
    (h : ¬ invalidObjectKey value policy = true) : hasPrefixBoundary value policy.requiredPrefix = true := by
  simp only [invalidObjectKey, Bool.or_eq_true, not_or] at h
  simpa using h.2

namespace ScopedObjectKey

def newWithPolicy (value : Str) (policy : ObjectKeyPolicy) : Except UploadError ScopedObjectKey :=
  if value.isEmpty then .error (.empty "object_key".toList)
  else if policy.requiredPrefix.isEmpty then .error (.empty "required_prefix".toList)
  else if policy.maxLen = 0 ∨ value.len > policy.maxLen then .error .invalidObjectKey
  else if h : invalidObjectKey value policy = true then .error .invalidObjectKey
  else .ok ⟨value, improperPart_of_valid h⟩

def new (value requiredPrefix : Str) : Except UploadError ScopedObjectKey :=
  newWithPolicy value { requiredPrefix := requiredPrefix }

theorem newWithPolicy_ok {value : Str} {policy : ObjectKeyPolicy} {key : ScopedObjectKey}
    (h : newWithPolicy value policy = .ok key) :
    key.text = value ∧ hasPrefixBoundary value policy.requiredPrefix = true := by
  unfold newWithPolicy at h
  split at h
  · cases h
  · split at h
    · cases h
    · split at h
      · cases h
      · split at h
        · cases h
        · rename_i hvalid
          cases h
          exact ⟨rfl, hasPrefixBoundary_of_valid hvalid⟩

end ScopedObjectKey

/-! ## Segments -/

/-- The segments of a prefix, one slash at its end left out. -/
def prefixSegments (requiredPrefix : Str) : List Str :=
  ((Str.stripSuffix '/' requiredPrefix).getD requiredPrefix).split '/'

/-- What the boundary rule says about segments. -/
theorem prefixSegments_of_boundary {value requiredPrefix : Str} (h : hasPrefixBoundary value requiredPrefix = true) :
    prefixSegments requiredPrefix <+: value.split '/' := by
  unfold hasPrefixBoundary at h
  cases hrest : value.stripPrefixText requiredPrefix with
  | none => rw [hrest] at h; cases h
  | some rest =>
    rw [hrest] at h
    obtain rfl := Str.eq_append_of_stripPrefixText hrest
    unfold prefixSegments
    cases hslash : Str.stripSuffix '/' requiredPrefix with
    | some dir =>
      -- the prefix ends in a slash, and the rest of the value are more segments
      obtain rfl := Str.eq_append_of_stripSuffix hslash
      rw [Option.getD_some, List.append_assoc, List.singleton_append, Str.split_append_cons]
      exact List.prefix_append _ _
    | none =>
      rw [Option.getD_none]
      cases rest with
      | nil => rw [List.append_nil]
      | cons c rest =>
        -- no slash at the end of the prefix, so the rest starts with one
        have hc : c = '/' := by
          have hends : requiredPrefix.endsWith ['/'] = false := Str.endsWith_of_stripSuffix_none hslash
          simp only [hends, List.isEmpty_cons, Bool.or_false, Bool.false_or] at h
          exact Str.head_of_startsWith h
        subst hc
        rw [Str.split_append_cons]
        exact List.prefix_append _ _

/-- An accepted key consists of proper segments, and the first of them are those of the required prefix.
So prefixes that share a key are one below the other. -/
theorem objectKeys_within_prefix (value : Str) (policy : ObjectKeyPolicy) (key : ScopedObjectKey)
    (h : ScopedObjectKey.newWithPolicy value policy = .ok key) :
    key.text = value ∧
    (∀ part ∈ value.split '/', part ≠ [] ∧ part ≠ ".".toList ∧ part ≠ "..".toList) ∧
    prefixSegments policy.requiredPrefix <+: value.split '/' ∧
    ∀ (policy' : ObjectKeyPolicy) (key' : ScopedObjectKey), ScopedObjectKey.newWithPolicy value policy' = .ok key' →
      prefixSegments policy.requiredPrefix <+: prefixSegments policy'.requiredPrefix ∨
      prefixSegments policy'.requiredPrefix <+: prefixSegments policy.requiredPrefix := by
  obtain ⟨rfl, hboundary⟩ := ScopedObjectKey.newWithPolicy_ok h
  have hwithin := prefixSegments_of_boundary hboundary
  refine ⟨rfl, ?_, hwithin, ?_⟩
  · intro part hpart
    have hproper := key.proper part hpart
    simpa [improperPart, dotPart, and_comm, and_assoc] using hproper
  · intro policy' key' h'
    obtain ⟨-, hboundary'⟩ := ScopedObjectKey.newWithPolicy_ok h'
    exact List.prefix_or_prefix_of_prefix hwithin (prefixSegments_of_boundary hboundary')

/-- A key of one account, which its sibling's prefix does not cover. -/
theorem objectKeys_within_prefix_sibling :
    let value : Str := "uploads/account-1/logo.png".toList
    (∃ key, ScopedObjectKey.new value "uploads/account-1".toList = .ok key ∧
      ∀ part ∈ value.split '/', part ≠ [] ∧ part ≠ ".".toList ∧ part ≠ "..".toList) ∧
    ∀ key, ScopedObjectKey.new value "uploads/account-10".toList ≠ .ok key := by
  intro value
  have hkey : ∃ key, ScopedObjectKey.new value "uploads/account-1".toList = .ok key := ⟨_, rfl⟩
  obtain ⟨key, hkey⟩ := hkey
  obtain ⟨-, hparts, -, hshared⟩ := objectKeys_within_prefix value
    { requiredPrefix := "uploads/account-1".toList } key hkey
  refine ⟨⟨key, hkey, hparts⟩, ?_⟩
  intro key' hkey'
  rcases hshared { requiredPrefix := "uploads/account-10".toList } key' hkey' with h | h
  · exact absurd h (by decide)
  · exact absurd h (by decide)

end WorldInfra.Upload
