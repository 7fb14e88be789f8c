/-
auth-password-core: password policies. Length, the common-password denylists in both
normalizations, and the breach file. SHA-1 is a parameter.
-/
import WorldInfra.Password.SearchSafety
import WorldInfra.Rust.Pattern

namespace WorldInfra.Password

open WorldInfra.Lib WorldInfra.Rust

def commonPasswords : List Str := [
  "123456", "123456789", "qwerty", "password", "password1", "password12", "password123", "password1234",
  "password12345", "password123456", "password1234567", "password12345678", "password123456789", "letmein",
  "letmein123456", "welcome", "welcome123456", "admin", "admin12345678", "administrator", "iloveyou",
  "iloveyou12345", "football", "football12345", "baseball12345", "monkey", "monkey123456", "dragon",
  "dragon123456", "sunshine", "sunshine12345", "princess", "princess1234", "qwerty123456", "qwertyuiop123",
  "123456789012", "1234567890123", "12345678901234", "123456789012345", "1234567890ab", "trustno112345",
  "starwars1234", "passw0rd1234", "abc123456789", "chairman", "airline"].map String.toList

inductive CommonPasswordNormalization where
  | trimLowercase
  | asciiAlphanumericLowercase
  deriving DecidableEq, Repr

def defaultMinPasswordChars : Nat := 1

def defaultMaxPasswordChars : Nat := 256

structure PasswordPolicy where
  minChars : Nat := defaultMinPasswordChars
  maxChars : Nat := defaultMaxPasswordChars
  rejectCommon : Bool := true
  additionalCommonPasswords : List Str := []
  commonPasswordNormalization : CommonPasswordNormalization := .trimLowercase
  breachedSha1File : Option Path := none
  breachedSha1FileSorted : Bool := true
  breachedSha1MinBytes : Nat := defaultMinBreachFileBytes
  linearScanMaxBytes : Nat := defaultLinearScanMaxBytes

def PasswordPolicy.breachOptions (self : PasswordPolicy) : BreachedPasswordFileOptions where
  sorted := self.breachedSha1FileSorted
  minBytes := self.breachedSha1MinBytes
  linearScanMaxBytes := self.linearScanMaxBytes

/-! ## Length -/

def validatePasswordLengthRange (password : Str) (minChars maxChars : Nat) : Except PasswordError Unit :=
  let chars := password.length
  if chars = 0 then .error .empty
  else if chars < minChars then .error (.tooShort chars minChars)
  else if chars > maxChars then .error (.tooLong chars maxChars)
  else .ok ()

def validatePasswordLength (password : Str) (maxChars : Nat) : Except PasswordError Unit :=
  validatePasswordLengthRange password defaultMinPasswordChars maxChars

theorem validatePasswordLengthRange_ok {password : Str} {minChars maxChars : Nat} :
    validatePasswordLengthRange password minChars maxChars = .ok () ↔
      password ≠ [] ∧ minChars ≤ password.length ∧ password.length ≤ maxChars := by
  unfold validatePasswordLengthRange
  simp only
  split
  · rename_i h0
    rw [List.length_eq_zero_iff.1 h0]
    constructor
    · rintro ⟨⟩
    · rintro ⟨h, -⟩
      exact absurd rfl h
  · rename_i h0
    have hne : password ≠ [] := fun h => h0 (by rw [h]; rfl)
    split
    · constructor
      · rintro ⟨⟩
      · rintro ⟨-, h, -⟩
        omega
    · split
      · constructor
        · rintro ⟨⟩
        · rintro ⟨-, -, h⟩
          omega
      · exact ⟨fun _ => ⟨hne, by omega, by omega⟩, fun _ => rfl⟩

/-! ## Common passwords -/

def normalizeCommonPassword (password : Str) : CommonPasswordNormalization → Str
  | .trimLowercase => password.trim.toAsciiLowercase
  | .asciiAlphanumericLowercase => Str.toAsciiLowercase (password.filter Char.isAlphanum)

def isCommonPasswordWithPolicy (password : Str) (normalization : CommonPasswordNormalization)
    (additionalCommonPasswords : List Str) : Bool :=
  let normalized := normalizeCommonPassword password normalization
  if normalized.isEmpty then false
  else if commonPasswords.any fun common => normalizeCommonPassword common normalization == normalized then true
  else additionalCommonPasswords.any fun common => normalizeCommonPassword common normalization == normalized

def isCommonPassword (password : Str) : Bool := isCommonPasswordWithPolicy password .trimLowercase []

/-- A password is common if it normalizes to something, and a listed one to the same. -/
theorem isCommonPasswordWithPolicy_iff {password : Str} {normalization : CommonPasswordNormalization}
    {additional : List Str} : isCommonPasswordWithPolicy password normalization additional = true ↔
      normalizeCommonPassword password normalization ≠ [] ∧ ∃ common ∈ commonPasswords ++ additional,
        normalizeCommonPassword common normalization = normalizeCommonPassword password normalization := by
  unfold isCommonPasswordWithPolicy
  simp only
  cases hn : normalizeCommonPassword password normalization with
  | nil => simp
  | cons c s =>
    rw [List.isEmpty_cons, if_neg Bool.false_ne_true]
    split
    · rename_i hany
      obtain ⟨common, hmem, heq⟩ := List.any_eq_true.1 hany
      exact ⟨fun _ => ⟨List.cons_ne_nil _ _, common, List.mem_append_left _ hmem, eq_of_beq heq⟩, fun _ => rfl⟩
    · rename_i hany
      rw [List.any_eq_true]
      constructor
      · rintro ⟨common, hmem, heq⟩
        exact ⟨List.cons_ne_nil _ _, common, List.mem_append_right _ hmem, eq_of_beq heq⟩
      · rintro ⟨-, common, hmem, heq⟩
        refine ⟨common, (List.mem_append.1 hmem).resolve_left fun hbuiltin => ?_, beq_iff_eq.2 heq⟩
        exact hany (List.any_eq_true.2 ⟨common, hbuiltin, beq_iff_eq.2 heq⟩)

/-! ## Policies -/

section

variable (sha1 : Bytes → Bytes) (encodeUpper : Bytes → Str)

/-- `password_sha1_hex`, over the digest and `hex::encode_upper`. -/
def passwordSha1Hex (password : Str) : Str := encodeUpper (sha1 (Utf8.encode password))

/-- `PasswordPolicy::validate`, with the breach search's rounds as `none` if they do not suffice. -/
def PasswordPolicy.validate (self : PasswordPolicy) (password : Str) : Option (Except PasswordError Unit) :=
  match validatePasswordLengthRange password self.minChars self.maxChars with
  | .error e => some (.error e)
  | .ok () =>
    if self.rejectCommon && isCommonPasswordWithPolicy password self.commonPasswordNormalization
        self.additionalCommonPasswords then some (.error .common)
    else
      match self.breachedSha1File with
      | none => some (.ok ())
      | some path =>
        match breachedPasswordFileContains path (passwordSha1Hex sha1 encodeUpper password) self.breachOptions with
        | none => none
        | some (.error e) => some (.error e)
        | some (.ok true) => some (.error .breached)
        | some (.ok false) => some (.ok ())

/-- The breach file of a policy, if it has one, does not list the password. -/
def PasswordPolicy.NotBreached (self : PasswordPolicy) (password : Str) : Prop :=
  ∀ path, self.breachedSha1File = some path →
    breachedPasswordFileContains path (passwordSha1Hex sha1 encodeUpper password) self.breachOptions = some (.ok false)

/-- What a policy accepts. -/
theorem validate_ok_iff {policy : PasswordPolicy} {password : Str} :
    policy.validate sha1 encodeUpper password = some (.ok ()) ↔
      validatePasswordLengthRange password policy.minChars policy.maxChars = .ok () ∧
      ¬ (policy.rejectCommon = true ∧ isCommonPasswordWithPolicy password policy.commonPasswordNormalization
        policy.additionalCommonPasswords = true) ∧
      policy.NotBreached sha1 encodeUpper password := by
  unfold PasswordPolicy.validate PasswordPolicy.NotBreached
  cases hlen : validatePasswordLengthRange password policy.minChars policy.maxChars with
  | error e => simp
  | ok u =>
    simp only [true_and, Bool.and_eq_true]
    split
    · rename_i hcommon
      simp [hcommon]
    · rename_i hcommon
      simp only [hcommon, not_false_eq_true, true_and]
      cases hfile : policy.breachedSha1File with
      | none => simp
      | some path =>
        simp only [Option.some.injEq, forall_eq']
        rcases hlookup : breachedPasswordFileContains path (passwordSha1Hex sha1 encodeUpper password)
          policy.breachOptions with
          _ | e | found
        · simp
        · simp
        · cases found <;> simp

/-- A policy always answers. -/
theorem validate_isSome (policy : PasswordPolicy) (password : Str) :
    ∃ a, policy.validate sha1 encodeUpper password = some a := by
  unfold PasswordPolicy.validate
  cases validatePasswordLengthRange password policy.minChars policy.maxChars with
  | error e => exact ⟨_, rfl⟩
  | ok u =>
    simp only
    split
    · exact ⟨_, rfl⟩
    · cases policy.breachedSha1File with
      | none => exact ⟨_, rfl⟩
      | some path =>
        obtain ⟨answer, hanswer⟩ :=
          breachedPasswordFileContains_isSome path (passwordSha1Hex sha1 encodeUpper password) policy.breachOptions
        simp only [hanswer]
        rcases answer with e | found
        · exact ⟨_, rfl⟩
        · cases found
          · exact ⟨_, rfl⟩
          · exact ⟨_, rfl⟩

theorem validate_error_iff {policy : PasswordPolicy} {password : Str} :
    (∃ e, policy.validate sha1 encodeUpper password = some (.error e)) ↔
      policy.validate sha1 encodeUpper password ≠ some (.ok ()) := by
  obtain ⟨answer, hanswer⟩ := validate_isSome sha1 encodeUpper policy password
  rw [hanswer]
  cases answer with
  | error e => simp
  | ok u => simp

end

end WorldInfra.Password
