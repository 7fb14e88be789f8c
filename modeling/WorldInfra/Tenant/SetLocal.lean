/-
tenant-scope-sqlx: setting names, scope values and the `SET LOCAL` statement. A setting name
carries the fact that it is valid as it stands.
-/
import WorldInfra.Rust.Num

namespace WorldInfra.Tenant

open WorldInfra.Rust

inductive TenantScopeError where
  | invalidSettingName
  | invalidSettingValue
  | sql (error : Str)
  deriving DecidableEq, Repr

/-! ## Setting names -/

def identStart (c : Char) : Bool := c.isLower || c == '_'

def identCont (c : Char) : Bool := c.isLower || c.isDigit || c == '_'

def isUnquotedIdentifier (value : Str) : Bool :=
  !value.isEmpty && decide (value.len ≤ 63) && value.head?.any identStart && value.tail.all identCont

def validateSettingName (value : Str) : Except TenantScopeError Str :=
  value.validateTrimmed .invalidSettingName fun value =>
    value.isEmpty || value.len > 128 || value.head? == some '.' || value.getLast? == some '.' ||
      (value.split '.').any fun part => !isUnquotedIdentifier part

theorem identCont_of_identStart {c : Char} (h : identStart c = true) : identCont c = true := by
  simp only [identStart, identCont, Bool.or_eq_true] at h ⊢
  rcases h with h | h
  · exact Or.inl (Or.inl h)
  · exact Or.inr h

/-- An identifier, character by character. -/
theorem isUnquotedIdentifier_iff {value : Str} : isUnquotedIdentifier value = true ↔
    value.len ≤ 63 ∧ ∃ c s, value = c :: s ∧ identStart c = true ∧ ∀ d ∈ s, identCont d = true := by
  cases value with
  | nil => simp [isUnquotedIdentifier]
  | cons c s => simp [isUnquotedIdentifier, and_assoc]

theorem isWhitespace_of_identCont {c : Char} (h : identCont c = true) : isWhitespace c = false := by
  simp only [identCont, Bool.or_eq_true, beq_iff_eq] at h
  rcases h with (h | h) | rfl
  · exact isWhitespace_of_isAlphanum (by simp [Char.isAlphanum, Char.isAlpha, h])
  · exact isWhitespace_of_isAlphanum (by simp [Char.isAlphanum, h])
  · decide

/-- A text all of whose parts are identifiers holds no white space. -/
theorem no_whitespace_of_parts {value : Str} (h : ∀ part ∈ value.split '.', isUnquotedIdentifier part = true) :
    ∀ c ∈ value, isWhitespace c = false := by
  intro c hc
  have hsplit : c = '.' ∨ ∃ part ∈ value.split '.', c ∈ part := Str.mem_splitOn hc
  rcases hsplit with rfl | ⟨part, hpart, hc⟩
  · decide
  · obtain ⟨-, d, s, rfl, hd, hs⟩ := isUnquotedIdentifier_iff.1 (h part hpart)
    rcases List.mem_cons.1 hc with rfl | hc
    · exact isWhitespace_of_identCont (identCont_of_identStart hd)
    · exact isWhitespace_of_identCont (hs c hc)

theorem validateSettingName_ok {value v : Str} (h : validateSettingName value = .ok v) :
    validateSettingName v = .ok v := by
  refine Str.validateTrimmed_ok (fun v hv => no_whitespace_of_parts fun part hpart => ?_) h
  simp only [Bool.or_eq_false_iff, List.any_eq_false] at hv
  simpa using hv.2 part hpart

theorem parts_of_valid {value v : Str} (h : validateSettingName value = .ok v) :
    ∀ part ∈ v.split '.', isUnquotedIdentifier part = true := by
  obtain ⟨-, -, hbad⟩ := Str.validateTrimmed_cases h
  simp only [Bool.or_eq_false_iff, List.any_eq_false] at hbad
  intro part hpart
  simpa using hbad.2 part hpart

/-- `SettingName`: a validated text. -/
structure SettingName where
  value : Str
  valid : validateSettingName value = .ok value

def SettingName.new (value : Str) : Except TenantScopeError SettingName :=
  match h : validateSettingName value with
  | .ok v => .ok ⟨v, validateSettingName_ok h⟩
  | .error e => .error e

/-! ## Scope values -/

class ScopeValue (α : Type) where
  toScopeValue : α → Except TenantScopeError Str

instance : ScopeValue Str where
  toScopeValue value := if value.contains '\x00' then .error .invalidSettingValue else .ok value

instance : ScopeValue Int32 where
  toScopeValue value := .ok (decimal value.toInt)

instance : ScopeValue UInt32 where
  toScopeValue value := .ok (decimal value.toNat)

instance : ScopeValue Int64 where
  toScopeValue value := .ok (decimal value.toInt)

instance : ScopeValue UInt64 where
  toScopeValue value := .ok (decimal value.toNat)

/-! ## Statements -/

section

variable {α : Type} [ScopeValue α]

def escaped (value : Str) : Str := (value.replace '\\' "\\\\".toList).replace '\'' "''".toList

def quoteSettingValue (value : α) : Except TenantScopeError Str := do
  let value ← ScopeValue.toScopeValue value
  .ok ("E'".toList ++ escaped value ++ "'".toList)

def setLocalStatement (name : SettingName) (value : α) : Except TenantScopeError Str := do
  let quoted ← quoteSettingValue value
  .ok ("SET LOCAL ".toList ++ name.value ++ " = ".toList ++ quoted)

end

end WorldInfra.Tenant
