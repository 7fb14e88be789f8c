/-
contract-test-support: JSON contracts. Two values meet one contract if they are equal up to the order of
object keys; it is their canonical texts that are compared.
-/
import WorldInfra.Json.Text

namespace WorldInfra.Contract

open WorldInfra.Json WorldInfra.Rust

inductive ContractTestError where
  | json (error : Str)
  | jsonMismatch (expected actual : Str)
  deriving DecidableEq, Repr

section

variable {Number : Type} (toString : KeyedDocument Number → Except Str Str)

def canonicalJson (value : KeyedDocument Number) : Except ContractTestError Str :=
  match toString value.canonical with
  | .ok json => .ok json
  | .error error => .error (.json error)

def assertJsonContract (expected actual : KeyedDocument Number) : Except ContractTestError Unit := do
  let expected ← canonicalJson toString expected
  let actual ← canonicalJson toString actual
  if expected = actual then .ok () else .error (.jsonMismatch expected actual)

variable {toString}

theorem canonicalJson_eq_ok {value : KeyedDocument Number} {json : Str} :
    canonicalJson toString value = .ok json ↔ toString value.canonical = .ok json := by
  unfold canonicalJson
  cases toString value.canonical <;> simp

theorem assertJsonContract_eq_ok {expected actual : KeyedDocument Number} :
    assertJsonContract toString expected actual = .ok () ↔
      ∃ json, toString expected.canonical = .ok json ∧ toString actual.canonical = .ok json := by
  unfold assertJsonContract
  simp only [Str.bind_eq_ok, canonicalJson_eq_ok]
  constructor
  · rintro ⟨e, he, a, ha, h⟩
    split at h
    · next heq => exact ⟨e, he, heq ▸ ha⟩
    · cases h
  · rintro ⟨json, he, ha⟩
    exact ⟨json, he, json, ha, by rw [if_pos rfl]⟩

/-- If `to_string` writes every value, and no two alike, then a contract is met exactly by the values that
are equal to it up to the order of object keys at any depth. Canonical values are their own canonical
values, and canonical texts do not depend on the order of keys. -/
theorem jsonContract_iff (htotal : ∀ value, ∃ json, toString value = .ok json)
    (hinjective : ∀ v w json, toString v = .ok json → toString w = .ok json → v = w) :
    (∀ expected actual : KeyedDocument Number, assertJsonContract toString expected actual = .ok () ↔
      expected.value.Same actual.value) ∧
    (∀ value : KeyedDocument Number, value.canonical.canonical = value.canonical) ∧
    ∀ v w : KeyedDocument Number, v.value.Same w.value → canonicalJson toString v = canonicalJson toString w := by
  refine ⟨fun expected actual => ?_, KeyedDocument.canonical_idem, fun v w hsame => ?_⟩
  · rw [assertJsonContract_eq_ok, ← KeyedDocument.canonical_eq_iff]
    constructor
    · rintro ⟨json, he, ha⟩
      exact hinjective _ _ json he ha
    · intro heq
      obtain ⟨json, hjson⟩ := htotal expected.canonical
      exact ⟨json, hjson, heq ▸ hjson⟩
  · rw [canonicalJson, canonicalJson, KeyedDocument.canonical_eq_iff.2 hsame]

end

/-! ## With integers for numbers -/

theorem decimal_chars (n : Int) : decimal n ≠ [] ∧ ∀ c ∈ decimal n, isNumberChar c = true := by
  have hdigits : ∀ c ∈ Nat.toDigits 10 n.natAbs, isNumberChar c = true := by
    intro c hc
    rw [isNumberChar, isDigit_of_mem_toDigits hc]
    rfl
  unfold decimal
  split
  · refine ⟨List.cons_ne_nil _ _, ?_⟩
    rw [List.forall_mem_cons]
    exact ⟨by decide, hdigits⟩
  · exact ⟨Nat.toDigits_ne_nil, hdigits⟩

def integers : NumberText Int :=
  ⟨decimal, decimal_injective, fun n => (decimal_chars n).1, fun n => (decimal_chars n).2⟩

/-- `serde_json::to_string` on values whose numbers are integers. -/
def integerJson (value : KeyedDocument Int) : Except Str Str := .ok (value.value.text integers)

theorem integerJson_injective {v w : KeyedDocument Int} {json : Str} (hv : integerJson v = .ok json)
    (hw : integerJson w = .ok json) : v = w :=
  KeyedDocument.ext (Value.text_injective integers (Except.ok.inj (hv.trans hw.symm)))

/-- The object `{"b": 2, "a": {"z": 1, "m": 2}}`. -/
def unsortedObject : KeyedDocument Int where
  value := .object
    [("b".toList, .number 2), ("a".toList, .object [("z".toList, .number 1), ("m".toList, .number 2)])]
  unique := by simp [Value.UniqueKeys, Value.UniqueFields, Lib.InsertionMap.keys]

/-- The object `{"a": {"m": 2, "z": 1}, "b": 2}`. -/
def sortedObject : KeyedDocument Int where
  value := .object
    [("a".toList, .object [("m".toList, .number 2), ("z".toList, .number 1)]), ("b".toList, .number 2)]
  unique := by simp [Value.UniqueKeys, Value.UniqueFields, Lib.InsertionMap.keys]

theorem unsortedObject_canonical : unsortedObject.canonical = sortedObject.canonical :=
  KeyedDocument.ext rfl

theorem jsonContract_iff_reordered : assertJsonContract integerJson unsortedObject sortedObject = .ok () :=
  ((jsonContract_iff (fun _ => ⟨_, rfl⟩) (fun _ _ _ => integerJson_injective)).1 unsortedObject sortedObject).2
    (KeyedDocument.canonical_eq_iff.1 unsortedObject_canonical)

end WorldInfra.Contract
