/-
billing-risk-core: redaction of provider snapshots, with the automaton that normalizes the keys. On
the maps of a well-formed value the loop that inserts entry after entry covers the values under
sensitive keys and rebuilds all else.
-/
import WorldInfra.Json.Cover
import WorldInfra.Rust.Pattern

namespace WorldInfra.Billing

open WorldInfra.Lib WorldInfra.Rust WorldInfra.Json

def defaultSensitiveKeys : List Str := [
  "access_token", "api_key", "authorization", "client_secret", "cvc", "id_token", "number", "password",
  "refresh_token", "secret", "secret_key", "token", "webhook_secret"].map String.toList

/-! ## Keys -/

/-- The variables of the loop in `normalize_snapshot_key`. -/
structure KeyNormalizer where
  normalized : Str := []
  previousWasLowerOrDigit : Bool := false
  previousWasUppercase : Bool := false

def KeyNormalizer.step (self : KeyNormalizer) (ch : Char) (next : Option Char) : KeyNormalizer :=
  if ch.isUpper then
    let nextIsLowercase := next.any Char.isLower
    let boundary := (self.previousWasLowerOrDigit || (self.previousWasUppercase && nextIsLowercase)) &&
      !self.normalized.endsWith ['_']
    let normalized := if boundary then self.normalized ++ ['_'] else self.normalized
    ⟨normalized ++ [ch.toLower], false, true⟩
  else if ch.isLower || ch.isDigit then ⟨self.normalized ++ [ch.toLower], true, false⟩
  else
    let normalized :=
      if !self.normalized.isEmpty && !self.normalized.endsWith ['_'] then self.normalized ++ ['_'] else self.normalized
    ⟨normalized, false, false⟩

def KeyNormalizer.run (self : KeyNormalizer) : List Char → KeyNormalizer
  | [] => self
  | ch :: chars => (self.step ch chars.head?).run chars

def normalizeSnapshotKey (value : Str) : Str :=
  (({} : KeyNormalizer).run value).normalized.trimMatches (· == '_')

def isSensitiveSnapshotKey (key : Str) (sensitiveKeys : List Str) : Bool :=
  let key := normalizeSnapshotKey key
  sensitiveKeys.any fun sensitive =>
    let sensitive := normalizeSnapshotKey sensitive
    !sensitive.isEmpty &&
      (key == sensitive || (key.stripSuffixText sensitive).any fun before => before.endsWith ['_'])

/-! ## Values -/

variable {Number : Type}

def redactedText : Value Number := .string "[redacted]".toList

mutual

def redactJsonSnapshot (sensitiveKeys : List Str) : Value Number → Value Number
  | .object map => .object (redactMap sensitiveKeys [] map)
  | .array items => .array (redactItems sensitiveKeys items)
  | value => value

def redactItems (sensitiveKeys : List Str) : List (Value Number) → List (Value Number)
  | [] => []
  | item :: items => redactJsonSnapshot sensitiveKeys item :: redactItems sensitiveKeys items

/-- The loop over the entries of an object, from the entries inserted so far. -/
def redactMap (sensitiveKeys : List Str) (redacted : List (Str × Value Number)) :
    List (Str × Value Number) → List (Str × Value Number)
  | [] => redacted
  | (key, value) :: map =>
    if isSensitiveSnapshotKey key sensitiveKeys then
      redactMap sensitiveKeys (SortedMap.insert key redactedText redacted) map
    else redactMap sensitiveKeys (SortedMap.insert key (redactJsonSnapshot sensitiveKeys value) redacted) map

end

example : isSensitiveSnapshotKey "providerAPIKey".toList defaultSensitiveKeys = true := by decide

example : isSensitiveSnapshotKey "safe_tokenized_count".toList defaultSensitiveKeys = false := by decide

/-! ## Redaction covers -/

section

variable {sensitiveKeys : List Str}

/-- The loop inserts every entry under its key. -/
theorem redactMap_eq_foldl : ∀ map redacted : List (Str × Value Number), redactMap sensitiveKeys redacted map =
    map.foldl (fun redacted e => SortedMap.insert e.1 (if isSensitiveSnapshotKey e.1 sensitiveKeys then redactedText
      else redactJsonSnapshot sensitiveKeys e.2) redacted) redacted
  | [], redacted => by
    rw [redactMap, List.foldl_nil]
  | (key, value) :: map, redacted => by
    rw [redactMap, List.foldl_cons, redactMap_eq_foldl map, redactMap_eq_foldl map]
    split
    · rfl
    · rfl

theorem redactMap_nil {map : List (Str × Value Number)} (h : SortedMap.Ascending map) :
    redactMap sensitiveKeys [] map = map.map fun e => (e.1, if isSensitiveSnapshotKey e.1 sensitiveKeys then
      redactedText else redactJsonSnapshot sensitiveKeys e.2) := by
  have hbelow : ∀ e ∈ map, ∀ a ∈ ([] : List (Str × Value Number)), a.1 < e.1 := by
    intro e _ a ha
    cases ha
  have hfold : ∀ f : Str → Value Number → Value Number,
      map.foldl (fun redacted e => SortedMap.insert e.1 (f e.1 e.2) redacted) [] = map.map fun e => (e.1, f e.1 e.2) :=
    fun _ => SortedMap.foldl_insert h hbelow
  rw [redactMap_eq_foldl]
  exact hfold fun key value => if isSensitiveSnapshotKey key sensitiveKeys then redactedText
    else redactJsonSnapshot sensitiveKeys value

mutual

theorem redactJsonSnapshot_eq : ∀ {v : Value Number}, v.Sorted → redactJsonSnapshot sensitiveKeys v =
    Value.coverHidden (isSensitiveSnapshotKey · sensitiveKeys) redactedText v
  | .array items, h => by
    rw [redactJsonSnapshot, Value.coverHidden, redactItems_eq h]
  | .object map, h => by
    rw [redactJsonSnapshot, Value.coverHidden, redactMap_nil h.1, redactFields_eq h.2]
  | .null, _ | .bool _, _ | .number _, _ | .string _, _ => rfl

theorem redactItems_eq : ∀ {items : List (Value Number)}, Value.SortedItems items → redactItems sensitiveKeys items =
    Value.coverItems (isSensitiveSnapshotKey · sensitiveKeys) redactedText items
  | [], _ => rfl
  | item :: items, h => by
    rw [redactItems, Value.coverItems, redactJsonSnapshot_eq h.1, redactItems_eq h.2]

theorem redactFields_eq : ∀ {map : List (Str × Value Number)}, Value.SortedFields map →
    (map.map fun e => (e.1, if isSensitiveSnapshotKey e.1 sensitiveKeys then redactedText
      else redactJsonSnapshot sensitiveKeys e.2)) =
      Value.coverFields (isSensitiveSnapshotKey · sensitiveKeys) redactedText map
  | [], _ => rfl
  | (key, value) :: map, h => by
    rw [List.map_cons, Value.coverFields, redactJsonSnapshot_eq h.1, redactFields_eq h.2]

end

end

/-! ## Secrecy -/

def redact (sensitiveKeys : List Str) (v : Document Number) : Document Number where
  value := redactJsonSnapshot sensitiveKeys v.value
  sorted := by
    rw [redactJsonSnapshot_eq v.sorted]
    have hcover : (redactedText : Value Number).Sorted := trivial
    exact Value.sorted_coverHidden hcover v.sorted

theorem redact_value (sensitiveKeys : List Str) (v : Document Number) : (redact sensitiveKeys v).value =
    Value.coverHidden (isSensitiveSnapshotKey · sensitiveKeys) redactedText v.value :=
  redactJsonSnapshot_eq v.sorted

/-- Redaction makes two values equal exactly if they are equal except for what stands under sensitive
keys; at the end of every path through no sensitive key the redacted value shows what the value does;
and redaction does nothing the second time. -/
theorem redaction_exact (sensitiveKeys : List Str) :
    (∀ v w : Document Number, redact sensitiveKeys v = redact sensitiveKeys w ↔
      Value.EqExcept (isSensitiveSnapshotKey · sensitiveKeys) v.value w.value) ∧
    (∀ (v : Document Number) (path : List Value.Step), Value.ClearPath (isSensitiveSnapshotKey · sensitiveKeys) path →
      ((redact sensitiveKeys v).value.atPath path).map Value.outline = (v.value.atPath path).map Value.outline) ∧
    ∀ v : Document Number, redact sensitiveKeys (redact sensitiveKeys v) = redact sensitiveKeys v := by
  refine ⟨?_, ?_, ?_⟩
  · intro v w
    rw [Document.ext_iff, redact_value, redact_value]
    exact Value.coverHidden_eq_iff v.value w.value
  · intro v path hpath
    rw [redact_value, Value.atPath_coverHidden hpath, Option.map_map]
    congr 1
    funext child
    exact Value.outline_coverHidden child
  · intro v
    rw [Document.ext_iff, redact_value, redact_value]
    exact Value.coverHidden_idem v.value

/-- The plan beside a nested token is kept. -/
theorem redaction_exact_plan :
    let v : Document Nat :=
      ⟨.object [("data".toList, .object [("IDToken".toList, .number 7), ("plan".toList, .string "pro".toList)])],
        ⟨by decide, ⟨by decide, trivial, trivial, trivial⟩, trivial⟩⟩
    ((redact defaultSensitiveKeys v).value.atPath [.key "data".toList, .key "plan".toList]).map Value.outline =
      some (.scalar (.string "pro".toList)) := by
  intro v
  refine (redaction_exact defaultSensitiveKeys).2.1 v _ ?_
  intro key hkey
  simp only [List.mem_cons, Value.Step.key.injEq, List.not_mem_nil, or_false] at hkey
  rcases hkey with rfl | rfl
  · decide
  · decide

end WorldInfra.Billing
