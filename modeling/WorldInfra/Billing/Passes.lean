/-
billing-risk-core: redacting a snapshot several times. However many passes are made, with whatever keys, in
whatever order and spelling, the outcome is that of one pass with all the keys.
-/
import WorldInfra.Billing.Redaction

namespace WorldInfra.Billing

open WorldInfra.Json WorldInfra.Rust

variable {Number : Type}

/-- Snapshots redacted with one list of keys after the other. -/
def redactPasses (passes : List (List Str)) (v : Document Number) : Document Number :=
  passes.foldl (fun v sensitiveKeys => redact sensitiveKeys v) v

theorem isSensitiveSnapshotKey_append (key : Str) (some' others : List Str) :
    isSensitiveSnapshotKey key (some' ++ others) =
      (isSensitiveSnapshotKey key some' || isSensitiveSnapshotKey key others) :=
  List.any_append

theorem redact_nil (v : Document Number) : redact [] v = v := by
  rw [Document.ext_iff, redact_value]
  exact Value.coverHidden_none v.value

/-- Two passes are one with the keys of both. -/
theorem redact_redact (some' others : List Str) (v : Document Number) :
    redact others (redact some' v) = redact (some' ++ others) v := by
  rw [Document.ext_iff, redact_value, redact_value, redact_value, Value.coverHidden_coverHidden rfl]
  congr 1
  funext key
  exact (isSensitiveSnapshotKey_append key some' others).symm

theorem redactPasses_eq : ∀ (passes : List (List Str)) (v : Document Number),
    redactPasses passes v = redact passes.flatten v
  | [], v => (redact_nil v).symm
  | sensitiveKeys :: passes, v => by
    have hrest : redactPasses (sensitiveKeys :: passes) v = redactPasses passes (redact sensitiveKeys v) := rfl
    rw [hrest, redactPasses_eq passes, redact_redact, List.flatten_cons]

/-- What is sensitive depends on the keys' normal forms only. -/
theorem isSensitiveSnapshotKey_congr {some' others : List Str}
    (h : ∀ k, k ∈ some'.map normalizeSnapshotKey ↔ k ∈ others.map normalizeSnapshotKey) (key : Str) :
    isSensitiveSnapshotKey key some' = isSensitiveSnapshotKey key others := by
  have hany : ∀ keys : List Str, isSensitiveSnapshotKey key keys = (keys.map normalizeSnapshotKey).any fun sensitive =>
      !sensitive.isEmpty && (normalizeSnapshotKey key == sensitive ||
        ((normalizeSnapshotKey key).stripSuffixText sensitive).any fun before => before.endsWith ['_']) := by
    intro keys
    rw [List.any_map]
    rfl
  rw [hany, hany, Bool.eq_iff_iff, List.any_eq_true, List.any_eq_true]
  exact exists_congr fun k => and_congr_left' (h k)

/-- Two series of passes redact every snapshot alike if they name the same keys, in any order, number of
passes and spelling with one normal form; each does what one pass with all its keys does. -/
theorem redaction_passes (passes others : List (List Str))
    (h : ∀ k, k ∈ passes.flatten.map normalizeSnapshotKey ↔
      k ∈ others.flatten.map normalizeSnapshotKey) (v : Document Number) :
    redactPasses passes v = redact passes.flatten v ∧ redactPasses passes v = redactPasses others v := by
  refine ⟨redactPasses_eq passes v, ?_⟩
  rw [redactPasses_eq, redactPasses_eq, Document.ext_iff, redact_value, redact_value]
  congr 1
  funext key
  exact isSensitiveSnapshotKey_congr h key

/-- Once for tokens and once for card numbers, or the other way round and in camel case. -/
theorem redaction_passes_spelled :
    let v : Document Nat :=
      ⟨.object [("cardNumber".toList, .number 7), ("plan".toList, .string "pro".toList)],
        ⟨by decide, ⟨trivial, trivial, trivial⟩⟩⟩
    redactPasses [["id_token".toList], ["card_number".toList]] v =
      redactPasses [["cardNumber".toList, "idToken".toList], ["idToken".toList]] v :=
  (redaction_passes [["id_token".toList], ["card_number".toList]]
    [["cardNumber".toList, "idToken".toList], ["idToken".toList]]
    (by
      have hfirst : [["id_token".toList], ["card_number".toList]].flatten.map normalizeSnapshotKey =
        ["id_token".toList, "card_number".toList] := by decide
      have hsecond : [["cardNumber".toList, "idToken".toList], ["idToken".toList]].flatten.map normalizeSnapshotKey =
        ["card_number".toList, "id_token".toList, "id_token".toList] := by decide
      intro k
      rw [hfirst, hsecond]
      simp only [List.mem_cons, List.not_mem_nil, or_false, or_self]
      exact or_comm) _).2

end WorldInfra.Billing
