/-
operator-deadletter-core: the report of an audit or repair pass. Its counters are those of the results recorded, cut at
their width, whatever the order; it asks for attention exactly if a result warns or an eligible one is left unchanged,
as long as nothing counts as changed that was not eligible.
-/
import WorldInfra.Lib.Tally
import WorldInfra.Rust.Text

namespace WorldInfra.Operator

open WorldInfra.Lib WorldInfra.Rust

/-- `usize::saturating_add`. -/
def usizeSaturatingAdd (a b : UInt64) : UInt64 := if a.toNat + b.toNat < 2 ^ 64 then a + b else 0xFFFFFFFFFFFFFFFF

inductive OperatorAction where
  | retry
  | markComplete
  | markFailed
  | requireManualReconciliation
  | noop
  deriving DecidableEq, Repr

structure OperatorActionResult (Id : Type) where
  id : Id
  action : OperatorAction
  changed : Bool
  warning : Option Str
  deriving DecidableEq, Repr

structure OperatorRunReport where
  inspected : UInt64 := 0
  eligible : UInt64 := 0
  changed : UInt64 := 0
  dryRun : Bool := false
  warnings : List Str := []
  deriving DecidableEq

namespace OperatorRunReport

/-- `OperatorRunReport::dry_run`. -/
def startDryRun : OperatorRunReport := { dryRun := true }

/-- `OperatorRunReport::apply`. -/
def startApply : OperatorRunReport := {}

variable {Id : Type}

def record (self : OperatorRunReport) (result : OperatorActionResult Id) : OperatorRunReport where
  inspected := usizeSaturatingAdd self.inspected 1
  eligible := if result.action ≠ .noop then usizeSaturatingAdd self.eligible 1 else self.eligible
  changed := if result.changed then usizeSaturatingAdd self.changed 1 else self.changed
  dryRun := self.dryRun
  warnings := match result.warning with
    | some warning => self.warnings ++ [warning]
    | none => self.warnings

def needsAttention (self : OperatorRunReport) : Bool :=
  !self.warnings.isEmpty || (decide (0 < self.eligible) && decide (self.changed < self.eligible))

end OperatorRunReport

/-! ## Counting -/

theorem toNat_usizeSaturatingAdd_one (a : UInt64) :
    (usizeSaturatingAdd a 1).toNat = min (a.toNat + 1) (2 ^ 64 - 1) := by
  have hone : (1 : UInt64).toNat = 1 := rfl
  have hlt := a.toNat_lt
  unfold usizeSaturatingAdd
  rw [hone]
  split
  · next h =>
    rw [UInt64.toNat_add, hone, Nat.mod_eq_of_lt h]
    omega
  · next h =>
    show 2 ^ 64 - 1 = _
    omega

variable {Id : Type}

/-- What counts as eligible. -/
def OperatorActionResult.isEligible (self : OperatorActionResult Id) : Bool := decide (self.action ≠ .noop)

theorem toNat_bump (counted : Bool) (a : UInt64) :
    (if counted then usizeSaturatingAdd a 1 else a).toNat =
      if counted then min (a.toNat + 1) (2 ^ 64 - 1) else a.toNat := by
  cases counted with
  | true => exact toNat_usizeSaturatingAdd_one a
  | false => rfl

namespace OperatorRunReport

theorem tallies_inspected : Tallies (@record Id) (fun report => report.inspected.toNat) (fun _ => true) (2 ^ 64 - 1) :=
  fun report _ => toNat_usizeSaturatingAdd_one report.inspected

theorem tallies_eligible : Tallies (@record Id) (fun report => report.eligible.toNat)
    OperatorActionResult.isEligible (2 ^ 64 - 1) := by
  intro report result
  have hbump := toNat_bump result.isEligible report.eligible
  simpa [OperatorActionResult.isEligible, record] using hbump

theorem tallies_changed : Tallies (@record Id) (fun report => report.changed.toNat)
    OperatorActionResult.changed (2 ^ 64 - 1) :=
  fun report result => toNat_bump result.changed report.changed

theorem warnings_foldl (report : OperatorRunReport) (results : List (OperatorActionResult Id)) :
    (results.foldl record report).warnings = report.warnings ++ results.filterMap OperatorActionResult.warning := by
  induction results generalizing report with
  | nil => exact (List.append_nil _).symm
  | cons result results ih =>
    rw [List.foldl_cons, ih, List.filterMap_cons]
    unfold record
    cases result.warning with
    | none => rfl
    | some warning => exact List.append_assoc ..

/-- The report of a pass with these results. -/
def ofPass (dryRun : Bool) (results : List (OperatorActionResult Id)) : OperatorRunReport :=
  results.foldl record (if dryRun then startDryRun else startApply)

theorem ofPass_eq (dryRun : Bool) (results : List (OperatorActionResult Id)) :
    ofPass dryRun results = results.foldl record { dryRun := dryRun } := by
  cases dryRun <;> rfl

/-- A counter that starts at zero. -/
theorem count_foldl {part : OperatorRunReport → UInt64} {counts : OperatorActionResult Id → Bool}
    (h : Tallies (@record Id) (fun report => (part report).toNat) counts (2 ^ 64 - 1)) {report : OperatorRunReport}
    (hzero : part report = 0) (results : List (OperatorActionResult Id)) :
    (part (results.foldl record report)).toNat = min (results.countP counts) (2 ^ 64 - 1) := by
  have hstart : (part report).toNat = 0 := by rw [hzero]; rfl
  have hfold := h.foldl (s := report) (by rw [hstart]; exact Nat.zero_le _) results
  rwa [hstart, Nat.zero_add] at hfold

theorem needsAttention_iff (report : OperatorRunReport) :
    report.needsAttention = true ↔ report.warnings ≠ [] ∨ report.changed.toNat < report.eligible.toNat := by
  have hzero : (0 : UInt64).toNat = 0 := rfl
  simp only [needsAttention, Bool.or_eq_true, Bool.and_eq_true, Bool.not_eq_true', List.isEmpty_eq_false_iff,
    decide_eq_true_iff, UInt64.lt_iff_toNat_lt, hzero]
  constructor
  · rintro (h | ⟨-, h⟩)
    · exact Or.inl h
    · exact Or.inr h
  · rintro (h | h)
    · exact Or.inl h
    · exact Or.inr ⟨Nat.zero_lt_of_lt h, h⟩

/-! ### A pass -/

theorem inspected_ofPass (dryRun : Bool) (results : List (OperatorActionResult Id)) :
    (ofPass dryRun results).inspected.toNat = min results.length (2 ^ 64 - 1) := by
  rw [ofPass_eq, count_foldl tallies_inspected rfl, List.countP_true]

theorem eligible_ofPass (dryRun : Bool) (results : List (OperatorActionResult Id)) :
    (ofPass dryRun results).eligible.toNat =
      min (results.countP OperatorActionResult.isEligible) (2 ^ 64 - 1) := by
  rw [ofPass_eq, count_foldl tallies_eligible rfl]

theorem changed_ofPass (dryRun : Bool) (results : List (OperatorActionResult Id)) :
    (ofPass dryRun results).changed.toNat = min (results.countP OperatorActionResult.changed) (2 ^ 64 - 1) := by
  rw [ofPass_eq, count_foldl tallies_changed rfl]

theorem warnings_ofPass (dryRun : Bool) (results : List (OperatorActionResult Id)) :
    (ofPass dryRun results).warnings = results.filterMap OperatorActionResult.warning := by
  rw [ofPass_eq, warnings_foldl, List.nil_append]

theorem needsAttention_ofPass (dryRun : Bool) (results : List (OperatorActionResult Id)) :
    (ofPass dryRun results).needsAttention = true ↔ (∃ result ∈ results, result.warning ≠ none) ∨
      min (results.countP OperatorActionResult.changed) (2 ^ 64 - 1) <
        min (results.countP OperatorActionResult.isEligible) (2 ^ 64 - 1) := by
  rw [needsAttention_iff, warnings_ofPass, eligible_ofPass, changed_ofPass]
  simp only [ne_eq, List.filterMap_eq_nil_iff, not_forall, exists_prop]

end OperatorRunReport

/-- If only eligible results change anything, fewer changes than eligible results means one that is left unchanged. -/
theorem changed_lt_eligible_iff {results : List (OperatorActionResult Id)}
    (h : ∀ result ∈ results, result.changed = true → result.action ≠ .noop) :
    results.countP OperatorActionResult.changed < results.countP OperatorActionResult.isEligible ↔
      ∃ result ∈ results, result.action ≠ .noop ∧ result.changed = false := by
  have hsplit := List.countP_eq_countP_filter_add results OperatorActionResult.isEligible OperatorActionResult.changed
  have hchanged : (results.filter OperatorActionResult.changed).countP OperatorActionResult.isEligible =
      results.countP OperatorActionResult.changed := by
    rw [List.countP_filter]
    apply List.countP_congr
    intro result hmem
    simp only [OperatorActionResult.isEligible, Bool.and_eq_true, decide_eq_true_iff]
    exact ⟨fun hboth => hboth.2, fun hchanged => ⟨h result hmem hchanged, hchanged⟩⟩
  rw [hsplit, hchanged, Nat.lt_add_right_iff_pos, List.countP_pos_iff]
  simp only [List.mem_filter, OperatorActionResult.isEligible, decide_eq_true_iff]
  constructor
  · rintro ⟨result, ⟨hmem, hunchanged⟩, heligible⟩
    exact ⟨result, hmem, heligible, by simpa using hunchanged⟩
  · rintro ⟨result, hmem, heligible, hunchanged⟩
    exact ⟨result, ⟨hmem, by simp [hunchanged]⟩, heligible⟩

/-- After any results the report of a pass holds their counts, each cut at the width of its counter, and their warnings
in order. It asks for attention exactly if there is a warning or, so cut, fewer changes than eligible results; as long
as no result changed anything that was not eligible and the eligible ones fit the counter, exactly if some result warns
or is eligible and left unchanged. The order of the results makes no difference to that. -/
theorem operator_run_report (dryRun : Bool) (results : List (OperatorActionResult Id)) :
    ((OperatorRunReport.ofPass dryRun results).inspected.toNat = min results.length (2 ^ 64 - 1) ∧
      (OperatorRunReport.ofPass dryRun results).eligible.toNat =
        min (results.countP OperatorActionResult.isEligible) (2 ^ 64 - 1) ∧
      (OperatorRunReport.ofPass dryRun results).changed.toNat =
        min (results.countP OperatorActionResult.changed) (2 ^ 64 - 1) ∧
      (OperatorRunReport.ofPass dryRun results).warnings = results.filterMap OperatorActionResult.warning) ∧
    ((OperatorRunReport.ofPass dryRun results).needsAttention = true ↔ (∃ result ∈ results, result.warning ≠ none) ∨
      min (results.countP OperatorActionResult.changed) (2 ^ 64 - 1) <
        min (results.countP OperatorActionResult.isEligible) (2 ^ 64 - 1)) ∧
    ((∀ result ∈ results, result.changed = true → result.action ≠ .noop) →
      results.countP OperatorActionResult.isEligible ≤ 2 ^ 64 - 1 →
      ((OperatorRunReport.ofPass dryRun results).needsAttention = true ↔ ∃ result ∈ results,
        result.warning ≠ none ∨ result.action ≠ .noop ∧ result.changed = false)) ∧
    ∀ results' : List (OperatorActionResult Id), results.Perm results' →
      (OperatorRunReport.ofPass dryRun results).needsAttention =
        (OperatorRunReport.ofPass dryRun results').needsAttention := by
  refine ⟨⟨OperatorRunReport.inspected_ofPass dryRun results, OperatorRunReport.eligible_ofPass dryRun results,
    OperatorRunReport.changed_ofPass dryRun results, OperatorRunReport.warnings_ofPass dryRun results⟩,
    OperatorRunReport.needsAttention_ofPass dryRun results, ?_, ?_⟩
  · intro honly hfits
    have hle : results.countP OperatorActionResult.changed ≤ results.countP OperatorActionResult.isEligible :=
      List.countP_mono_left fun result hmem hresult => decide_eq_true (honly result hmem hresult)
    -- neither count is cut
    rw [OperatorRunReport.needsAttention_ofPass, min_eq_left (hle.trans hfits), min_eq_left hfits,
      changed_lt_eligible_iff honly]
    constructor
    · rintro (⟨result, hmem, h⟩ | ⟨result, hmem, h⟩)
      · exact ⟨result, hmem, Or.inl h⟩
      · exact ⟨result, hmem, Or.inr h⟩
    · rintro ⟨result, hmem, h | h⟩
      · exact Or.inl ⟨result, hmem, h⟩
      · exact Or.inr ⟨result, hmem, h⟩
  · intro results' hperm
    rw [Bool.eq_iff_iff, OperatorRunReport.needsAttention_ofPass, OperatorRunReport.needsAttention_ofPass,
      hperm.countP_eq, hperm.countP_eq]
    simp only [hperm.mem_iff]

/-- A change that was not eligible hides an eligible result that is left unchanged. -/
example : (OperatorRunReport.ofPass false
    [⟨1, .noop, true, none⟩, ⟨2, .retry, false, none⟩]).needsAttention = false := rfl

end WorldInfra.Operator
