/-
delivery-core: the outcomes of attempts and the report of a worker's run. The counters of a report are those of the
outcomes recorded, cut at their width, in whatever order.
-/
import WorldInfra.Lib.Tally
import WorldInfra.Rust.Num
import WorldInfra.Rust.Time

namespace WorldInfra.Delivery

open WorldInfra.Lib WorldInfra.Rust

inductive DeliveryAttemptOutcome where
  | delivered
  | retryableFailure (retryAfter : Option Duration)
  | permanentFailure
  | ambiguousAfterSideEffect
  deriving DecidableEq

@[ext] structure DeliveryRunReport where
  claimed : UInt32 := 0
  delivered : UInt32 := 0
  retryableFailed : UInt32 := 0
  permanentlyFailed : UInt32 := 0
  ambiguousAfterSideEffect : UInt32 := 0
  deriving DecidableEq

def DeliveryRunReport.record (self : DeliveryRunReport) : DeliveryAttemptOutcome → DeliveryRunReport
  | .delivered => { self with delivered := u32SaturatingAdd self.delivered 1 }
  | .retryableFailure _ => { self with retryableFailed := u32SaturatingAdd self.retryableFailed 1 }
  | .permanentFailure => { self with permanentlyFailed := u32SaturatingAdd self.permanentlyFailed 1 }
  | .ambiguousAfterSideEffect =>
    { self with ambiguousAfterSideEffect := u32SaturatingAdd self.ambiguousAfterSideEffect 1 }

/-! ## Counting -/

/-- The kind of an outcome, by the counter it goes to. -/
inductive OutcomeKind where
  | delivered
  | retryable
  | permanent
  | ambiguous
  deriving DecidableEq, Repr

def DeliveryAttemptOutcome.kind : DeliveryAttemptOutcome → OutcomeKind
  | .delivered => .delivered
  | .retryableFailure _ => .retryable
  | .permanentFailure => .permanent
  | .ambiguousAfterSideEffect => .ambiguous

namespace DeliveryRunReport

/-- The counter of a kind. -/
def counter (self : DeliveryRunReport) : OutcomeKind → UInt32
  | .delivered => self.delivered
  | .retryable => self.retryableFailed
  | .permanent => self.permanentlyFailed
  | .ambiguous => self.ambiguousAfterSideEffect

theorem counter_record (self : DeliveryRunReport) (outcome : DeliveryAttemptOutcome) (kind : OutcomeKind) :
    (self.record outcome).counter kind =
      if outcome.kind = kind then u32SaturatingAdd (self.counter kind) 1 else self.counter kind := by
  cases outcome <;> cases kind <;> rfl

theorem claimed_record (self : DeliveryRunReport) (outcome : DeliveryAttemptOutcome) :
    (self.record outcome).claimed = self.claimed := by
  cases outcome <;> rfl

theorem tallies_counter (kind : OutcomeKind) :
    Tallies record (fun report => (report.counter kind).toNat) (fun outcome => decide (outcome.kind = kind))
      (2 ^ 32 - 1) := by
  intro report outcome
  have hone : (1 : UInt32).toNat = 1 := rfl
  beta_reduce
  rw [counter_record]
  by_cases hkind : outcome.kind = kind
  · rw [if_pos hkind, if_pos (decide_eq_true hkind), toNat_u32SaturatingAdd, hone]
  · rw [if_neg hkind, if_neg (by simpa using hkind)]

/-- Every counter holds what it held and the outcomes of its kind, cut at its width. -/
theorem counter_foldl (report : DeliveryRunReport) (outcomes : List DeliveryAttemptOutcome) (kind : OutcomeKind) :
    ((outcomes.foldl record report).counter kind).toNat =
      min ((report.counter kind).toNat + outcomes.countP fun outcome => decide (outcome.kind = kind)) (2 ^ 32 - 1) :=
  (tallies_counter kind).foldl (Nat.le_sub_one_of_lt (report.counter kind).toNat_lt) outcomes

theorem claimed_foldl (report : DeliveryRunReport) (outcomes : List DeliveryAttemptOutcome) :
    (outcomes.foldl record report).claimed = report.claimed := by
  induction outcomes generalizing report with
  | nil => rfl
  | cons outcome outcomes ih => rw [List.foldl_cons, ih, claimed_record]

theorem eq_of_counters {report report' : DeliveryRunReport} (hclaimed : report.claimed = report'.claimed)
    (h : ∀ kind, (report.counter kind).toNat = (report'.counter kind).toNat) : report = report' := by
  have hcounter (kind : OutcomeKind) : report.counter kind = report'.counter kind := UInt32.toNat_inj.1 (h kind)
  exact DeliveryRunReport.ext hclaimed (hcounter .delivered) (hcounter .retryable) (hcounter .permanent)
    (hcounter .ambiguous)

/-- The order of the outcomes makes no difference. -/
theorem foldl_perm (report : DeliveryRunReport) {outcomes outcomes' : List DeliveryAttemptOutcome}
    (h : outcomes.Perm outcomes') : outcomes.foldl record report = outcomes'.foldl record report := by
  refine eq_of_counters ?_ fun kind => ?_
  · rw [claimed_foldl, claimed_foldl]
  · rw [counter_foldl, counter_foldl, h.countP_eq]

end DeliveryRunReport

end WorldInfra.Delivery
