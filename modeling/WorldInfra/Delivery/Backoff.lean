/-
Exponential backoff with a cap: the delay before an attempt, from the number of attempts already
completed. The loop multiplies with saturation, clamps, and breaks when the delay stops changing;
its value is the capped geometric sequence, for every count the parameters can hold.
-/
import WorldInfra.Lib.Iterate
import WorldInfra.Rust.Num
import WorldInfra.Rust.Time

namespace WorldInfra.Delivery

open WorldInfra.Lib WorldInfra.Rust

inductive DeliveryError where
  | invalidLeaseToken
  | invalidBackoff
  deriving DecidableEq, Repr

/-- `Display` of the error. -/
def DeliveryError.text : DeliveryError → Str
  | .invalidLeaseToken => "lease token is invalid".toList
  | .invalidBackoff => "backoff configuration is invalid".toList

/-- What the constructors of a backoff policy refuse. -/
def invalidBackoff (initial max : Duration) (multiplier : UInt32) : Bool :=
  initial.isZero || max.isZero || multiplier == 0 || decide (max < initial)

theorem accepted_of_not {initial max : Duration} {multiplier : UInt32}
    (h : ¬ invalidBackoff initial max multiplier = true) : invalidBackoff initial max multiplier = false :=
  eq_false_of_ne_true h

/-- The delay after the next round of the loop. -/
def nextDelay (max : Duration) (multiplier : UInt32) (delay : Duration) : Duration :=
  min (delay.saturatingMul multiplier) max

/-- The loop of the delay calculations: it breaks when the next delay is the delay it has. -/
def delayAfter (initial max : Duration) (multiplier : UInt32) (rounds : Nat) : Duration :=
  iterateUntilFixed (nextDelay max multiplier) rounds initial

/-! ## The capped geometric sequence -/

section Loop

variable {initial max : Duration} {multiplier : UInt32}

theorem invalidBackoff_eq_false : invalidBackoff initial max multiplier = false ↔
    1 ≤ initial.nanos ∧ 1 ≤ multiplier.toNat ∧ initial ≤ max := by
  have hm : multiplier = 0 ↔ multiplier.toNat = 0 := by rw [← UInt32.toNat_inj]; rfl
  simp only [invalidBackoff, Duration.isZero, Bool.or_eq_false_iff, beq_eq_false_iff_ne, ne_eq,
    decide_eq_false_iff_not, not_lt, hm, Duration.le_def]
  omega

theorem nanos_nextDelay (delay : Duration) :
    (nextDelay max multiplier delay).nanos = cappedMul multiplier.toNat max.nanos delay.nanos := by
  have hmax := max.lt
  rw [nextDelay, Duration.nanos_min, Duration.nanos_saturatingMul, cappedMul, min_assoc,
    min_eq_right (Nat.le_sub_one_of_lt hmax)]

/-- The break leaves the loop with the value all the rounds would give. -/
theorem delayAfter_eq_iterate (rounds : Nat) :
    delayAfter initial max multiplier rounds = (nextDelay max multiplier)^[rounds] initial :=
  iterateUntilFixed_eq _ rounds initial

theorem nanos_delayAfter (h : invalidBackoff initial max multiplier = false) (rounds : Nat) :
    (delayAfter initial max multiplier rounds).nanos =
      min (initial.nanos * multiplier.toNat ^ rounds) max.nanos := by
  obtain ⟨-, hm, hle⟩ := invalidBackoff_eq_false.1 h
  have hstep : Function.Semiconj Duration.nanos (nextDelay max multiplier)
      (cappedMul multiplier.toNat max.nanos) := nanos_nextDelay
  calc (delayAfter initial max multiplier rounds).nanos
      = (cappedMul multiplier.toNat max.nanos)^[rounds] initial.nanos := by
        rw [delayAfter_eq_iterate, (hstep.iterate_right rounds).eq]
    _ = (cappedMul multiplier.toNat max.nanos)^[rounds] (min initial.nanos max.nanos) := by
        rw [min_eq_left (Duration.le_def.1 hle)]
    _ = min (initial.nanos * multiplier.toNat ^ rounds) max.nanos := iterate_cappedMul hm rounds _

theorem delayAfter_mono (h : invalidBackoff initial max multiplier = false) :
    Monotone (delayAfter initial max multiplier) := by
  intro a b hab
  rw [Duration.le_def, nanos_delayAfter h, nanos_delayAfter h]
  exact min_mul_pow_mono (invalidBackoff_eq_false.1 h).2.1 _ hab

theorem le_delayAfter (h : invalidBackoff initial max multiplier = false) (rounds : Nat) :
    initial ≤ delayAfter initial max multiplier rounds :=
  delayAfter_mono h (Nat.zero_le rounds)

theorem delayAfter_le (h : invalidBackoff initial max multiplier = false) (rounds : Nat) :
    delayAfter initial max multiplier rounds ≤ max := by
  rw [Duration.le_def, nanos_delayAfter h]
  exact min_le_right _ _

/-- A duration has fewer than `2 ^ 94` nanoseconds, so the sequence is constant from there on. -/
theorem delayAfter_settled (h : invalidBackoff initial max multiplier = false) {a b : Nat} (ha : 94 ≤ a)
    (hb : 94 ≤ b) : delayAfter initial max multiplier a = delayAfter initial max multiplier b := by
  obtain ⟨hpos, hm, -⟩ := invalidBackoff_eq_false.1 h
  apply Duration.ext
  rw [nanos_delayAfter h, nanos_delayAfter h]
  rcases Nat.eq_or_lt_of_le hm with hone | htwo
  · rw [← hone, one_pow, one_pow]
  · have hcap : ∀ n, 94 ≤ n → max.nanos ≤ initial.nanos * multiplier.toNat ^ n := fun n hn => calc
      max.nanos ≤ 2 ^ 94 := max.lt.le.trans (by norm_num)
      _ ≤ multiplier.toNat ^ 94 := Nat.pow_le_pow_left htwo 94
      _ ≤ multiplier.toNat ^ n := Nat.pow_le_pow_right hm hn
      _ ≤ initial.nanos * multiplier.toNat ^ n := Nat.le_mul_of_pos_left _ hpos
    rw [min_eq_right (hcap a ha), min_eq_right (hcap b hb)]

end Loop

/-! ## The policy -/

structure BackoffPolicy where
  initial : Duration
  max : Duration
  multiplier : UInt32
  valid : invalidBackoff initial max multiplier = false

/-- The attempt number is one-based. -/
def attemptFromCompletedCount (completedCount : UInt32) : UInt32 := u32SaturatingAdd completedCount 1

def attemptFromCompletedCountI32 (completedCount : Int32) : Option UInt32 :=
  if completedCount < 0 then none else some (u32SaturatingAdd completedCount.toUInt32 1)

namespace BackoffPolicy

def new (initial max : Duration) (multiplier : UInt32) : Except DeliveryError BackoffPolicy :=
  if h : invalidBackoff initial max multiplier = true then .error .invalidBackoff
  else .ok ⟨initial, max, multiplier, accepted_of_not h⟩

def delayForAttempt (policy : BackoffPolicy) (attempt : UInt32) : Duration :=
  delayAfter policy.initial policy.max policy.multiplier (u32SaturatingSub attempt 1).toNat

def delayForCompletedAttempts (policy : BackoffPolicy) (completedCount : UInt32) : Duration :=
  policy.delayForAttempt (attemptFromCompletedCount completedCount)

def delayForCompletedAttemptsI32 (policy : BackoffPolicy) (completedCount : Int32) : Option Duration :=
  (attemptFromCompletedCountI32 completedCount).map policy.delayForAttempt

theorem new_eq_ok {initial max : Duration} {multiplier : UInt32} {policy : BackoffPolicy} :
    new initial max multiplier = .ok policy ↔
      policy.initial = initial ∧ policy.max = max ∧ policy.multiplier = multiplier := by
  constructor
  · intro h
    unfold new at h
    split at h
    · cases h
    · cases h
      exact ⟨rfl, rfl, rfl⟩
  · rintro ⟨rfl, rfl, rfl⟩
    rw [new, dif_neg (ne_true_of_eq_false policy.valid)]

/-- The attempt numbers zero and one have the same delay. -/
theorem delayForAttempt_nanos (policy : BackoffPolicy) (attempt : UInt32) :
    (policy.delayForAttempt attempt).nanos =
      min (policy.initial.nanos * policy.multiplier.toNat ^ (attempt.toNat - 1)) policy.max.nanos := by
  rw [delayForAttempt, nanos_delayAfter policy.valid, toNat_u32SaturatingSub]
  rfl

/-- At `u32::MAX` completed attempts the attempt number saturates, which loses a round of the loop but
not of the delay: the sequence is constant by then. -/
theorem delayForCompletedAttempts_eq (policy : BackoffPolicy) (completedCount : UInt32) :
    policy.delayForCompletedAttempts completedCount =
      delayAfter policy.initial policy.max policy.multiplier completedCount.toNat := by
  have hlt := completedCount.toNat_lt
  have hrounds : (u32SaturatingSub (attemptFromCompletedCount completedCount) 1).toNat =
      min completedCount.toNat (2 ^ 32 - 2) := by
    rw [toNat_u32SaturatingSub, attemptFromCompletedCount, toNat_u32SaturatingAdd]
    show min (completedCount.toNat + 1) (2 ^ 32 - 1) - 1 = _
    omega
  rw [delayForCompletedAttempts, delayForAttempt, hrounds]
  rcases Nat.lt_or_ge completedCount.toNat (2 ^ 32 - 1) with h | h
  · rw [Nat.min_eq_left (by omega)]
  · exact delayAfter_settled policy.valid (by omega) (by omega)

/-- A count from a signed database field gives the delay of the unsigned count. -/
theorem delayForCompletedAttemptsI32_eq (policy : BackoffPolicy) (completedCount : Int32) :
    policy.delayForCompletedAttemptsI32 completedCount =
      if completedCount < 0 then none else some (policy.delayForCompletedAttempts completedCount.toUInt32) := by
  unfold delayForCompletedAttemptsI32 attemptFromCompletedCountI32
  split
  · rfl
  · rfl

end BackoffPolicy

end WorldInfra.Delivery
