/-
The retry backoff of world cycles, over zero-based attempt indices, and its agreement with the delivery
backoff over completed-attempt counts: one capped geometric sequence.
-/
import WorldInfra.Delivery.Backoff

namespace WorldInfra.WorldCycle

open WorldInfra.Rust WorldInfra.Delivery

inductive WorldCycleError where
  | empty (field : Str)
  | tooLong (field : Str) (len max : Nat)
  | invalidCharacter (field : Str) (ch : Char)
  | invalidLeaseTtl
  | invalidBackoff
  | unknownStatus (status : Str)
  deriving DecidableEq, Repr

structure RetryBackoffPolicy where
  initial : Duration
  max : Duration
  multiplier : UInt32
  valid : invalidBackoff initial max multiplier = false

namespace RetryBackoffPolicy

def new (initial max : Duration) (multiplier : UInt32) : Except WorldCycleError RetryBackoffPolicy :=
  if h : invalidBackoff initial max multiplier = true then .error .invalidBackoff
  else .ok ⟨initial, max, multiplier, accepted_of_not h⟩

def delayForAttemptIndex (policy : RetryBackoffPolicy) (attemptIndex : UInt64) : Duration :=
  delayAfter policy.initial policy.max policy.multiplier attemptIndex.toNat

theorem new_eq_ok {initial max : Duration} {multiplier : UInt32} {policy : RetryBackoffPolicy} :
    new initial max multiplier = .ok policy ↔
      policy.initial = initial ∧ policy.max = max ∧ policy.multiplier = multiplier := by
  constructor
  · intro h
    unfold new at h
    split at h
    · cases h
    · cases h
      exact ⟨rfl, rfl, rfl⟩
  · rintro ⟨rfl, rfl, rfl⟩
    rw [new, dif_neg (ne_true_of_eq_false policy.valid)]

end RetryBackoffPolicy

/-- The two crates accept the same configurations. -/
theorem new_isOk_iff (initial max : Duration) (multiplier : UInt32) :
    (∃ p, BackoffPolicy.new initial max multiplier = .ok p) ↔
      ∃ q, RetryBackoffPolicy.new initial max multiplier = .ok q := by
  constructor
  · rintro ⟨p, hp⟩
    obtain ⟨rfl, rfl, rfl⟩ := BackoffPolicy.new_eq_ok.1 hp
    exact ⟨⟨p.initial, p.max, p.multiplier, p.valid⟩, RetryBackoffPolicy.new_eq_ok.2 ⟨rfl, rfl, rfl⟩⟩
  · rintro ⟨q, hq⟩
    obtain ⟨rfl, rfl, rfl⟩ := RetryBackoffPolicy.new_eq_ok.1 hq
    exact ⟨⟨q.initial, q.max, q.multiplier, q.valid⟩, BackoffPolicy.new_eq_ok.2 ⟨rfl, rfl, rfl⟩⟩

/-- Both backoffs are the capped geometric sequence: the delay after `n` completed attempts, and the delay
for attempt index `n`, is `min max (initial * multiplier ^ n)` in exact arithmetic, for every count of
either width. So they agree, never decrease, stay between the initial delay and the largest, and the
break of the loop never changes the result. -/
theorem backoff_capped_geometric (initial max : Duration) (multiplier : UInt32) (p : BackoffPolicy)
    (q : RetryBackoffPolicy) (hp : BackoffPolicy.new initial max multiplier = .ok p)
    (hq : RetryBackoffPolicy.new initial max multiplier = .ok q) :
    (∀ n : UInt32, (p.delayForCompletedAttempts n).nanos =
      min max.nanos (initial.nanos * multiplier.toNat ^ n.toNat)) ∧
    (∀ n : UInt64, (q.delayForAttemptIndex n).nanos =
      min max.nanos (initial.nanos * multiplier.toNat ^ n.toNat)) ∧
    (∀ n : UInt32, p.delayForCompletedAttempts n = q.delayForAttemptIndex n.toUInt64) ∧
    (∀ a b, a ≤ b → p.delayForCompletedAttempts a ≤ p.delayForCompletedAttempts b) ∧
    (∀ a b, a ≤ b → q.delayForAttemptIndex a ≤ q.delayForAttemptIndex b) ∧
    (∀ n, initial ≤ p.delayForCompletedAttempts n ∧ p.delayForCompletedAttempts n ≤ max) ∧
    (∀ n, initial ≤ q.delayForAttemptIndex n ∧ q.delayForAttemptIndex n ≤ max) ∧
    (∀ attempt, p.delayForAttempt attempt =
      (nextDelay max multiplier)^[(u32SaturatingSub attempt 1).toNat] initial) ∧
    ∀ n, q.delayForAttemptIndex n = (nextDelay max multiplier)^[n.toNat] initial := by
  obtain ⟨rfl, rfl, rfl⟩ := BackoffPolicy.new_eq_ok.1 hp
  obtain ⟨hi, hm, hf⟩ := RetryBackoffPolicy.new_eq_ok.1 hq
  have hvalid := p.valid
  have hindex : ∀ n : UInt64, q.delayForAttemptIndex n = delayAfter p.initial p.max p.multiplier n.toNat := by
    intro n
    rw [RetryBackoffPolicy.delayForAttemptIndex, hi, hm, hf]
  -- both counts are the number of completed attempts, so all of it is about `delayAfter`
  refine ⟨?_, ?_, ?_, ?_, ?_, ?_, ?_, ?_, ?_⟩
  · intro n
    rw [p.delayForCompletedAttempts_eq, nanos_delayAfter hvalid, min_comm]
  · intro n
    rw [hindex, nanos_delayAfter hvalid, min_comm]
  · intro n
    rw [p.delayForCompletedAttempts_eq, hindex, UInt32.toNat_toUInt64]
  · intro a b hab
    rw [p.delayForCompletedAttempts_eq, p.delayForCompletedAttempts_eq]
    exact delayAfter_mono hvalid (UInt32.le_iff_toNat_le.1 hab)
  · intro a b hab
    rw [hindex, hindex]
    exact delayAfter_mono hvalid (UInt64.le_iff_toNat_le.1 hab)
  · intro n
    rw [p.delayForCompletedAttempts_eq]
    exact ⟨le_delayAfter hvalid _, delayAfter_le hvalid _⟩
  · intro n
    rw [hindex]
    exact ⟨le_delayAfter hvalid _, delayAfter_le hvalid _⟩
  · intro attempt
    exact delayAfter_eq_iterate _
  · intro n
    rw [hindex, delayAfter_eq_iterate]

/-- One second, doubled up to a minute: the sixth delay is the cap. -/
theorem backoff_capped_geometric_minute :
    ∃ p q, BackoffPolicy.new (.fromSecs 1) (.fromSecs 60) 2 = .ok p ∧
      RetryBackoffPolicy.new (.fromSecs 1) (.fromSecs 60) 2 = .ok q ∧
      (p.delayForCompletedAttempts 5).nanos = 32 * 10 ^ 9 ∧ (q.delayForAttemptIndex 6).nanos = 60 * 10 ^ 9 ∧
      p.delayForCompletedAttempts 0xFFFFFFFF = q.delayForAttemptIndex 0xFFFFFFFF := by
  have hvalid : invalidBackoff (.fromSecs 1) (.fromSecs 60) 2 = false := by decide
  let p : BackoffPolicy := ⟨.fromSecs 1, .fromSecs 60, 2, hvalid⟩
  let q : RetryBackoffPolicy := ⟨.fromSecs 1, .fromSecs 60, 2, hvalid⟩
  have hp : BackoffPolicy.new (.fromSecs 1) (.fromSecs 60) 2 = .ok p := BackoffPolicy.new_eq_ok.2 ⟨rfl, rfl, rfl⟩
  have hq : RetryBackoffPolicy.new (.fromSecs 1) (.fromSecs 60) 2 = .ok q :=
    RetryBackoffPolicy.new_eq_ok.2 ⟨rfl, rfl, rfl⟩
  obtain ⟨hexact, hindex, hagree, -⟩ := backoff_capped_geometric _ _ _ p q hp hq
  refine ⟨p, q, hp, hq, ?_, ?_, hagree _⟩
  · rw [hexact]
    decide
  · rw [hindex]
    decide

end WorldInfra.WorldCycle
