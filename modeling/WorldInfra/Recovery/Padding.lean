/-
auth-recovery-core: padded response times. A response takes the time drawn for it or the time of the work,
whichever is longer, so that two responses can be told apart only when the work of one outlasts its target.
-/
import WorldInfra.Recovery.Token
import WorldInfra.Rust.Time

namespace WorldInfra.Recovery

open WorldInfra.Rust

/-! ## Durations -/

/-- `Duration::saturating_add`. -/
def saturatingAdd (d e : Duration) : Duration :=
  if h : d.nanos + e.nanos < 2 ^ 64 * 10 ^ 9 then ⟨d.nanos + e.nanos, h⟩ else .max

/-- `Duration::saturating_sub`. -/
def saturatingSub (d e : Duration) : Duration := ⟨d.nanos - e.nanos, by have := d.lt; omega⟩

theorem nanos_saturatingAdd (d e : Duration) :
    (saturatingAdd d e).nanos = min (d.nanos + e.nanos) (2 ^ 64 * 10 ^ 9 - 1) := by
  unfold saturatingAdd
  split
  · rename_i h
    exact (min_eq_left (Nat.le_sub_one_of_lt h)).symm
  · rename_i h
    exact (min_eq_right ((Nat.sub_le _ _).trans (not_lt.1 h))).symm

/-! ## Policies -/

/-- `ResponsePaddingPolicy`, with the ends of the jitter range. -/
structure ResponsePaddingPolicy where
  base : Duration
  jitterStart : UInt64
  jitterEnd : UInt64
  ordered : jitterStart ≤ jitterEnd

namespace ResponsePaddingPolicy

def new (base : Duration) (jitterStart jitterEnd : UInt64) : Except AuthRecoveryError ResponsePaddingPolicy :=
  if h : jitterStart > jitterEnd then .error .invalidPaddingPolicy
  else .ok ⟨base, jitterStart, jitterEnd, UInt64.not_lt.1 h⟩

def fromMillisBounds (minMs maxMs : UInt64) : Except AuthRecoveryError ResponsePaddingPolicy :=
  if maxMs < minMs then .error .invalidPaddingPolicy
  else new (.fromMillis minMs) 0 (maxMs - minMs)

/-- What `gen_range` of the jitter can draw. -/
def Draws (self : ResponsePaddingPolicy) (jitterMs : UInt64) : Prop :=
  self.jitterStart ≤ jitterMs ∧ jitterMs ≤ self.jitterEnd

/-- `target_duration`, with the jitter that is drawn. -/
def targetDuration (self : ResponsePaddingPolicy) (jitterMs : UInt64) : Duration :=
  saturatingAdd self.base (.fromMillis jitterMs)

end ResponsePaddingPolicy

def remainingDelay (target elapsed : Duration) : Duration := saturatingSub target elapsed

/-- The nanoseconds until a response whose work took `elapsed`, after the delay that remained. -/
def responseTime (target elapsed : Duration) : Nat := elapsed.nanos + (remainingDelay target elapsed).nanos

theorem responseTime_eq (target elapsed : Duration) : responseTime target elapsed = max elapsed.nanos target.nanos := by
  show elapsed.nanos + (target.nanos - elapsed.nanos) = _
  omega

/-- Two responses of one target take the same time exactly if the work did, or if it ended in time in both. -/
theorem responseTime_eq_iff {target elapsed other : Duration} :
    responseTime target elapsed = responseTime target other ↔ elapsed = other ∨ elapsed ≤ target ∧ other ≤ target := by
  rw [responseTime_eq, responseTime_eq, Duration.ext_iff, Duration.le_def, Duration.le_def]
  omega

namespace ResponsePaddingPolicy

theorem fromMillisBounds_eq_ok {minMs maxMs : UInt64} {policy : ResponsePaddingPolicy} :
    fromMillisBounds minMs maxMs = .ok policy ↔
      minMs ≤ maxMs ∧ policy.base = .fromMillis minMs ∧ policy.jitterStart = 0 ∧ policy.jitterEnd = maxMs - minMs := by
  unfold fromMillisBounds new
  split
  · rename_i h
    constructor
    · rintro ⟨⟩
    · rintro ⟨hle, -⟩
      exact absurd h (UInt64.not_lt.2 hle)
  · rename_i h
    rw [dif_neg (UInt64.not_lt.2 (UInt64.zero_le))]
    obtain ⟨base, jitterStart, jitterEnd, ordered⟩ := policy
    simp only [Except.ok.injEq, mk.injEq]
    constructor
    · rintro ⟨rfl, rfl, rfl⟩
      exact ⟨UInt64.not_lt.1 h, rfl, rfl, rfl⟩
    · rintro ⟨-, rfl, rfl, rfl⟩
      exact ⟨rfl, rfl, rfl⟩

/-- The target of a draw, in milliseconds. -/
theorem targetDuration_millis {minMs maxMs : UInt64} {policy : ResponsePaddingPolicy}
    (h : fromMillisBounds minMs maxMs = .ok policy) {jitterMs ms : UInt64}
    (hms : ms.toNat = minMs.toNat + jitterMs.toNat) :
    policy.targetDuration jitterMs = .fromMillis ms := by
  obtain ⟨-, hbase, -, -⟩ := fromMillisBounds_eq_ok.1 h
  have hlt := ms.toNat_lt
  ext
  show (saturatingAdd policy.base (.fromMillis jitterMs)).nanos = ms.toNat * 10 ^ 6
  rw [nanos_saturatingAdd, hbase]
  show min (minMs.toNat * 10 ^ 6 + jitterMs.toNat * 10 ^ 6) _ = _
  omega

theorem draws_iff {minMs maxMs : UInt64} {policy : ResponsePaddingPolicy}
    (h : fromMillisBounds minMs maxMs = .ok policy) {jitterMs : UInt64} :
    policy.Draws jitterMs ↔ minMs.toNat + jitterMs.toNat ≤ maxMs.toNat := by
  obtain ⟨hle, -, hstart, hend⟩ := fromMillisBounds_eq_ok.1 h
  rw [Draws, hstart, hend, UInt64.le_iff_toNat_le, UInt64.le_iff_toNat_le, UInt64.toNat_sub_of_le _ _ hle]
  rw [UInt64.le_iff_toNat_le] at hle
  have hzero : (0 : UInt64).toNat = 0 := rfl
  omega

/-- The target is a whole number of milliseconds between the bounds, and each of them can be drawn. -/
theorem targets_of_millisBounds {minMs maxMs : UInt64} {policy : ResponsePaddingPolicy}
    (h : fromMillisBounds minMs maxMs = .ok policy) (target : Duration) :
    (∃ jitterMs, policy.Draws jitterMs ∧ policy.targetDuration jitterMs = target) ↔
      ∃ ms, minMs ≤ ms ∧ ms ≤ maxMs ∧ target = .fromMillis ms := by
  have hmax := maxMs.toNat_lt
  constructor
  · rintro ⟨jitterMs, hdraw, rfl⟩
    rw [draws_iff h] at hdraw
    have hsum : (UInt64.ofNat (minMs.toNat + jitterMs.toNat)).toNat = minMs.toNat + jitterMs.toNat :=
      UInt64.toNat_ofNat_of_lt (show _ < 2 ^ 64 by omega)
    refine ⟨_, ?_, ?_, targetDuration_millis h hsum⟩
    · rw [UInt64.le_iff_toNat_le, hsum]
      omega
    · rw [UInt64.le_iff_toNat_le, hsum]
      exact hdraw
  · rintro ⟨ms, hmin, hmax', rfl⟩
    have hjitter : (ms - minMs).toNat = ms.toNat - minMs.toNat := UInt64.toNat_sub_of_le _ _ hmin
    rw [UInt64.le_iff_toNat_le] at hmin hmax'
    refine ⟨ms - minMs, (draws_iff h).2 (by omega), targetDuration_millis h (by omega)⟩

end ResponsePaddingPolicy

/-- Bounds are refused exactly if they are inverted. Every millisecond between them can be drawn for a
response and nothing else; a response then takes no less, and no longer than its work needs; and whatever is
drawn, two responses differ in time only if the work of one went beyond what was drawn. -/
theorem padded_responses (minMs maxMs : UInt64) :
    (ResponsePaddingPolicy.fromMillisBounds minMs maxMs = .error .invalidPaddingPolicy ↔ maxMs < minMs) ∧
    ∀ policy, ResponsePaddingPolicy.fromMillisBounds minMs maxMs = .ok policy →
      (∀ target, (∃ jitterMs, policy.Draws jitterMs ∧ policy.targetDuration jitterMs = target) ↔
        ∃ ms, minMs ≤ ms ∧ ms ≤ maxMs ∧ target = .fromMillis ms) ∧
      ∀ jitterMs elapsed other, policy.Draws jitterMs →
        responseTime (policy.targetDuration jitterMs) elapsed =
          max elapsed.nanos ((minMs.toNat + jitterMs.toNat) * 10 ^ 6) ∧
        (responseTime (policy.targetDuration jitterMs) elapsed = responseTime (policy.targetDuration jitterMs) other ↔
          elapsed = other ∨ elapsed ≤ policy.targetDuration jitterMs ∧ other ≤ policy.targetDuration jitterMs) := by
  refine ⟨?_, fun policy h => ⟨ResponsePaddingPolicy.targets_of_millisBounds h, fun jitterMs elapsed other hdraw => ?_⟩⟩
  · unfold ResponsePaddingPolicy.fromMillisBounds
    split
    · rename_i hlt
      exact ⟨fun _ => hlt, fun _ => rfl⟩
    · rename_i hge
      rw [ResponsePaddingPolicy.new, dif_neg (UInt64.not_lt.2 UInt64.zero_le)]
      exact ⟨nofun, fun hlt => absurd hlt hge⟩
  · have hmax := maxMs.toNat_lt
    have hsum : (UInt64.ofNat (minMs.toNat + jitterMs.toNat)).toNat = minMs.toNat + jitterMs.toNat := by
      have hdraw' := (ResponsePaddingPolicy.draws_iff h).1 hdraw
      exact UInt64.toNat_ofNat_of_lt (show _ < 2 ^ 64 by omega)
    refine ⟨?_, responseTime_eq_iff⟩
    rw [responseTime_eq, ResponsePaddingPolicy.targetDuration_millis h hsum]
    show max elapsed.nanos (_ * 10 ^ 6) = _
    rw [hsum]

end WorldInfra.Recovery
