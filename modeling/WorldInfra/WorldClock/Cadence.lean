/-
world-clock-core: cadences, and the halving addition that this crate shares with the refresh and the
idempotency stores. The three copies of the loop always return, never go back, and go on past the time
they are given unless it is the last; so nothing is due or has expired when it is written.
-/
import WorldInfra.Rust.Halving

namespace WorldInfra

open WorldInfra.Rust

/-! ## The three copies -/

/-- `instant_saturating_add` of auth-refresh-core. -/
def Refresh.instantSaturatingAdd {c : Clock} (now : c.Instant) (duration : Duration) : c.Instant :=
  halvingSum (checkedAdd_zero now) duration

/-- `instant_saturating_add` of idempotency-runtime-core. -/
def Idempotency.instantSaturatingAdd {c : Clock} (now : c.Instant) (duration : Duration) : c.Instant :=
  halvingSum (checkedAdd_zero now) duration

namespace WorldClock

def systemTimeSaturatingAdd (time : SystemTime) (duration : Duration) : SystemTime :=
  halvingSum time.checkedAdd_zero duration

/-- On system times the loop does what it does on the readings of their clock. -/
theorem reading_systemTimeSaturatingAdd (time : SystemTime) (d : Duration) :
    (systemTimeSaturatingAdd time d).reading = halvingSum (checkedAdd_zero time.reading) d := by
  obtain ⟨-, -, -, hrun⟩ := halvingSum_first time.checkedAdd_zero d
  obtain ⟨-, -, -, hrun'⟩ := halvingSum_first (checkedAdd_zero time.reading) d
  have hmap := @halvingLoop_map _ _ time _ SystemTime.reading _ time.checkedAdd_reading 95 d
  rw [hrun 95 (le_refl 95), hrun' 95 (le_refl 95), Option.map_some, Option.some.injEq] at hmap
  exact hmap.symm

/-! ## Cadences -/

inductive ClockError where
  | zeroCadence
  deriving DecidableEq, Repr

structure Cadence where
  duration : Duration
  nonZero : duration.isZero = false

namespace Cadence

def new (duration : Duration) : Except ClockError Cadence :=
  if h : duration.isZero = true then .error .zeroCadence else .ok ⟨duration, eq_false_of_ne_true h⟩

def nextDueAfter (self : Cadence) (lastDue : SystemTime) : SystemTime := systemTimeSaturatingAdd lastDue self.duration

def isDue (self : Cadence) (lastDue now : SystemTime) : Bool :=
  decide ((self.nextDueAfter lastDue).nanos ≤ now.nanos)

theorem duration_pos (self : Cadence) : 0 < self.duration.nanos :=
  Nat.pos_of_ne_zero (beq_eq_false_iff_ne.1 self.nonZero)

/-- A cadence that has just run is not due. -/
theorem isDue_self (self : Cadence) {lastDue : SystemTime} (h : lastDue.nanos + 1 < 2 ^ 63 * 10 ^ 9) :
    self.isDue lastDue lastDue = false := by
  have hval := lastDue.reading_val
  have hmax : Clock.systemTime.max = 2 ^ 64 * 10 ^ 9 - 1 := rfl
  have hlt : lastDue.reading < saturatingAdd lastDue.reading self.duration :=
    lt_saturatingAdd (by omega) self.duration_pos
  rw [← halvingSum_eq_saturatingAdd, ← reading_systemTimeSaturatingAdd] at hlt
  have hnext := (systemTimeSaturatingAdd lastDue self.duration).reading_val
  have hval' : lastDue.reading.1 < (systemTimeSaturatingAdd lastDue self.duration).reading.1 := hlt
  rw [isDue, decide_eq_false_iff_not, nextDueAfter]
  omega

end Cadence

/-- On every bounded clock the loop returns within 95 rounds. Its result lies between the time it is given
and the largest reading: the sum if that can be represented, else the sum with the first of the
duration's halves, quarters and so on that can; and it is a later time, if there is one and the duration
is not zero. So nothing has expired when it is written. The three copies compute the same function. -/
theorem halvingAdd_total :
    (∀ (c : Clock) (now : c.Instant) (d : Duration),
      (∀ rounds, 95 ≤ rounds →
        halvingLoop (checkedAdd now) now rounds d = some (Refresh.instantSaturatingAdd now d)) ∧
      now ≤ Refresh.instantSaturatingAdd now d ∧ (Refresh.instantSaturatingAdd now d).1 ≤ c.max ∧
      (now.1 + d.nanos ≤ c.max → (Refresh.instantSaturatingAdd now d).1 = now.1 + d.nanos) ∧
      (c.max < now.1 + d.nanos → ∃ k, (∀ j < k, c.max < now.1 + d.nanos / 2 ^ j) ∧
        now.1 + d.nanos / 2 ^ k ≤ c.max ∧ (Refresh.instantSaturatingAdd now d).1 = now.1 + d.nanos / 2 ^ k) ∧
      (0 < d.nanos → now.1 + 1 ≤ c.max → now < Refresh.instantSaturatingAdd now d) ∧
      (now.1 + 1 ≤ c.max → now < saturatingAdd now (ttlDuration d)) ∧
      Idempotency.instantSaturatingAdd now d = Refresh.instantSaturatingAdd now d ∧
      saturatingAdd now d = Refresh.instantSaturatingAdd now d) ∧
    (∀ (time : SystemTime) (d : Duration),
      (∀ rounds, 95 ≤ rounds →
        halvingLoop time.checkedAdd time rounds d = some (systemTimeSaturatingAdd time d)) ∧
      (systemTimeSaturatingAdd time d).reading = Refresh.instantSaturatingAdd time.reading d) ∧
    ∀ (cadence : Cadence) (lastDue : SystemTime), lastDue.nanos + 1 < 2 ^ 63 * 10 ^ 9 →
      cadence.isDue lastDue lastDue = false := by
  refine ⟨fun c now d => ?_, fun time d => ?_, fun cadence lastDue h => cadence.isDue_self h⟩
  -- the loop of every copy is the one sum, of which the rest is known
  · obtain ⟨-, -, -, hrun⟩ := halvingSum_first (checkedAdd_zero now) d
    have heq : Refresh.instantSaturatingAdd now d = saturatingAdd now d := halvingSum_eq_saturatingAdd now d
    refine ⟨hrun, ?_, (Refresh.instantSaturatingAdd now d).2, ?_, ?_, ?_, ?_, rfl, heq.symm⟩
    · rw [heq]
      exact le_saturatingAdd now d
    · intro hle
      rw [heq, saturatingAdd_of_le hle]
    · intro _
      obtain ⟨k, hfirst, hsum⟩ := saturatingAdd_first now d
      refine ⟨k, hfirst, ?_, heq ▸ hsum⟩
      rw [← hsum]
      exact (saturatingAdd now d).2
    · intro hd hnow
      rw [heq]
      exact lt_saturatingAdd hnow hd
    · intro hnow
      exact lt_saturatingAdd hnow (ttlDuration_pos d)
  · obtain ⟨-, -, -, hrun⟩ := halvingSum_first time.checkedAdd_zero d
    exact ⟨hrun, reading_systemTimeSaturatingAdd time d⟩

/-- Ten nanoseconds on a clock that ends four after the reading: halved twice. -/
theorem halvingAdd_total_near_end :
    (5 : Nat) < (Refresh.instantSaturatingAdd (c := ⟨9⟩) ⟨5, by decide⟩ ⟨10, by decide⟩).1 ∧
      (Refresh.instantSaturatingAdd (c := ⟨9⟩) ⟨5, by decide⟩ ⟨10, by decide⟩).1 = 7 := by
  obtain ⟨-, -, -, -, -, hlater, -⟩ := halvingAdd_total.1 ⟨9⟩ ⟨5, by decide⟩ ⟨10, by decide⟩
  exact ⟨hlater (by decide) (by decide), by rfl⟩

end WorldClock

end WorldInfra
