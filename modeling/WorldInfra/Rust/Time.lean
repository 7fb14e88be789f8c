/-
Times of the standard library, in nanoseconds: `Duration`, `SystemTime`, and `Instant` on a clock
with a largest representable reading, with the halving saturating addition the crates share.
-/
import Mathlib

namespace WorldInfra.Rust

/-- `Duration`: whole seconds in 64 bits and nanoseconds below a second. -/
@[ext] structure Duration where
  nanos : Nat
  lt : nanos < 2 ^ 64 * 10 ^ 9
  deriving DecidableEq, Repr

namespace Duration

def fromSecs (n : UInt64) : Duration := ⟨n.toNat * 10 ^ 9, by have := n.toNat_lt; omega⟩

def fromMillis (n : UInt64) : Duration := ⟨n.toNat * 10 ^ 6, by have := n.toNat_lt; omega⟩

def isZero (d : Duration) : Bool := d.nanos == 0

def asSecs (d : Duration) : Nat := d.nanos / 10 ^ 9

def subsecNanos (d : Duration) : Nat := d.nanos % 10 ^ 9

def asMillis (d : Duration) : Nat := d.nanos / 10 ^ 6

/-- `duration / 2`. -/
def half (d : Duration) : Duration := ⟨d.nanos / 2, by have := d.lt; omega⟩

/-- `Ord` compares the seconds and then the nanoseconds below a second. -/
instance : LinearOrder Duration := .lift' nanos fun _ _ => Duration.ext

theorem le_def {a b : Duration} : a ≤ b ↔ a.nanos ≤ b.nanos := Iff.rfl

theorem monotone_nanos : Monotone nanos := fun _ _ h => h

@[simp] theorem nanos_min (a b : Duration) : (min a b).nanos = min a.nanos b.nanos := monotone_nanos.map_min

/-- `Duration::MAX`. -/
protected def max : Duration := ⟨2 ^ 64 * 10 ^ 9 - 1, by decide⟩

/-- `checked_mul`. -/
def checkedMul (d : Duration) (rhs : UInt32) : Option Duration :=
  if h : d.nanos * rhs.toNat < 2 ^ 64 * 10 ^ 9 then some ⟨d.nanos * rhs.toNat, h⟩ else none

/-- `saturating_mul`. -/
def saturatingMul (d : Duration) (rhs : UInt32) : Duration :=
  match d.checkedMul rhs with
  | some res => res
  | none => .max

theorem nanos_saturatingMul (d : Duration) (rhs : UInt32) :
    (d.saturatingMul rhs).nanos = min (d.nanos * rhs.toNat) (2 ^ 64 * 10 ^ 9 - 1) := by
  unfold saturatingMul checkedMul
  by_cases h : d.nanos * rhs.toNat < 2 ^ 64 * 10 ^ 9
  · rw [dif_pos h]
    exact (min_eq_left (Nat.le_sub_one_of_lt h)).symm
  · rw [dif_neg h]
    exact (min_eq_right ((Nat.sub_le _ _).trans (not_lt.1 h))).symm

end Duration

/-- `SystemTime`: nanoseconds since the Unix epoch, whole seconds in a signed 64-bit count. -/
@[ext] structure SystemTime where
  nanos : Int
  ge : -(2 ^ 63 * 10 ^ 9) ≤ nanos
  lt : nanos < 2 ^ 63 * 10 ^ 9
  deriving DecidableEq, Repr

/-- `duration_since(UNIX_EPOCH)`; an earlier time is an error. -/
def SystemTime.sinceEpoch (t : SystemTime) : Option Duration :=
  if h : 0 ≤ t.nanos then some ⟨t.nanos.toNat, by have := t.lt; omega⟩ else none

/-- A system time from milliseconds after the epoch. -/
def SystemTime.ofMillis (n : Nat) (h : n < 2 ^ 63 * 1000 := by decide) : SystemTime :=
  ⟨n * 10 ^ 6, by omega, by omega⟩

/-- A monotonic clock, by its largest reading. -/
structure Clock where
  max : Nat

/-- `Instant`: a reading of the clock. -/
abbrev Clock.Instant (c : Clock) : Type := { t : Nat // t ≤ c.max }

/-- The clock whose seconds are a signed 64-bit count. -/
def Clock.i64Secs : Clock := ⟨2 ^ 63 * 10 ^ 9⟩

/-- The reading at a number of nanoseconds, or the last. -/
def readingAt (nanos : Nat) : Clock.i64Secs.Instant := ⟨min nanos Clock.i64Secs.max, Nat.min_le_right ..⟩

section Saturating

variable {c : Clock}

/-- `Instant::checked_add`. -/
def checkedAdd (now : c.Instant) (d : Duration) : Option c.Instant :=
  if h : now.1 + d.nanos ≤ c.max then some ⟨now.1 + d.nanos, h⟩ else none

/-- The loop of the saturating addition: halve the duration until the sum is representable. -/
def halvingAdd (now : c.Instant) : Nat → Duration → c.Instant
  | 0, _ => now
  | fuel + 1, d =>
    match checkedAdd now d with
    | some t => t
    | none => if d.half.isZero then now else halvingAdd now fuel d.half

/-- `instant_saturating_add`; a duration of `n` nanoseconds is halved at most `n` times. -/
def saturatingAdd (now : c.Instant) (d : Duration) : c.Instant := halvingAdd now (d.nanos + 1) d

theorem halvingAdd_fuel (now : c.Instant) : ∀ (f g : Nat) (d : Duration), d.nanos < f → d.nanos < g →
    halvingAdd now f d = halvingAdd now g d
  | 0, _, d, hf, _ => absurd hf (Nat.not_lt_zero _)
  | _, 0, d, _, hg => absurd hg (Nat.not_lt_zero _)
  | f + 1, g + 1, d, hf, hg => by
    simp only [halvingAdd]
    split
    · rfl
    · split
      · rfl
      · rename_i h
        have h0 : d.half.nanos ≠ 0 := by simpa [Duration.isZero] using h
        have hd : d.half.nanos = d.nanos / 2 := rfl
        exact halvingAdd_fuel now f g d.half (by omega) (by omega)

/-- The loop as the source has it: the fuel never runs out. -/
theorem saturatingAdd_eq (now : c.Instant) (d : Duration) :
    saturatingAdd now d = match checkedAdd now d with
      | some t => t
      | none => if d.half.isZero then now else saturatingAdd now d.half := by
  unfold saturatingAdd
  rw [halvingAdd]
  split
  · rfl
  · split
    · rfl
    · rename_i h
      have h0 : d.half.nanos ≠ 0 := by simpa [Duration.isZero] using h
      have hd : d.half.nanos = d.nanos / 2 := rfl
      exact halvingAdd_fuel now _ _ d.half (by omega) (by omega)

/-- A representable sum is the result. -/
theorem saturatingAdd_of_le {now : c.Instant} {d : Duration} (h : now.1 + d.nanos ≤ c.max) :
    saturatingAdd now d = ⟨now.1 + d.nanos, h⟩ := by
  rw [saturatingAdd_eq, checkedAdd, dif_pos h]

end Saturating

/-! ## Times to live -/

def ttlDuration (ttl : Duration) : Duration := if ttl.isZero then .fromSecs 1 else ttl

def ttlSecsCeil (ttl : Duration) : Nat :=
  let ttl := ttlDuration ttl
  max (min (ttl.asSecs + (if ttl.subsecNanos ≠ 0 then 1 else 0)) (2 ^ 64 - 1)) 1

theorem ttlSecsCeil_pos (ttl : Duration) : 1 ≤ ttlSecsCeil ttl := Nat.le_max_right ..

theorem ttlSecsCeil_lt (ttl : Duration) : ttlSecsCeil ttl < 2 ^ 64 := by
  simp only [ttlSecsCeil]
  omega

/-- A time to live in whole seconds, rounded up, and at least one. -/
def roundTtl (ttl : Duration) : Duration := .fromSecs (.ofNat (ttlSecsCeil ttl))

theorem roundTtl_nanos (ttl : Duration) : (roundTtl ttl).nanos = ttlSecsCeil ttl * 10 ^ 9 := by
  show (UInt64.ofNat (ttlSecsCeil ttl)).toNat * 10 ^ 9 = _
  rw [UInt64.toNat_ofNat_of_lt' (ttlSecsCeil_lt ttl)]

theorem ttlDuration_roundTtl (ttl : Duration) : ttlDuration (roundTtl ttl) = roundTtl ttl := by
  have hpos := ttlSecsCeil_pos ttl
  have hz : (roundTtl ttl).isZero = false := by
    rw [Duration.isZero, roundTtl_nanos, beq_eq_false_iff_ne]
    omega
  rw [ttlDuration, hz]
  rfl

end WorldInfra.Rust
