/-
rate-limit-core: the in-process fixed-window backend. A bucket holds one window and is replaced
when a check falls in another; what `check` does to a bucket is said once, in `Bucket.next` and
`check_fixed`, for everything proved about runs.
-/
import WorldInfra.Lib.Machine
import WorldInfra.Lib.Table
import WorldInfra.RateLimit.Basic

namespace WorldInfra.RateLimit

open WorldInfra.Lib WorldInfra.Rust

structure Bucket where
  windowStart : Nat
  windowEnd : Nat
  count : Nat
  deriving DecidableEq, Repr

/-- The backend: `HashMap<(String, String), Bucket>` behind its mutex. -/
structure InProcessFixedWindow where
  buckets : Table (Str × Str) Bucket

def InProcessFixedWindow.new : InProcessFixedWindow := ⟨∅⟩

def u32SaturatingAdd (a b : Nat) : Nat := min (a + b) u32Max

/-- A saturating count of `n` is `min n u32Max`. -/
theorem u32SaturatingAdd_min (n : Nat) : u32SaturatingAdd (min n u32Max) 1 = min (n + 1) u32Max := by
  unfold u32SaturatingAdd
  generalize u32Max = m
  omega

/-- `InProcessFixedWindow::check`, from taking the lock to releasing it. -/
def InProcessFixedWindow.check (self : InProcessFixedWindow) (ns : Namespace) (key : RateLimitKey)
    (limit : LimitSpec) (now : SystemTime) :
    Except RateLimitError RateLimitDecision × InProcessFixedWindow :=
  match limit with
  | .unlimited => (.ok .unlimited, self)
  | .fixed count window =>
    if window.isZero then (.error .zeroWindow, self)
    else
      let windowMillis := windowMillis window
      let nowMillis := unixMillis now
      let windowStart := nowMillis - nowMillis % windowMillis
      let windowEnd := u128SaturatingAdd windowStart windowMillis
      let bucket := (self.buckets.get (ns.value, key.value)).getD ⟨windowStart, windowEnd, 0⟩
      -- a check in any other window, earlier or later, starts the bucket anew
      let bucket := if bucket.windowStart ≠ windowStart then ⟨windowStart, windowEnd, 0⟩ else bucket
      let bucket := { bucket with count := u32SaturatingAdd bucket.count 1 }
      let allowed := decide (bucket.count ≤ count.val)
      let remaining := count.val - bucket.count
      let nextWindow := u128SaturatingAdd windowStart windowMillis
      (.ok { allowed := allowed
             remaining := remaining
             retryAfter := if allowed then none else some (durationFromMillis (max (nextWindow - nowMillis) 1))
             health := .healthy },
       ⟨self.buckets.insert (ns.value, key.value) bucket⟩)

/-! ## What one check does -/

/-- The checks a bucket has counted in the window that starts at `w`. -/
def countIn (w : Nat) : Option Bucket → Nat
  | none => 0
  | some b => if b.windowStart = w then b.count else 0

/-- The decision on a check at `now` that is the `n`-th of its window. -/
def decisionAt (count : NonZeroU32) (window : Duration) (now : SystemTime) (n : Nat) : RateLimitDecision where
  allowed := decide (n ≤ count.val)
  remaining := count.val - n
  retryAfter :=
    if n ≤ count.val then none
    else some (durationFromMillis
      (max (u128SaturatingAdd (windowStart window now) (windowMillis window) - unixMillis now) 1))
  health := .healthy

/-- A check on a fixed limit counts one more check in the bucket's window, which is the window of
the reading, decides by that count, and stores nothing else. -/
theorem check_fixed (s : InProcessFixedWindow) (ns : Namespace) (key : RateLimitKey) (count : NonZeroU32)
    (window : Duration) (now : SystemTime) (hw : window.isZero = false) :
    ∃ b : Bucket, b.windowStart = windowStart window now ∧
      b.count = u32SaturatingAdd (countIn (windowStart window now) (s.buckets.get (ns.value, key.value))) 1 ∧
      s.check ns key (.fixed count window) now =
        (.ok (decisionAt count window now b.count), ⟨s.buckets.insert (ns.value, key.value) b⟩) := by
  let e := u128SaturatingAdd (windowStart window now) (windowMillis window)
  simp only [InProcessFixedWindow.check, hw, Bool.false_eq_true, if_false]
  -- no bucket, a bucket of this window, or one of another window
  rcases s.buckets.get (ns.value, key.value) with _ | b
  · refine ⟨⟨windowStart window now, e, u32SaturatingAdd 0 1⟩, rfl, rfl, ?_⟩
    simp [decisionAt, windowStart, e]
  · by_cases h : b.windowStart = windowStart window now
    · refine ⟨⟨b.windowStart, b.windowEnd, u32SaturatingAdd b.count 1⟩, h, by simp [countIn, h], ?_⟩
      unfold windowStart at h
      simp [decisionAt, windowStart, h]
    · refine ⟨⟨windowStart window now, e, u32SaturatingAdd 0 1⟩, rfl, by simp [countIn, h], ?_⟩
      unfold windowStart at h
      simp [decisionAt, windowStart, h, e]

theorem check_zeroWindow (s : InProcessFixedWindow) (ns : Namespace) (key : RateLimitKey) (count : NonZeroU32)
    (window : Duration) (now : SystemTime) (hw : window.isZero = true) :
    s.check ns key (.fixed count window) now = (.error .zeroWindow, s) := by
  simp only [InProcessFixedWindow.check, hw, if_true]

/-! ## Runs -/

/-- A call of `check`, with the reading its caller supplies. -/
structure CheckCall where
  ns : Namespace
  key : RateLimitKey
  limit : LimitSpec
  now : SystemTime

/-- The backend as a machine; its inputs are the calls in the order they take the lock. -/
def inProcess : Machine InProcessFixedWindow CheckCall (Except RateLimitError RateLimitDecision) where
  step s c := s.check c.ns c.key c.limit c.now

end WorldInfra.RateLimit
