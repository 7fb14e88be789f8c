/-
rate-limit-core: limits, namespaces and keys, decisions and errors, and the millisecond arithmetic
of fixed windows. A namespace or key carries the fact that it is valid as it stands.
-/
import WorldInfra.Rust.Text
import WorldInfra.Rust.Time

namespace WorldInfra.RateLimit

open WorldInfra.Rust

/-! ## Limits and decisions -/

/-- `NonZeroU32`. -/
structure NonZeroU32 where
  val : Nat
  pos : 0 < val
  lt : val < 2 ^ 32
  deriving DecidableEq, Repr

inductive LimitSpec where
  | fixed (count : NonZeroU32) (window : Duration)
  | unlimited
  deriving DecidableEq, Repr

inductive RateLimitError where
  | invalidKey
  | zeroWindow
  | backend (error : Str)
  deriving DecidableEq, Repr

inductive RateLimitHealth where
  | healthy
  | degraded
  | unavailable
  deriving DecidableEq, Repr

structure RateLimitDecision where
  allowed : Bool
  remaining : Nat
  retryAfter : Option Duration
  health : RateLimitHealth
  deriving DecidableEq, Repr

def u32Max : Nat := 2 ^ 32 - 1

def RateLimitDecision.unlimited : RateLimitDecision :=
  { allowed := true, remaining := u32Max, retryAfter := none, health := .healthy }

/-! ## Namespaces and keys -/

def keyChar (c : Char) : Bool :=
  c.isAlphanum || c == '-' || c == '_' || c == '.' || c == ':' || c == '/'

def validateKeyPart (value : Str) : Except RateLimitError Str :=
  value.validateTrimmed .invalidKey fun value =>
    value.isEmpty || value.len > 256 || value.any fun c => !keyChar c

theorem keyChar_not_whitespace {c : Char} (h : keyChar c = true) : isWhitespace c = false := by
  simp only [keyChar, Bool.or_eq_true, beq_iff_eq] at h
  rcases h with ((((h | rfl) | rfl) | rfl) | rfl) | rfl
  · exact isWhitespace_of_isAlphanum h
  all_goals decide

/-- What validation returns is valid as it stands. -/
theorem validateKeyPart_ok {value v : Str} (h : validateKeyPart value = .ok v) :
    validateKeyPart v = .ok v := by
  refine Str.validateTrimmed_ok (fun v hv c hc => ?_) h
  simp only [Bool.or_eq_false_iff, List.any_eq_false] at hv
  exact keyChar_not_whitespace (by simpa using hv.2 c hc)

/-- `Namespace`: a validated text. -/
structure Namespace where
  value : Str
  valid : validateKeyPart value = .ok value

/-- `RateLimitKey`: a validated text. -/
structure RateLimitKey where
  value : Str
  valid : validateKeyPart value = .ok value

theorem Namespace.ext {a b : Namespace} (h : a.value = b.value) : a = b := by
  cases a; cases b; cases h; rfl

theorem RateLimitKey.ext {a b : RateLimitKey} (h : a.value = b.value) : a = b := by
  cases a; cases b; cases h; rfl

def Namespace.new (value : Str) : Except RateLimitError Namespace :=
  match h : validateKeyPart value with
  | .ok v => .ok ⟨v, validateKeyPart_ok h⟩
  | .error e => .error e

def RateLimitKey.new (value : Str) : Except RateLimitError RateLimitKey :=
  match h : validateKeyPart value with
  | .ok v => .ok ⟨v, validateKeyPart_ok h⟩
  | .error e => .error e

/-! ## Millisecond arithmetic -/

def u128SaturatingAdd (a b : Nat) : Nat := min (a + b) (2 ^ 128 - 1)

def unixMillis (now : SystemTime) : Nat := (now.sinceEpoch.getD (Duration.fromSecs 0)).asMillis

def durationMillisCeil (d : Duration) : Nat :=
  u128SaturatingAdd d.asMillis (if d.subsecNanos % 1000000 ≠ 0 then 1 else 0)

def windowMillis (window : Duration) : Nat := max (durationMillisCeil window) 1

def durationFromMillis (millis : Nat) : Duration :=
  Duration.fromMillis (if millis < 2 ^ 64 then UInt64.ofNat millis else UInt64.ofNat (2 ^ 64 - 1))

/-- The start of the aligned window a reading falls in. -/
def windowStart (window : Duration) (now : SystemTime) : Nat :=
  unixMillis now - unixMillis now % windowMillis window

theorem windowMillis_pos (window : Duration) : 0 < windowMillis window := by
  unfold windowMillis; omega

theorem windowStart_le (window : Duration) (now : SystemTime) : windowStart window now ≤ unixMillis now :=
  Nat.sub_le ..

theorem lt_windowStart_add (window : Duration) (now : SystemTime) :
    unixMillis now < windowStart window now + windowMillis window := by
  have := Nat.mod_lt (unixMillis now) (windowMillis_pos window)
  have := Nat.mod_le (unixMillis now) (windowMillis window)
  unfold windowStart; omega

theorem unixMillis_mono {s t : SystemTime} (h : s.nanos ≤ t.nanos) : unixMillis s ≤ unixMillis t := by
  unfold unixMillis SystemTime.sinceEpoch
  split
  · rename_i hs
    rw [dif_pos (by omega)]
    exact Nat.div_le_div_right (show s.nanos.toNat ≤ t.nanos.toNat by omega)
  · exact Nat.zero_le _

theorem windowStart_mono (window : Duration) {s t : SystemTime} (h : s.nanos ≤ t.nanos) :
    windowStart window s ≤ windowStart window t := by
  have hm := unixMillis_mono h
  have e (t : SystemTime) : windowStart window t = windowMillis window * (unixMillis t / windowMillis window) := by
    have := Nat.div_add_mod (unixMillis t) (windowMillis window)
    unfold windowStart; omega
  rw [e, e]
  exact Nat.mul_le_mul_left _ (Nat.div_le_div_right hm)

end WorldInfra.RateLimit
