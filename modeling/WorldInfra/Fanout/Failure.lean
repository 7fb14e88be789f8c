/-
event-fanout: failure details. A message too long to keep is cut at the last character that starts within
the limit, which is where its longest prefix within the limit ends; the cut never panics.
-/
import WorldInfra.Rust.Truncate

namespace WorldInfra.Fanout

open WorldInfra.Rust

def maxFailureMessageLen : Nat := 1024

inductive FanoutFailureKind where
  | clearFailure
  | ambiguousAfterAttempt
  deriving DecidableEq, Repr

def FanoutFailureKind.requiresBoundaryAmbiguity : FanoutFailureKind → Bool
  | .ambiguousAfterAttempt => true
  | .clearFailure => false

structure FanoutFailure where
  kind : FanoutFailureKind
  message : Str
  deriving DecidableEq

namespace FanoutFailure

/-- Where `new` cuts a message: the start of the last character that starts within the limit. -/
def truncateAt (message : Str) : Nat :=
  (((message.charIndices 0).map Prod.fst).takeWhile (· ≤ maxFailureMessageLen)).getLast?.getD 0

/-- `none` if `String::truncate` panics. -/
def new (kind : FanoutFailureKind) (message : Str) : Option FanoutFailure := do
  let message ← if message.len > maxFailureMessageLen then message.truncate (truncateAt message) else some message
  some ⟨kind, message⟩

def clear (message : Str) : Option FanoutFailure := new .clearFailure message

def ambiguousAfterAttempt (message : Str) : Option FanoutFailure := new .ambiguousAfterAttempt message

def requiresBoundaryAmbiguity (self : FanoutFailure) : Bool := self.kind.requiresBoundaryAmbiguity

/-- A failure is built for every message, never by a cut off a character boundary. It keeps the kind, and
the message if that has no more than 1024 bytes; else the longest prefix of whole characters that has. -/
theorem new_longestPrefix (kind : FanoutFailureKind) (message : Str) :
    ∃ failure, new kind message = some failure ∧ failure.kind = kind ∧
      (message.len ≤ maxFailureMessageLen → failure.message = message) ∧
      failure.message <+: message ∧ failure.message.len ≤ maxFailureMessageLen ∧
      ∀ q : Str, q <+: message → q.len ≤ maxFailureMessageLen → q <+: failure.message := by
  by_cases hlong : message.len > maxFailureMessageLen
  · obtain ⟨last, p, hlast, -, htrunc, hprefix, hlen, hlongest⟩ :=
      Str.truncate_last_start (Nat.zero_le maxFailureMessageLen) (by rwa [Nat.zero_add] : _ < 0 + message.len)
    have hat : truncateAt message = last := by
      rw [truncateAt, hlast, Option.getD_some]
    refine ⟨⟨kind, p⟩, ?_, rfl, fun hle => absurd hle (Nat.not_le.2 hlong), hprefix, hlen, hlongest⟩
    rw [new, if_pos hlong, hat]
    rw [Nat.sub_zero] at htrunc
    rw [htrunc]
    rfl
  · have hself := Str.LongestPrefix.self (Nat.not_lt.1 hlong)
    exact ⟨⟨kind, message⟩, by rw [new, if_neg hlong]; rfl, rfl, fun _ => rfl, hself.isPrefix, hself.len_le,
      hself.longest⟩

end FanoutFailure

end WorldInfra.Fanout
