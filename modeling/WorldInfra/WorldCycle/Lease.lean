/-
The leases of world cycles: an owner and an expiry in Unix seconds, claimed or renewed by whoever finds
the lease free or its own. A worker that claims it keeps every other out until it expires.
-/
import WorldInfra.WorldCycle.Backoff
import WorldInfra.Rust.Token
import WorldInfra.Lib.Machine

namespace WorldInfra.WorldCycle

open WorldInfra.Lib WorldInfra.Rust

/-! ## Worker ids -/

def maxOwnerIdLen : Nat := 128

def isWorkerIdChar (ch : Char) : Bool :=
  ch.isAlphanum || ch == '-' || ch == '_' || ch == '.' || ch == ':' || ch == '/'

structure WorkerId where
  value : Str
  valid : Str.IsToken maxOwnerIdLen isWorkerIdChar value

def WorkerId.validate : Str → Except WorldCycleError Str :=
  Str.validateToken (.invalidCharacter "worker_id".toList) (.empty "worker_id".toList)
    (.tooLong "worker_id".toList · maxOwnerIdLen) maxOwnerIdLen isWorkerIdChar

def WorkerId.new (value : Str) : Except WorldCycleError WorkerId :=
  match h : WorkerId.validate value with
  | .ok value => .ok ⟨value, (Str.validateToken_eq_ok.1 h).2.2⟩
  | .error e => .error e

/-! ## Lease states -/

def leaseExpiryIsActive (leaseExpiresAt : Option Int64) (now : Int64) : Bool :=
  leaseExpiresAt.any fun lease => decide (lease > now)

structure LeaseState where
  ownerId : Option Str
  expiresAt : Option Int64
  deriving DecidableEq

namespace LeaseState

def isActive (self : LeaseState) (now : Int64) : Bool := self.ownerId.isSome && leaseExpiryIsActive self.expiresAt now

def isActiveFor (self : LeaseState) (ownerId : Str) (now : Int64) : Bool :=
  self.ownerId == some ownerId && leaseExpiryIsActive self.expiresAt now

def claimableBy (self : LeaseState) (ownerId : Str) (now : Int64) : Bool :=
  !self.isActive now || self.ownerId == some ownerId

theorem isActiveFor_iff {s : LeaseState} {ownerId : Str} {now : Int64} :
    s.isActiveFor ownerId now = true ↔ s.ownerId = some ownerId ∧ leaseExpiryIsActive s.expiresAt now = true := by
  simp [isActiveFor]

/-- The lease is active for one worker at most. -/
theorem isActiveFor_unique {s : LeaseState} {ownerId ownerId' : Str} {now : Int64}
    (h : s.isActiveFor ownerId now = true) (h' : s.isActiveFor ownerId' now = true) : ownerId = ownerId' := by
  rw [isActiveFor_iff] at h h'
  exact Option.some.inj (h.1.symm.trans h'.1)

theorem claimableBy_of_isActiveFor {s : LeaseState} {ownerId : Str} {now : Int64}
    (h : s.isActiveFor ownerId now = true) : s.claimableBy ownerId now = true := by
  rw [isActiveFor_iff] at h
  simp [claimableBy, h.1]

/-- Another worker may claim a held lease only once it has expired. -/
theorem expired_of_claimableBy {ownerId ownerId' : Str} {expiresAt now : Int64} (hne : ownerId' ≠ ownerId)
    (h : claimableBy ⟨some ownerId, some expiresAt⟩ ownerId' now = true) : expiresAt.toInt ≤ now.toInt := by
  have hne' : ownerId ≠ ownerId' := hne.symm
  simp [claimableBy, isActive, leaseExpiryIsActive, hne'] at h
  exact Int64.le_iff_toInt_le.1 h

end LeaseState

/-! ## Lease policies -/

/-- `i64::saturating_add`. -/
def i64SaturatingAdd (a b : Int64) : Int64 := Int64.ofIntClamp (a.toInt + b.toInt)

def durationToI64Seconds (duration : Duration) : Int64 :=
  let rounded := min (duration.asSecs + if duration.subsecNanos > 0 then 1 else 0) (2 ^ 64 - 1)
  if rounded < 2 ^ 63 then Int64.ofNat rounded else Int64.maxValue

def durationToPositiveI64Seconds (duration : Duration) : Int64 := max (durationToI64Seconds duration) 1

structure LeasePolicy where
  ownerId : WorkerId
  ttl : Duration

namespace LeasePolicy

def new (ownerId : WorkerId) (ttl : Duration) : Except WorldCycleError LeasePolicy :=
  if ttl.isZero then .error .invalidLeaseTtl else .ok ⟨ownerId, ttl⟩

def ttlSeconds (self : LeasePolicy) : Int64 := durationToPositiveI64Seconds self.ttl

def expiresAt (self : LeasePolicy) (now : Int64) : Int64 := i64SaturatingAdd now self.ttlSeconds

end LeasePolicy

theorem toInt_durationToI64Seconds (duration : Duration) :
    (durationToI64Seconds duration).toInt =
      min (((duration.nanos + (10 ^ 9 - 1)) / 10 ^ 9 : Nat) : Int) (2 ^ 63 - 1) := by
  have hlt := duration.lt
  have hceil : duration.asSecs + (if duration.subsecNanos > 0 then 1 else 0) =
      (duration.nanos + (10 ^ 9 - 1)) / 10 ^ 9 := by
    unfold Duration.asSecs Duration.subsecNanos
    split <;> omega
  unfold durationToI64Seconds
  rw [hceil]
  simp only
  split
  · rw [Int64.toInt_ofNat_of_lt (by omega)]
    omega
  · have hmax : Int64.maxValue.toInt = 2 ^ 63 - 1 := rfl
    rw [hmax]
    omega

theorem toInt_ttlSeconds (policy : LeasePolicy) : policy.ttlSeconds.toInt =
    min (max (((policy.ttl.nanos + (10 ^ 9 - 1)) / 10 ^ 9 : Nat) : Int) 1) (2 ^ 63 - 1) := by
  have hsecs := toInt_durationToI64Seconds policy.ttl
  have hone : (1 : Int64).toInt = 1 := rfl
  show (if durationToI64Seconds policy.ttl ≤ 1 then 1 else durationToI64Seconds policy.ttl).toInt = _
  split
  · next h =>
    rw [Int64.le_iff_toInt_le] at h
    omega
  · next h =>
    rw [Int64.le_iff_toInt_le] at h
    omega

theorem toInt_expiresAt (policy : LeasePolicy) {now : Int64}
    (h : now.toInt + policy.ttlSeconds.toInt ≤ Int64.maxValue.toInt) :
    (policy.expiresAt now).toInt = now.toInt + policy.ttlSeconds.toInt := by
  have hpos := toInt_ttlSeconds policy
  have hmin : Int64.minValue.toInt = -2 ^ 63 := rfl
  have hnow := Int64.le_toInt now
  exact Int64.toInt_ofIntClamp (by omega) h

/-! ## Claims -/

/-- A worker's attempt to claim or renew the lease, at the time it reads. -/
structure Attempt where
  policy : LeasePolicy
  now : Int64

def Attempt.ownerId (a : Attempt) : Str := a.policy.ownerId.value

/-- What a successful attempt stores. -/
def Attempt.expiresAt (a : Attempt) : Int64 := a.policy.expiresAt a.now

/-- The lease as a machine: whether an attempt may claim is decided on the state it replaces. -/
def lease : Machine LeaseState Attempt Bool where
  step s a := if s.claimableBy a.ownerId a.now then (true, ⟨some a.ownerId, some a.expiresAt⟩) else (false, s)

theorem lease_step_true {s : LeaseState} {a : Attempt} (h : (lease.step s a).1 = true) :
    s.claimableBy a.ownerId a.now = true ∧ (lease.step s a).2 = ⟨some a.ownerId, some a.expiresAt⟩ := by
  unfold lease at h ⊢
  simp only at h ⊢
  split at h
  · next hclaim => exact ⟨hclaim, by rw [if_pos hclaim]⟩
  · cases h

theorem lease_step_false {s : LeaseState} {a : Attempt} (h : (lease.step s a).1 = false) : (lease.step s a).2 = s := by
  unfold lease at h ⊢
  simp only at h ⊢
  split at h
  · cases h
  · next hclaim => rw [if_neg hclaim]

/-- From a lease held until `t`: another worker's success is not before `t`, unless the holder has renewed
the lease and the renewal expires earlier, and then not before that. -/
theorem held_until {w : Str} : ∀ {mid : List Attempt} {t : Int64} {f : Attempt},
    (∀ a ∈ mid, a.now.toInt ≤ f.now.toInt) →
    (lease.step (lease.exec ⟨some w, some t⟩ mid) f).1 = true → f.ownerId ≠ w →
    t.toInt ≤ f.now.toInt ∨ ∃ r ∈ lease.trace ⟨some w, some t⟩ mid, r.2 = true ∧ r.1.ownerId = w ∧
      r.1.expiresAt.toInt < t.toInt ∧ r.1.expiresAt.toInt ≤ f.now.toInt
  | [], t, f, _, hf, hne => Or.inl (LeaseState.expired_of_claimableBy hne (lease_step_true hf).1)
  | a :: mid, t, f, hle, hf, hne => by
    rw [Machine.exec_cons] at hf
    rw [Machine.trace_cons]
    have hle' : ∀ b ∈ mid, b.now.toInt ≤ f.now.toInt := fun b hb => hle b (List.mem_cons_of_mem _ hb)
    cases hans : (lease.step ⟨some w, some t⟩ a).1 with
    | false =>
      rw [lease_step_false hans] at hf ⊢
      obtain h | ⟨r, hr, hrest⟩ := held_until hle' hf hne
      · exact Or.inl h
      · exact Or.inr ⟨r, List.mem_cons_of_mem _ hr, hrest⟩
    | true =>
      obtain ⟨hclaim, hnext⟩ := lease_step_true hans
      by_cases hown : a.ownerId = w
      · -- a renewal: what holds from its expiry on holds from the earlier of the two
        rw [hnext, hown] at hf ⊢
        obtain h | ⟨r, hr, htrue, howner, hlt, hexp⟩ := held_until hle' hf hne
        · by_cases hearlier : a.expiresAt.toInt < t.toInt
          · exact Or.inr ⟨(a, true), List.mem_cons_self .., rfl, hown, hearlier, h⟩
          · exact Or.inl ((Int.not_lt.1 hearlier).trans h)
        · by_cases hearlier : r.1.expiresAt.toInt < t.toInt
          · exact Or.inr ⟨r, List.mem_cons_of_mem _ hr, htrue, howner, hearlier, hexp⟩
          · exact Or.inl ((Int.not_lt.1 hearlier).trans hexp)
      · exact Or.inl ((LeaseState.expired_of_claimableBy hown hclaim).trans (hle a (List.mem_cons_self ..)))

/-- Within the range of the counter, whole seconds never cut a time to live short. -/
theorem ttl_le_ttlSeconds (policy : LeasePolicy) (h : policy.ttl.nanos ≤ (2 ^ 63 - 1) * 10 ^ 9) :
    (policy.ttl.nanos : Int) ≤ policy.ttlSeconds.toInt * 10 ^ 9 := by
  rw [toInt_ttlSeconds]
  omega

/-- In every run of attempts at nondecreasing times whose expiries are representable: after a success of
one worker, no other succeeds before that success expires, or before a renewal of it with a shorter time
to live does. The interval is the time to live in whole seconds, rounded up and at least one; it is no
shorter than the time to live, unless that is longer than the counter of seconds. At every time the lease
is active for one worker at most, who may then renew it. -/
theorem lease_exclusive (start : LeaseState) (attempts : List Attempt)
    (hnow : attempts.Pairwise fun a b => a.now.toInt ≤ b.now.toInt)
    (hmax : ∀ a ∈ attempts, a.now.toInt + a.policy.ttlSeconds.toInt ≤ Int64.maxValue.toInt) :
    (∀ es₁ e mid f es₂, lease.trace start attempts = es₁ ++ e :: (mid ++ f :: es₂) → e.2 = true → f.2 = true →
      f.1.ownerId ≠ e.1.ownerId →
      e.1.now.toInt + e.1.policy.ttlSeconds.toInt ≤ f.1.now.toInt ∨
        ∃ r ∈ mid, r.2 = true ∧ r.1.ownerId = e.1.ownerId ∧
          r.1.policy.ttlSeconds.toInt < e.1.policy.ttlSeconds.toInt ∧
          r.1.now.toInt + r.1.policy.ttlSeconds.toInt ≤ f.1.now.toInt) ∧
    (∀ policy : LeasePolicy,
      policy.ttlSeconds.toInt = min (max (((policy.ttl.nanos + (10 ^ 9 - 1)) / 10 ^ 9 : Nat) : Int) 1) (2 ^ 63 - 1) ∧
      (policy.ttl.nanos ≤ (2 ^ 63 - 1) * 10 ^ 9 → (policy.ttl.nanos : Int) ≤ policy.ttlSeconds.toInt * 10 ^ 9)) ∧
    (∀ (s : LeaseState) (now : Int64) (w w' : Str), s.isActiveFor w now = true → s.isActiveFor w' now = true → w = w') ∧
    ∀ (s : LeaseState) (now : Int64) (w : Str), s.isActiveFor w now = true → s.claimableBy w now = true := by
  refine ⟨?_, fun policy => ⟨toInt_ttlSeconds policy, ttl_le_ttlSeconds policy⟩,
    fun s now w w' => LeaseState.isActiveFor_unique, fun s now w => LeaseState.claimableBy_of_isActiveFor⟩
  rintro es₁ ⟨e, _⟩ mid ⟨f, _⟩ es₂ htrace rfl rfl hne
  -- cut the run at the two successes
  obtain ⟨l₁, l₂, rfl, -, he, htrace₂⟩ := lease.trace_eq_append_cons htrace
  obtain ⟨m₁, m₂, rfl, hmid, hf, -⟩ := lease.trace_eq_append_cons htrace₂
  rw [(lease_step_true he).2] at hmid hf
  obtain ⟨-, hafter, -⟩ := List.pairwise_append.1 hnow
  rw [List.pairwise_cons] at hafter
  have hbefore : ∀ a ∈ m₁, a.now.toInt ≤ f.now.toInt := fun a ha =>
    (List.pairwise_append.1 hafter.2).2.2 a ha f (List.mem_cons_self ..)
  have hexp : ∀ a ∈ e :: m₁, a.expiresAt.toInt = a.now.toInt + a.policy.ttlSeconds.toInt := by
    intro a ha
    apply toInt_expiresAt a.policy
    apply hmax
    rcases List.mem_cons.1 ha with rfl | ha
    · simp
    · simp [ha]
  -- no expiry on the way saturates, so each is its time plus the seconds of its policy
  obtain h | ⟨r, hr, htrue, howner, hlt, hle⟩ := held_until hbefore hf hne
  · rw [hexp e (List.mem_cons_self ..)] at h
    exact Or.inl h
  · have hrm : r.1 ∈ m₁ := lease.mem_inputs hr
    have hnext : e.now.toInt ≤ r.1.now.toInt := hafter.1 r.1 (List.mem_append_left _ hrm)
    rw [hmid] at hr
    rw [hexp r.1 (List.mem_cons_of_mem _ hrm)] at hlt hle
    rw [hexp e (List.mem_cons_self ..)] at hlt
    exact Or.inr ⟨r, hr, htrue, howner, by simp only; omega, hle⟩

def workerA : WorkerId := ⟨"worker-a".toList, by simp, by decide, List.all_eq_true.1 rfl⟩

def workerB : WorkerId := ⟨"worker-b".toList, by simp, by decide, List.all_eq_true.1 rfl⟩

/-- A lease for a second and a half, taken by another worker two seconds later. -/
theorem lease_exclusive_two_workers :
    lease.outputs ⟨none, none⟩ [⟨⟨workerA, ⟨1500000000, by decide⟩⟩, 100⟩, ⟨⟨workerB, .fromSecs 9⟩, 101⟩,
      ⟨⟨workerB, .fromSecs 9⟩, 102⟩] = [true, false, true] ∧
    (100 : Int64).toInt + (LeasePolicy.mk workerA ⟨1500000000, by decide⟩).ttlSeconds.toInt ≤ (102 : Int64).toInt := by
  refine ⟨by decide, ?_⟩
  obtain ⟨hexclusive, -⟩ := lease_exclusive ⟨none, none⟩ [⟨⟨workerA, ⟨1500000000, by decide⟩⟩, 100⟩,
    ⟨⟨workerB, .fromSecs 9⟩, 101⟩, ⟨⟨workerB, .fromSecs 9⟩, 102⟩] (by decide) (by decide)
  obtain h | ⟨r, hr, htrue, -⟩ := hexclusive [] _ [_] _ [] rfl (by decide) (by decide) (by decide)
  · exact h
  · rw [List.mem_singleton.1 hr] at htrue
    exact absurd htrue (by decide)

/-- The longest duration does not fit the counter: a lease for it, claimed at the epoch, ends earlier. -/
theorem ttlSeconds_longest :
    (lease.step ⟨none, none⟩ ⟨⟨workerA, .max⟩, 0⟩).1 = true ∧
      (0 : Int64).toInt + (LeasePolicy.mk workerA .max).ttlSeconds.toInt ≤ Int64.maxValue.toInt ∧
      ¬((LeasePolicy.mk workerA .max).ttl.nanos : Int) ≤ (LeasePolicy.mk workerA .max).ttlSeconds.toInt * 10 ^ 9 := by
  decide

end WorldInfra.WorldCycle
