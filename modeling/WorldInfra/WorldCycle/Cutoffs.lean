/-
Cutoffs of world cycles: the time up to which work counts as stale, and the oldest cycle whose records are kept. The
stale cutoff for a time to live mirrors the leases: after any run of claims the lease is active exactly if its last
claim lies after the cutoff, the ends of the counter apart.
-/
import WorldInfra.Lib.Chain
import WorldInfra.RateLimit.Basic
import WorldInfra.WorldCycle.Lease

namespace WorldInfra.WorldCycle

open WorldInfra.Lib WorldInfra.Rust

/-- `i64::saturating_sub`. -/
def i64SaturatingSub (a b : Int64) : Int64 := Int64.ofIntClamp (a.toInt - b.toInt)

def staleCutoffUnixSeconds (now : Int64) (grace : Duration) : Int64 := i64SaturatingSub now (durationToI64Seconds grace)

def retentionCutoffCycle (completedCycle : Int64) (keepCycles : RateLimit.NonZeroU32) : Int64 :=
  i64SaturatingSub completedCycle (i64SaturatingSub (Int64.ofNat keepCycles.val) 1)

/-! ## Values -/

theorem toInt_ofIntClamp_eq (x : Int) : (Int64.ofIntClamp x).toInt = max (-2 ^ 63) (min x (2 ^ 63 - 1)) := by
  have hmin : Int64.minValue.toInt = -2 ^ 63 := rfl
  have hmax : Int64.maxValue.toInt = 2 ^ 63 - 1 := rfl
  unfold Int64.ofIntClamp
  split
  · split
    · rw [Int64.toInt_ofIntLE]
      omega
    · omega
  · omega

theorem toInt_i64SaturatingSub (a : Int64) {b : Int64} (h : 0 ≤ b.toInt) :
    (i64SaturatingSub a b).toInt = max (-2 ^ 63) (a.toInt - b.toInt) := by
  have hlt := Int64.toInt_lt a
  rw [i64SaturatingSub, toInt_ofIntClamp_eq]
  omega

theorem toInt_i64SaturatingAdd (a : Int64) {b : Int64} (h : 0 ≤ b.toInt) :
    (i64SaturatingAdd a b).toInt = min (a.toInt + b.toInt) (2 ^ 63 - 1) := by
  have hle := Int64.le_toInt a
  rw [i64SaturatingAdd, toInt_ofIntClamp_eq]
  omega

theorem toInt_durationToI64Seconds_nonneg (duration : Duration) : 0 ≤ (durationToI64Seconds duration).toInt := by
  rw [toInt_durationToI64Seconds]
  omega

/-- A time to live that is not zero is rounded the same for the cutoff as for the lease. -/
theorem durationToI64Seconds_eq_ttlSeconds {policy : LeasePolicy} (h : policy.ttl.isZero = false) :
    (durationToI64Seconds policy.ttl).toInt = policy.ttlSeconds.toInt := by
  have hpos : policy.ttl.nanos ≠ 0 := by simpa [Duration.isZero] using h
  rw [toInt_durationToI64Seconds, toInt_ttlSeconds]
  omega

theorem toInt_retentionCutoffCycle (completedCycle : Int64) (keepCycles : RateLimit.NonZeroU32) :
    (retentionCutoffCycle completedCycle keepCycles).toInt =
      max (-2 ^ 63) (completedCycle.toInt - (keepCycles.val - 1)) := by
  have hpos := keepCycles.pos
  have hlt := keepCycles.lt
  have hone : (1 : Int64).toInt = 1 := rfl
  have hkeep : (Int64.ofNat keepCycles.val).toInt = keepCycles.val := Int64.toInt_ofNat_of_lt (by omega)
  have hrounds : (i64SaturatingSub (Int64.ofNat keepCycles.val) 1).toInt = keepCycles.val - 1 := by
    rw [toInt_i64SaturatingSub _ (by rw [hone]; omega), hkeep, hone]
    omega
  rw [retentionCutoffCycle, toInt_i64SaturatingSub _ (by omega), hrounds]

/-- The cycles kept are the last ones up to the completed one, as many as asked for; the cutoff saturates only where
there are no more. -/
theorem retention_window (completedCycle cycle : Int64) (keepCycles : RateLimit.NonZeroU32) :
    retentionCutoffCycle completedCycle keepCycles ≤ cycle ↔
      completedCycle.toInt - keepCycles.val < cycle.toInt := by
  have hle := Int64.le_toInt cycle
  rw [Int64.le_iff_toInt_le, toInt_retentionCutoffCycle]
  omega

/-! ## Stale leases -/

/-- The last attempt that claimed or renewed the lease. -/
def lastClaim (start : LeaseState) (attempts : List Attempt) : Option Attempt :=
  lastWritten (fun e => if e.2 then some e.1 else none) (lease.trace start attempts)

/-- What a claim leaves. -/
def Attempt.claimed (a : Attempt) : LeaseState := ⟨some a.ownerId, some a.expiresAt⟩

theorem lease_exec (start : LeaseState) (attempts : List Attempt) :
    lease.exec start attempts = ((lastClaim start attempts).map Attempt.claimed).getD start := by
  induction attempts generalizing start with
  | nil => rfl
  | cons a attempts ih =>
    rw [Machine.exec_cons, ih, lastClaim, lastClaim, Machine.trace_cons, lastWritten_cons]
    cases lastWritten _ (lease.trace (lease.step start a).2 attempts) with
    | some b => rfl
    | none =>
      cases hans : (lease.step start a).1 with
      | true => exact (lease_step_true hans).2
      | false => exact lease_step_false hans

theorem mem_of_lastClaim {start : LeaseState} {attempts : List Attempt} {a : Attempt}
    (h : lastClaim start attempts = some a) : a ∈ attempts := by
  have hmem := List.mem_of_getLast? h
  obtain ⟨e, he, hclaim⟩ := List.mem_filterMap.1 hmem
  split at hclaim
  · cases hclaim
    exact lease.mem_inputs he
  · cases hclaim

theorem leaseExpiryIsActive_some {expiresAt now : Int64} :
    leaseExpiryIsActive (some expiresAt) now = true ↔ now.toInt < expiresAt.toInt := by
  rw [leaseExpiryIsActive, Option.any_some, decide_eq_true_iff, gt_iff_lt, Int64.lt_iff_toInt_lt]

/-- Adding the time to live on one side and taking it off on the other decide alike, except where one of them
saturates. -/
theorem active_iff_after_cutoff {policy : LeasePolicy} (h : policy.ttl.isZero = false) (taken now : Int64) :
    now.toInt < (policy.expiresAt taken).toInt ∧ Int64.minValue < taken ↔
      staleCutoffUnixSeconds now policy.ttl < taken ∧ now < Int64.maxValue := by
  have hsecs := durationToI64Seconds_eq_ttlSeconds h
  have hnonneg := toInt_durationToI64Seconds_nonneg policy.ttl
  have hmin : Int64.minValue.toInt = -2 ^ 63 := rfl
  have hmax : Int64.maxValue.toInt = 2 ^ 63 - 1 := rfl
  rw [Int64.lt_iff_toInt_lt, Int64.lt_iff_toInt_lt, Int64.lt_iff_toInt_lt, staleCutoffUnixSeconds,
    toInt_i64SaturatingSub _ hnonneg, LeasePolicy.expiresAt, toInt_i64SaturatingAdd _ (by omega), hsecs, hmin, hmax]
  omega

/-- After any run of claims with policies that `new` accepts, a worker is kept out exactly if the last claim is
another's and lies after the stale cutoff for its time to live. At the end of the counter every lease has expired,
and a claim made at its beginning never lies after the cutoff. -/
theorem stale_cutoff_mirrors_leases (attempts : List Attempt)
    (hnew : ∀ a ∈ attempts, LeasePolicy.new a.policy.ownerId a.policy.ttl = .ok a.policy) (worker : Str) (now : Int64) :
    (lastClaim ⟨none, none⟩ attempts = none →
      (lease.exec ⟨none, none⟩ attempts).claimableBy worker now = true) ∧
    ∀ a, lastClaim ⟨none, none⟩ attempts = some a →
      ((lease.exec ⟨none, none⟩ attempts).claimableBy worker now = false ∧ Int64.minValue < a.now ↔
        a.ownerId ≠ worker ∧ staleCutoffUnixSeconds now a.policy.ttl < a.now ∧ now < Int64.maxValue) := by
  constructor
  · intro hlast
    rw [lease_exec, hlast]
    rfl
  · intro a hlast
    -- a policy that was let through leases for some time
    have httl : a.policy.ttl.isZero = false := by
      have hok := hnew a (mem_of_lastClaim hlast)
      unfold LeasePolicy.new at hok
      split at hok
      · cases hok
      · next hzero => exact Bool.eq_false_iff.2 hzero
    have hkept : a.claimed.claimableBy worker now = false ↔
        a.ownerId ≠ worker ∧ now.toInt < (a.policy.expiresAt a.now).toInt := by
      rw [← Attempt.expiresAt, ← leaseExpiryIsActive_some]
      simp only [LeaseState.claimableBy, LeaseState.isActive, Attempt.claimed, Option.isSome_some, Bool.true_and,
        Bool.or_eq_false_iff, Bool.not_eq_false', beq_eq_false_iff_ne, ne_eq, Option.some.injEq]
      exact and_comm
    rw [lease_exec, hlast, Option.map_some, Option.getD_some, hkept, and_assoc, active_iff_after_cutoff httl]

/-- A worker that claims for ten seconds is past the cutoff ten seconds later. -/
theorem stale_cutoff_mirrors_leases_ten_seconds :
    staleCutoffUnixSeconds 109 (.fromSecs 10) < 100 ∧ ¬ staleCutoffUnixSeconds 110 (.fromSecs 10) < 100 ∧
      (lease.exec ⟨none, none⟩ [⟨⟨workerA, .fromSecs 10⟩, 100⟩]).claimableBy "worker-b".toList 109 = false := by
  have hcutoff : staleCutoffUnixSeconds 109 (.fromSecs 10) < 100 := by decide
  refine ⟨hcutoff, by decide, ?_⟩
  have hnew : ∀ a ∈ [Attempt.mk ⟨workerA, .fromSecs 10⟩ 100],
      LeasePolicy.new a.policy.ownerId a.policy.ttl = .ok a.policy := by
    intro a ha
    rw [List.mem_singleton.1 ha]
    rfl
  obtain ⟨-, hlast⟩ := stale_cutoff_mirrors_leases [⟨⟨workerA, .fromSecs 10⟩, 100⟩] hnew "worker-b".toList 109
  exact ((hlast ⟨⟨workerA, .fromSecs 10⟩, 100⟩ rfl).2 ⟨by decide, hcutoff, by decide⟩).1

end WorldInfra.WorldCycle
