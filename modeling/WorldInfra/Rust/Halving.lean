/-
The halving addition of a duration to a time: the sum if it is representable, else the sum with half the
duration, and so on down to the time itself. The loop returns within 95 rounds, and its result is the
sum with the first of the halves that is representable.
-/
import WorldInfra.Rust.Time

namespace WorldInfra.Rust

/-- The duration halved `k` times, rounding down each time. -/
def Duration.halved (d : Duration) (k : Nat) : Duration :=
  ⟨d.nanos / 2 ^ k, lt_of_le_of_lt (Nat.div_le_self _ _) d.lt⟩

namespace Duration

@[simp] theorem nanos_halved (d : Duration) (k : Nat) : (d.halved k).nanos = d.nanos / 2 ^ k := rfl

@[simp] theorem halved_zero (d : Duration) : d.halved 0 = d := Duration.ext (by simp)

theorem halved_succ (d : Duration) (k : Nat) : d.halved (k + 1) = d.half.halved k := by
  apply Duration.ext
  show d.nanos / 2 ^ (k + 1) = d.nanos / 2 / 2 ^ k
  rw [Nat.div_div_eq_div_mul, pow_succ, Nat.mul_comm]

/-- A duration below 2^94 nanoseconds is gone after 94 halvings, and every duration is that short. -/
theorem halved_94 (d : Duration) : (d.halved 94).nanos = 0 := by
  rw [nanos_halved, Nat.div_eq_of_lt]
  exact lt_of_lt_of_le d.lt (by norm_num)

end Duration

section Loop

variable {T : Type} (checkedAdd : Duration → Option T) (now : T)

/-- The loop, for a number of rounds; `none` if it has not returned by then. -/
def halvingLoop : Nat → Duration → Option T
  | 0, _ => none
  | rounds + 1, duration =>
    match checkedAdd duration with
    | some next => some next
    | none => if duration.half.isZero then some now else halvingLoop rounds duration.half

variable {checkedAdd now}

theorem halvingLoop_of_some {d : Duration} {t : T} (h : checkedAdd d = some t) (rounds : Nat) :
    halvingLoop checkedAdd now (rounds + 1) d = some t := by
  rw [halvingLoop, h]

theorem halvingLoop_of_none {d : Duration} (h : checkedAdd d = none) (rounds : Nat) :
    halvingLoop checkedAdd now (rounds + 1) d =
      if d.half.isZero then some now else halvingLoop checkedAdd now rounds d.half := by
  rw [halvingLoop, h]

/-- The loop stops at the first half whose sum is representable. -/
theorem halvingLoop_first (hzero : ∀ d : Duration, d.nanos = 0 → checkedAdd d = some now) :
    ∀ {k : Nat} {d : Duration} {t : T}, (∀ j < k, checkedAdd (d.halved j) = none) → checkedAdd (d.halved k) = some t →
      ∀ {rounds : Nat}, k < rounds → halvingLoop checkedAdd now rounds d = some t
  | k, d, t, _, _, 0, hlt => absurd hlt (Nat.not_lt_zero k)
  | 0, d, t, _, hsome, rounds + 1, _ => by
    rw [Duration.halved_zero] at hsome
    exact halvingLoop_of_some hsome rounds
  | k + 1, d, t, hnone, hsome, rounds + 1, hlt => by
    have hd : checkedAdd d = none := by
      have h := hnone 0 (Nat.succ_pos k)
      rwa [Duration.halved_zero] at h
    rw [halvingLoop_of_none hd]
    rw [Duration.halved_succ] at hsome
    split
    · next hhalf =>
      -- half of the duration is nothing, and so are all the halves after it
      have hgone : (d.half.halved k).nanos = 0 := by
        rw [Duration.nanos_halved, beq_iff_eq.1 hhalf, Nat.zero_div]
      rw [hzero _ hgone] at hsome
      exact hsome
    · refine halvingLoop_first hzero (fun j hj => ?_) hsome (Nat.lt_of_succ_lt_succ hlt)
      rw [← Duration.halved_succ]
      exact hnone (j + 1) (Nat.succ_lt_succ hj)

/-- There is such a half, at the latest when nothing is left of the duration. -/
theorem exists_first_half (hzero : ∀ d : Duration, d.nanos = 0 → checkedAdd d = some now) (d : Duration) :
    ∃ k t, k ≤ 94 ∧ (∀ j < k, checkedAdd (d.halved j) = none) ∧ checkedAdd (d.halved k) = some t := by
  have hlast : ∃ k, (checkedAdd (d.halved k)).isSome := ⟨94, by rw [hzero _ d.halved_94]; rfl⟩
  obtain ⟨t, ht⟩ := Option.isSome_iff_exists.1 (Nat.find_spec hlast)
  refine ⟨Nat.find hlast, t, ?_, ?_, ht⟩
  · apply Nat.find_min'
    rw [hzero _ d.halved_94]
    rfl
  · intro j hj
    exact Option.not_isSome_iff_eq_none.1 (Nat.find_min hlast hj)

/-- The loop returns within 95 rounds. -/
theorem halvingLoop_isSome (hzero : ∀ d : Duration, d.nanos = 0 → checkedAdd d = some now) (d : Duration) :
    (halvingLoop checkedAdd now 95 d).isSome := by
  obtain ⟨k, t, hk, hnone, hsome⟩ := exists_first_half hzero d
  rw [halvingLoop_first hzero hnone hsome (Nat.lt_succ_of_le hk)]
  rfl

/-- What the loop returns. -/
def halvingSum (hzero : ∀ d : Duration, d.nanos = 0 → checkedAdd d = some now) (d : Duration) : T :=
  (halvingLoop checkedAdd now 95 d).get (halvingLoop_isSome hzero d)

theorem halvingSum_first (hzero : ∀ d : Duration, d.nanos = 0 → checkedAdd d = some now) (d : Duration) :
    ∃ k, (∀ j < k, checkedAdd (d.halved j) = none) ∧ checkedAdd (d.halved k) = some (halvingSum hzero d) ∧
      ∀ rounds, 95 ≤ rounds → halvingLoop checkedAdd now rounds d = some (halvingSum hzero d) := by
  obtain ⟨k, t, hk, hnone, hsome⟩ := exists_first_half hzero d
  have hrun : ∀ rounds, 95 ≤ rounds → halvingLoop checkedAdd now rounds d = some t := fun rounds hrounds =>
    halvingLoop_first hzero hnone hsome (by omega)
  have hsum : halvingSum hzero d = t := Option.get_of_eq_some _ (hrun 95 (le_refl 95))
  rw [hsum]
  exact ⟨k, hnone, hsome, hrun⟩

/-- Loops over times that correspond return corresponding times. -/
theorem halvingLoop_map {U : Type} (f : T → U) {checkedAdd' : Duration → Option U}
    (hadd : ∀ d, checkedAdd' d = (checkedAdd d).map f) : ∀ (rounds : Nat) (d : Duration),
    halvingLoop checkedAdd' (f now) rounds d = (halvingLoop checkedAdd now rounds d).map f
  | 0, _ => rfl
  | rounds + 1, d => by
    cases h : checkedAdd d with
    | some t => rw [halvingLoop_of_some h, halvingLoop_of_some (by rw [hadd, h]; rfl), Option.map_some]
    | none =>
      rw [halvingLoop_of_none h, halvingLoop_of_none (by rw [hadd, h]; rfl)]
      split
      · rfl
      · exact halvingLoop_map f hadd rounds d.half

end Loop

/-! ## Readings of a bounded clock -/

section Instants

variable {c : Clock} {now : c.Instant}

theorem checkedAdd_eq_some {d : Duration} {t : c.Instant} : checkedAdd now d = some t ↔ t.1 = now.1 + d.nanos := by
  unfold checkedAdd
  split
  · rw [Option.some.injEq, Subtype.ext_iff, eq_comm]
  · next h =>
    have ht := t.2
    constructor
    · rintro ⟨⟩
    · intro heq
      omega

theorem checkedAdd_eq_none {d : Duration} : checkedAdd now d = none ↔ c.max < now.1 + d.nanos := by
  unfold checkedAdd
  split
  · next h => exact ⟨nofun, fun hlt => absurd h (Nat.not_le_of_lt hlt)⟩
  · next h => exact ⟨fun _ => Nat.lt_of_not_le h, fun _ => rfl⟩

theorem checkedAdd_zero (now : c.Instant) (d : Duration) (hd : d.nanos = 0) : checkedAdd now d = some now := by
  rw [checkedAdd_eq_some, hd, Nat.add_zero]

/-- The stores' addition is what the loop returns. -/
theorem halvingSum_eq_saturatingAdd (now : c.Instant) (d : Duration) :
    halvingSum (checkedAdd_zero now) d = saturatingAdd now d := by
  have hloop : ∀ (rounds : Nat) (d : Duration) (t : c.Instant),
      halvingLoop (checkedAdd now) now rounds d = some t → saturatingAdd now d = t := by
    intro rounds
    induction rounds with
    | zero => rintro d t ⟨⟩
    | succ rounds ih =>
      intro d t h
      rw [saturatingAdd_eq]
      rw [halvingLoop] at h
      cases hadd : checkedAdd now d with
      | some next =>
        rw [hadd] at h
        exact Option.some.inj h
      | none =>
        rw [hadd] at h
        simp only at h ⊢
        split
        · next hhalf =>
          rw [if_pos hhalf] at h
          exact Option.some.inj h
        · next hhalf =>
          rw [if_neg hhalf] at h
          exact ih d.half t h
  -- 95 rounds are enough for every duration
  obtain ⟨-, -, -, hrun⟩ := halvingSum_first (checkedAdd_zero now) d
  exact (hloop 95 d _ (hrun 95 (le_refl 95))).symm

/-- The sum with the first half of the duration that the clock can represent. -/
theorem saturatingAdd_first (now : c.Instant) (d : Duration) :
    ∃ k, (∀ j < k, c.max < now.1 + d.nanos / 2 ^ j) ∧ (saturatingAdd now d).1 = now.1 + d.nanos / 2 ^ k := by
  obtain ⟨k, hnone, hsome, -⟩ := halvingSum_first (checkedAdd_zero now) d
  rw [halvingSum_eq_saturatingAdd, checkedAdd_eq_some] at hsome
  exact ⟨k, fun j hj => checkedAdd_eq_none.1 (hnone j hj), hsome⟩

theorem le_saturatingAdd (now : c.Instant) (d : Duration) : now ≤ saturatingAdd now d := by
  obtain ⟨k, -, hsum⟩ := saturatingAdd_first now d
  show now.1 ≤ (saturatingAdd now d).1
  rw [hsum]
  exact Nat.le_add_right _ _

/-- What is written with a positive duration has not expired, as long as the clock can go on. -/
theorem lt_saturatingAdd (hnow : now.1 + 1 ≤ c.max) {d : Duration} (hd : 0 < d.nanos) :
    now < saturatingAdd now d := by
  obtain ⟨k, hfirst, hsum⟩ := saturatingAdd_first now d
  show now.1 < (saturatingAdd now d).1
  cases k with
  | zero =>
    rw [hsum, pow_zero, Nat.div_one]
    omega
  | succ k =>
    -- the half before the last is too long by itself, so its half is not nothing
    have hlong := hfirst k (Nat.lt_succ_self k)
    have hhalf : d.nanos / 2 ^ (k + 1) = d.nanos / 2 ^ k / 2 := by
      rw [pow_succ, Nat.div_div_eq_div_mul]
    omega

end Instants

theorem ttlDuration_pos (ttl : Duration) : 0 < (ttlDuration ttl).nanos := by
  unfold ttlDuration
  split
  · decide
  · next h => exact Nat.pos_of_ne_zero fun hzero => h (beq_iff_eq.2 hzero)

/-! ## System times -/

/-- `SystemTime::checked_add`. -/
def SystemTime.checkedAdd (time : SystemTime) (d : Duration) : Option SystemTime :=
  if h : time.nanos + d.nanos < 2 ^ 63 * 10 ^ 9 then some ⟨time.nanos + d.nanos, by have := time.ge; omega, h⟩ else none

theorem SystemTime.checkedAdd_zero (time : SystemTime) (d : Duration) (hd : d.nanos = 0) :
    time.checkedAdd d = some time := by
  have hlt := time.lt
  rw [SystemTime.checkedAdd, dif_pos (by rw [hd]; omega), Option.some.injEq]
  apply SystemTime.ext
  show time.nanos + (d.nanos : Int) = time.nanos
  omega

/-- The clock of system times, from the earliest on. -/
def Clock.systemTime : Clock := ⟨2 ^ 64 * 10 ^ 9 - 1⟩

/-- How far a system time is from the earliest. -/
def SystemTime.reading (time : SystemTime) : Clock.systemTime.Instant :=
  ⟨(time.nanos + 2 ^ 63 * 10 ^ 9).toNat, by
    have hlt := time.lt
    show (time.nanos + 2 ^ 63 * 10 ^ 9).toNat ≤ 2 ^ 64 * 10 ^ 9 - 1
    omega⟩

theorem SystemTime.reading_val (time : SystemTime) : (time.reading.1 : Int) = time.nanos + 2 ^ 63 * 10 ^ 9 := by
  have hge := time.ge
  show (((time.nanos + 2 ^ 63 * 10 ^ 9).toNat : Nat) : Int) = _
  omega

theorem SystemTime.checkedAdd_reading (time : SystemTime) (d : Duration) :
    Rust.checkedAdd time.reading d = (time.checkedAdd d).map SystemTime.reading := by
  have hval := time.reading_val
  have hmax : Clock.systemTime.max = 2 ^ 64 * 10 ^ 9 - 1 := rfl
  unfold SystemTime.checkedAdd
  split
  · next h =>
    rw [Option.map_some, checkedAdd_eq_some]
    have hsum := SystemTime.reading_val ⟨time.nanos + d.nanos, by have := time.ge; omega, h⟩
    simp only at hsum
    omega
  · next h =>
    rw [Option.map_none, checkedAdd_eq_none]
    omega

end WorldInfra.Rust
