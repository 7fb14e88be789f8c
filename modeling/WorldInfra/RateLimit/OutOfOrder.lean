/-
rate-limit-core: what the in-process backend allows when readings reach the lock in any order. A
check in another window replaces the bucket, so the checks counted before it are forgotten; the
windows kept within the count are told exactly.
-/
import WorldInfra.Lib.Streak
import WorldInfra.RateLimit.InProcess

namespace WorldInfra.RateLimit

open WorldInfra.Lib WorldInfra.Rust

/-! ## Runs on one key -/

/-- Checks of one key under one fixed limit, by the readings they carry. -/
def fixedCalls (ns : Namespace) (key : RateLimitKey) (count : NonZeroU32) (window : Duration)
    (readings : List SystemTime) : List CheckCall :=
  readings.map fun now => ⟨ns, key, .fixed count window, now⟩

def allows : Except RateLimitError RateLimitDecision → Bool
  | .ok d => d.allowed
  | .error _ => false

/-- The checks allowed among those whose reading falls in the window that starts at `w`. -/
def allowedIn (window : Duration) (w : Nat)
    (events : List (CheckCall × Except RateLimitError RateLimitDecision)) : Nat :=
  events.countP fun e => windowStart window e.1.now == w && allows e.2

section

variable (ns : Namespace) (key : RateLimitKey) (count : NonZeroU32) (window : Duration)

theorem allowedIn_zeroWindow (hw : window.isZero = true) (w : Nat) : ∀ (s : InProcessFixedWindow)
    (readings : List SystemTime), allowedIn window w (inProcess.trace s (fixedCalls ns key count window readings)) = 0
  | _, [] => rfl
  | s, now :: readings => by
    have ih := allowedIn_zeroWindow hw w s readings
    simp only [allowedIn, fixedCalls, List.map_cons, Machine.trace_cons, inProcess] at ih ⊢
    rw [check_zeroWindow s ns key count window now hw, List.countP_cons, ih]
    simp [allows]

/-- One check: it is granted by the count the bucket holds of its window. -/
theorem allowedIn_cons (hw : window.isZero = false) (s : InProcessFixedWindow) (now : SystemTime)
    (readings : List SystemTime) (w : Nat) :
    ∃ (s' : InProcessFixedWindow) (b : Bucket), s'.buckets.get (ns.value, key.value) = some b ∧
      b.windowStart = windowStart window now ∧
      b.count = u32SaturatingAdd (countIn (windowStart window now) (s.buckets.get (ns.value, key.value))) 1 ∧
      allowedIn window w (inProcess.trace s (fixedCalls ns key count window (now :: readings))) =
        (if windowStart window now = w ∧ b.count ≤ count.val then 1 else 0) +
          allowedIn window w (inProcess.trace s' (fixedCalls ns key count window readings)) := by
  obtain ⟨b, hstart, hcount, hcheck⟩ := check_fixed s ns key count window now hw
  refine ⟨⟨s.buckets.insert (ns.value, key.value) b⟩, b, Table.get_insert_self .., hstart, hcount, ?_⟩
  simp only [allowedIn, fixedCalls, List.map_cons, Machine.trace_cons, inProcess, List.countP_cons]
  rw [hcheck, Nat.add_comm]
  simp [allows, decisionAt]

/-- Below the saturation of the counter a window is granted what a counter reset by every other
window grants. -/
theorem allowedIn_eq_granted (hw : window.isZero = false) (hcap : count.val < u32Max) (w : Nat) :
    ∀ (readings : List SystemTime) (s : InProcessFixedWindow) (n : Nat),
      countIn w (s.buckets.get (ns.value, key.value)) = min n u32Max →
      allowedIn window w (inProcess.trace s (fixedCalls ns key count window readings)) =
        granted count.val w n (readings.map (windowStart window))
  | [], _, _, _ => rfl
  | now :: readings, s, n, hn => by
    obtain ⟨s', b, hget, hstart, hcount, hstep⟩ := allowedIn_cons ns key count window hw s now readings w
    rw [hstep, List.map_cons]
    by_cases h : windowStart window now = w
    · -- the check counts in the window: the bucket goes on from `n` to `n + 1`
      rw [h, granted_cons_self]
      rw [h, hn, u32SaturatingAdd_min] at hcount
      have ih := allowedIn_eq_granted hw hcap w readings s' (n + 1)
        (by rw [hget, countIn, if_pos (hstart.trans h), hcount])
      have hiff : b.count ≤ count.val ↔ n + 1 ≤ count.val := by omega
      rw [ih]
      simp only [true_and, hiff]
    · -- the bucket is replaced, and nothing of the window is left counted
      rw [granted_cons_of_ne _ _ h, if_neg fun hc => h hc.1, Nat.zero_add]
      exact allowedIn_eq_granted hw hcap w readings s' 0
        (by rw [hget, countIn, if_neg fun hc => h (hstart.symm.trans hc)]; rfl)

/-- The saturated counter never exceeds the largest count, so every check is allowed. -/
theorem allowedIn_saturated (hw : window.isZero = false) (hcap : count.val = u32Max) (w : Nat) :
    ∀ (readings : List SystemTime) (s : InProcessFixedWindow),
      allowedIn window w (inProcess.trace s (fixedCalls ns key count window readings)) =
        (readings.map (windowStart window)).count w
  | [], _ => rfl
  | now :: readings, s => by
    obtain ⟨s', b, -, -, hcount, hstep⟩ := allowedIn_cons ns key count window hw s now readings w
    have hle : b.count ≤ count.val := by
      rw [hcount, hcap]; exact Nat.min_le_right ..
    have ih := allowedIn_saturated hw hcap w readings s'
    rw [hstep, ih, List.map_cons, List.count_cons, Nat.add_comm]
    simp [hle]

/-! ## The windows kept within the count -/

/-- Whatever the order of the readings, every window allows at most `count` checks exactly when
each is hit at most `count` times, or its hits stand together and the counter can pass `count`. -/
theorem window_cap_iff (readings : List SystemTime) :
    (∀ w, allowedIn window w (inProcess.trace .new (fixedCalls ns key count window readings)) ≤ count.val) ↔
      window.isZero = true ∨ ∀ w, (readings.map (windowStart window)).count w ≤ count.val ∨
        (count.val < u32Max ∧ Together w (readings.map (windowStart window))) := by
  by_cases hz : window.isZero = true
  · refine ⟨fun _ => Or.inl hz, fun _ w => ?_⟩
    rw [allowedIn_zeroWindow ns key count window hz w]
    exact Nat.zero_le _
  · have hw : window.isZero = false := by simpa using hz
    have hcap : count.val ≤ u32Max := by have := count.lt; unfold u32Max; omega
    simp only [hw, Bool.false_eq_true, false_or]
    refine forall_congr' fun w => ?_
    rcases Nat.lt_or_eq_of_le hcap with hlt | heq
    · rw [allowedIn_eq_granted ns key count window hw hlt w readings .new 0
        (by simp [InProcessFixedWindow.new, countIn]),
        granted_le_iff count.pos]
      simp only [hlt, true_and]
    · rw [allowedIn_saturated ns key count window hw heq w readings .new]
      simp [heq]

/-- A check from the next window that reaches the lock early resets the window of two others. -/
theorem window_cap_exceeded : ¬ ∀ (ns : Namespace) (key : RateLimitKey) (count : NonZeroU32) (window : Duration)
    (readings : List SystemTime) (w : Nat),
    allowedIn window w (inProcess.trace .new (fixedCalls ns key count window readings)) ≤ count.val := by
  intro h
  have := h ⟨"auth".toList, rfl⟩ ⟨"login".toList, rfl⟩ ⟨1, by decide, by decide⟩ (.fromSecs 1)
    [.ofMillis 500, .ofMillis 1000, .ofMillis 700] 0
  revert this
  decide

/-- Nondecreasing readings keep every window within a count below the saturation of the counter. -/
theorem window_cap_of_nondecreasing (hcap : count.val < u32Max) {readings : List SystemTime}
    (h : readings.Pairwise fun s t => s.nanos ≤ t.nanos) (w : Nat) :
    allowedIn window w (inProcess.trace .new (fixedCalls ns key count window readings)) ≤ count.val := by
  refine (window_cap_iff ns key count window readings).2 (Or.inr fun w => Or.inr ⟨hcap, ?_⟩) w
  exact together_of_pairwise (List.pairwise_map.2 (h.imp fun hst => windowStart_mono window hst))

end

end WorldInfra.RateLimit
