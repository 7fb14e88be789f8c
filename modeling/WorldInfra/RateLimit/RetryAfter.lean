/-
rate-limit-core: the hint of a rejected check is exact. A rejection leaves a bucket that is over its
count; it stays so through its window, and the hint is the time to the window's end.
-/
import WorldInfra.RateLimit.Cleanup

namespace WorldInfra.RateLimit

open WorldInfra.Lib WorldInfra.Rust

/-- Calls on one key. -/
def SameKey (a b : CheckCall) : Prop := b.ns.value = a.ns.value ∧ b.key.value = a.key.value

instance (a b : CheckCall) : Decidable (SameKey a b) :=
  inferInstanceAs (Decidable (b.ns.value = a.ns.value ∧ b.key.value = a.key.value))

/-- The answer to a check after the checks before it. -/
def answerTo (s : InProcessFixedWindow) (before : List CheckCall) (c : CheckCall) :
    Except RateLimitError RateLimitDecision :=
  (inProcess.step (inProcess.exec s before) c).1

def Allowed (answer : Except RateLimitError RateLimitDecision) : Prop :=
  ∃ decision, answer = .ok decision ∧ decision.allowed = true

def Rejected (answer : Except RateLimitError RateLimitDecision) : Prop :=
  ∃ decision, answer = .ok decision ∧ decision.allowed = false

/-- The readings of a window are those from its start to its end. -/
theorem windowStart_eq_of_mem {window : Duration} {s t : SystemTime} (hle : windowStart window s ≤ unixMillis t)
    (hlt : unixMillis t < windowStart window s + windowMillis window) :
    windowStart window t = windowStart window s := by
  have hpos := windowMillis_pos window
  obtain ⟨q, hq⟩ : windowMillis window ∣ windowStart window s := Nat.dvd_sub_mod _
  generalize hw : windowStart window s = w at *
  unfold windowStart
  generalize windowMillis window = m at *
  generalize unixMillis t = u at *
  have hmod : u % m = u - w := by
    have hu : u = (u - w) + m * q := by omega
    rw [hu, Nat.add_mul_mod_self_left, Nat.mod_eq_of_lt (by omega)]
    omega
  rw [hmod]
  omega

section

variable {c : CheckCall} {count : NonZeroU32} {window : Duration}

/-- The bucket of the key of `c` is over the count in the window that starts at `w`. -/
def Over (c : CheckCall) (count : NonZeroU32) (w : Nat) (s : InProcessFixedWindow) : Prop :=
  ∃ b, s.buckets.get (c.ns.value, c.key.value) = some b ∧ b.windowStart = w ∧ count.val < b.count ∧ b.count ≤ u32Max

/-- A check at a reading of the window is rejected, and leaves the bucket over the count. -/
theorem over_same {s : InProcessFixedWindow} {b : CheckCall} (hw : window.isZero = false) (hkey : SameKey c b)
    (hlimit : b.limit = .fixed count window) (h : Over c count (windowStart window b.now) s) :
    Rejected (inProcess.step s b).1 ∧ Over c count (windowStart window b.now) (inProcess.step s b).2 := by
  obtain ⟨old, hget, hstart, hover, hmax⟩ := h
  obtain ⟨new, hnew, hcount, hcheck⟩ := check_fixed s b.ns b.key count window b.now hw
  have hstep : inProcess.step s b =
      (.ok (decisionAt count window b.now new.count), ⟨s.buckets.insert (b.ns.value, b.key.value) new⟩) := by
    show s.check b.ns b.key b.limit b.now = _
    rw [hlimit, hcheck]
  rw [hkey.1, hkey.2, hget, countIn, if_pos hstart] at hcount
  have hstill : count.val < new.count ∧ new.count ≤ u32Max := by
    unfold u32SaturatingAdd at hcount
    omega
  rw [hstep]
  constructor
  · refine ⟨_, rfl, ?_⟩
    rw [decisionAt, decide_eq_false_iff_not]
    omega
  · refine ⟨new, ?_, hnew, hstill⟩
    rw [hkey.1, hkey.2]
    exact Table.get_insert_self _ _ _

theorem over_other {s : InProcessFixedWindow} {b : CheckCall} {w : Nat} (hkey : ¬ SameKey c b) (h : Over c count w s) :
    Over c count w (inProcess.step s b).2 := by
  obtain ⟨old, hget, hrest⟩ := h
  refine ⟨old, ?_, hrest⟩
  rw [← hget]
  apply check_get_other
  intro heq
  obtain ⟨hns, hk⟩ := Prod.mk.inj heq
  exact hkey ⟨hns.symm, hk.symm⟩

/-- The bucket stays over the count as long as the key's checks fall in the window. -/
theorem over_exec {w : Nat} (hw : window.isZero = false) : ∀ {l : List CheckCall} {s : InProcessFixedWindow},
    (∀ b ∈ l, SameKey c b → b.limit = .fixed count window ∧ windowStart window b.now = w) → Over c count w s →
      Over c count w (inProcess.exec s l)
  | [], _, _, h => h
  | b :: l, s, hl, h => by
    rw [Machine.exec_cons]
    refine over_exec hw (fun d hd => hl d (List.mem_cons_of_mem _ hd)) ?_
    by_cases hkey : SameKey c b
    · obtain ⟨hlimit, hstart⟩ := hl b (List.mem_cons_self ..) hkey
      rw [← hstart] at h ⊢
      exact (over_same hw hkey hlimit h).2
    · exact over_other hkey h

/-- A check of a later window starts the bucket anew, and is allowed. -/
theorem allowed_of_over {s : InProcessFixedWindow} {b : CheckCall} {w : Nat} (hw : window.isZero = false)
    (hkey : SameKey c b) (hlimit : b.limit = .fixed count window) (hlater : windowStart window b.now ≠ w)
    (h : Over c count w s) : Allowed (inProcess.step s b).1 := by
  obtain ⟨old, hget, hstart, -⟩ := h
  obtain ⟨new, -, hcount, hcheck⟩ := check_fixed s b.ns b.key count window b.now hw
  have hother : old.windowStart ≠ windowStart window b.now := by
    rw [hstart]
    exact hlater.symm
  rw [hkey.1, hkey.2, hget, countIn, if_neg hother] at hcount
  have hpos := count.pos
  have hone : new.count ≤ count.val := by
    unfold u32SaturatingAdd at hcount
    omega
  refine ⟨decisionAt count window b.now new.count, ?_, decide_eq_true hone⟩
  show (s.check b.ns b.key b.limit b.now).1 = _
  rw [hlimit, hcheck]

/-- What a rejected check says and leaves: the time to the window's end, and a bucket over the count. -/
theorem rejected_step {s : InProcessFixedWindow} {decision : RateLimitDecision}
    (hlimit : c.limit = .fixed count window) (hfits : windowMillis window < 2 ^ 64)
    (hdecision : (inProcess.step s c).1 = .ok decision) (hrejected : decision.allowed = false) :
    window.isZero = false ∧ Over c count (windowStart window c.now) (inProcess.step s c).2 ∧
      ∃ d, decision.retryAfter = some (Duration.fromMillis (UInt64.ofNat d)) ∧ 1 ≤ d ∧ d ≤ windowMillis window ∧
        unixMillis c.now + d = windowStart window c.now + windowMillis window := by
  have hcheck : inProcess.step s c = s.check c.ns c.key (.fixed count window) c.now := by
    rw [← hlimit]
    rfl
  rw [hcheck] at hdecision ⊢
  cases hw : window.isZero with
  | true =>
    rw [check_zeroWindow s c.ns c.key count window c.now hw] at hdecision
    cases hdecision
  | false =>
    obtain ⟨b, hstart, hcount, hstep⟩ := check_fixed s c.ns c.key count window c.now hw
    rw [hstep] at hdecision ⊢
    cases hdecision
    have hover : ¬ b.count ≤ count.val := of_decide_eq_false hrejected
    refine ⟨rfl, ⟨b, Table.get_insert_self _ _ _, hstart, by omega, ?_⟩, ?_⟩
    · rw [hcount]
      exact Nat.min_le_right ..
    · have hle := windowStart_le window c.now
      have hlt := lt_windowStart_add window c.now
      refine ⟨windowStart window c.now + windowMillis window - unixMillis c.now, ?_, by omega, by omega, by omega⟩
      -- the window is not over yet, so the wait is positive without the bound of the source
      have hone : max (windowStart window c.now + windowMillis window - unixMillis c.now) 1 =
          windowStart window c.now + windowMillis window - unixMillis c.now := by omega
      simp only [decisionAt, if_neg hover, windowEnd_eq, hone, durationFromMillis]
      rw [if_pos (by omega)]

end

/-! ## The hint -/

/-- A check is rejected with a hint of `d` milliseconds: at least one and at most a window. The later
checks of the key before `d` milliseconds have passed are rejected, and the first after that is
allowed. -/
theorem retryAfter_exact {s : InProcessFixedWindow} {c : CheckCall} {l : List CheckCall} {count : NonZeroU32}
    {window : Duration} {decision : RateLimitDecision} (hfits : windowMillis window < 2 ^ 64)
    (hlimit : ∀ b ∈ c :: l, SameKey c b → b.limit = .fixed count window)
    (htimes : (c :: l).Pairwise fun a b => SameKey c a → SameKey c b → unixMillis a.now ≤ unixMillis b.now)
    (hdecision : answerTo s [] c = .ok decision) (hrejected : decision.allowed = false) :
    ∃ d, decision.retryAfter = some (Duration.fromMillis (UInt64.ofNat d)) ∧ 1 ≤ d ∧ d ≤ windowMillis window ∧
      ∀ l₁ c' l₂, l = l₁ ++ c' :: l₂ → SameKey c c' →
        (unixMillis c'.now < unixMillis c.now + d → Rejected (answerTo s (c :: l₁) c')) ∧
        ((∀ b ∈ l₁, SameKey c b → unixMillis b.now < unixMillis c.now + d) →
          unixMillis c.now + d ≤ unixMillis c'.now → Allowed (answerTo s (c :: l₁) c')) := by
  have hself : SameKey c c := ⟨rfl, rfl⟩
  have hcl := hlimit c (List.mem_cons_self ..) hself
  obtain ⟨hw, hover, d, hhint, hone, hle, hend⟩ := rejected_step hcl hfits hdecision hrejected
  refine ⟨d, hhint, hone, hle, ?_⟩
  rintro l₁ c' l₂ rfl hkey
  rw [List.pairwise_cons] at htimes
  have hstart := windowStart_le window c.now
  -- a later reading of the key before the hint has passed falls in the rejection's window
  have hin : ∀ b ∈ l₁ ++ c' :: l₂, SameKey c b → unixMillis b.now < unixMillis c.now + d →
      windowStart window b.now = windowStart window c.now := by
    intro b hb hkeyb hlt
    have hafter := htimes.1 b hb hself hkeyb
    exact windowStart_eq_of_mem (by omega) (by omega)
  have hlimits : ∀ b ∈ l₁ ++ c' :: l₂, SameKey c b → b.limit = .fixed count window :=
    fun b hb => hlimit b (List.mem_cons_of_mem _ hb)
  have hc' : c' ∈ l₁ ++ c' :: l₂ := List.mem_append_right _ (List.mem_cons_self ..)
  have hexec (hbefore : ∀ b ∈ l₁, SameKey c b → unixMillis b.now < unixMillis c.now + d) :
      Over c count (windowStart window c.now) (inProcess.exec s (c :: l₁)) := by
    rw [Machine.exec_cons]
    refine over_exec hw (fun b hb hkeyb => ?_) hover
    have hmem : b ∈ l₁ ++ c' :: l₂ := List.mem_append_left _ hb
    exact ⟨hlimits b hmem hkeyb, hin b hmem hkeyb (hbefore b hb hkeyb)⟩
  constructor
  · intro hlt
    have hbefore : ∀ b ∈ l₁, SameKey c b → unixMillis b.now < unixMillis c.now + d := by
      intro b hb hkeyb
      have := (List.pairwise_append.1 htimes.2).2.2 b hb c' (List.mem_cons_self ..) hkeyb hkey
      omega
    have hsame := hin c' hc' hkey hlt
    have hstate := hexec hbefore
    rw [← hsame] at hstate
    exact (over_same hw hkey (hlimits c' hc' hkey) hstate).1
  · intro hbefore hge
    refine allowed_of_over hw hkey (hlimits c' hc' hkey) ?_ (hexec hbefore)
    have hlt := lt_windowStart_add window c'.now
    omega

/-- One check of a key in a window of one and a half milliseconds, by its reading in nanoseconds. -/
def loginAt (nanos : Nat) (h : nanos < 2 ^ 63 * 10 ^ 9) : CheckCall :=
  login ⟨1500000, by decide⟩ ⟨nanos, by omega, by omega⟩

/-- The second login of the window is rejected for two milliseconds: the next one, a nanosecond before they
have passed, is rejected too, and the one after it, when they have, is allowed. -/
theorem retryAfter_exact_loginAt :
    let s := (inProcess.step .new (loginAt 100 (by decide))).2
    let c := loginAt 999999 (by decide)
    answerTo s [] c = .ok ⟨false, 0, some (.fromMillis 2), .healthy⟩ ∧
      Rejected (answerTo s [c] (loginAt 1999999 (by decide))) ∧
      Allowed (answerTo s [c, loginAt 1999999 (by decide)] (loginAt 2000000 (by decide))) := by
  intro s c
  let later : List CheckCall := [loginAt 1999999 (by decide), loginAt 2000000 (by decide)]
  have hlimit : ∀ b ∈ c :: later, SameKey c b →
      b.limit = .fixed ⟨1, Nat.one_pos, one_lt_word⟩ ⟨1500000, by decide⟩ := by decide
  have hdecision : answerTo s [] c = .ok ⟨false, 0, some (.fromMillis 2), .healthy⟩ := by decide
  obtain ⟨d, hhint, hone, hle, hlater⟩ := retryAfter_exact (l := later) (by decide) hlimit (by decide) hdecision rfl
  have hd : d = 2 := by
    have hle' : d ≤ 2 := hle
    interval_cases d
    · exact absurd hhint (by decide)
    · rfl
  subst hd
  refine ⟨hdecision, (hlater [] _ _ rfl ⟨rfl, rfl⟩).1 (by decide), ?_⟩
  exact (hlater [loginAt 1999999 (by decide)] _ [] rfl ⟨rfl, rfl⟩).2 (by decide) (by decide)

end WorldInfra.RateLimit
