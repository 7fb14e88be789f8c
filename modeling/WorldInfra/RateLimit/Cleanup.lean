/-
rate-limit-core: the cleanup of the in-process backend. A bucket is removed when its window ended at
the cutoff or before; no later reading falls in that window, so a check finds the same count with the
bucket as without it, and a run of checks is decided alike whether buckets are cleaned up or not.
-/
import WorldInfra.RateLimit.Agreement

namespace WorldInfra.RateLimit

open WorldInfra.Lib WorldInfra.Rust

/-- `InProcessFixedWindow::cleanup`: the number of buckets removed. -/
def InProcessFixedWindow.cleanup (self : InProcessFixedWindow) (now : SystemTime) (olderThan : Duration) :
    Nat × InProcessFixedWindow :=
  let cutoff := unixMillis now - durationMillisCeil olderThan
  let before := self.buckets.entries.length
  let buckets := self.buckets.retain fun bucket => decide (bucket.windowEnd > cutoff)
  (before - buckets.entries.length, ⟨buckets⟩)

inductive BackendCall where
  | check (c : CheckCall)
  | cleanup (now : SystemTime) (olderThan : Duration)

def BackendCall.now : BackendCall → SystemTime
  | .check c => c.now
  | .cleanup now _ => now

def BackendCall.isCheck : BackendCall → Bool
  | .check _ => true
  | .cleanup _ _ => false

inductive BackendAnswer where
  | decided (decision : Except RateLimitError RateLimitDecision)
  | removed (count : Nat)
  deriving DecidableEq

/-- The backend with both of its operations, in the order they take the lock. -/
def backend : Machine InProcessFixedWindow BackendCall BackendAnswer where
  step s call :=
    match call with
    | .check c =>
      let r := s.check c.ns c.key c.limit c.now
      (.decided r.1, r.2)
    | .cleanup now olderThan =>
      let r := s.cleanup now olderThan
      (.removed r.1, r.2)

/-! ## Ends of windows -/

theorem unixMillis_lt (now : SystemTime) : unixMillis now < 2 ^ 74 := by
  unfold unixMillis Duration.asMillis
  have := (now.sinceEpoch.getD (Duration.fromSecs 0)).lt
  omega

theorem windowMillis_lt (window : Duration) : windowMillis window < 2 ^ 75 := by
  have hlt := window.lt
  unfold windowMillis durationMillisCeil u128SaturatingAdd Duration.asMillis
  split <;> omega

/-- No window ends beyond 128 bits. -/
theorem windowEnd_eq (window : Duration) (now : SystemTime) :
    u128SaturatingAdd (windowStart window now) (windowMillis window) =
      windowStart window now + windowMillis window := by
  have hnow := unixMillis_lt now
  have hstart := windowStart_le window now
  have hwindow := windowMillis_lt window
  unfold u128SaturatingAdd
  omega

/-- Every bucket of a key ends one window after it starts. -/
def WindowsEnd (limits : Limits) (s : InProcessFixedWindow) : Prop :=
  ∀ ns key count window, limits ns key = .fixed count window → ∀ b, s.buckets.get (ns.value, key.value) = some b →
    b.windowEnd = b.windowStart + windowMillis window

theorem windowsEnd_new (limits : Limits) : WindowsEnd limits .new := by
  intro ns key count window _ b hb
  rw [show InProcessFixedWindow.new.buckets = ∅ from rfl, Table.get_empty] at hb
  cases hb

theorem check_windowEnd {s : InProcessFixedWindow} {ns : Namespace} {key : RateLimitKey} {count : NonZeroU32}
    {window : Duration} {now : SystemTime} (hw : window.isZero = false)
    (hold : ∀ old, s.buckets.get (ns.value, key.value) = some old →
      old.windowEnd = old.windowStart + windowMillis window) {b : Bucket}
    (hb : (s.check ns key (.fixed count window) now).2.buckets.get (ns.value, key.value) = some b) :
    b.windowEnd = b.windowStart + windowMillis window := by
  have hend := windowEnd_eq window now
  unfold windowStart at hend
  simp only [InProcessFixedWindow.check, hw, Bool.false_eq_true, if_false, Table.get_insert_self,
    Option.some.injEq] at hb
  rw [← hb]
  -- a new bucket, or the one that was there
  rcases hfound : s.buckets.get (ns.value, key.value) with _ | old
  · simp [hend]
  · by_cases hstart : old.windowStart = unixMillis now - unixMillis now % windowMillis window
    · simp [hstart, hold old hfound]
    · simp [hstart, hend]

/-- A check stores nothing under the other keys. -/
theorem check_get_other {s : InProcessFixedWindow} {ns : Namespace} {key : RateLimitKey} {limit : LimitSpec}
    {now : SystemTime} {k : Str × Str} (hk : k ≠ (ns.value, key.value)) :
    (s.check ns key limit now).2.buckets.get k = s.buckets.get k := by
  cases limit with
  | unlimited => rfl
  | fixed count window =>
    cases hw : window.isZero with
    | true => rw [check_zeroWindow s ns key count window now hw]
    | false =>
      obtain ⟨b, -, -, hcheck⟩ := check_fixed s ns key count window now hw
      rw [hcheck]
      exact Table.get_insert_ne _ _ hk

theorem check_windowsEnd {limits : Limits} {s : InProcessFixedWindow} {c : CheckCall}
    (hc : c.limit = limits c.ns c.key) (h : WindowsEnd limits s) :
    WindowsEnd limits (s.check c.ns c.key c.limit c.now).2 := by
  intro ns key count window hlimit b hb
  by_cases hsame : (ns.value, key.value) = (c.ns.value, c.key.value)
  · obtain ⟨hns, hkey⟩ := Prod.mk.inj hsame
    obtain rfl := Namespace.ext hns
    obtain rfl := RateLimitKey.ext hkey
    rw [hc, hlimit] at hb
    cases hw : window.isZero with
    | true =>
      rw [check_zeroWindow s c.ns c.key count window c.now hw] at hb
      exact h c.ns c.key count window hlimit b hb
    | false => exact check_windowEnd hw (h c.ns c.key count window hlimit) hb
  · rw [check_get_other hsame] at hb
    exact h ns key count window hlimit b hb

/-! ## What a cleanup leaves -/

/-- A check at a reading from `t` on finds the same count in both states. -/
def SameCounts (limits : Limits) (t : Nat) (s s' : InProcessFixedWindow) : Prop :=
  ∀ ns key count window, limits ns key = .fixed count window → ∀ now, t ≤ unixMillis now →
    countIn (windowStart window now) (s.buckets.get (ns.value, key.value)) =
      countIn (windowStart window now) (s'.buckets.get (ns.value, key.value))

/-- A removed bucket's window ended at the time of the cleanup at the latest, before the window of any
later reading. -/
theorem cleanup_sameCounts {limits : Limits} {s s' : InProcessFixedWindow} {now : SystemTime} (olderThan : Duration)
    (hends : WindowsEnd limits s) (h : SameCounts limits (unixMillis now) s s') :
    SameCounts limits (unixMillis now) (s.cleanup now olderThan).2 s' := by
  intro ns key count window hlimit later hlater
  rw [← h ns key count window hlimit later hlater]
  have hget := Table.get_retain s.buckets
    (fun bucket => decide (bucket.windowEnd > unixMillis now - durationMillisCeil olderThan)) (ns.value, key.value)
  show countIn _ ((s.buckets.retain _).get _) = _
  rw [hget]
  rcases hb : s.buckets.get (ns.value, key.value) with _ | b
  · rfl
  · rw [Option.filter_some]
    split
    · rfl
    · rename_i hremoved
      have hend := hends ns key count window hlimit b hb
      have hin := lt_windowStart_add window later
      rw [decide_eq_true_eq] at hremoved
      have hother : b.windowStart ≠ windowStart window later := by omega
      simp only [countIn, if_neg hother]

theorem cleanup_windowsEnd {limits : Limits} {s : InProcessFixedWindow} (now : SystemTime) (olderThan : Duration)
    (h : WindowsEnd limits s) : WindowsEnd limits (s.cleanup now olderThan).2 := by
  intro ns key count window hlimit b hb
  have hget := Table.get_retain s.buckets
    (fun bucket => decide (bucket.windowEnd > unixMillis now - durationMillisCeil olderThan)) (ns.value, key.value)
  have hkept := (hget.symm.trans hb)
  rw [Option.filter_eq_some_iff] at hkept
  exact h ns key count window hlimit b hkept.1

/-- A check is decided alike where the counts are the same, and leaves the same counts. -/
theorem check_sameCounts {limits : Limits} {s s' : InProcessFixedWindow} {c : CheckCall}
    (hc : c.limit = limits c.ns c.key) (h : SameCounts limits (unixMillis c.now) s s') :
    (s.check c.ns c.key c.limit c.now).1 = (s'.check c.ns c.key c.limit c.now).1 ∧
      SameCounts limits (unixMillis c.now) (s.check c.ns c.key c.limit c.now).2
        (s'.check c.ns c.key c.limit c.now).2 := by
  rcases hlimit : c.limit with ⟨count, window⟩ | _
  · cases hw : window.isZero with
    | true =>
      rw [check_zeroWindow s c.ns c.key count window c.now hw, check_zeroWindow s' c.ns c.key count window c.now hw]
      exact ⟨rfl, h⟩
    | false =>
      have hlimits : limits c.ns c.key = .fixed count window := by rw [← hc, hlimit]
      obtain ⟨b, hstart, hcount, hcheck⟩ := check_fixed s c.ns c.key count window c.now hw
      obtain ⟨b', hstart', hcount', hcheck'⟩ := check_fixed s' c.ns c.key count window c.now hw
      rw [h c.ns c.key count window hlimits c.now (le_refl _), ← hcount'] at hcount
      rw [hcheck, hcheck', hcount]
      refine ⟨rfl, ?_⟩
      intro ns key count' window' hlimit' now hnow
      rw [Table.get_insert, Table.get_insert]
      split
      · simp only [countIn, hstart, hstart', hcount]
      · exact h ns key count' window' hlimit' now hnow
  · exact ⟨rfl, h⟩

/-! ## Runs with and without cleanups -/

/-- If every key has one limit and the readings, in milliseconds, do not go back, leaving all cleanups
out of a run changes no decision on a check. -/
theorem cleanup_invisible {limits : Limits} {l : List BackendCall}
    (hlimits : ∀ c, .check c ∈ l → c.limit = limits c.ns c.key)
    (htimes : l.Pairwise fun a b => unixMillis a.now ≤ unixMillis b.now) :
    backend.outputsOf BackendCall.isCheck .new l = backend.outputs .new (l.filter BackendCall.isCheck) := by
  have htimed : Machine.TimedFrom (fun a : BackendCall => unixMillis a.now) 0 l :=
    Machine.timedFrom_of_pairwise (fun _ _ => Nat.zero_le _) htimes
  refine Machine.outputsOf_of_simulation (R := fun t s s' => WindowsEnd limits s ∧ SameCounts limits t s s')
    (P := fun a => ∀ c, a = .check c → c.limit = limits c.ns c.key) ?_ ?_ ?_ ?_ htimed
    ⟨windowsEnd_new limits, fun _ _ _ _ _ _ _ => rfl⟩
  · rintro t t' s s' hle ⟨hends, hsame⟩
    exact ⟨hends, fun ns key count window hlimit now hnow => hsame ns key count window hlimit now (hle.trans hnow)⟩
  · rintro (c | ⟨now, olderThan⟩) s s' hcheck hP ⟨hends, hsame⟩
    · obtain ⟨hdecision, hsame'⟩ := check_sameCounts (hP c rfl) hsame
      exact ⟨congrArg BackendAnswer.decided hdecision, check_windowsEnd (hP c rfl) hends, hsame'⟩
    · cases hcheck
  · rintro (c | ⟨now, olderThan⟩) s s' hcheck hP ⟨hends, hsame⟩
    · cases hcheck
    · exact ⟨cleanup_windowsEnd now olderThan hends, cleanup_sameCounts olderThan hends hsame⟩
  · rintro a ha c rfl
    exact hlimits c ha

theorem auth_valid : validateKeyPart "auth".toList = .ok "auth".toList := rfl

theorem login_valid : validateKeyPart "login".toList = .ok "login".toList := rfl

theorem one_lt_word : 1 < 2 ^ 32 := by decide

/-- One login, limited to one in a window. -/
def login (window : Duration) (now : SystemTime) : CheckCall where
  ns := ⟨"auth".toList, auth_valid⟩
  key := ⟨"login".toList, login_valid⟩
  limit := .fixed ⟨1, Nat.one_pos, one_lt_word⟩ window
  now := now

/-- One check a second, with a cleanup just before and one just after the first window ends. -/
def checksAndCleanups : List BackendCall :=
  [.check (login (.fromSecs 1) (.ofMillis 400)), .cleanup (.ofMillis 997) (.fromSecs 0),
    .check (login (.fromSecs 1) (.ofMillis 998)), .cleanup (.ofMillis 1001) (.fromSecs 0),
    .check (login (.fromSecs 1) (.ofMillis 1002))]

theorem cleanup_invisible_checksAndCleanups :
    backend.outputsOf BackendCall.isCheck .new checksAndCleanups =
      backend.outputs .new (checksAndCleanups.filter BackendCall.isCheck) := by
  refine @cleanup_invisible (fun _ _ => .fixed ⟨1, Nat.one_pos, one_lt_word⟩ (.fromSecs 1)) _ ?_ (by decide)
  intro c hc
  simp only [checksAndCleanups, List.mem_cons, BackendCall.check.injEq, reduceCtorEq, List.not_mem_nil, or_false,
    false_or] at hc
  rcases hc with rfl | rfl | rfl <;> rfl

end WorldInfra.RateLimit
