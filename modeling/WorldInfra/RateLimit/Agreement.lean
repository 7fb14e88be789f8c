/-
rate-limit-core: the in-process and the Redis backend decide alike. Both are compared with the
count of the checks so far: a check is decided by its number among those of its key and window.
-/
import WorldInfra.RateLimit.RedisBackend

namespace WorldInfra.RateLimit

open WorldInfra.Lib WorldInfra.Rust WorldInfra.Redis

/-! ## The reference -/

/-- The checks of a key whose readings fall in the window that starts at `w`. -/
def hits (ns : Namespace) (key : RateLimitKey) (window : Duration) (w : Nat) (past : List CheckCall) : Nat :=
  past.countP fun c => c.ns.value = ns.value ∧ c.key.value = key.value ∧ windowStart window c.now = w

/-- The decision on a check by its number `n` in its window: allowed while `n`, as far as 32 bits
tell it, is within the count. -/
def reference (past : List CheckCall) (c : CheckCall) : Except RateLimitError RateLimitDecision :=
  match c.limit with
  | .unlimited => .ok .unlimited
  | .fixed count window =>
    if window.isZero then .error .zeroWindow
    else
      let start := windowStart window c.now
      let n := hits c.ns c.key window start past + 1
      .ok { allowed := decide (min n u32Max ≤ count.val)
            remaining := count.val - n
            retryAfter :=
              if min n u32Max ≤ count.val then none
              else some (durationFromMillis (max (u128SaturatingAdd start (windowMillis window) - unixMillis c.now) 1))
            health := .healthy }

theorem hits_cons (ns : Namespace) (key : RateLimitKey) (window : Duration) (w : Nat) (c : CheckCall)
    (past : List CheckCall) : hits ns key window w (c :: past) = hits ns key window w past +
      if c.ns.value = ns.value ∧ c.key.value = key.value ∧ windowStart window c.now = w then 1 else 0 := by
  simp only [hits, List.countP_cons, decide_eq_true_eq]

/-- The saturated number decides as the number. -/
theorem reference_fixed {past : List CheckCall} {c : CheckCall} {count : NonZeroU32} {window : Duration}
    (hlimit : c.limit = .fixed count window) (hw : window.isZero = false) :
    reference past c = .ok (decisionAt count window c.now
      (min (hits c.ns c.key window (windowStart window c.now) past + 1) u32Max)) := by
  have hcount : count.val ≤ u32Max := by have := count.lt; unfold u32Max; omega
  generalize hn : hits c.ns c.key window (windowStart window c.now) past + 1 = n
  have hremaining : count.val - n = count.val - min n u32Max := by omega
  simp only [reference, hlimit, hw, Bool.false_eq_true, if_false, hn, hremaining, decisionAt]

/-- Keys with one limit each. -/
abbrev Limits : Type := Namespace → RateLimitKey → LimitSpec

section

variable {limits : Limits}

/-- A call of another key, or in another window, counts for nothing. -/
theorem hits_of_other {ns : Namespace} {key : RateLimitKey} {window : Duration} {w : Nat} {c : CheckCall}
    (past : List CheckCall)
    (h : ¬ (c.ns.value = ns.value ∧ c.key.value = key.value ∧ windowStart window c.now = w)) :
    hits ns key window w (c :: past) = hits ns key window w past := by
  rw [hits_cons, if_neg h, Nat.add_zero]

theorem hits_of_same {ns : Namespace} {key : RateLimitKey} {window : Duration} {w : Nat} {c : CheckCall}
    (past : List CheckCall) (hns : c.ns.value = ns.value) (hkey : c.key.value = key.value)
    (hw : windowStart window c.now = w) :
    hits ns key window w (c :: past) = hits ns key window w past + 1 := by
  rw [hits_cons, if_pos ⟨hns, hkey, hw⟩]

/-! ## The in-process backend -/

/-- At every reading from the past on, a bucket tells the number of its window's checks. -/
def Counted (limits : Limits) (past : List CheckCall) (s : InProcessFixedWindow) : Prop :=
  ∀ ns key count window, limits ns key = .fixed count window → window.isZero = false → ∀ now : SystemTime,
    (∀ c ∈ past, c.now.nanos ≤ now.nanos) → countIn (windowStart window now) (s.buckets.get (ns.value, key.value)) =
      min (hits ns key window (windowStart window now) past) u32Max

/-- A call that is of no fixed limit leaves every count as it is. -/
theorem hits_of_unlimited {c : CheckCall} (past : List CheckCall) (hc : c.limit = limits c.ns c.key)
    {ns : Namespace} {key : RateLimitKey} {count : NonZeroU32} {window : Duration} {w : Nat}
    (hlimit : limits ns key = .fixed count window) (hne : c.limit ≠ .fixed count window) :
    hits ns key window w (c :: past) = hits ns key window w past := by
  refine hits_of_other past ?_
  rintro ⟨hns, hkey, -⟩
  rw [Namespace.ext hns, RateLimitKey.ext hkey, hlimit] at hc
  exact hne hc

theorem inProcess_step {past : List CheckCall} {c : CheckCall} {s : InProcessFixedWindow}
    (htimes : ∀ b ∈ past, b.now.nanos ≤ c.now.nanos) (hc : c.limit = limits c.ns c.key)
    (h : Counted limits past s) : (inProcess.step s c).1 = reference past c ∧
      Counted limits (c :: past) (inProcess.step s c).2 := by
  -- a call that stores nothing keeps the counts
  have hkeep (hno : ∀ count window, c.limit = .fixed count window → window.isZero = true) :
      Counted limits (c :: past) s := by
    intro ns key count window hlimit hw now hnow
    rw [hits_of_unlimited past hc hlimit fun heq => by rw [hno _ _ heq] at hw; cases hw]
    exact h ns key count window hlimit hw now fun b hb => hnow b (List.mem_cons_of_mem _ hb)
  rcases hlimit : c.limit with ⟨count, window⟩ | _
  · cases hw : window.isZero with
    | true =>
      have hstep : inProcess.step s c = (.error .zeroWindow, s) := by
        show s.check c.ns c.key c.limit c.now = _
        rw [hlimit, check_zeroWindow s c.ns c.key count window c.now hw]
      rw [hstep]
      refine ⟨by simp only [reference, hlimit, hw, if_true], hkeep fun count' window' heq => ?_⟩
      rw [hlimit, LimitSpec.fixed.injEq] at heq
      rw [← heq.2, hw]
    | false =>
      obtain ⟨b, hstart, hcount, hcheck⟩ := check_fixed s c.ns c.key count window c.now hw
      have hstep : inProcess.step s c =
          (.ok (decisionAt count window c.now b.count), ⟨s.buckets.insert (c.ns.value, c.key.value) b⟩) := by
        show s.check c.ns c.key c.limit c.now = _
        rw [hlimit, hcheck]
      have hlimits : limits c.ns c.key = .fixed count window := by rw [← hc, hlimit]
      rw [h c.ns c.key count window hlimits hw c.now htimes, u32SaturatingAdd_min] at hcount
      rw [hstep]
      refine ⟨by rw [reference_fixed hlimit hw, hcount], ?_⟩
      intro ns key count' window' hlimit' hw' now hnow
      rw [Table.get_insert]
      by_cases hsame : c.ns.value = ns.value ∧ c.key.value = key.value
      · -- the key has one limit, so it is this call's
        obtain rfl := Namespace.ext hsame.1
        obtain rfl := RateLimitKey.ext hsame.2
        rw [hlimits, LimitSpec.fixed.injEq] at hlimit'
        obtain ⟨rfl, rfl⟩ := hlimit'
        rw [if_pos rfl]
        by_cases hwin : windowStart window c.now = windowStart window now
        · rw [countIn, if_pos (hstart.trans hwin), hcount, hits_of_same past rfl rfl hwin, hwin]
        · -- the reading is in a later window, where no check so far falls
          rw [countIn, if_neg (fun heq => hwin (hstart.symm.trans heq)), hits_of_other past fun heq => hwin heq.2.2]
          have hnone : hits c.ns c.key window (windowStart window now) past = 0 := by
            rw [hits, List.countP_eq_zero]
            intro d hd
            simp only [decide_eq_true_eq, not_and]
            rintro - - hdw
            have h1 := windowStart_mono window (htimes d hd)
            have h2 := windowStart_mono window (hnow c (List.mem_cons_self ..))
            exact hwin (le_antisymm h2 (hdw ▸ h1))
          rw [hnone]
          rfl
      · rw [if_neg fun heq => hsame ⟨(Prod.mk.injEq .. ▸ heq).1.symm, (Prod.mk.injEq .. ▸ heq).2.symm⟩,
          hits_of_other past fun heq => hsame ⟨heq.1, heq.2.1⟩]
        exact h ns key count' window' hlimit' hw' now fun b hb => hnow b (List.mem_cons_of_mem _ hb)
  · have hstep : inProcess.step s c = (.ok .unlimited, s) := by
      show s.check c.ns c.key c.limit c.now = _
      rw [hlimit]; rfl
    rw [hstep]
    exact ⟨by simp only [reference, hlimit], hkeep fun _ _ heq => by rw [hlimit] at heq; cases heq⟩

/-- Along nondecreasing readings the in-process backend decides by the number of each check. -/
theorem inProcess_eq_reference {calls : List CheckCall} (hlimits : ∀ c ∈ calls, c.limit = limits c.ns c.key)
    (htimes : calls.Pairwise fun a b => a.now.nanos ≤ b.now.nanos) :
    inProcess.outputs .new calls = (Machine.history reference).outputs [] calls := by
  refine Machine.outputs_eq_history (Q := Counted limits) (P := fun e => e.1.limit = limits e.1.ns e.1.key)
    (fun past c s htimes hc h => inProcess_step htimes hc h) (fun e he => hlimits e.1 (Machine.mem_inputs _ he))
    (fun _ hb => nomatch hb) htimes ?_
  intro ns key count window _ _ now _
  simp [InProcessFixedWindow.new, countIn, hits]

/-! ## The Redis backend -/

section

variable {time : Int} {db : Db} {key : Bytes} {ttl : Nat}

/-- The value of a counter. -/
def counter (n : Int) : Value := .str (Utf8.encode (decimal n))

variable (ttl) in
theorem checkScript_new (h : live Stored.alive time db key = none) :
    (∃ e, (checkScript key ttl time db).1 = .error e) ∨ ∃ t, deadline time ttl = .ok t ∧
      checkScript key ttl time db = (.ok 1, (db.insert key ⟨counter 1, none⟩).insert key ⟨counter 1, some t⟩) := by
  have hincr : incr key time db = (.ok 1, db.insert key ⟨counter 1, none⟩) := by
    rw [incr, lookup_bind, h]; rfl
  have hlive : live Stored.alive time (db.insert key ⟨counter 1, none⟩) key = some ⟨counter 1, none⟩ :=
    live_of_get_some (Table.get_insert_self ..) rfl
  have hexpire : pexpire key ttl time (db.insert key ⟨counter 1, none⟩) = _ := pexpire_some hlive
  rcases hd : deadline time ttl with e | t
  · refine Or.inl ⟨e, ?_⟩
    simp [checkScript, bind_apply, hincr, discard_apply, hexpire, hd]
  · refine Or.inr ⟨t, rfl, ?_⟩
    simp [checkScript, bind_apply, pure_apply, hincr, discard_apply, hexpire, hd]

theorem toInt_succ {n : Int64} (h : n.toInt + 1 ≤ 2 ^ 63 - 1) : (n + 1).toInt = n.toInt + 1 := by
  have hlo := n.le_toInt
  have hone : (1 : Int64).toInt = 1 := rfl
  rw [Int64.toInt_add, hone, Int.bmod_eq_of_le] <;> omega

variable (ttl) in
theorem checkScript_more {n : Int64} {t : Option Int} (hn : 0 < n.toInt)
    (h : live Stored.alive time db key = some ⟨counter n.toInt, t⟩) :
    (∃ e, (checkScript key ttl time db).1 = .error e) ∨ (n.toInt + 1 ≤ 2 ^ 63 - 1 ∧
      checkScript key ttl time db = (.ok (n + 1), db.insert key ⟨counter (n.toInt + 1), t⟩)) := by
  have hread : (Utf8.decode (Utf8.encode (decimal n.toInt))).map parseI64 = some (.ok n) := by
    rw [Utf8.decode_encode, Option.map_some, parseI64_decimal]
  by_cases hmax : n.toInt + 1 ≤ 2 ^ 63 - 1
  · have hincr : incr key time db = (.ok (n + 1), db.insert key ⟨counter (n.toInt + 1), t⟩) := by
      rw [incr, lookup_bind, h]
      simp only [counter, hread]
      rw [if_pos hmax]
      rfl
    have hone : n + 1 ≠ 1 := by
      intro heq
      have := toInt_succ hmax
      rw [heq, show (1 : Int64).toInt = 1 from rfl] at this
      omega
    refine Or.inr ⟨hmax, ?_⟩
    simp [checkScript, bind_apply, pure_apply, hincr, hone]
  · refine Or.inl ⟨.overflow, ?_⟩
    have hincr : incr key time db = (.error .overflow, db) := by
      rw [incr, lookup_bind, h]
      simp only [counter, hread]
      rw [if_neg hmax]
      rfl
    rw [checkScript, bind_apply, hincr]

/-- Unless it fails, the script counts one more check in a counter of `n` that expires at `t`. -/
theorem checkScript_counts {n : Nat} {t : Int}
    (h : (n = 0 ∧ db.get key = none ∧ t = time + ttl * 10 ^ 6) ∨ (0 < n ∧ n ≤ 2 ^ 63 - 1 ∧
      db.get key = some ⟨counter n, some t⟩ ∧ ∀ d, deadline time ttl = .ok d → time < t)) :
    (∃ e, (checkScript key ttl time db).1 = .error e) ∨ (n + 1 ≤ 2 ^ 63 - 1 ∧ ∃ (m : Int64) (db' : Db),
      m.toInt = (n + 1 : Nat) ∧ checkScript key ttl time db = (.ok m, db') ∧
      ∀ k, db'.get k = if k = key then some ⟨counter (n + 1 : Nat), some t⟩ else db.get k) := by
  rcases h with ⟨rfl, hnone, rfl⟩ | ⟨hpos, hmax, hsome, hbefore⟩
  · have hlive : live Stored.alive time db key = none := live_of_get_none hnone
    rcases checkScript_new ttl hlive with he | ⟨t, hd, hrun⟩
    · exact Or.inl he
    · obtain ⟨rfl, -⟩ := deadline_ok hd
      refine Or.inr ⟨by decide, 1, _, rfl, hrun, fun k => ?_⟩
      rw [Table.get_insert, Table.get_insert]
      split <;> rfl
  · by_cases halive : time < t
    · have hlive : live Stored.alive time db key = some ⟨counter n, some t⟩ :=
        live_of_get_some hsome (decide_eq_true halive)
      have hm : (Int64.ofInt n).toInt = n := Int64.toInt_ofInt_of_le (by omega) (by omega)
      rw [← hm] at hlive
      rcases checkScript_more ttl (by rw [hm]; omega) hlive with he | ⟨hmax', hrun⟩
      · exact Or.inl he
      · rw [hm] at hmax' hrun
        refine Or.inr ⟨by omega, _, _, ?_, hrun, fun k => ?_⟩
        · rw [toInt_succ (by rw [hm]; exact hmax'), hm]; rfl
        · rw [Table.get_insert]; rfl
    · -- an expired counter would start anew, with an expiry time out of range
      have hdead : live Stored.alive time db key = none :=
        live_of_get_dead hsome (decide_eq_false halive)
      rcases checkScript_new ttl hdead with he | ⟨d, hd, -⟩
      · exact Or.inl he
      · exact absurd (hbefore d hd) halive

end

/-- A later check comes before the counter of an earlier one in its window expires. From the epoch
on it does by itself; earlier readings all fall in the window that starts there. -/
def BeforeExpiry (a b : CheckCall) : Prop :=
  ∀ count window, a.limit = .fixed count window → a.ns.value = b.ns.value → a.key.value = b.key.value →
    windowStart window a.now = windowStart window b.now → 0 ≤ a.now.nanos ∨
      b.now.nanos < a.now.nanos + bucketTtl (windowMillis window) * 10 ^ 6

theorem lt_unixMillis_succ (now : SystemTime) : now.nanos < (unixMillis now + 1) * 10 ^ 6 := by
  unfold unixMillis SystemTime.sinceEpoch
  split
  · simp only [Option.getD_some, Duration.asMillis]
    omega
  · simp only [Option.getD_none, Duration.asMillis, Duration.fromSecs]
    omega

theorem unixMillis_le {now : SystemTime} (h : 0 ≤ now.nanos) : (unixMillis now * 10 ^ 6 : Int) ≤ now.nanos := by
  unfold unixMillis SystemTime.sinceEpoch
  rw [dif_pos h]
  simp only [Option.getD_some, Duration.asMillis]
  omega

theorem bucketTtl_cases (windowMillis : Nat) :
    bucketTtl windowMillis = windowMillis + 1000 ∨ bucketTtl windowMillis = 2 ^ 63 - 1 := by
  unfold bucketTtl u128SaturatingAdd
  by_cases h : min (windowMillis + 1000) (2 ^ 128 - 1) ≤ 2 ^ 63 - 1
  · refine Or.inl ((if_pos h).trans ?_)
    omega
  · exact Or.inr (if_neg h)

/-- From the epoch on, a counter lives to the end of its window, or to the last time Redis has. -/
theorem before_expiry_of_epoch {window : Duration} {first now : SystemTime} {t : Int}
    (hsame : windowStart window first = windowStart window now) (hepoch : 0 ≤ first.nanos)
    (hd : deadline now.nanos (bucketTtl (windowMillis window)) = .ok t) :
    now.nanos < first.nanos + bucketTtl (windowMillis window) * 10 ^ 6 := by
  have h1 := lt_unixMillis_succ now
  have h2 := unixMillis_le hepoch
  have h3 := windowStart_le window first
  have h4 := lt_windowStart_add window now
  obtain ⟨rfl, -, hmax⟩ := deadline_ok hd
  rcases bucketTtl_cases (windowMillis window) with h | h
  · rw [h]; omega
  · -- the largest time to live is accepted in the first millisecond only
    rw [h] at hmax ⊢; omega

/-- The counter of a window holds the number of its checks and expires a fixed time after the first. -/
def Stores (limits : Limits) (past : List CheckCall) (db : Db) : Prop :=
  ∀ ns key count window, limits ns key = .fixed count window → window.isZero = false → ∀ w,
    let n := hits ns key window w past
    let stored := db.get (Utf8.encode (redisBucketKey ns key w))
    (n = 0 ∧ stored = none) ∨ (0 < n ∧ n ≤ 2 ^ 63 - 1 ∧ ∃ first ∈ past, first.limit = .fixed count window ∧
      first.ns.value = ns.value ∧ first.key.value = key.value ∧ windowStart window first.now = w ∧
      stored = some ⟨counter n, some (first.now.nanos + bucketTtl (windowMillis window) * 10 ^ 6)⟩)

theorem u32OfI64_eq {n : Int64} {k : Nat} (h : n.toInt = k) : u32OfI64 n = min k u32Max := by
  unfold u32OfI64
  rw [h]
  by_cases hk : k ≤ u32Max
  · rw [if_pos (by omega)]; omega
  · rw [if_neg (by omega)]; omega

theorem check_redis_fixed (redisError : RedisError → Str) {db : Db} {c : CheckCall} {count : NonZeroU32}
    {window : Duration} (hlimit : c.limit = .fixed count window) (hw : window.isZero = false) :
    (redisBackend redisError).step db c =
      match checkScript (Utf8.encode (redisBucketKey c.ns c.key (windowStart window c.now)))
        (bucketTtl (windowMillis window)) c.now.nanos db with
      | (.error e, db) => (.error (.backend (redisError e)), db)
      | (.ok current, db) => (.ok (decisionAt count window c.now (u32OfI64 current)), db) := by
  show RedisFixedWindow.check redisError ⟨c.ns⟩ c.now.nanos db c.key c.limit c.now = _
  rw [hlimit]
  simp only [RedisFixedWindow.check, hw, Bool.false_eq_true, if_false]
  show (match checkScript (Utf8.encode (redisBucketKey c.ns c.key (windowStart window c.now)))
    (bucketTtl (windowMillis window)) c.now.nanos db with | (.error e, db) => _ | (.ok current, db) => _) = _
  rcases checkScript (Utf8.encode (redisBucketKey c.ns c.key (windowStart window c.now)))
    (bucketTtl (windowMillis window)) c.now.nanos db with ⟨e | current, db'⟩
  · rfl
  · simp [decisionAt, windowStart]

theorem Stores.keep {past : List CheckCall} {c : CheckCall} {db : Db} (h : Stores limits past db)
    (hc : c.limit = limits c.ns c.key) (hno : ∀ count window, c.limit = .fixed count window → window.isZero = true) :
    Stores limits (c :: past) db := by
  intro ns key count window hlimit hw w
  rw [hits_of_unlimited past hc hlimit fun heq => by rw [hno _ _ heq] at hw; cases hw]
  rcases h ns key count window hlimit hw w with hnone | ⟨hpos, hmax, first, hfirst, hrest⟩
  · exact Or.inl hnone
  · exact Or.inr ⟨hpos, hmax, first, List.mem_cons_of_mem _ hfirst, hrest⟩

/-- Counting a check in its window and nothing else keeps what the counters hold. -/
theorem Stores.count {past : List CheckCall} {c : CheckCall} {db db' : Db} (h : Stores limits past db)
    {count : NonZeroU32} {window : Duration} (hlimit : limits c.ns c.key = .fixed count window)
    {first : CheckCall} (hfirst : first ∈ c :: past) (hfixed : first.limit = .fixed count window)
    (hns : first.ns.value = c.ns.value) (hkey : first.key.value = c.key.value)
    (hwindow : windowStart window first.now = windowStart window c.now)
    (hmax : hits c.ns c.key window (windowStart window c.now) past + 1 ≤ 2 ^ 63 - 1)
    (hget : ∀ k, db'.get k = if k = Utf8.encode (redisBucketKey c.ns c.key (windowStart window c.now)) then
      some ⟨counter (hits c.ns c.key window (windowStart window c.now) past + 1 : Nat),
        some (first.now.nanos + bucketTtl (windowMillis window) * 10 ^ 6)⟩ else db.get k) :
    Stores limits (c :: past) db' := by
  intro ns key count' window' hlimit' hw' w
  by_cases hsame : c.ns.value = ns.value ∧ c.key.value = key.value ∧ windowStart window' c.now = w
  · obtain ⟨hns', hkey', rfl⟩ := hsame
    obtain rfl := Namespace.ext hns'
    obtain rfl := RateLimitKey.ext hkey'
    rw [hlimit, LimitSpec.fixed.injEq] at hlimit'
    obtain ⟨rfl, rfl⟩ := hlimit'
    rw [hits_of_same past rfl rfl rfl]
    exact Or.inr ⟨Nat.succ_pos _, hmax, first, hfirst, hfixed, hns, hkey, hwindow, by rw [hget, if_pos rfl]⟩
  · rw [hits_of_other past hsame, hget, if_neg]
    · rcases h ns key count' window' hlimit' hw' w with hnone | ⟨hpos, hmax', first', hfirst', hrest⟩
      · exact Or.inl hnone
      · exact Or.inr ⟨hpos, hmax', first', List.mem_cons_of_mem _ hfirst', hrest⟩
    · -- another namespace, key or window has another bucket key
      intro heq
      obtain ⟨h1, h2, h3⟩ := redisBucketKey_inj (Utf8.encode_injective heq)
      obtain rfl := Namespace.ext h1
      obtain rfl := RateLimitKey.ext h2
      rw [hlimit, LimitSpec.fixed.injEq] at hlimit'
      obtain ⟨rfl, rfl⟩ := hlimit'
      exact hsame ⟨rfl, rfl, h3.symm⟩

/-- The counter a check finds: a new one, or the one of the first check of its window. -/
theorem Stores.first {past : List CheckCall} {c : CheckCall} {db : Db} (h : Stores limits past db)
    {count : NonZeroU32} {window : Duration} (hlimits : limits c.ns c.key = .fixed count window)
    (hw : window.isZero = false) (hlimit : c.limit = .fixed count window) (hbefore : ∀ b ∈ past, BeforeExpiry b c) :
    let n := hits c.ns c.key window (windowStart window c.now) past
    let stored := db.get (Utf8.encode (redisBucketKey c.ns c.key (windowStart window c.now)))
    let ttl := bucketTtl (windowMillis window)
    ∃ first ∈ c :: past, first.limit = .fixed count window ∧ first.ns.value = c.ns.value ∧
      first.key.value = c.key.value ∧ windowStart window first.now = windowStart window c.now ∧
      ((n = 0 ∧ stored = none ∧ first.now.nanos + (ttl : Int) * 10 ^ 6 = c.now.nanos + ttl * 10 ^ 6) ∨
        (0 < n ∧ n ≤ 2 ^ 63 - 1 ∧ stored = some ⟨counter n, some (first.now.nanos + ttl * 10 ^ 6)⟩ ∧
          ∀ d, deadline c.now.nanos ttl = .ok d → c.now.nanos < first.now.nanos + ttl * 10 ^ 6)) := by
  rcases h c.ns c.key count window hlimits hw (windowStart window c.now) with
    ⟨hzero, hnone⟩ | ⟨hpos, hmax, first, hfirst, hfixed, hns, hkey, hwindow, hsome⟩
  · exact ⟨c, List.mem_cons_self .., hlimit, rfl, rfl, rfl, Or.inl ⟨hzero, hnone, rfl⟩⟩
  · refine ⟨first, List.mem_cons_of_mem _ hfirst, hfixed, hns, hkey, hwindow,
      Or.inr ⟨hpos, hmax, hsome, fun d hd => ?_⟩⟩
    rcases hbefore first hfirst count window hfixed hns hkey hwindow with hepoch | hlt
    · exact before_expiry_of_epoch hwindow hepoch hd
    · exact hlt

theorem redis_step (redisError : RedisError → Str) {past : List CheckCall} {c : CheckCall} {db : Db}
    (hbefore : ∀ b ∈ past, BeforeExpiry b c) (hc : c.limit = limits c.ns c.key)
    (hok : ∀ m, ((redisBackend redisError).step db c).1 ≠ .error (.backend m)) (h : Stores limits past db) :
    ((redisBackend redisError).step db c).1 = reference past c ∧
      Stores limits (c :: past) ((redisBackend redisError).step db c).2 := by
  rcases hlimit : c.limit with ⟨count, window⟩ | _
  swap
  · have hstep : (redisBackend redisError).step db c = (.ok .unlimited, db) := by
      show RedisFixedWindow.check redisError ⟨c.ns⟩ c.now.nanos db c.key c.limit c.now = _
      rw [hlimit]; rfl
    rw [hstep]
    exact ⟨by simp only [reference, hlimit], h.keep hc fun _ _ heq => by rw [hlimit] at heq; cases heq⟩
  cases hw : window.isZero with
  | true =>
    have hstep : (redisBackend redisError).step db c = (.error .zeroWindow, db) := by
      show RedisFixedWindow.check redisError ⟨c.ns⟩ c.now.nanos db c.key c.limit c.now = _
      rw [hlimit]
      simp only [RedisFixedWindow.check, hw, if_true]
    rw [hstep]
    refine ⟨by simp only [reference, hlimit, hw, if_true], h.keep hc fun count' window' heq => ?_⟩
    rw [hlimit, LimitSpec.fixed.injEq] at heq
    rw [← heq.2, hw]
  | false =>
    have hlimits : limits c.ns c.key = .fixed count window := by rw [← hc, hlimit]
    rw [check_redis_fixed redisError hlimit hw] at hok ⊢
    rw [reference_fixed hlimit hw]
    -- the counter of the window carries the expiry time of the first call that hit it
    obtain ⟨first, hfirst, hfixed, hns, hkey, hwindow, hcounter⟩ := h.first hlimits hw hlimit hbefore
    rcases checkScript_counts hcounter with ⟨e, he⟩ | ⟨hmax, m, db', hm, hrun, hget⟩
    · -- a failing script is a backend error
      generalize checkScript _ _ _ _ = r at he hok
      obtain ⟨_, db'⟩ := r
      cases he
      exact absurd rfl (hok _)
    · rw [hrun]
      refine ⟨?_, h.count hlimits hfirst hfixed hns hkey hwindow hmax hget⟩
      rw [← u32OfI64_eq hm]

/-- As long as Redis does not fail and every window's checks come before its counter expires, the
Redis backend decides by the number of each check. -/
theorem redis_eq_reference (redisError : RedisError → Str) {calls : List CheckCall}
    (hlimits : ∀ c ∈ calls, c.limit = limits c.ns c.key) (hbefore : calls.Pairwise BeforeExpiry)
    (hredis : ∀ answer ∈ (redisBackend redisError).outputs ∅ calls, ∀ e, answer ≠ .error (.backend e)) :
    (redisBackend redisError).outputs ∅ calls = (Machine.history reference).outputs [] calls := by
  refine Machine.outputs_eq_history (Q := Stores limits)
    (P := fun e => e.1.limit = limits e.1.ns e.1.key ∧ ∀ m, e.2 ≠ .error (.backend m))
    (fun past c db hbefore hP h => redis_step redisError hbefore hP.1 hP.2 h) (fun e he => ⟨?_, ?_⟩)
    (fun _ hb => nomatch hb) hbefore ?_
  · exact hlimits e.1 (Machine.mem_inputs _ he)
  · exact hredis e.2 (Machine.mem_outputs _ he)
  · intro ns key count window _ _ w
    exact Or.inl ⟨rfl, Table.get_empty _⟩

/-! ## The two backends -/

/-- Before the epoch they may differ: all earlier readings fall in the window that starts there, so a
counter may expire while its window lasts. -/
theorem fixedWindow_backends_differ : ¬ ∀ (redisError : RedisError → Str) (limits : Limits) (calls : List CheckCall),
    (∀ c ∈ calls, c.limit = limits c.ns c.key) → calls.Pairwise (fun a b => a.now.nanos ≤ b.now.nanos) →
    (∀ answer ∈ (redisBackend redisError).outputs ∅ calls, ∀ e, answer ≠ .error (.backend e)) →
    (redisBackend redisError).outputs ∅ calls = inProcess.outputs .new calls := by
  intro h
  let limit : LimitSpec := .fixed ⟨1, by decide, by decide⟩ (.fromSecs 1)
  let calls : List CheckCall := [⟨⟨"auth".toList, rfl⟩, ⟨"login".toList, rfl⟩, limit, ⟨-10 ^ 10, by decide, by decide⟩⟩,
    ⟨⟨"auth".toList, rfl⟩, ⟨"login".toList, rfl⟩, limit, ⟨-5 * 10 ^ 9, by decide, by decide⟩⟩]
  have hredis : (redisBackend fun _ => []).outputs ∅ calls =
      [.ok ⟨true, 0, none, .healthy⟩, .ok ⟨true, 0, none, .healthy⟩] := by decide
  have hinProcess : (inProcess.outputs .new calls).map (fun a => a.map (·.allowed)) = [.ok true, .ok false] := by decide
  have hsame := h (fun _ => []) (fun _ _ => limit) calls (by decide) (by decide) (by rw [hredis]; simp)
  rw [← hsame, hredis] at hinProcess
  simp [Except.map] at hinProcess

/-- Along nondecreasing readings and with one limit a key, the in-process backend decides each check
by its number in its window. A Redis that does not fail decides alike, as long as no check before
the epoch is followed by one of its window after its counter has expired. -/
theorem fixedWindow_backends_agree (redisError : RedisError → Str) (limits : Limits) (calls : List CheckCall)
    (hlimits : ∀ c ∈ calls, c.limit = limits c.ns c.key)
    (htimes : calls.Pairwise fun a b => a.now.nanos ≤ b.now.nanos) :
    inProcess.outputs .new calls = (Machine.history reference).outputs [] calls ∧
    (calls.Pairwise BeforeExpiry →
      (∀ answer ∈ (redisBackend redisError).outputs ∅ calls, ∀ e, answer ≠ .error (.backend e)) →
      (redisBackend redisError).outputs ∅ calls = inProcess.outputs .new calls) := by
  have hreference := inProcess_eq_reference hlimits htimes
  refine ⟨hreference, fun hbefore hredis => ?_⟩
  exact (redis_eq_reference redisError hlimits hbefore hredis).trans hreference.symm

/-- Readings from the epoch on come before expiry. -/
theorem beforeExpiry_of_epoch {calls : List CheckCall} (h : ∀ c ∈ calls, 0 ≤ c.now.nanos) :
    calls.Pairwise BeforeExpiry :=
  List.pairwise_of_forall_mem_list fun a ha _ _ _ _ _ _ _ _ => Or.inl (h a ha)

end

/-- Two checks a second, one a minute, and a key whose name reads like another's bucket key. -/
def checksOfTwoKeys : List CheckCall :=
  let perSecond : LimitSpec := .fixed ⟨2, by decide, by decide⟩ (.fromSecs 1)
  let perMinute : LimitSpec := .fixed ⟨1, by decide, by decide⟩ (.fromSecs 60)
  [⟨⟨"a".toList, rfl⟩, ⟨"b:1:c".toList, rfl⟩, perSecond, .ofMillis 500⟩,
    ⟨⟨"a".toList, rfl⟩, ⟨"b:1:c".toList, rfl⟩, perSecond, .ofMillis 600⟩,
    ⟨⟨"a:1:b".toList, rfl⟩, ⟨"c".toList, rfl⟩, perMinute, .ofMillis 700⟩,
    ⟨⟨"a".toList, rfl⟩, ⟨"b:1:c".toList, rfl⟩, perSecond, .ofMillis 999⟩,
    ⟨⟨"a".toList, rfl⟩, ⟨"b:1:c".toList, rfl⟩, perSecond, .ofMillis 1000⟩,
    ⟨⟨"a:1:b".toList, rfl⟩, ⟨"c".toList, rfl⟩, perMinute, .ofMillis 59999⟩]

theorem fixedWindow_backends_agree_checksOfTwoKeys :
    (redisBackend fun _ => []).outputs ∅ checksOfTwoKeys = inProcess.outputs .new checksOfTwoKeys := by
  refine (fixedWindow_backends_agree (fun _ => []) (fun ns _ => if ns.value = "a".toList
    then .fixed ⟨2, by decide, by decide⟩ (.fromSecs 1) else .fixed ⟨1, by decide, by decide⟩ (.fromSecs 60))
    checksOfTwoKeys (by decide) (by decide)).2 (beforeExpiry_of_epoch (by decide)) ?_
  have houtputs : ((redisBackend fun _ => []).outputs ∅ checksOfTwoKeys).map (fun a => a.map (·.allowed)) =
      [.ok true, .ok true, .ok true, .ok false, .ok true, .ok false] := by decide
  intro answer hanswer e he
  have := List.mem_map_of_mem (f := fun a : Except RateLimitError RateLimitDecision => a.map (·.allowed)) hanswer
  rw [houtputs, he] at this
  simp [Except.map] at this

end WorldInfra.RateLimit
