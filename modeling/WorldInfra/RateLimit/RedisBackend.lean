/-
rate-limit-core: the Redis fixed-window backend. Every window of every key has a counter of its
own, under a key from which namespace, key and window can be read back.
-/
import WorldInfra.RateLimit.InProcess
import WorldInfra.Redis.Keyspace

namespace WorldInfra.RateLimit

open WorldInfra.Lib WorldInfra.Rust WorldInfra.Redis

/-- `RedisFixedWindow`; its command timeout is a hint that `check` does not read. -/
structure RedisFixedWindow where
  (namespace' : Namespace)

def redisBucketKey (namespace' : Namespace) (key : RateLimitKey) (bucket : Nat) : Str :=
  "rl:".toList ++ decimal namespace'.value.len ++ ':' :: (namespace'.value ++ ':' ::
    (decimal key.value.len ++ ':' :: (key.value ++ ':' :: decimal bucket)))

/-- The script: count the check, and let a new counter expire. A Lua number tells counts apart up
to `2 ^ 53`, past every count a limit can have. -/
def checkScript (key : Bytes) (ttl : Nat) : Command Int64 := do
  let current ← incr key
  if current = 1 then
    discard <| pexpire key ttl
  return current

/-- The time to live of a counter, in milliseconds: `i64::try_from` of the window and a second. -/
def bucketTtl (windowMillis : Nat) : Nat :=
  let ttl := u128SaturatingAdd windowMillis 1000
  if ttl ≤ 2 ^ 63 - 1 then ttl else 2 ^ 63 - 1

/-- `u32::try_from`, or the largest. -/
def u32OfI64 (n : Int64) : Nat := if 0 ≤ n.toInt ∧ n.toInt ≤ u32Max then n.toInt.toNat else u32Max

variable (redisError : RedisError → Str)

/-- `RedisFixedWindow::check`, on a keyspace whose clock shows `time`. -/
def RedisFixedWindow.check (self : RedisFixedWindow) (time : Int) (db : Db) (key : RateLimitKey) (limit : LimitSpec)
    (now : SystemTime) : Except RateLimitError RateLimitDecision × Db :=
  match limit with
  | .unlimited => (.ok .unlimited, db)
  | .fixed count window =>
    if window.isZero then (.error .zeroWindow, db)
    else
      let windowMillis := windowMillis window
      let nowMillis := unixMillis now
      let bucket := nowMillis - nowMillis % windowMillis
      let redisKey := redisBucketKey self.namespace' key bucket
      match checkScript (Utf8.encode redisKey) (bucketTtl windowMillis) time db with
      | (.error e, db) => (.error (.backend (redisError e)), db)
      | (.ok current, db) =>
        let current := u32OfI64 current
        let allowed := decide (current ≤ count.val)
        let nextWindow := u128SaturatingAdd bucket windowMillis
        (.ok { allowed := allowed
               remaining := count.val - current
               retryAfter := if allowed then none else some (durationFromMillis (max (nextWindow - nowMillis) 1))
               health := .healthy }, db)

/-- The backends of all namespaces on one keyspace whose clock is the time each caller supplies. -/
def redisBackend : Machine Db CheckCall (Except RateLimitError RateLimitDecision) where
  step db c := RedisFixedWindow.check redisError ⟨c.ns⟩ c.now.nanos db c.key c.limit c.now

/-! ## Bucket keys -/

/-- Namespace, key and window are read back from a bucket key. -/
theorem redisBucketKey_inj {ns ns' : Namespace} {key key' : RateLimitKey} {bucket bucket' : Nat}
    (h : redisBucketKey ns key bucket = redisBucketKey ns' key' bucket') :
    ns.value = ns'.value ∧ key.value = key'.value ∧ bucket = bucket' := by
  change "rl:".toList ++ decimal ns.value.len ++ ':' :: (ns.value ++ ':' :: (decimal key.value.len ++ ':' ::
    (key.value ++ ':' :: decimal bucket))) = "rl:".toList ++ decimal ns'.value.len ++ ':' :: (ns'.value ++ ':' ::
    (decimal key'.value.len ++ ':' :: (key'.value ++ ':' :: decimal bucket'))) at h
  rw [List.append_assoc, List.append_assoc, List.append_cancel_left_eq] at h
  obtain ⟨hnsLen, h⟩ := decimal_colon_inj h
  obtain ⟨hns, h⟩ := Str.append_inj_of_len h hnsLen
  rw [List.cons.injEq] at h
  obtain ⟨hkeyLen, h⟩ := decimal_colon_inj h.2
  obtain ⟨hkey, h⟩ := Str.append_inj_of_len h hkeyLen
  rw [List.cons.injEq] at h
  exact ⟨hns, hkey, Int.ofNat_inj.1 (decimal_injective h.2)⟩

end WorldInfra.RateLimit
