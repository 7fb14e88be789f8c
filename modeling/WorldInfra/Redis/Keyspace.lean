/-
The part of Redis the crates talk to: a keyspace of strings and hashes with expiry times, and the
commands used on it, each atomic at the time it runs. A script is a sequence of commands that
stops at the first error and keeps the effects before it; a transaction runs all its commands.
-/
import WorldInfra.Lib.Expiring
import WorldInfra.Rust.Num
import WorldInfra.Rust.Time
import WorldInfra.Rust.Utf8

namespace WorldInfra.Redis

open WorldInfra.Lib WorldInfra.Rust

inductive RedisError where
  | wrongType
  | invalidExpire
  | notAnInteger
  | overflow
  deriving DecidableEq, Repr

inductive Value where
  | str (s : Bytes)
  | hash (fields : Table Bytes Bytes)

/-- A key's value and the time it expires at, in nanoseconds since the Unix epoch. -/
structure Stored where
  value : Value
  expireAt : Option Int

def Stored.alive (now : Int) (e : Stored) : Bool :=
  match e.expireAt with
  | none => true
  | some t => decide (now < t)

theorem Stored.alive_of_le {now now' : Int} {e : Stored} (h : now ≤ now') (he : e.alive now' = true) :
    e.alive now = true := by
  unfold Stored.alive at *
  split
  · rfl
  · rename_i t ht
    rw [ht] at he
    simp only [decide_eq_true_eq] at he ⊢
    omega

abbrev Db : Type := Table Bytes Stored

/-- What a command or a script does at a time. -/
def Command (α : Type) : Type := Int → Db → Except RedisError α × Db

instance : Monad Command where
  pure a := fun _ db => (.ok a, db)
  bind x f := fun now db =>
    match x now db with
    | (.ok a, db) => f a now db
    | (.error e, db) => (.error e, db)

theorem bind_apply {α β : Type} (x : Command α) (f : α → Command β) (now : Int) (db : Db) :
    (x >>= f) now db = match x now db with
      | (.ok a, db) => f a now db
      | (.error e, db) => (.error e, db) := rfl

theorem pure_apply {α : Type} (a : α) (now : Int) (db : Db) : (pure a : Command α) now db = (.ok a, db) := rfl

theorem discard_apply {α : Type} (x : Command α) (now : Int) (db : Db) :
    (discard x : Command Unit) now db = match x now db with
      | (.ok _, db) => (.ok (), db)
      | (.error e, db) => (.error e, db) := rfl

/-- A transaction runs every command and reports the first error. -/
def transaction : List (Command Unit) → Command Unit
  | [] => pure ()
  | c :: cs => fun now db =>
    let r := c now db
    let rs := transaction cs now r.2
    (match r.1 with
      | .ok () => rs.1
      | .error e => .error e, rs.2)

/-! ## Commands -/

def lookup (key : Bytes) : Command (Option Stored) := fun now db => (.ok (live Stored.alive now db key), db)

def store (key : Bytes) (e : Stored) : Command Unit := fun _ db => (.ok (), db.insert key e)

def fail {α : Type} (e : RedisError) : Command α := fun _ db => (.error e, db)

def exists' (key : Bytes) : Command Bool := do
  let e ← lookup key
  return e.isSome

/-- `DEL`: whether the key was there. -/
def del (key : Bytes) : Command Bool := fun now db =>
  (.ok (live Stored.alive now db key).isSome, db.remove key)

def get (key : Bytes) : Command (Option Bytes) := do
  match ← lookup key with
  | none => return none
  | some ⟨.str s, _⟩ => return some s
  | some ⟨.hash _, _⟩ => fail .wrongType

/-- The largest expiry time of a key, in milliseconds. -/
def maxExpireMillis : Int := 2 ^ 63 - 1

/-- The expiry time `millis` from now, if it is in the accepted range. -/
def deadline (now : Int) (millis : Nat) : Except RedisError Int :=
  if 0 < millis ∧ now / 10 ^ 6 + millis ≤ maxExpireMillis then .ok (now + millis * 10 ^ 6) else .error .invalidExpire

def setEx (key value : Bytes) (secs : Nat) : Command Unit := fun now =>
  match deadline now (secs * 1000) with
  | .ok t => store key ⟨.str value, some t⟩ now
  | .error e => fail e now

/-- `SET key value NX EX secs`: whether the value was set. -/
def setNxEx (key value : Bytes) (secs : Nat) : Command Bool := fun now =>
  match deadline now (secs * 1000) with
  | .error e => fail e now
  | .ok t =>
    (do
      match ← lookup key with
      | some _ => return false
      | none =>
        store key ⟨.str value, some t⟩
        return true : Command Bool) now

/-- `PEXPIRE`, and `EXPIRE` of whole seconds: whether there was a key to expire. -/
def pexpire (key : Bytes) (millis : Nat) : Command Bool := fun now =>
  match deadline now millis with
  | .error e => fail e now
  | .ok t =>
    (do
      match ← lookup key with
      | none => return false
      | some e =>
        store key { e with expireAt := some t }
        return true : Command Bool) now

def expire (key : Bytes) (secs : Nat) : Command Bool := pexpire key (secs * 1000)

def setFields (h : Table Bytes Bytes) (fields : List (Bytes × Bytes)) : Table Bytes Bytes :=
  fields.foldl (fun h f => h.insert f.1 f.2) h

def hset (key : Bytes) (fields : List (Bytes × Bytes)) : Command Unit := do
  match ← lookup key with
  | none => store key ⟨.hash (setFields ∅ fields), none⟩
  | some ⟨.hash h, t⟩ => store key ⟨.hash (setFields h fields), t⟩
  | some ⟨.str _, _⟩ => fail .wrongType

def hget (key field : Bytes) : Command (Option Bytes) := do
  match ← lookup key with
  | none => return none
  | some ⟨.hash h, _⟩ => return h.get field
  | some ⟨.str _, _⟩ => fail .wrongType

def hgetall (key : Bytes) : Command (Table Bytes Bytes) := do
  match ← lookup key with
  | none => return ∅
  | some ⟨.hash h, _⟩ => return h
  | some ⟨.str _, _⟩ => fail .wrongType

/-- `INCR`: the counter after it. -/
def incr (key : Bytes) : Command Int64 := do
  let e ← lookup key
  match e with
  | some ⟨.hash _, _⟩ => fail .wrongType
  | some ⟨.str s, t⟩ =>
    match (Utf8.decode s).map parseI64 with
    | some (.ok n) =>
      -- the expiry time stays with the counter
      if n.toInt + 1 ≤ 2 ^ 63 - 1 then
        store key ⟨.str (Utf8.encode (decimal (n.toInt + 1))), t⟩
        return n + 1
      else fail .overflow
    | _ => fail .notAnInteger
  | none =>
    store key ⟨.str (Utf8.encode (decimal 1)), none⟩
    return 1

/-- A Lua number holds an integer exactly up to `2 ^ 53`; a larger expiry time is out of range. -/
def luaNumber (n : Nat) : Command Nat := if n ≤ 2 ^ 53 then pure n else fail .invalidExpire

theorem luaNumber_ok {n : Nat} (h : n ≤ 2 ^ 53) (now : Int) (db : Db) : luaNumber n now db = (.ok n, db) := by
  rw [luaNumber, if_pos h]
  rfl

theorem luaNumber_error {n : Nat} (h : ¬ n ≤ 2 ^ 53) (now : Int) (db : Db) :
    luaNumber n now db = (.error .invalidExpire, db) := by
  rw [luaNumber, if_neg h]
  rfl

theorem get_setFields : ∀ {fields : List (Bytes × Bytes)} (h : Table Bytes Bytes) {f v : Bytes},
    (fields.map Prod.fst).Nodup → ((setFields h fields).get f = some v ↔
      (f, v) ∈ fields ∨ (f ∉ fields.map Prod.fst ∧ h.get f = some v))
  | [], h, f, v, _ => by simp [setFields]
  | (a, b) :: fields, h, f, v, hnd => by
    rw [List.map_cons, List.nodup_cons] at hnd
    have ih := get_setFields (h.insert a b) (f := f) (v := v) hnd.2
    rw [show setFields h ((a, b) :: fields) = setFields (h.insert a b) fields from rfl, ih, Table.get_insert]
    by_cases hf : f = a
    · rw [hf]
      have hno : (a, v) ∉ fields := fun hm => hnd.1 (List.mem_map.2 ⟨(a, v), hm, rfl⟩)
      simp [hno, hnd.1, eq_comm]
    · simp only [hf, if_false, List.mem_cons, List.map_cons, Prod.mk.injEq, false_and, false_or]

/-! ## What commands do -/

section

variable {now : Int} {db : Db} {key : Bytes}

theorem deadline_ok {millis : Nat} {t : Int} (h : deadline now millis = .ok t) :
    t = now + millis * 10 ^ 6 ∧ now < t ∧ t < 2 ^ 63 * 10 ^ 6 := by
  unfold deadline maxExpireMillis at h
  split at h
  · cases h
    omega
  · cases h

/-- A clock that reaches every expiry time Redis accepts never saturates on one. -/
theorem saturatingAdd_of_deadline {c : Clock} (hclock : 2 ^ 63 * 10 ^ 6 ≤ c.max) {now : c.Instant} {ttl : Duration}
    {t : Int} (h : deadline now.1 (ttlSecsCeil ttl * 1000) = .ok t) :
    (saturatingAdd now (ttlDuration (roundTtl ttl))).1 = t := by
  obtain ⟨rfl, -, hlt⟩ := deadline_ok h
  have hnanos : (roundTtl ttl).nanos = ttlSecsCeil ttl * 10 ^ 9 := roundTtl_nanos ttl
  rw [ttlDuration_roundTtl, saturatingAdd_of_le (by rw [hnanos]; omega)]
  show ((now.1 + (roundTtl ttl).nanos : Nat) : Int) = _
  rw [hnanos]
  omega

theorem lookup_bind {α : Type} (f : Option Stored → Command α) :
    (lookup key >>= f) now db = f (live Stored.alive now db key) now db := rfl

theorem pexpire_some {e : Stored} {millis : Nat} (h : live Stored.alive now db key = some e) :
    pexpire key millis now db = match deadline now millis with
      | .ok t => (.ok true, db.insert key { e with expireAt := some t })
      | .error err => (.error err, db) := by
  unfold pexpire
  cases deadline now millis with
  | error err => rfl
  | ok t =>
    simp only [lookup_bind, h]
    rfl

/-- Writing fields keeps the other fields and the expiry time of a hash that is there. -/
theorem hset_spec {m : Table Bytes Bytes} (fields : List (Bytes × Bytes))
    (h : (live Stored.alive now db key = none ∧ m = ∅) ∨ ∃ t, live Stored.alive now db key = some ⟨.hash m, t⟩) :
    ∃ t, hset key fields now db = (.ok (), db.insert key ⟨.hash (setFields m fields), t⟩) ∧
      live Stored.alive now (db.insert key ⟨.hash (setFields m fields), t⟩) key =
        some ⟨.hash (setFields m fields), t⟩ := by
  unfold hset
  rw [lookup_bind]
  rcases h with ⟨h, rfl⟩ | ⟨t, h⟩
  · refine ⟨none, by rw [h]; rfl, ?_⟩
    exact live_of_get_some (Table.get_insert_self ..) rfl
  · refine ⟨t, by rw [h]; rfl, ?_⟩
    have halive := (live_eq_some_iff.1 h).2
    exact live_of_get_some (Table.get_insert_self ..) halive

/-- The two commands that write a session, up to their error. -/
theorem hset_expire {m : Table Bytes Bytes} (fields : List (Bytes × Bytes)) {secs : Nat} {t : Int}
    (h : (live Stored.alive now db key = none ∧ m = ∅) ∨ ∃ t, live Stored.alive now db key = some ⟨.hash m, t⟩)
    (hdeadline : deadline now (secs * 1000) = .ok t) :
    ∃ db₁ db₂, hset key fields now db = (.ok (), db₁) ∧ expire key secs now db₁ = (.ok true, db₂) ∧
      ∀ k, db₂.get k = if k = key then some ⟨.hash (setFields m fields), some t⟩ else db.get k := by
  obtain ⟨t', hset, hlive⟩ := hset_spec fields h
  refine ⟨_, _, hset, by rw [expire, pexpire_some hlive, hdeadline], fun k => ?_⟩
  rw [Table.get_insert, Table.get_insert]
  split <;> rfl

theorem expire_error {e : RedisError} {secs : Nat} (h : deadline now (secs * 1000) = .error e) :
    expire key secs now db = (.error e, db) := by
  rw [expire, pexpire, h]
  rfl

/-- The transaction that writes a hash and its expiry time fails, or does both. -/
theorem transaction_hset_expire {m : Table Bytes Bytes} (fields : List (Bytes × Bytes)) (secs : Nat)
    (h : (live Stored.alive now db key = none ∧ m = ∅) ∨ ∃ t, live Stored.alive now db key = some ⟨.hash m, t⟩) :
    (∃ e, (transaction [hset key fields, discard <| expire key secs] now db).1 = .error e) ∨
    ∃ t db', deadline now (secs * 1000) = .ok t ∧
      transaction [hset key fields, discard <| expire key secs] now db = (.ok (), db') ∧
      ∀ k, db'.get k = if k = key then some ⟨.hash (setFields m fields), some t⟩ else db.get k := by
  rcases hd : deadline now (secs * 1000) with e | t
  · obtain ⟨t₁, hset, -⟩ := hset_spec fields h
    refine Or.inl ⟨e, ?_⟩
    simp [transaction, discard_apply, hset, expire_error hd]
  · obtain ⟨db₁, db₂, hset, hexpire, hget⟩ := hset_expire fields h hd
    refine Or.inr ⟨t, db₂, rfl, ?_, hget⟩
    simp [transaction, discard_apply, pure_apply, hset, hexpire]

end

end WorldInfra.Redis
