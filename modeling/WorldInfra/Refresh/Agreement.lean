/-
auth-refresh-core: the Redis store answers as the in-memory store does. At every time the two show
the same sessions with the same expiry under the same keys; entries that have expired, which only
the in-memory store removes, are never shown.
-/
import WorldInfra.Refresh.InMemory
import WorldInfra.Refresh.Stored

namespace WorldInfra.Refresh

open WorldInfra.Lib WorldInfra.Rust WorldInfra.Redis

/-! ## The rotation script -/

section

variable {now : Int} {db : Db} {oldKey newKey : Bytes} {current next : List (Bytes × Bytes)} {ttlSecs : Nat}

theorem fieldsMatch_spec {key : Bytes} {m : Table Bytes Bytes} {t : Option Int}
    (h : live Stored.alive now db key = some ⟨.hash m, t⟩) : ∀ l : List (Bytes × Bytes),
    fieldsMatch key l now db = (.ok (decide (∀ p ∈ l, m.get p.1 = some p.2)), db)
  | [] => rfl
  | (field, value) :: l => by
    have hget : hget key field now db = (.ok (m.get field), db) := by
      rw [Redis.hget, lookup_bind, h]
      rfl
    rw [fieldsMatch, bind_apply, hget]
    simp only [List.forall_mem_cons]
    split
    · rename_i hne
      simp [hne, pure_apply]
    · rename_i heq
      rw [fieldsMatch_spec h l]
      simp [not_not.1 heq]

theorem rotateScript_no_old (h : live Stored.alive now db oldKey = none) :
    rotateScript oldKey newKey current next ttlSecs now db = (.ok 0, db) := by
  simp [rotateScript, exists', bind_apply, lookup, pure_apply, h]

theorem rotateScript_new {e e' : Stored} (h : live Stored.alive now db oldKey = some e)
    (h' : live Stored.alive now db newKey = some e') :
    rotateScript oldKey newKey current next ttlSecs now db = (.ok 0, db) := by
  simp [rotateScript, exists', bind_apply, lookup, pure_apply, h, h']

theorem rotateScript_other {m : Table Bytes Bytes} {t : Option Int}
    (h : live Stored.alive now db oldKey = some ⟨.hash m, t⟩) (h' : live Stored.alive now db newKey = none)
    (hother : ¬ ∀ p ∈ current, m.get p.1 = some p.2) :
    rotateScript oldKey newKey current next ttlSecs now db = (.ok 0, db) := by
  have hmatch := fieldsMatch_spec h current
  simp only [hother, decide_false] at hmatch
  simp [rotateScript, exists', bind_apply, lookup, pure_apply, h, h', hmatch]

/-- A rotation that passes the comparisons and does not fail moves the key. -/
theorem rotateScript_rotates {m : Table Bytes Bytes} {t : Option Int} {n : Nat} {db' : Db}
    (h : live Stored.alive now db oldKey = some ⟨.hash m, t⟩) (h' : live Stored.alive now db newKey = none)
    (hmatch : ∀ p ∈ current, m.get p.1 = some p.2)
    (hrun : rotateScript oldKey newKey current next ttlSecs now db = (.ok n, db')) :
    n = 1 ∧ ∃ t', deadline now (ttlSecs * 1000) = .ok t' ∧ ∀ k, db'.get k =
      if k = newKey then some ⟨.hash (setFields ∅ next), some t'⟩ else if k = oldKey then none else db.get k := by
  have hfields := fieldsMatch_spec h current
  rw [decide_eq_true hmatch] at hfields
  have hnew : live Stored.alive now (db.remove oldKey) newKey = none := by
    rw [live_remove, h', ite_self]
  by_cases hn : ttlSecs ≤ 2 ^ 53
  · rcases hd : deadline now (ttlSecs * 1000) with e | t'
    · -- the hash is written when `EXPIRE` fails, but then so does the script
      obtain ⟨t₁, hset, -⟩ := hset_spec next (Or.inl ⟨hnew, rfl⟩)
      simp [rotateScript, exists', bind_apply, discard_apply, lookup, pure_apply, h, h', hfields, del, hset,
        luaNumber_ok hn, expire_error hd] at hrun
    · obtain ⟨db₁, db₂, hset, hexpire, hget⟩ := hset_expire next (Or.inl ⟨hnew, rfl⟩) hd
      simp [rotateScript, exists', bind_apply, discard_apply, lookup, pure_apply, h, h', hfields, del, hset,
        luaNumber_ok hn, hexpire] at hrun
      obtain ⟨rfl, rfl⟩ := hrun
      refine ⟨rfl, t', rfl, fun k => ?_⟩
      rw [hget, Table.get_remove]
  · obtain ⟨t₁, hset, -⟩ := hset_spec next (Or.inl ⟨hnew, rfl⟩)
    simp [rotateScript, exists', bind_apply, discard_apply, lookup, pure_apply, h, h', hfields, del, hset,
      luaNumber_error hn] at hrun

end

/-! ## Rounded calls -/

def RefreshOp.round : RefreshOp → RefreshOp
  | .set token session ttl => .set token session (roundTtl ttl)
  | .get token => .get token
  | .rotate oldToken newToken currentSession newSession ttl =>
    .rotate oldToken newToken currentSession newSession (roundTtl ttl)
  | .delete token => .delete token

def RefreshCall.round {T : Type} (call : RefreshCall T) : RefreshCall T := ⟨call.now, call.op.round⟩

/-- The call as Redis gets it. -/
def RefreshCall.unix {c : Clock} (call : RefreshCall c.Instant) : RefreshCall Int := ⟨call.now.1, call.op⟩

section

variable {c : Clock}

/-! ## The simulation -/

/-- A Redis key holds the session of an entry, and expires with it. -/
def StoredAs (config : RefreshStoreConfig) (e : Entry c) (stored : Stored) : Prop :=
  ∃ m, stored = ⟨.hash m, some e.expiresAt.1⟩ ∧ Holds config m e.session ∧ e.session.Accepted

theorem alive_of_storedAs {config : RefreshStoreConfig} {e : Entry c} {stored : Stored}
    (h : StoredAs config e stored) {t : c.Instant} : e.alive t = stored.alive t.1 := by
  obtain ⟨m, rfl, -⟩ := h
  simp only [Entry.alive, Stored.alive, Int.ofNat_lt]

/-- The stores show the same sessions at a time. -/
structure Agree (t : c.Instant) (s : InMemoryRefreshStore c) (r : RedisRefreshStore) : Prop where
  namespace_eq : r.namespace' = s.namespace'
  config_eq : r.config = s.config
  same : SameLive Entry.alive (fun t : c.Instant => Stored.alive t.1) Utf8.encode (StoredAs s.config) t s.entries r.db

theorem Agree.mono {t t' : c.Instant} {s : InMemoryRefreshStore c} {r : RedisRefreshStore} (ht : t ≤ t')
    (h : Agree t s r) : Agree t' s r := by
  refine ⟨h.namespace_eq, h.config_eq, h.same.mono ?_ ?_ ?_⟩
  · intro e stored hstored
    exact alive_of_storedAs hstored
  · intro e he
    rw [Entry.alive_eq_true] at he ⊢
    exact Nat.lt_of_le_of_lt ht he
  · intro e he
    exact Stored.alive_of_le (Int.ofNat_le.2 ht) he

theorem Agree.cases {t : c.Instant} {s : InMemoryRefreshStore c} {r : RedisRefreshStore} (h : Agree t s r)
    (key : Str) :
    (live Entry.alive t s.entries key = none ∧ live Stored.alive t.1 r.db (Utf8.encode key) = none) ∨
    ∃ e m, live Entry.alive t s.entries key = some e ∧
      live Stored.alive t.1 r.db (Utf8.encode key) = some ⟨.hash m, some e.expiresAt.1⟩ ∧
      Holds s.config m e.session ∧ e.session.Accepted := by
  rcases h.same.cases key with h | ⟨e, _, hsome, hsome', m, rfl, hm⟩
  · exact Or.inl h
  · exact Or.inr ⟨e, m, hsome, hsome', hm⟩

/-- What stands under a key is written over, whatever it is. -/
theorem Agree.hash_or_none {t : c.Instant} {s : InMemoryRefreshStore c} {r : RedisRefreshStore} (h : Agree t s r)
    (key : Str) : ∃ m, ((live Stored.alive t.1 r.db (Utf8.encode key) = none ∧ m = ∅) ∨
      ∃ x, live Stored.alive t.1 r.db (Utf8.encode key) = some ⟨.hash m, x⟩) ∧
      ∀ session, Holds s.config (setFields m (sessionArgs s.config session)) session := by
  rcases h.cases key with ⟨-, hnone⟩ | ⟨e, m, -, hsome, hm, -⟩
  · exact ⟨∅, Or.inl ⟨hnone, rfl⟩, holds_setFields_empty s.config⟩
  · exact ⟨m, Or.inr ⟨_, hsome⟩, hm.setFields⟩

variable {sha256 : Bytes → Bytes} {redisError : RedisError → Str}

variable (sha256 redisError) in
theorem set_agree (hclock : 2 ^ 63 * 10 ^ 6 ≤ c.max) {now : c.Instant} {s : InMemoryRefreshStore c}
    {r : RedisRefreshStore} (h : Agree now s r) {token : Str} {session : RefreshSession} {ttl : Duration}
    (hs : session.Accepted) (hok : ∀ e, (r.set sha256 redisError now.1 token session ttl).1 ≠ .error (.backend e)) :
    (r.set sha256 redisError now.1 token session ttl).1 = (s.set sha256 now token session (roundTtl ttl)).1 ∧
    Agree now (s.set sha256 now token session (roundTtl ttl)).2
      (r.set sha256 redisError now.1 token session ttl).2 := by
  unfold RedisRefreshStore.set InMemoryRefreshStore.set at *
  rw [h.config_eq, h.namespace_eq] at hok ⊢
  rcases hk : storeKey sha256 s.config s.namespace' token with e | key
  · exact ⟨rfl, h⟩
  · obtain ⟨m, hkey, hholds⟩ := h.hash_or_none key
    simp only [RedisRefreshStore.query, hk] at hok ⊢
    rcases transaction_hset_expire (sessionArgs s.config session) (ttlSecsCeil ttl) hkey with
      ⟨e, hrun⟩ | ⟨t, db', hd, hrun, hget⟩
    · rw [hrun] at hok
      exact absurd rfl (hok (redisError e))
    · rw [hrun]
      refine ⟨rfl, h.namespace_eq, h.config_eq, ?_⟩
      have hstored : StoredAs s.config ⟨session, saturatingAdd now (ttlDuration (roundTtl ttl))⟩
          ⟨.hash (setFields m (sessionArgs s.config session)), some t⟩ :=
        ⟨_, by rw [saturatingAdd_of_deadline hclock hd], hholds session, hs⟩
      refine (h.same.insert Utf8.encode_injective key hstored (alive_of_storedAs hstored)).congr_right fun k => ?_
      exact live_congr (by rw [hget, Table.get_insert])

theorem Agree.of_unchanged {now : c.Instant} {s s' : InMemoryRefreshStore c} {r : RedisRefreshStore}
    (h : Agree now s r) (hs : InMemoryRefreshStore.Unchanged s s' now) : Agree now s' r := by
  refine ⟨h.namespace_eq.trans hs.namespace_eq.symm, h.config_eq.trans hs.config_eq.symm, ?_⟩
  rw [hs.config_eq]
  exact h.same.congr_left hs.live

variable (sha256 redisError) in
theorem get_agree {now : c.Instant} {s : InMemoryRefreshStore c} {r : RedisRefreshStore} (h : Agree now s r)
    (token : Str) : (r.get sha256 redisError now.1 token).1 = (s.get sha256 now token).1 ∧
      Agree now (s.get sha256 now token).2 (r.get sha256 redisError now.1 token).2 := by
  rcases hk : storeKey sha256 s.config s.namespace' token with e | key
  · simp only [RedisRefreshStore.get, InMemoryRefreshStore.get, h.config_eq, h.namespace_eq, hk]
    exact ⟨trivial, h⟩
  · obtain ⟨hget, hunchanged⟩ := InMemoryRefreshStore.get_spec s now hk
    have hsame := h.of_unchanged hunchanged
    rw [hget]
    simp only [RedisRefreshStore.get, RedisRefreshStore.query, h.config_eq, h.namespace_eq, hk]
    rcases h.cases key with ⟨hnone, hnone'⟩ | ⟨e, m, hsome, hsome', hm, haccepted⟩
    · rw [hnone, hgetall, lookup_bind, hnone']
      exact ⟨rfl, hunchanged.namespace_eq.symm, hunchanged.config_eq.symm, hsame.same⟩
    · rw [hsome, hgetall, lookup_bind, hsome']
      have hne : m.entries.isEmpty = false := by
        have := Table.get_eq_some_iff.1 (hm.fields _ (List.mem_cons_self ..))
        rcases he : m.entries with _ | ⟨x, l⟩
        · rw [he] at this; cases this
        · rfl
      simp only [pure_apply, hne, hm.loadSession, show RefreshSession.new _ _ _ _ = _ from haccepted]
      exact ⟨rfl, hunchanged.namespace_eq.symm, hunchanged.config_eq.symm, hsame.same⟩

variable (sha256 redisError) in
theorem delete_agree {now : c.Instant} {s : InMemoryRefreshStore c} {r : RedisRefreshStore} (h : Agree now s r)
    (token : Str) : (r.delete sha256 redisError now.1 token).1 = (s.delete sha256 token).1 ∧
      Agree now (s.delete sha256 token).2 (r.delete sha256 redisError now.1 token).2 := by
  simp only [RedisRefreshStore.delete, InMemoryRefreshStore.delete, h.config_eq, h.namespace_eq]
  rcases storeKey sha256 s.config s.namespace' token with e | key
  · exact ⟨rfl, h⟩
  · exact ⟨rfl, h.namespace_eq, h.config_eq, h.same.remove Utf8.encode_injective key⟩

/-- A rotation the in-memory store refuses is stopped by the script before it writes. -/
theorem rotateScript_refused {now : c.Instant} {s : InMemoryRefreshStore c} {r : RedisRefreshStore}
    (h : Agree now s r) {oldKey newKey : Str} {currentSession : RefreshSession} {next : List (Bytes × Bytes)}
    {ttlSecs : Nat} (hrefused : live Entry.alive now s.entries oldKey = none ∨
      live Entry.alive now s.entries newKey ≠ none ∨
      ∃ e, live Entry.alive now s.entries oldKey = some e ∧ e.session ≠ currentSession) :
    rotateScript (Utf8.encode oldKey) (Utf8.encode newKey) (sessionArgs s.config currentSession) next ttlSecs now.1
      r.db = (.ok 0, r.db) := by
  rcases h.cases oldKey with ⟨hnone, hnone'⟩ | ⟨e, m, hsome, hsome', hm, -⟩
  · exact rotateScript_no_old hnone'
  · rcases h.cases newKey with ⟨hnew, hnew'⟩ | ⟨e', m', -, hnew', -⟩
    · refine rotateScript_other hsome' hnew' ?_
      rw [hm.fields_iff]
      rcases hrefused with hno | hno | ⟨e', he', hne⟩
      · rw [hno] at hsome; cases hsome
      · exact absurd hnew hno
      · rw [hsome, Option.some.injEq] at he'
        rwa [he']
    · exact rotateScript_new hsome' hnew'

variable (sha256 redisError) in
theorem rotate_agree (hclock : 2 ^ 63 * 10 ^ 6 ≤ c.max) {now : c.Instant} {s : InMemoryRefreshStore c}
    {r : RedisRefreshStore} (h : Agree now s r) {oldToken newToken : Str} {currentSession newSession : RefreshSession}
    {ttl : Duration} (hs : newSession.Accepted)
    (hok : ∀ e, (r.rotate sha256 redisError now.1 oldToken newToken currentSession newSession ttl).1 ≠
      .error (.backend e)) :
    (r.rotate sha256 redisError now.1 oldToken newToken currentSession newSession ttl).1 =
      (s.rotate sha256 now oldToken newToken currentSession newSession (roundTtl ttl)).1 ∧
    Agree now (s.rotate sha256 now oldToken newToken currentSession newSession (roundTtl ttl)).2
      (r.rotate sha256 redisError now.1 oldToken newToken currentSession newSession ttl).2 := by
  have hcases := InMemoryRefreshStore.rotate_cases sha256 s now oldToken newToken currentSession newSession
    (roundTtl ttl)
  simp only [RedisRefreshStore.rotate, h.config_eq, h.namespace_eq] at hok ⊢
  rcases hold : storeKey sha256 s.config s.namespace' oldToken with e | oldKey
  · simp only [InMemoryRefreshStore.rotate, hold]
    exact ⟨trivial, h⟩
  rcases hnew : storeKey sha256 s.config s.namespace' newToken with e | newKey
  · simp only [InMemoryRefreshStore.rotate, hold, hnew]
    exact ⟨trivial, h⟩
  simp only [hold, hnew] at hok hcases ⊢
  by_cases heq : oldKey = newKey
  · -- neither store looks at its entries
    simp only [InMemoryRefreshStore.rotate, hold, hnew, heq, if_true]
    exact ⟨trivial, h⟩
  simp only [heq, if_false, RedisRefreshStore.query] at hok ⊢
  rcases hcases with ⟨e, -, he | he⟩ | ⟨k, k', hk, hk', s', ⟨he, hunchanged, hrefused⟩ | ⟨he, hrotated⟩⟩
  · cases he
  · cases he
  · -- refused: the script stops at one of its checks
    cases hk
    cases hk'
    rw [he, rotateScript_refused h (hrefused.resolve_left heq)]
    exact ⟨rfl, h.of_unchanged hunchanged⟩
  · -- rotated: the script passes them all, and moves the key
    cases hk
    cases hk'
    rw [he]
    obtain ⟨e, hcurrent, hsession⟩ := hrotated.current
    rcases h.cases oldKey with ⟨hnone, -⟩ | ⟨e', m, hsome, hsome', hm, -⟩
    · rw [hnone] at hcurrent; cases hcurrent
    rcases h.cases newKey with ⟨-, hunused⟩ | ⟨_, _, hno, -⟩
    swap
    · rw [hrotated.unused] at hno; cases hno
    rw [hcurrent, Option.some.injEq] at hsome
    have hfields := (hm.fields_iff currentSession).2 (hsome ▸ hsession)
    rcases hrun : rotateScript (Utf8.encode oldKey) (Utf8.encode newKey) (sessionArgs s.config currentSession)
      (sessionArgs s.config newSession) (ttlSecsCeil ttl) now.1 r.db with ⟨_ | n, db'⟩
    · rw [hrun] at hok
      exact absurd rfl (hok _)
    · obtain ⟨rfl, t, hd, hget⟩ := rotateScript_rotates hsome' hunused hfields hrun
      refine ⟨rfl, h.namespace_eq.trans hrotated.namespace_eq.symm, h.config_eq.trans hrotated.config_eq.symm, ?_⟩
      have hstored : StoredAs s.config ⟨newSession, saturatingAdd now (ttlDuration (roundTtl ttl))⟩
          ⟨.hash (setFields ∅ (sessionArgs s.config newSession)), some t⟩ :=
        ⟨_, by rw [saturatingAdd_of_deadline hclock hd], holds_setFields_empty s.config newSession, hs⟩
      have hmoved := (h.same.remove Utf8.encode_injective oldKey).insert Utf8.encode_injective newKey hstored
        (alive_of_storedAs hstored)
      show SameLive _ _ _ (StoredAs s'.config) _ _ _
      rw [hrotated.config_eq]
      refine (hmoved.congr_left fun k => ?_).congr_right fun k => ?_
      · exact live_congr (by rw [hrotated.entries, Table.get_insert, Table.get_remove])
      · exact live_congr (by rw [hget, Table.get_insert, Table.get_remove])

/-! ## Every run -/

variable (sha256 redisError) in
/-- One call: unless Redis fails, the stores answer alike and go on agreeing. -/
theorem step_agree (hclock : 2 ^ 63 * 10 ^ 6 ≤ c.max) (call : RefreshCall c.Instant) (s : InMemoryRefreshStore c)
    (r : RedisRefreshStore) (hs : ∀ session ∈ call.op.sessions, session.Accepted)
    (hok : ∀ e, ((RedisRefreshStore.redis sha256 redisError).step r call.unix).1 ≠ .error (.backend e))
    (h : Agree call.now s r) :
    ((RedisRefreshStore.redis sha256 redisError).step r call.unix).1 =
      ((InMemoryRefreshStore.inMemory sha256).step s call.round).1 ∧
    Agree call.now ((InMemoryRefreshStore.inMemory sha256).step s call.round).2
      ((RedisRefreshStore.redis sha256 redisError).step r call.unix).2 := by
  have hmap {α : Type} {f : α → RefreshReply} {x : Except RefreshStoreError α} {e : Str}
      (hx : x = .error (.backend e)) : x.map f = .error (.backend e) := by rw [hx]; rfl
  obtain ⟨now, op⟩ := call
  cases op with
  | set token session ttl =>
    obtain ⟨hans, hagree⟩ := set_agree sha256 redisError hclock h
      (hs session (List.mem_cons_self ..)) fun e he => hok e (hmap he)
    exact ⟨congrArg (Except.map _) hans, hagree⟩
  | get token =>
    obtain ⟨hans, hagree⟩ := get_agree sha256 redisError h token
    exact ⟨congrArg (Except.map _) hans, hagree⟩
  | rotate oldToken newToken currentSession newSession ttl =>
    obtain ⟨hans, hagree⟩ := rotate_agree sha256 redisError hclock h
      (hs newSession (by simp [RefreshOp.sessions])) fun e he => hok e (hmap he)
    exact ⟨congrArg (Except.map _) hans, hagree⟩
  | delete token =>
    obtain ⟨hans, hagree⟩ := delete_agree sha256 redisError h token
    exact ⟨congrArg (Except.map _) hans, hagree⟩

/-- Along nondecreasing times the two stores answer every sequence of calls alike, when the
in-memory store is given each time to live in whole seconds, the sessions are ones that
`RefreshSession::new` builds, and Redis does not fail. -/
theorem redis_agrees_with_inMemory (sha256 : Bytes → Bytes) (redisError : RedisError → Str)
    (hclock : 2 ^ 63 * 10 ^ 6 ≤ c.max) (namespace' : Option RefreshNamespace) (config : RefreshStoreConfig)
    (calls : List (RefreshCall c.Instant)) (htimes : calls.Pairwise fun a b => a.now ≤ b.now)
    (hsessions : ∀ call ∈ calls, ∀ session ∈ call.op.sessions, session.Accepted)
    (hredis : ∀ answer ∈ (RedisRefreshStore.redis sha256 redisError).outputs ⟨namespace', config, ∅⟩
      (calls.map RefreshCall.unix), ∀ e, answer ≠ .error (.backend e)) :
    (RedisRefreshStore.redis sha256 redisError).outputs ⟨namespace', config, ∅⟩ (calls.map RefreshCall.unix) =
      (InMemoryRefreshStore.inMemory sha256).outputs ⟨namespace', config, ∅⟩ (calls.map RefreshCall.round) := by
  rw [← Machine.outputs_comap] at hredis
  rw [← Machine.outputs_comap, ← Machine.outputs_comap]
  have hstart : Agree (⟨0, Nat.zero_le _⟩ : c.Instant) ⟨namespace', config, ∅⟩ ⟨namespace', config, ∅⟩ :=
    ⟨rfl, rfl, sameLive_empty⟩
  refine Machine.outputs_eq_of_simulation (R := fun t r s => Agree t s r)
    (P := fun e => (∀ session ∈ e.1.op.sessions, session.Accepted) ∧ ∀ m, e.2 ≠ .error (.backend m))
    (fun _ _ _ _ ht h => h.mono ht) (fun call r s hP h => ?_) (fun e he => ⟨?_, ?_⟩)
    (Machine.timedFrom_of_pairwise (fun _ _ => Nat.zero_le _) htimes) hstart
  · exact step_agree sha256 redisError hclock call s r hP.1 hP.2 h
  · exact hsessions e.1 (Machine.mem_inputs _ he)
  · exact hredis e.2 (Machine.mem_outputs _ he)

end

/-- A token stored for a second and a half, loaded, rotated, and both loaded two seconds later. -/
def storeRotateLoad : List (RefreshCall Clock.i64Secs.Instant) :=
  let session : RefreshSession := ⟨"account-1".toList, "session-1".toList, 1700000000, 3⟩
  let next : RefreshSession := ⟨"account-1".toList, "session-2".toList, 1700000001, 3⟩
  [⟨readingAt 0, .set "first".toList session (.fromMillis 1500)⟩,
    ⟨readingAt (10 ^ 9), .get "first".toList⟩,
    ⟨readingAt (10 ^ 9), .rotate "first".toList "second".toList session next (.fromSecs 0)⟩,
    ⟨readingAt (10 ^ 9), .get "second".toList⟩,
    ⟨readingAt (3 * 10 ^ 9), .get "first".toList⟩,
    ⟨readingAt (3 * 10 ^ 9), .get "second".toList⟩,
    ⟨readingAt (3 * 10 ^ 9), .delete "second".toList⟩]

theorem redis_agrees_storeRotateLoad :
    (RedisRefreshStore.redis sha256OfFirstSecond fun _ => []).outputs ⟨none, .default, ∅⟩
        (storeRotateLoad.map RefreshCall.unix) =
      (InMemoryRefreshStore.inMemory sha256OfFirstSecond).outputs ⟨none, .default, ∅⟩
        (storeRotateLoad.map RefreshCall.round) := by
  refine redis_agrees_with_inMemory sha256OfFirstSecond (fun _ => []) (by decide) none .default storeRotateLoad
    (by decide) (by decide) ?_
  have houtputs : (RedisRefreshStore.redis sha256OfFirstSecond fun _ => []).outputs ⟨none, .default, ∅⟩
      (storeRotateLoad.map RefreshCall.unix) =
    [.ok .done, .ok (.loaded (some ⟨"account-1".toList, "session-1".toList, 1700000000, 3⟩)), .ok (.rotated true),
      .ok (.loaded (some ⟨"account-1".toList, "session-2".toList, 1700000001, 3⟩)), .ok (.loaded none),
      .ok (.loaded none), .ok .done] := by decide
  rw [houtputs]
  simp

end WorldInfra.Refresh
