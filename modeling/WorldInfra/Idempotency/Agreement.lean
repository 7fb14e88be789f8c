/-
idempotency-runtime-core: the Redis store answers as the in-memory store does. At every time the
two show the same states with the same expiry under the same keys, so neither the cleanup of the
in-memory store nor its schedule is observable.
-/
import WorldInfra.Idempotency.InMemory
import WorldInfra.Idempotency.RedisStore

namespace WorldInfra.Idempotency

open WorldInfra.Lib WorldInfra.Rust WorldInfra.Redis

/-! ## Rounded calls -/

def IdempotencyOp.round : IdempotencyOp → IdempotencyOp
  | .setOnce key ttl => .setOnce key (roundTtl ttl)
  | .claimPending key ttl => .claimPending key (roundTtl ttl)
  | .markCompleted key ttl => .markCompleted key (roundTtl ttl)
  | .delete key => .delete key
  | .exists' key => .exists' key

def IdempotencyCall.round {T : Type} (call : IdempotencyCall T) : IdempotencyCall T := ⟨call.now, call.op.round⟩

/-- The call as Redis gets it. -/
def IdempotencyCall.unix {c : Clock} (call : IdempotencyCall c.Instant) : IdempotencyCall Int := ⟨call.now.1, call.op⟩

section

variable {c : Clock}

theorem IdempotencyOp.key_round (op : IdempotencyOp) : op.round.key = op.key := by cases op <;> rfl

theorem IdempotencyOp.reply_round (op : IdempotencyOp) (current : Option (Entry c)) :
    op.round.reply current = op.reply current := by
  cases op <;> cases current <;> rfl

theorem IdempotencyOp.isDelete_round (op : IdempotencyOp) : op.round.isDelete = op.isDelete := by cases op <;> rfl

/-! ## What the commands do -/

def EntryState.text : EntryState → Bytes
  | .marker => markerText
  | .pending => pendingText
  | .completed => completedText

/-- A Redis key holds the state of an entry, and expires with it. -/
def StoredAs (e : Entry c) (stored : Stored) : Prop := stored = ⟨.str e.state.text, some e.expiresAt.1⟩

/-- What is written under an expiry time that Redis accepts expires in the other store at that time. -/
theorem storedAs_of_deadline (hclock : 2 ^ 63 * 10 ^ 6 ≤ c.max) {now : c.Instant} {ttl : Duration} {t : Int}
    (hd : deadline now.1 (ttlSecsCeil ttl * 1000) = .ok t) (state : EntryState) :
    StoredAs (⟨state, saturatingAdd now (ttlDuration (roundTtl ttl))⟩ : Entry c) ⟨.str state.text, some t⟩ := by
  rw [StoredAs, saturatingAdd_of_deadline hclock hd]

theorem claimScript_free {now : Int} {db : Db} {key : Bytes} (h : live Stored.alive now db key = none)
    (ttlSecs : Nat) : (∃ e, claimScript key ttlSecs now db = (.error e, db)) ∨
      ∃ t, deadline now (ttlSecs * 1000) = .ok t ∧
        claimScript key ttlSecs now db = (.ok 0, db.insert key ⟨.str pendingText, some t⟩) := by
  by_cases hn : ttlSecs ≤ 2 ^ 53
  · rcases hd : deadline now (ttlSecs * 1000) with e | t
    · refine Or.inl ⟨e, ?_⟩
      simp [claimScript, Redis.get, setEx, fail, bind_apply, lookup, pure_apply, h, luaNumber_ok hn, hd]
    · refine Or.inr ⟨t, rfl, ?_⟩
      simp [claimScript, Redis.get, setEx, store, bind_apply, lookup, pure_apply, h, luaNumber_ok hn, hd]
  · refine Or.inl ⟨.invalidExpire, ?_⟩
    simp [claimScript, Redis.get, bind_apply, lookup, pure_apply, h, luaNumber_error hn]

theorem claimScript_taken {now : Int} {db : Db} {key : Bytes} {state : EntryState} {t : Option Int}
    (h : live Stored.alive now db key = some ⟨.str state.text, t⟩) (ttlSecs : Nat) :
    claimScript key ttlSecs now db = (.ok (if state = .pending then 1 else 2), db) := by
  have h1 : pendingText ≠ completedText := by decide
  have h2 : pendingText ≠ markerText := by decide
  cases state <;> simp [claimScript, Redis.get, bind_apply, lookup, pure_apply, h, EntryState.text, h1, h2]

variable {redisError : RedisError → Str}

/-- What a Redis call does on its key, when the key holds what corresponds to `current`. -/
structure RedisEffect (r r' : RedisIdempotencyStore) (call : IdempotencyCall c.Instant) (answer : IdempotencyAnswer)
    (current : Option (Entry c)) (key : Bytes) : Prop where
  namespace_eq : r'.namespace' = r.namespace'
  format_eq : r'.keyFormat = r.keyFormat
  answer_eq : answer = .ok (call.op.reply current)
  db : if call.op.isDelete then r'.db = r.db.remove key
    else match call.op.round.writes call.now current with
      | some e => ∃ stored, StoredAs e stored ∧ r'.db = r.db.insert key stored
      | none => r'.db = r.db

theorem redis_effect (hclock : 2 ^ 63 * 10 ^ 6 ≤ c.max) {call : IdempotencyCall c.Instant} {r : RedisIdempotencyStore}
    {key : Str} (hkey : namespacedKey r.namespace' call.op.key r.keyFormat = .ok key) {current : Option (Entry c)}
    (hrel : (current = none ∧ live Stored.alive call.now.1 r.db (Utf8.encode key) = none) ∨
      ∃ e stored, current = some e ∧ live Stored.alive call.now.1 r.db (Utf8.encode key) = some stored ∧
        StoredAs e stored)
    (hok : ∀ e, ((RedisIdempotencyStore.redis redisError).step r call.unix).1 ≠ .error (.backend e)) :
    RedisEffect r ((RedisIdempotencyStore.redis redisError).step r call.unix).2 call
      ((RedisIdempotencyStore.redis redisError).step r call.unix).1 current (Utf8.encode key) := by
  obtain ⟨now, op⟩ := call
  cases op with
  | setOnce k ttl =>
    simp only [IdempotencyOp.key] at hkey
    simp only [RedisIdempotencyStore.redis, RedisIdempotencyStore.setOnce, RedisIdempotencyStore.query,
      IdempotencyCall.unix, hkey, setNxEx] at hok ⊢
    rcases hd : deadline now.1 (ttlSecsCeil ttl * 1000) with e | t
    · -- Redis refuses the expiry time before it looks at the key
      rw [hd] at hok
      exact absurd rfl (hok (redisError e))
    · rcases hrel with ⟨rfl, hnone⟩ | ⟨e, stored, rfl, hsome, -⟩
      · simp only [lookup_bind, hnone]
        exact ⟨rfl, rfl, rfl, ⟨.str markerText, some t⟩, storedAs_of_deadline hclock hd .marker, rfl⟩
      · simp only [lookup_bind, hsome]
        exact ⟨rfl, rfl, rfl, rfl⟩
  | claimPending k ttl =>
    simp only [IdempotencyOp.key] at hkey
    simp only [RedisIdempotencyStore.redis, RedisIdempotencyStore.claimPending, RedisIdempotencyStore.query,
      IdempotencyCall.unix, hkey] at hok ⊢
    rcases hrel with ⟨rfl, hnone⟩ | ⟨⟨state, expiresAt⟩, _, rfl, hsome, rfl⟩
    · rcases claimScript_free hnone (ttlSecsCeil ttl) with ⟨e, hrun⟩ | ⟨t, hd, hrun⟩
      · rw [hrun] at hok
        exact absurd rfl (hok (redisError e))
      · rw [hrun]
        exact ⟨rfl, rfl, rfl, ⟨.str pendingText, some t⟩, storedAs_of_deadline hclock hd .pending, rfl⟩
    · -- the key holds one of the three texts, so no marker is unsupported
      rw [claimScript_taken hsome]
      cases state <;> exact ⟨rfl, rfl, rfl, rfl⟩
  | markCompleted k ttl =>
    simp only [IdempotencyOp.key] at hkey
    simp only [RedisIdempotencyStore.redis, RedisIdempotencyStore.markCompleted, RedisIdempotencyStore.query,
      IdempotencyCall.unix, hkey, setEx] at hok ⊢
    rcases hd : deadline now.1 (ttlSecsCeil ttl * 1000) with e | t
    · rw [hd] at hok
      exact absurd rfl (hok (redisError e))
    · exact ⟨rfl, rfl, rfl, ⟨.str completedText, some t⟩, storedAs_of_deadline hclock hd .completed, rfl⟩
  | delete k =>
    simp only [IdempotencyOp.key] at hkey
    simp only [RedisIdempotencyStore.redis, RedisIdempotencyStore.delete, RedisIdempotencyStore.query,
      IdempotencyCall.unix, hkey]
    exact ⟨rfl, rfl, rfl, rfl⟩
  | exists' k =>
    simp only [IdempotencyOp.key] at hkey
    simp only [RedisIdempotencyStore.redis, RedisIdempotencyStore.exists', RedisIdempotencyStore.query,
      IdempotencyCall.unix, hkey, Redis.exists', lookup_bind]
    rcases hrel with ⟨rfl, hnone⟩ | ⟨e, stored, rfl, hsome, -⟩
    · rw [hnone]; exact ⟨rfl, rfl, rfl, rfl⟩
    · rw [hsome]; exact ⟨rfl, rfl, rfl, rfl⟩

theorem redis_step_error {r : RedisIdempotencyStore} {call : IdempotencyCall c.Instant} {e : IdempotencyRuntimeError}
    (hkey : namespacedKey r.namespace' call.op.key r.keyFormat = .error e) :
    (RedisIdempotencyStore.redis redisError).step r call.unix = (.error e, r) := by
  obtain ⟨now, op⟩ := call
  cases op <;> simp only [IdempotencyOp.key] at hkey <;>
    simp [RedisIdempotencyStore.redis, RedisIdempotencyStore.setOnce, RedisIdempotencyStore.claimPending,
      RedisIdempotencyStore.markCompleted, RedisIdempotencyStore.delete, RedisIdempotencyStore.exists',
      IdempotencyCall.unix, hkey, Except.map]

/-! ## The simulation -/

theorem alive_of_storedAs {e : Entry c} {stored : Stored} (h : StoredAs e stored) {t : c.Instant} :
    e.alive t = stored.alive t.1 := by
  rw [h]
  simp only [Entry.alive, Stored.alive, Int.ofNat_lt]

/-- The stores show the same entries at a time. -/
structure Agree (t : c.Instant) (s : InMemoryIdempotencyStore c) (r : RedisIdempotencyStore) : Prop where
  namespace_eq : r.namespace' = s.namespace'
  format_eq : r.keyFormat = s.keyFormat
  same : SameLive Entry.alive (fun t : c.Instant => Stored.alive t.1) Utf8.encode StoredAs t s.state.entries r.db

theorem Agree.mono {t t' : c.Instant} {s : InMemoryIdempotencyStore c} {r : RedisIdempotencyStore} (ht : t ≤ t')
    (h : Agree t s r) : Agree t' s r := by
  refine ⟨h.namespace_eq, h.format_eq, h.same.mono ?_ ?_ ?_⟩
  · intro e stored hstored
    exact alive_of_storedAs hstored
  · intro e he
    rw [Entry.alive_eq_true] at he ⊢
    exact Nat.lt_of_le_of_lt ht he
  · intro e he
    exact Stored.alive_of_le (Int.ofNat_le.2 ht) he

variable (redisError) in
/-- One call: unless Redis fails, the stores answer alike and go on agreeing. -/
theorem step_agree (hclock : 2 ^ 63 * 10 ^ 6 ≤ c.max) (call : IdempotencyCall c.Instant)
    (s : InMemoryIdempotencyStore c) (r : RedisIdempotencyStore)
    (hok : ∀ e, ((RedisIdempotencyStore.redis redisError).step r call.unix).1 ≠ .error (.backend e))
    (h : Agree call.now s r) :
    ((RedisIdempotencyStore.redis redisError).step r call.unix).1 =
      (InMemoryIdempotencyStore.inMemory.step s call.round).1 ∧
    Agree call.now (InMemoryIdempotencyStore.inMemory.step s call.round).2
      ((RedisIdempotencyStore.redis redisError).step r call.unix).2 := by
  rcases hkey : namespacedKey s.namespace' call.op.key s.keyFormat with e | key
  · have hround : namespacedKey s.namespace' call.round.op.key s.keyFormat = .error e := by
      rw [IdempotencyCall.round, IdempotencyOp.key_round]; exact hkey
    -- both stores reject the key before they look at their entries
    rw [InMemoryIdempotencyStore.step_error s hround,
      redis_step_error (by rw [h.namespace_eq, h.format_eq]; exact hkey)]
    exact ⟨rfl, h⟩
  · have hkey' : namespacedKey s.namespace' call.round.op.key s.keyFormat = .ok key := by
      rw [IdempotencyCall.round, IdempotencyOp.key_round]; exact hkey
    obtain ⟨hns, hfmt, hans, m, hm, hentries⟩ := InMemoryIdempotencyStore.step_effect s hkey'
    have hrel := h.same.cases key
    obtain ⟨hns', hfmt', hans', hdb⟩ := redis_effect hclock (by rw [h.namespace_eq, h.format_eq]; exact hkey) hrel hok
    refine ⟨?_, hns'.trans (h.namespace_eq.trans hns.symm), hfmt'.trans (h.format_eq.trans hfmt.symm), ?_⟩
    · rw [hans', hans]
      exact congrArg Except.ok (IdempotencyOp.reply_round ..).symm
    · -- what cleanup removes was not shown
      have hswept := h.same.congr_left hm.live
      rw [hentries, IdempotencyOp.apply]
      show SameLive _ _ _ _ _ (if call.op.round.isDelete then _ else _) _
      rw [IdempotencyOp.isDelete_round]
      cases hdel : call.op.isDelete with
      | true =>
        rw [hdel, if_pos rfl] at hdb
        rw [if_pos rfl, hdb]
        exact hswept.remove Utf8.encode_injective key
      | false =>
        rw [hdel, if_neg Bool.false_ne_true] at hdb
        rw [if_neg Bool.false_ne_true]
        show SameLive _ _ _ _ _ (match call.op.round.writes call.now
          (live Entry.alive call.now s.state.entries key) with | some e => _ | none => _) _
        cases hwrites : call.op.round.writes call.now (live Entry.alive call.now s.state.entries key) with
        | some e =>
          rw [hwrites] at hdb
          obtain ⟨stored, hstored, hdb⟩ := hdb
          rw [hdb]
          exact hswept.insert Utf8.encode_injective key hstored (alive_of_storedAs hstored)
        | none =>
          rw [hwrites] at hdb
          rw [hdb]
          exact hswept

/-! ## Every run -/

theorem namespacedKey_error {namespace' : Option IdempotencyNamespace} {key : Str} {keyFormat : IdempotencyKeyFormat}
    {e : IdempotencyRuntimeError} (h : namespacedKey namespace' key keyFormat = .error e) : e = .invalidKey := by
  simp only [namespacedKey, bind, Except.bind] at h
  split at h
  · rename_i hv
    cases h
    exact Str.validateTrimmed_error hv
  · cases h

/-- The in-memory store knows of no unsupported marker. -/
theorem inMemory_step_ne_unsupportedMarker (s : InMemoryIdempotencyStore c) (call : IdempotencyCall c.Instant) :
    (InMemoryIdempotencyStore.inMemory.step s call).1 ≠ .error .unsupportedMarker := by
  rcases hkey : namespacedKey s.namespace' call.op.key s.keyFormat with e | key
  · rw [InMemoryIdempotencyStore.step_error s hkey, namespacedKey_error hkey]
    exact fun h => nomatch h
  · rw [(InMemoryIdempotencyStore.step_effect s hkey).answer_eq]
    exact fun h => nomatch h

theorem inMemory_ne_unsupportedMarker : ∀ (calls : List (IdempotencyCall c.Instant)) (s : InMemoryIdempotencyStore c),
    ∀ answer ∈ InMemoryIdempotencyStore.inMemory.outputs s calls, answer ≠ .error .unsupportedMarker
  | [], _, _, h => nomatch h
  | call :: calls, s, answer, h => by
    rw [Machine.outputs_cons, List.mem_cons] at h
    rcases h with rfl | h
    · exact inMemory_step_ne_unsupportedMarker s call
    · exact inMemory_ne_unsupportedMarker calls _ answer h

/-- Along nondecreasing times the two stores answer every sequence of calls alike, when the
in-memory store is given each time to live in whole seconds and Redis does not fail; and Redis
finds no text that the store did not write. -/
theorem redisIdempotency_agrees (redisError : RedisError → Str) (hclock : 2 ^ 63 * 10 ^ 6 ≤ c.max)
    (namespace' : Option IdempotencyNamespace) (keyFormat : IdempotencyKeyFormat)
    (calls : List (IdempotencyCall c.Instant)) (htimes : calls.Pairwise fun a b => a.now ≤ b.now)
    (hredis : ∀ answer ∈ (RedisIdempotencyStore.redis redisError).outputs ⟨namespace', keyFormat, ∅⟩
      (calls.map IdempotencyCall.unix), ∀ e, answer ≠ .error (.backend e)) :
    (RedisIdempotencyStore.redis redisError).outputs ⟨namespace', keyFormat, ∅⟩ (calls.map IdempotencyCall.unix) =
      InMemoryIdempotencyStore.inMemory.outputs ⟨namespace', keyFormat, ∅, none⟩ (calls.map IdempotencyCall.round) ∧
    .error .unsupportedMarker ∉
      (RedisIdempotencyStore.redis redisError).outputs ⟨namespace', keyFormat, ∅⟩ (calls.map IdempotencyCall.unix) := by
  have hsame : (RedisIdempotencyStore.redis redisError).outputs ⟨namespace', keyFormat, ∅⟩
      (calls.map IdempotencyCall.unix) =
      InMemoryIdempotencyStore.inMemory.outputs ⟨namespace', keyFormat, ∅, none⟩ (calls.map IdempotencyCall.round) := by
    rw [← Machine.outputs_comap] at hredis
    rw [← Machine.outputs_comap, ← Machine.outputs_comap]
    have hstart : Agree (⟨0, Nat.zero_le _⟩ : c.Instant) ⟨namespace', keyFormat, ∅, none⟩ ⟨namespace', keyFormat, ∅⟩ :=
      ⟨rfl, rfl, sameLive_empty⟩
    refine Machine.outputs_eq_of_simulation (R := fun t r s => Agree t s r)
      (P := fun e => ∀ m, e.2 ≠ .error (.backend m)) (fun _ _ _ _ ht h => h.mono ht) (fun call r s hP h => ?_)
      (fun e he => ?_) (Machine.timedFrom_of_pairwise (fun _ _ => Nat.zero_le _) htimes) hstart
    · exact step_agree redisError hclock call s r hP h
    · exact hredis e.2 (Machine.mem_outputs _ he)
  refine ⟨hsame, ?_⟩
  rw [hsame]
  exact fun h => inMemory_ne_unsupportedMarker _ _ _ h rfl

end

/-- A marker for a second and a half, a claim, a completion of the claim, and the claim again after
the cleanup that a late call on another key runs. -/
def markClaimComplete : List (IdempotencyCall Clock.i64Secs.Instant) :=
  [⟨readingAt 0, .setOnce "mark".toList (.fromMillis 1500)⟩,
    ⟨readingAt (10 ^ 9), .claimPending "mark".toList (.fromSecs 1)⟩,
    ⟨readingAt (10 ^ 9), .claimPending "job".toList (.fromSecs 0)⟩,
    ⟨readingAt (10 ^ 9), .claimPending "job".toList (.fromSecs 5)⟩,
    ⟨readingAt (10 ^ 9), .markCompleted "job".toList (.fromSecs 2)⟩,
    ⟨readingAt (2 * 10 ^ 9), IdempotencyOp.exists' "mark".toList⟩,
    ⟨readingAt (2 * 10 ^ 9), .claimPending "job".toList (.fromSecs 5)⟩,
    ⟨readingAt (3 * 10 ^ 9), .claimPending "job".toList (.fromSecs 5)⟩,
    ⟨readingAt (3 * 10 ^ 9), .delete "job".toList⟩]

theorem redisIdempotency_agrees_markClaimComplete :
    (RedisIdempotencyStore.redis fun _ => []).outputs ⟨none, .lengthPrefixed, ∅⟩
        (markClaimComplete.map IdempotencyCall.unix) =
      InMemoryIdempotencyStore.inMemory.outputs ⟨none, .lengthPrefixed, ∅, none⟩
        (markClaimComplete.map IdempotencyCall.round) := by
  refine (redisIdempotency_agrees (fun _ => []) (by decide) none .lengthPrefixed markClaimComplete (by decide) ?_).1
  have houtputs : (RedisIdempotencyStore.redis fun _ => []).outputs ⟨none, .lengthPrefixed, ∅⟩
      (markClaimComplete.map IdempotencyCall.unix) =
    [.ok (.set true), .ok (.claim .completed), .ok (.claim .fresh), .ok (.claim .pending), .ok .done,
      .ok (.found false), .ok (.claim .completed), .ok (.claim .fresh), .ok .done] := by decide
  rw [houtputs]
  simp

end WorldInfra.Idempotency
