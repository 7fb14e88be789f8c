/-
Stores that share a backend. A store key determines the namespace, the key prefix, the key version
and the token hash; so stores that differ in one of the first three have no key in common, and each
is answered, in Redis or in memory, as if the others were not there.
-/
import WorldInfra.Redis.Footprint
import WorldInfra.Refresh.InMemory
import WorldInfra.Refresh.RedisStore

namespace WorldInfra.Refresh

open WorldInfra.Lib WorldInfra.Rust WorldInfra.Redis

/-! ## What a key determines -/

@[ext] theorem RefreshNamespace.ext {m n : RefreshNamespace} (h : m.value = n.value) : m = n := by
  cases m
  cases n
  cases h
  rfl

theorem SchemaPart.colon_not_mem (p : SchemaPart) : ':' ∉ p.value := by
  have hvalid := p.valid
  unfold validateSchemaPart at hvalid
  split at hvalid
  · cases hvalid
  · split at hvalid
    · cases hvalid
    · split at hvalid
      · cases hvalid
      · rename_i hsafe
        cases hvalid
        intro hmem
        apply hsafe
        rw [List.any_eq_true]
        exact ⟨':', hmem, by decide⟩

theorem colon_not_mem_hexLower (bytes : Bytes) : ':' ∉ hexLower bytes := by
  intro h
  cases isAlphanum_of_mem_lowerHex h

/-- What stands in every key of a store before the token hash, without the colon between them. -/
def keyFront (config : RefreshStoreConfig) (namespace' : Option RefreshNamespace) : Str :=
  match namespace' with
  | some ns => ns.value ++ ':' :: (config.keyPrefix.value ++ ':' :: config.keyVersion.value)
  | none => config.keyPrefix.value ++ ':' :: config.keyVersion.value

section

variable {sha256 : Bytes → Bytes} {c c' : RefreshStoreConfig} {n n' : Option RefreshNamespace}

theorem storeKey_eq {token k : Str} (h : storeKey sha256 c n token = .ok k) :
    k = keyFront c n ++ ':' :: hexLower (sha256 (Utf8.encode token)) := by
  obtain ⟨hash, hhash, hk⟩ := Str.bind_eq_ok.1 h
  obtain ⟨t, ht, hhash⟩ := Str.bind_eq_ok.1 hhash
  rw [validateToken_ok ht, Except.ok.injEq] at hhash
  rw [Except.ok.injEq] at hk
  rw [← hk, ← hhash]
  unfold keyFront
  cases n with
  | none => rw [List.append_assoc, List.cons_append]
  | some ns => simp only [List.append_assoc, List.cons_append]

/-- Read from the right: version and prefix have no colon, and what is left is a namespace. -/
theorem keyFront_inj (h : keyFront c n = keyFront c' n') :
    n = n' ∧ c.keyPrefix.value = c'.keyPrefix.value ∧ c.keyVersion.value = c'.keyVersion.value := by
  have hversion := c.keyVersion.colon_not_mem
  have hversion' := c'.keyVersion.colon_not_mem
  have hprefix := c.keyPrefix.colon_not_mem
  have hprefix' := c'.keyPrefix.colon_not_mem
  unfold keyFront at h
  cases n with
  | none =>
    cases n' with
    | none =>
      obtain ⟨hp, hv⟩ := append_sep_inj hprefix hprefix' h
      exact ⟨rfl, hp, hv⟩
    | some ns' =>
      -- a prefix with a colon in it
      simp only [← List.cons_append, ← List.append_assoc] at h
      obtain ⟨hp, -⟩ := append_sep_inj_last hversion hversion' h
      exact absurd (hp ▸ List.mem_append_right _ (List.mem_cons_self ..)) hprefix
  | some ns =>
    cases n' with
    | none =>
      simp only [← List.cons_append, ← List.append_assoc] at h
      obtain ⟨hp, -⟩ := append_sep_inj_last hversion hversion' h
      exact absurd (hp ▸ List.mem_append_right _ (List.mem_cons_self ..)) hprefix'
    | some ns' =>
      simp only [← List.cons_append, ← List.append_assoc] at h
      obtain ⟨hfront, hv⟩ := append_sep_inj_last hversion hversion' h
      obtain ⟨hns, hp⟩ := append_sep_inj_last hprefix hprefix' hfront
      exact ⟨congrArg some (RefreshNamespace.ext hns), hp, hv⟩

/-- Equal keys have equal fronts and equal token hashes. -/
theorem storeKey_parts {s t k : Str} (hs : storeKey sha256 c n s = .ok k) (ht : storeKey sha256 c' n' t = .ok k) :
    keyFront c n = keyFront c' n' ∧ sha256 (Utf8.encode s) = sha256 (Utf8.encode t) := by
  have h := (storeKey_eq hs).symm.trans (storeKey_eq ht)
  obtain ⟨hfront, hhash⟩ := append_sep_inj_last (colon_not_mem_hexLower _) (colon_not_mem_hexLower _) h
  exact ⟨hfront, hexLower_injective hhash⟩

end

/-! ## Stores on one backend -/

/-- What a store has besides its connection. -/
structure StoreSettings where
  (namespace' : Option RefreshNamespace)
  config : RefreshStoreConfig

/-- The parts of the settings that make the keys. -/
def StoreSettings.keySpace (s : StoreSettings) : Option Str × Str × Str :=
  (s.namespace'.map RefreshNamespace.value, s.config.keyPrefix.value, s.config.keyVersion.value)

section

variable (sha256 : Bytes → Bytes) (redisError : RedisError → Str) {c : Clock}

/-- Stores connected to one Redis; an input is a call of one of them. -/
def sharedRedis : Machine Db (StoreSettings × RefreshCall Int) RefreshAnswer where
  step db input :=
    let r := (RedisRefreshStore.redis sha256 redisError).step ⟨input.1.namespace', input.1.config, db⟩ input.2
    (r.1, r.2.db)

/-- In-memory stores that are clones of one, each with its own settings. -/
def sharedInMemory : Machine (Table Str (Entry c)) (StoreSettings × RefreshCall c.Instant) RefreshAnswer where
  step entries input :=
    let r := (InMemoryRefreshStore.inMemory sha256).step ⟨input.1.namespace', input.1.config, entries⟩ input.2
    (r.1, r.2.entries)

/-- The keys of the stores with some settings. -/
def ownKeys (space : Option Str × Str × Str) : Set Str :=
  { k | ∃ settings token, StoreSettings.keySpace settings = space ∧
      storeKey sha256 settings.config settings.namespace' token = .ok k }

variable {sha256 redisError}

theorem keySpace_of_storeKey {a b : StoreSettings} {s t k : Str}
    (ha : storeKey sha256 a.config a.namespace' s = .ok k) (hb : storeKey sha256 b.config b.namespace' t = .ok k) :
    a.keySpace = b.keySpace := by
  obtain ⟨hns, hprefix, hversion⟩ := keyFront_inj (storeKey_parts ha hb).1
  unfold StoreSettings.keySpace
  rw [hns, hprefix, hversion]

theorem ownKeys_disjoint {space space' : Option Str × Str × Str} (h : space ≠ space') :
    Disjoint (ownKeys sha256 space) (ownKeys sha256 space') := by
  rw [Set.disjoint_left]
  rintro k ⟨a, s, rfl, ha⟩ ⟨b, t, rfl, hb⟩
  exact h (keySpace_of_storeKey ha hb)

theorem mem_ownKeys {settings : StoreSettings} {token k : Str}
    (h : storeKey sha256 settings.config settings.namespace' token = .ok k) : k ∈ ownKeys sha256 settings.keySpace :=
  ⟨settings, token, rfl, h⟩

/-! ### Redis -/

/-- The result of a query, from its command's. -/
def asBackendError {α : Type} (redisError : RedisError → Str) : Except RedisError α → Except RefreshStoreError α
  | .ok a => .ok a
  | .error e => .error (.backend (redisError e))

variable (redisError) in
/-- A query stays within the keys of its command. -/
theorem query_within {α β : Type} {ks : Set Bytes} {command : Command α} (h : Confined ks command)
    (settings : StoreSettings) (now : Int) (g : Except RefreshStoreError α → β) :
    Within ks fun db =>
      (g (RedisRefreshStore.query redisError ⟨settings.namespace', settings.config, db⟩ now command).1,
        (RedisRefreshStore.query redisError ⟨settings.namespace', settings.config, db⟩ now command).2.db) :=
  (h now).map fun r => g (asBackendError redisError r)

theorem fieldsMatch_confined {ks : Set Bytes} {key : Bytes} (hk : key ∈ ks) :
    ∀ fields : List (Bytes × Bytes), Confined ks (fieldsMatch key fields)
  | [] => .pure _
  | (field, value) :: rest => by
    refine (Confined.hget hk field).bind fun found => ?_
    split
    · exact .pure _
    · exact fieldsMatch_confined hk rest

theorem rotateScript_confined {ks : Set Bytes} {oldKey newKey : Bytes} (hold : oldKey ∈ ks) (hnew : newKey ∈ ks)
    (current next : List (Bytes × Bytes)) (ttlSecs : Nat) :
    Confined ks (rotateScript oldKey newKey current next ttlSecs) := by
  refine (Confined.exists' hold).bind fun found => ?_
  split
  · exact .pure _
  · refine (Confined.exists' hnew).bind fun taken => ?_
    split
    · exact .pure _
    · refine (fieldsMatch_confined hold current).bind fun same => ?_
      split
      · exact .pure _
      · refine (Confined.del hold).discard.bind fun _ => ?_
        refine (Confined.hset hnew next).bind fun _ => ?_
        refine (Confined.luaNumber ttlSecs).bind fun secs => ?_
        exact (Confined.expire hnew secs).discard.bind fun _ => .pure _

/-- The answer to a load, from the fields read. -/
def loadedFields (config : RefreshStoreConfig) : Except RefreshStoreError (Table Bytes Bytes) → RefreshAnswer
  | .error e => .error e
  | .ok rawFields =>
    (if rawFields.entries.isEmpty then .ok none else (loadSession config rawFields).map some).map .loaded

/-- A call of a store on Redis stays within the store's keys. -/
theorem sharedRedis_within (input : StoreSettings × RefreshCall Int) :
    Within (Utf8.encode '' ownKeys sha256 input.1.keySpace) fun db =>
      (sharedRedis sha256 redisError).step db input := by
  obtain ⟨settings, now, op⟩ := input
  have hmem {token k : Str} (h : storeKey sha256 settings.config settings.namespace' token = .ok k) :
      Utf8.encode k ∈ Utf8.encode '' ownKeys sha256 settings.keySpace :=
    Set.mem_image_of_mem _ (mem_ownKeys h)
  cases op with
  | set token session ttl =>
    simp only [sharedRedis, RedisRefreshStore.redis, RedisRefreshStore.set]
    rcases hkey : storeKey sha256 settings.config settings.namespace' token with e | key
    · exact .pure _
    · have hcommands : Confined (Utf8.encode '' ownKeys sha256 settings.keySpace) (transaction
          [hset (Utf8.encode key) (sessionArgs settings.config session),
            discard <| expire (Utf8.encode key) (ttlSecsCeil ttl)]) := by
        apply Confined.transaction
        intro command hcommand
        rcases List.mem_cons.1 hcommand with rfl | hcommand
        · exact Confined.hset (hmem hkey) _
        · rw [List.mem_singleton.1 hcommand]
          exact (Confined.expire (hmem hkey) _).discard
      exact query_within redisError hcommands settings now fun r : Except _ Unit => r.map fun _ => RefreshReply.done
  | get token =>
    simp only [sharedRedis, RedisRefreshStore.redis, RedisRefreshStore.get]
    rcases hkey : storeKey sha256 settings.config settings.namespace' token with e | key
    · exact .pure _
    · refine (query_within redisError (Confined.hgetall (hmem hkey)) settings now
        (loadedFields settings.config)).congr fun db => ?_
      simp only
      split
      · rename_i hquery
        rw [hquery]
        rfl
      -- the query leaves the configuration alone, so what is decoded is decoded the same
      · rename_i rawFields store hquery
        have hconfig : settings.config = store.config := congrArg (fun r => r.2.config) hquery
        rw [hquery]
        split
        · rename_i hempty
          simp only [loadedFields, hempty, if_true]
        · rename_i hempty
          simp only [loadedFields, hempty, hconfig, if_false, Bool.false_eq_true]
  | rotate oldToken newToken currentSession newSession ttl =>
    simp only [sharedRedis, RedisRefreshStore.redis, RedisRefreshStore.rotate]
    rcases hold : storeKey sha256 settings.config settings.namespace' oldToken with e | oldKey
    · exact .pure _
    · rcases hnew : storeKey sha256 settings.config settings.namespace' newToken with e | newKey
      · exact .pure _
      · simp only
        split
        · exact .pure _
        · exact query_within redisError (rotateScript_confined (hmem hold) (hmem hnew) _ _ _) settings now
            fun r : Except _ Nat => (r.map fun result => decide (result = 1)).map RefreshReply.rotated
  | delete token =>
    simp only [sharedRedis, RedisRefreshStore.redis, RedisRefreshStore.delete]
    rcases hkey : storeKey sha256 settings.config settings.namespace' token with e | key
    · exact .pure _
    · exact query_within redisError (Confined.del (hmem hkey)).discard settings now
        fun r : Except _ Unit => r.map fun _ => RefreshReply.done

/-! ### In memory -/

/-- The end of a rotation: the sessions are compared, and the old entry gives way to the new. -/
def finishRotate (oldKey newKey : Str) (entry : Entry c) (same : Bool) (entries : Table Str (Entry c)) :
    RefreshAnswer × Table Str (Entry c) :=
  if same then (.ok (.rotated true), (entries.remove oldKey).insert newKey entry) else (.ok (.rotated false), entries)

/-- A rotation of a live entry, by what stands under the new key. -/
def rotateOnto (now : c.Instant) (oldKey newKey : Str) (entry : Entry c) (same : Bool) (found : Option (Entry c))
    (entries : Table Str (Entry c)) : RefreshAnswer × Table Str (Entry c) :=
  match found with
  | some newEntry =>
    if now.1 < newEntry.expiresAt.1 then (.ok (.rotated false), entries)
    else finishRotate oldKey newKey entry same (entries.remove newKey)
  | none => finishRotate oldKey newKey entry same entries

/-- A rotation, by what stands under the old key. -/
def rotateFrom (now : c.Instant) (oldKey newKey : Str) (currentSession : RefreshSession) (entry : Entry c)
    (found : Option (Entry c)) (entries : Table Str (Entry c)) : RefreshAnswer × Table Str (Entry c) :=
  match found with
  | none => (.ok (.rotated false), entries)
  | some oldEntry =>
    if oldEntry.expiresAt.1 ≤ now.1 then (.ok (.rotated false), entries.remove oldKey)
    else rotateOnto now oldKey newKey entry (decide (oldEntry.session = currentSession)) (entries.get newKey) entries

/-- A lookup of a session, by what stands under its key. -/
def loadFrom (now : c.Instant) (key : Str) (found : Option (Entry c)) (entries : Table Str (Entry c)) :
    RefreshAnswer × Table Str (Entry c) :=
  match found with
  | none => (.ok (.loaded none), entries)
  | some entry =>
    if entry.expiresAt.1 ≤ now.1 then (.ok (.loaded none), entries.remove key)
    else (.ok (.loaded (some entry.session)), entries)

section

variable {ks : Set Str} (now : c.Instant) {key oldKey newKey : Str} (entry : Entry c)

theorem loadFrom_within (hk : key ∈ ks) : ∀ found, Within ks (loadFrom now key found)
  | none => .pure _
  | some _ => .ite (.erase hk _) (.pure _)

theorem finishRotate_within (hold : oldKey ∈ ks) (hnew : newKey ∈ ks) (same : Bool) :
    Within ks (finishRotate oldKey newKey entry same) :=
  .ite (.afterErase hold (.insert hnew entry _)) (.pure _)

theorem rotateOnto_within (hold : oldKey ∈ ks) (hnew : newKey ∈ ks) (same : Bool) :
    ∀ found, Within ks (rotateOnto now oldKey newKey entry same found)
  | none => finishRotate_within entry hold hnew same
  | some _ => .ite (.pure _) (.afterErase hnew (finishRotate_within entry hold hnew same))

theorem rotateFrom_within (hold : oldKey ∈ ks) (hnew : newKey ∈ ks) (currentSession : RefreshSession) :
    ∀ found, Within ks (rotateFrom now oldKey newKey currentSession entry found)
  | none => .pure _
  | some _ => .ite (.erase hold _) (.onGet hnew (rotateOnto_within now entry hold hnew _))

end

/-- A call of an in-memory store stays within the store's keys. -/
theorem sharedInMemory_within (input : StoreSettings × RefreshCall c.Instant) :
    Within (ownKeys sha256 input.1.keySpace) fun entries => (sharedInMemory sha256).step entries input := by
  obtain ⟨settings, now, op⟩ := input
  have hmem {token k : Str} (h : storeKey sha256 settings.config settings.namespace' token = .ok k) :
      k ∈ ownKeys sha256 settings.keySpace := mem_ownKeys h
  cases op with
  | set token session ttl =>
    simp only [sharedInMemory, InMemoryRefreshStore.inMemory, InMemoryRefreshStore.set]
    rcases hkey : storeKey sha256 settings.config settings.namespace' token with e | key
    · exact .pure _
    · exact .insert (hmem hkey) _ _
  | get token =>
    simp only [sharedInMemory, InMemoryRefreshStore.inMemory, InMemoryRefreshStore.get]
    rcases hkey : storeKey sha256 settings.config settings.namespace' token with e | key
    · exact .pure _
    · refine (Within.onGet (hmem hkey) (loadFrom_within now (hmem hkey))).congr fun entries => ?_
      unfold loadFrom
      rcases hfound : entries.get key with _ | entry
      · simp only [hfound]
        rfl
      · simp only [hfound]
        split <;> rfl
  | rotate oldToken newToken currentSession newSession ttl =>
    simp only [sharedInMemory, InMemoryRefreshStore.inMemory, InMemoryRefreshStore.rotate]
    rcases hold : storeKey sha256 settings.config settings.namespace' oldToken with e | oldKey
    · exact .pure _
    · rcases hnew : storeKey sha256 settings.config settings.namespace' newToken with e | newKey
      · exact .pure _
      · simp only
        split
        · exact .pure _
        · have hsteps := rotateFrom_within now ⟨newSession, saturatingAdd now (ttlDuration ttl)⟩ (hmem hold) (hmem hnew)
            currentSession
          refine (Within.onGet (hmem hold) hsteps).congr fun entries => ?_
          -- the rotation again as reads and writes of its two keys, branch by branch
          unfold rotateFrom rotateOnto finishRotate InMemoryRefreshStore.clearNewKey
          rcases entries.get oldKey with _ | oldEntry
          · rfl
          · simp only
            by_cases hexpired : oldEntry.expiresAt.1 ≤ now.1
            · simp only [hexpired, if_true]
              rfl
            · simp only [hexpired, if_false]
              rcases entries.get newKey with _ | newEntry
              · by_cases hsame : oldEntry.session = currentSession
                · simp [hsame]
                  rfl
                · simp [hsame]
                  rfl
              · by_cases halive : now.1 < newEntry.expiresAt.1
                · simp [halive]
                  rfl
                · by_cases hsame : oldEntry.session = currentSession
                  · simp [halive, hsame]
                    rfl
                  · simp [halive, hsame]
                    rfl
  | delete token =>
    simp only [sharedInMemory, InMemoryRefreshStore.inMemory, InMemoryRefreshStore.delete]
    rcases hkey : storeKey sha256 settings.config settings.namespace' token with e | key
    · exact .pure _
    · exact .remove (hmem hkey) fun _ _ _ => rfl

/-! ## Isolation -/

/-- The calls of the stores with one namespace, prefix and version. -/
def ofKeySpace {T : Type} (space : Option Str × Str × Str) (input : StoreSettings × RefreshCall T) : Bool :=
  decide (input.1.keySpace = space)

variable (sha256 redisError) in
/-- Equal keys are of equal namespaces, prefixes, versions and tokens; and of stores that share a
backend, those with one namespace, prefix and version are answered as if the others made no calls. -/
theorem storeKey_isolates :
    (∀ {a b : RefreshStoreConfig} {m n : Option RefreshNamespace} {s t k : Str},
      (sha256 (Utf8.encode s) = sha256 (Utf8.encode t) → s = t) →
      storeKey sha256 a m s = .ok k → storeKey sha256 b n t = .ok k →
        m = n ∧ a.keyPrefix.value = b.keyPrefix.value ∧ a.keyVersion.value = b.keyVersion.value ∧ s = t) ∧
    (∀ (space : Option Str × Str × Str) (db : Db) (l : List (StoreSettings × RefreshCall Int)),
      (sharedRedis sha256 redisError).outputsOf (ofKeySpace space) db l =
        (sharedRedis sha256 redisError).outputs db (l.filter (ofKeySpace space))) ∧
    ∀ (c : Clock) (space : Option Str × Str × Str) (entries : Table Str (Entry c))
      (l : List (StoreSettings × RefreshCall c.Instant)),
      (sharedInMemory sha256).outputsOf (ofKeySpace space) entries l =
        (sharedInMemory sha256).outputs entries (l.filter (ofKeySpace space)) := by
  refine ⟨?_, ?_, ?_⟩
  · intro a b m n s t k hcollision hs ht
    obtain ⟨hfront, hhash⟩ := storeKey_parts hs ht
    obtain ⟨hns, hprefix, hversion⟩ := keyFront_inj hfront
    exact ⟨hns, hprefix, hversion, hcollision hhash⟩
  · intro space db l
    refine outputsOf_of_within (Utf8.encode '' ownKeys sha256 space) ?_ ?_ l db
    · intro input hinput
      rw [← of_decide_eq_true hinput]
      exact sharedRedis_within input
    -- a call of another key space stays within keys that are none of this one's
    · intro input hinput
      refine ⟨_, ?_, sharedRedis_within input⟩
      exact Set.disjoint_image_of_injective Utf8.encode_injective (ownKeys_disjoint (of_decide_eq_false hinput))
  · intro c space entries l
    refine outputsOf_of_within (ownKeys sha256 space) ?_ ?_ l entries
    · intro input hinput
      rw [← of_decide_eq_true hinput]
      exact sharedInMemory_within input
    · intro input hinput
      exact ⟨_, ownKeys_disjoint (of_decide_eq_false hinput), sharedInMemory_within input⟩

theorem storeKey_isolates_colon :
    some (⟨"eu:rt".toList, by decide⟩ : RefreshNamespace) = some ⟨"eu:rt".toList, by decide⟩ ∧
      RefreshStoreConfig.default.keyPrefix.value = RefreshStoreConfig.default.keyPrefix.value ∧
      RefreshStoreConfig.default.keyVersion.value = RefreshStoreConfig.default.keyVersion.value ∧
      "first".toList = "first".toList :=
  (storeKey_isolates sha256OfFirstSecond fun _ => []).1
    (k := "eu:rt:rt:v1:a7937b64b8caa58f03721bb6bacf5c78cb235febe0e70b1b84cd99541461a08e".toList)
    (fun _ => rfl) (by decide +kernel) (by decide +kernel)

end

end WorldInfra.Refresh
