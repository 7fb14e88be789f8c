/-
auth-refresh-core: the in-memory store. Each operation is one step on the shared entries, taken
under the lock with a clock reading from before it; what a rotation does is said once, in
`rotate_cases`.
-/
import WorldInfra.Lib.Expiring
import WorldInfra.Lib.Machine
import WorldInfra.Refresh.Basic

namespace WorldInfra.Refresh

open WorldInfra.Lib WorldInfra.Rust

structure Entry (c : Clock) where
  session : RefreshSession
  expiresAt : c.Instant
  deriving DecidableEq

/-- The entry has not expired at a reading. -/
def Entry.alive {c : Clock} (now : c.Instant) (e : Entry c) : Bool := decide (now.1 < e.expiresAt.1)

theorem Entry.alive_eq_true {c : Clock} {now : c.Instant} {e : Entry c} :
    e.alive now = true ↔ now.1 < e.expiresAt.1 := decide_eq_true_iff

theorem Entry.alive_eq_false {c : Clock} {now : c.Instant} {e : Entry c} :
    e.alive now = false ↔ e.expiresAt.1 ≤ now.1 := decide_eq_false_iff_not.trans Nat.not_lt

/-- `InMemoryRefreshStore`, its entries under the mutex. -/
structure InMemoryRefreshStore (c : Clock) where
  (namespace' : Option RefreshNamespace)
  config : RefreshStoreConfig
  entries : Table Str (Entry c)

namespace InMemoryRefreshStore

variable {c : Clock}

def new : InMemoryRefreshStore c := ⟨none, .default, ∅⟩

def withNamespace (ns : RefreshNamespace) : InMemoryRefreshStore c := ⟨some ns, .default, ∅⟩

def withConfig (self : InMemoryRefreshStore c) (config : RefreshStoreConfig) : InMemoryRefreshStore c :=
  { self with config := config }

variable (sha256 : Bytes → Bytes)

def keyForToken (self : InMemoryRefreshStore c) (token : Str) : Except RefreshStoreError Str :=
  storeKey sha256 self.config self.namespace' token

def set (self : InMemoryRefreshStore c) (now : c.Instant) (token : Str) (session : RefreshSession) (ttl : Duration) :
    Except RefreshStoreError Unit × InMemoryRefreshStore c :=
  match storeKey sha256 self.config self.namespace' token with
  | .error e => (.error e, self)
  | .ok key =>
    let expiresAt := saturatingAdd now (ttlDuration ttl)
    (.ok (), { self with entries := self.entries.insert key ⟨session, expiresAt⟩ })

def get (self : InMemoryRefreshStore c) (now : c.Instant) (token : Str) :
    Except RefreshStoreError (Option RefreshSession) × InMemoryRefreshStore c :=
  match storeKey sha256 self.config self.namespace' token with
  | .error e => (.error e, self)
  | .ok key =>
    match self.entries.get key with
    | none => (.ok none, self)
    | some entry =>
      if entry.expiresAt.1 ≤ now.1 then (.ok none, { self with entries := self.entries.remove key })
      else (.ok (some entry.session), self)

/-- The new key of a rotation: a live entry refuses it, an expired one is cleared. -/
def clearNewKey (entries : Table Str (Entry c)) (now : c.Instant) (newKey : Str) : Option (Table Str (Entry c)) :=
  match entries.get newKey with
  | some newEntry => if now.1 < newEntry.expiresAt.1 then none else some (entries.remove newKey)
  | none => some entries

def rotate (self : InMemoryRefreshStore c) (now : c.Instant) (oldToken newToken : Str)
    (currentSession newSession : RefreshSession) (ttl : Duration) :
    Except RefreshStoreError Bool × InMemoryRefreshStore c :=
  match storeKey sha256 self.config self.namespace' oldToken with
  | .error e => (.error e, self)
  | .ok oldKey =>
    match storeKey sha256 self.config self.namespace' newToken with
    | .error e => (.error e, self)
    | .ok newKey =>
      if oldKey = newKey then (.ok false, self)
      else
        let expiresAt := saturatingAdd now (ttlDuration ttl)
        match self.entries.get oldKey with
        | none => (.ok false, self)
        | some oldEntry =>
          if oldEntry.expiresAt.1 ≤ now.1 then
            (.ok false, { self with entries := self.entries.remove oldKey })
          else
            match clearNewKey self.entries now newKey with
            | none => (.ok false, self)
            | some entries =>
              -- the new key is cleared before the sessions are compared
              if oldEntry.session ≠ currentSession then (.ok false, { self with entries := entries })
              else
                (.ok true, { self with entries := (entries.remove oldKey).insert newKey ⟨newSession, expiresAt⟩ })

def delete (self : InMemoryRefreshStore c) (token : Str) :
    Except RefreshStoreError Unit × InMemoryRefreshStore c :=
  match storeKey sha256 self.config self.namespace' token with
  | .error e => (.error e, self)
  | .ok key => (.ok (), { self with entries := self.entries.remove key })

/-- The store as a machine; its inputs are the calls in the order they take the lock. -/
def inMemory : Machine (InMemoryRefreshStore c) (RefreshCall c.Instant) RefreshAnswer where
  step s call :=
    match call.op with
    | .set token session ttl =>
      let r := s.set sha256 call.now token session ttl
      (r.1.map fun _ => .done, r.2)
    | .get token =>
      let r := s.get sha256 call.now token
      (r.1.map .loaded, r.2)
    | .rotate oldToken newToken currentSession newSession ttl =>
      let r := s.rotate sha256 call.now oldToken newToken currentSession newSession ttl
      (r.1.map .rotated, r.2)
    | .delete token =>
      let r := s.delete sha256 token
      (r.1.map fun _ => .done, r.2)

/-! ## What a rotation does -/

variable {sha256}

/-- A successful rotation from `s` to `s'`: the old entry was live and held the current session,
no live entry stood under the new key, and exactly these two entries change. -/
structure Rotated (s s' : InMemoryRefreshStore c) (now : c.Instant) (oldKey newKey : Str)
    (currentSession newSession : RefreshSession) (ttl : Duration) : Prop where
  ne : oldKey ≠ newKey
  current : ∃ e, live Entry.alive now s.entries oldKey = some e ∧ e.session = currentSession
  unused : live Entry.alive now s.entries newKey = none
  namespace_eq : s'.namespace' = s.namespace'
  config_eq : s'.config = s.config
  entries : ∀ k, s'.entries.get k =
    if k = newKey then some ⟨newSession, saturatingAdd now (ttlDuration ttl)⟩
    else if k = oldKey then none
    else s.entries.get k

/-- A step that shows the same entries at its reading, and adds none. -/
structure Unchanged (s s' : InMemoryRefreshStore c) (now : c.Instant) : Prop where
  namespace_eq : s'.namespace' = s.namespace'
  config_eq : s'.config = s.config
  live : ∀ k, live Entry.alive now s'.entries k = live Entry.alive now s.entries k
  entries : ∀ k e, s'.entries.get k = some e → s.entries.get k = some e

theorem Unchanged.refl (s : InMemoryRefreshStore c) (now : c.Instant) : Unchanged s s now :=
  ⟨rfl, rfl, fun _ => rfl, fun _ _ h => h⟩

theorem Unchanged.remove {s : InMemoryRefreshStore c} {now : c.Instant} {key : Str}
    (h : Lib.live Entry.alive now s.entries key = none) :
    Unchanged s { s with entries := s.entries.remove key } now := by
  refine ⟨rfl, rfl, fun k => live_remove_dead h k, fun k e he => ?_⟩
  rw [Table.get_remove] at he
  split at he
  · cases he
  · exact he

theorem get_spec (s : InMemoryRefreshStore c) (now : c.Instant) {token key : Str}
    (hkey : storeKey sha256 s.config s.namespace' token = .ok key) :
    (s.get sha256 now token).1 = .ok ((live Entry.alive now s.entries key).map Entry.session) ∧
      Unchanged s (s.get sha256 now token).2 now := by
  unfold InMemoryRefreshStore.get
  rw [hkey]
  simp only
  split
  · rename_i hget
    rw [live_of_get_none hget]
    exact ⟨rfl, Unchanged.refl s now⟩
  · rename_i entry hget
    split
    · rename_i hexp
      have hdead := live_of_get_dead hget (Entry.alive_eq_false.2 hexp)
      rw [hdead]
      exact ⟨rfl, Unchanged.remove hdead⟩
    · rename_i hexp
      rw [live_of_get_some hget (Entry.alive_eq_true.2 (Nat.lt_of_not_le hexp))]
      exact ⟨rfl, Unchanged.refl s now⟩

theorem clearNewKey_none {entries : Table Str (Entry c)} {now : c.Instant} {newKey : Str}
    (h : clearNewKey entries now newKey = none) : live Entry.alive now entries newKey ≠ none := by
  unfold clearNewKey at h
  split at h
  · rename_i newEntry hget
    split at h
    · rename_i hlt
      rw [live_of_get_some hget (Entry.alive_eq_true.2 hlt)]
      exact Option.some_ne_none _
    · cases h
  · cases h

theorem clearNewKey_some {entries cleared : Table Str (Entry c)} {now : c.Instant} {newKey : Str}
    (h : clearNewKey entries now newKey = some cleared) : live Entry.alive now entries newKey = none ∧
      ∀ k, cleared.get k = if k = newKey then none else entries.get k := by
  unfold clearNewKey at h
  split at h
  · rename_i newEntry hget
    split at h
    · cases h
    · rename_i hge
      cases h
      exact ⟨live_of_get_dead hget (Entry.alive_eq_false.2 (Nat.le_of_not_lt hge)), Table.get_remove _ _⟩
  · rename_i hget
    cases h
    refine ⟨live_of_get_none hget, fun k => ?_⟩
    split
    · rename_i hk; rw [hk, hget]
    · rfl

variable (sha256) in
/-- The outcomes of a rotation. -/
theorem rotate_cases (s : InMemoryRefreshStore c) (now : c.Instant) (oldToken newToken : Str)
    (currentSession newSession : RefreshSession) (ttl : Duration) :
    (∃ e, s.rotate sha256 now oldToken newToken currentSession newSession ttl = (.error e, s) ∧
      (storeKey sha256 s.config s.namespace' oldToken = .error e ∨
        storeKey sha256 s.config s.namespace' newToken = .error e)) ∨
    (∃ oldKey newKey, storeKey sha256 s.config s.namespace' oldToken = .ok oldKey ∧
      storeKey sha256 s.config s.namespace' newToken = .ok newKey ∧
      ∃ s', (s.rotate sha256 now oldToken newToken currentSession newSession ttl = (.ok false, s') ∧
          Unchanged s s' now ∧ (oldKey = newKey ∨ live Entry.alive now s.entries oldKey = none ∨
            live Entry.alive now s.entries newKey ≠ none ∨
            ∃ e, live Entry.alive now s.entries oldKey = some e ∧ e.session ≠ currentSession)) ∨
        (s.rotate sha256 now oldToken newToken currentSession newSession ttl = (.ok true, s') ∧
          Rotated s s' now oldKey newKey currentSession newSession ttl)) := by
  unfold rotate
  rcases hold : storeKey sha256 s.config s.namespace' oldToken with e | oldKey
  · exact Or.inl ⟨e, rfl, Or.inl rfl⟩
  · rcases hnew : storeKey sha256 s.config s.namespace' newToken with e | newKey
    · exact Or.inl ⟨e, rfl, Or.inr rfl⟩
    · refine Or.inr ⟨oldKey, newKey, rfl, rfl, ?_⟩
      simp only
      split
      · rename_i heq
        exact ⟨s, Or.inl ⟨rfl, Unchanged.refl s now, Or.inl heq⟩⟩
      · rename_i hne
        split
        · rename_i hget
          exact ⟨s, Or.inl ⟨rfl, Unchanged.refl s now, Or.inr (Or.inl (live_of_get_none hget))⟩⟩
        · rename_i oldEntry hget
          split
          · rename_i hexp
            have hdead := live_of_get_dead hget (Entry.alive_eq_false.2 hexp)
            exact ⟨_, Or.inl ⟨rfl, Unchanged.remove hdead, Or.inr (Or.inl hdead)⟩⟩
          · rename_i hexp
            -- past the checks of the old token; the new key may still hold a dead entry
            have hlive := live_of_get_some hget (Entry.alive_eq_true.2 (Nat.lt_of_not_le hexp))
            split
            · rename_i hclear
              exact ⟨s, Or.inl ⟨rfl, Unchanged.refl s now, Or.inr (Or.inr (Or.inl (clearNewKey_none hclear)))⟩⟩
            · rename_i cleared hclear
              obtain ⟨hdead, hcleared⟩ := clearNewKey_some hclear
              split
              · -- another session: the expired entry of the new key is gone all the same
                rename_i hsession
                refine ⟨_, Or.inl ⟨rfl, ⟨rfl, rfl, fun k => ?_, fun k e he => ?_⟩,
                  Or.inr (Or.inr (Or.inr ⟨oldEntry, hlive, hsession⟩))⟩⟩
                · rw [← live_remove_dead hdead k]
                  exact congrArg _ ((hcleared k).trans (Table.get_remove ..).symm)
                · rw [hcleared] at he
                  split at he
                  · cases he
                  · exact he
              · rename_i hsession
                refine ⟨_, Or.inr ⟨rfl, hne, ⟨oldEntry, hlive, not_not.1 hsession⟩, hdead, rfl, rfl, fun k => ?_⟩⟩
                simp only [Table.get_insert, Table.get_remove, hcleared]
                grind

/-! ## What a step does -/

variable (sha256) in
/-- The four things a call can do to the store. -/
inductive Effect (s : InMemoryRefreshStore c) (call : RefreshCall c.Instant) :
    RefreshAnswer → InMemoryRefreshStore c → Prop
  | kept {a s'} (unchanged : Unchanged s s' call.now) (failed : a ≠ .ok (.rotated true)) (idle : a ≠ .ok .done) :
      Effect s call a s'
  | stored {token session ttl key} (op : call.op = .set token session ttl)
      (hkey : storeKey sha256 s.config s.namespace' token = .ok key) :
      Effect s call (.ok .done)
        { s with entries := s.entries.insert key ⟨session, saturatingAdd call.now (ttlDuration ttl)⟩ }
  | rotated {oldToken newToken currentSession newSession ttl oldKey newKey s'}
      (op : call.op = .rotate oldToken newToken currentSession newSession ttl)
      (hold : storeKey sha256 s.config s.namespace' oldToken = .ok oldKey)
      (hnew : storeKey sha256 s.config s.namespace' newToken = .ok newKey)
      (rotated : Rotated s s' call.now oldKey newKey currentSession newSession ttl) :
      Effect s call (.ok (.rotated true)) s'
  | deleted {token key} (op : call.op = .delete token)
      (hkey : storeKey sha256 s.config s.namespace' token = .ok key) :
      Effect s call (.ok .done) { s with entries := s.entries.remove key }

namespace Effect

variable {s s' : InMemoryRefreshStore c} {call : RefreshCall c.Instant}

theorem error {e : RefreshStoreError} (h : Unchanged s s' call.now) : Effect sha256 s call (.error e) s' :=
  .kept h nofun nofun

theorem loaded {session : Option RefreshSession} (h : Unchanged s s' call.now) :
    Effect sha256 s call (.ok (.loaded session)) s' := .kept h nofun nofun

theorem refused (h : Unchanged s s' call.now) : Effect sha256 s call (.ok (.rotated false)) s' := .kept h nofun nofun

end Effect

variable (sha256) in
theorem step_effect (s : InMemoryRefreshStore c) (call : RefreshCall c.Instant) :
    Effect sha256 s call ((inMemory sha256).step s call).1 ((inMemory sha256).step s call).2 := by
  obtain ⟨now, op⟩ := call
  cases op with
  | set token session ttl =>
    simp only [inMemory, InMemoryRefreshStore.set]
    split
    · exact .error (Unchanged.refl s now)
    · rename_i key hkey
      exact .stored rfl hkey
  | get token =>
    rcases hkey : storeKey sha256 s.config s.namespace' token with e | key
    · simp only [inMemory, InMemoryRefreshStore.get, hkey]
      exact .error (Unchanged.refl s now)
    · obtain ⟨hget, hunchanged⟩ := get_spec s now hkey
      simp only [inMemory, hget]
      exact .loaded hunchanged
  | rotate oldToken newToken currentSession newSession ttl =>
    simp only [inMemory]
    rcases rotate_cases sha256 s now oldToken newToken currentSession newSession ttl with
      ⟨e, he, -⟩ | ⟨oldKey, newKey, hold, hnew, s', ⟨he, hs, -⟩ | ⟨he, hs⟩⟩
    · rw [he]; exact .error (Unchanged.refl s now)
    · rw [he]; exact .refused hs
    · rw [he]; exact .rotated rfl hold hnew hs
  | delete token =>
    simp only [inMemory, InMemoryRefreshStore.delete]
    split
    · exact .error (Unchanged.refl s now)
    · rename_i key hkey
      exact .deleted rfl hkey

/-- Namespace and schema are fixed when the store is constructed. -/
theorem step_schema (s : InMemoryRefreshStore c) (call : RefreshCall c.Instant) :
    ((inMemory sha256).step s call).2.namespace' = s.namespace' ∧
    ((inMemory sha256).step s call).2.config = s.config := by
  have heffect := step_effect sha256 s call
  generalize (inMemory sha256).step s call = r at heffect ⊢
  obtain ⟨a, s'⟩ := r
  cases heffect with
  | kept h => exact ⟨h.namespace_eq, h.config_eq⟩
  | stored _ _ => exact ⟨rfl, rfl⟩
  | rotated _ _ _ h => exact ⟨h.namespace_eq, h.config_eq⟩
  | deleted _ _ => exact ⟨rfl, rfl⟩

theorem step_keyForToken (s : InMemoryRefreshStore c) (call : RefreshCall c.Instant) (token : Str) :
    ((inMemory sha256).step s call).2.keyForToken sha256 token = s.keyForToken sha256 token := by
  unfold keyForToken
  rw [(step_schema s call).1, (step_schema s call).2]

end InMemoryRefreshStore

end WorldInfra.Refresh
