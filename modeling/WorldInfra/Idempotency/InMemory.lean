/-
idempotency-runtime-core: the in-memory store, with its lazy cleanup. Each operation is one step on
the shared state, taken under the lock with a clock reading from before it; what a step answers and
does to the entries is said once, in `Effect`.
-/
import WorldInfra.Idempotency.Basic
import WorldInfra.Lib.Expiring
import WorldInfra.Lib.Machine

namespace WorldInfra.Idempotency

open WorldInfra.Lib WorldInfra.Rust

structure Entry (c : Clock) where
  state : EntryState
  expiresAt : c.Instant
  deriving DecidableEq

/-- The entry has not expired at a reading. -/
def Entry.alive {c : Clock} (now : c.Instant) (e : Entry c) : Bool := decide (now.1 < e.expiresAt.1)

theorem Entry.alive_eq_true {c : Clock} {now : c.Instant} {e : Entry c} :
    e.alive now = true ↔ now.1 < e.expiresAt.1 := decide_eq_true_iff

theorem Entry.alive_eq_false {c : Clock} {now : c.Instant} {e : Entry c} :
    e.alive now = false ↔ e.expiresAt.1 ≤ now.1 := decide_eq_false_iff_not.trans Nat.not_lt

structure InMemoryState (c : Clock) where
  entries : Table Str (Entry c)
  nextCleanupAt : Option c.Instant

namespace InMemoryState

variable {c : Clock}

def maybeCleanup (self : InMemoryState c) (now : c.Instant) : InMemoryState c :=
  if self.nextCleanupAt.any fun next => decide (now.1 < next.1) then self
  else
    -- the entries still alive at this reading, and the first of their expiry times
    let entries := self.entries.retain fun entry => decide (now.1 < entry.expiresAt.1)
    { entries := entries, nextCleanupAt := (entries.values.map Entry.expiresAt).min? }

def noteExpiry (self : InMemoryState c) (expiresAt : c.Instant) : InMemoryState c :=
  { self with nextCleanupAt := some ((self.nextCleanupAt.map fun current => min current expiresAt).getD expiresAt) }

end InMemoryState

/-- `InMemoryIdempotencyStore`, its state under the mutex. -/
structure InMemoryIdempotencyStore (c : Clock) where
  (namespace' : Option IdempotencyNamespace)
  keyFormat : IdempotencyKeyFormat
  state : InMemoryState c

namespace InMemoryIdempotencyStore

variable {c : Clock}

def new : InMemoryIdempotencyStore c := ⟨none, .lengthPrefixed, ⟨∅, none⟩⟩

def withNamespace (ns : IdempotencyNamespace) : InMemoryIdempotencyStore c := ⟨some ns, .lengthPrefixed, ⟨∅, none⟩⟩

def withKeyFormat (self : InMemoryIdempotencyStore c) (keyFormat : IdempotencyKeyFormat) :
    InMemoryIdempotencyStore c := { self with keyFormat := keyFormat }

/-- The entry is written and its expiry noted for the next cleanup. -/
def write (self : InMemoryIdempotencyStore c) (state : InMemoryState c) (key : Str) (entry : Entry c) :
    InMemoryIdempotencyStore c :=
  { self with state := { state with entries := state.entries.insert key entry }.noteExpiry entry.expiresAt }

def setOnce (self : InMemoryIdempotencyStore c) (now : c.Instant) (key : Str) (ttl : Duration) :
    Except IdempotencyRuntimeError Bool × InMemoryIdempotencyStore c :=
  match namespacedKey self.namespace' key self.keyFormat with
  | .error e => (.error e, self)
  | .ok key =>
    let expiresAt := saturatingAdd now (ttlDuration ttl)
    let state := self.state.maybeCleanup now
    if (state.entries.get key).any fun entry => decide (now.1 < entry.expiresAt.1) then
      (.ok false, { self with state := state })
    else (.ok true, self.write state key ⟨.marker, expiresAt⟩)

def claimPending (self : InMemoryIdempotencyStore c) (now : c.Instant) (key : Str) (ttl : Duration) :
    Except IdempotencyRuntimeError WorkClaim × InMemoryIdempotencyStore c :=
  match namespacedKey self.namespace' key self.keyFormat with
  | .error e => (.error e, self)
  | .ok key =>
    let expiresAt := saturatingAdd now (ttlDuration ttl)
    let state := self.state.maybeCleanup now
    let fresh := (.ok .fresh, self.write state key ⟨.pending, expiresAt⟩)
    match state.entries.get key with
    -- an expired entry may outlast the cleanup, so each branch looks at its expiry time
    | some ⟨.pending, expiresAt⟩ =>
      if now.1 < expiresAt.1 then (.ok .pending, { self with state := state }) else fresh
    | some ⟨_, expiresAt⟩ =>
      if now.1 < expiresAt.1 then (.ok .completed, { self with state := state }) else fresh
    | none => fresh

def markCompleted (self : InMemoryIdempotencyStore c) (now : c.Instant) (key : Str) (ttl : Duration) :
    Except IdempotencyRuntimeError Unit × InMemoryIdempotencyStore c :=
  match namespacedKey self.namespace' key self.keyFormat with
  | .error e => (.error e, self)
  | .ok key =>
    let expiresAt := saturatingAdd now (ttlDuration ttl)
    (.ok (), self.write self.state key ⟨.completed, expiresAt⟩)

def delete (self : InMemoryIdempotencyStore c) (key : Str) :
    Except IdempotencyRuntimeError Unit × InMemoryIdempotencyStore c :=
  match namespacedKey self.namespace' key self.keyFormat with
  | .error e => (.error e, self)
  | .ok key => (.ok (), { self with state := { self.state with entries := self.state.entries.remove key } })

def exists' (self : InMemoryIdempotencyStore c) (now : c.Instant) (key : Str) :
    Except IdempotencyRuntimeError Bool × InMemoryIdempotencyStore c :=
  match namespacedKey self.namespace' key self.keyFormat with
  | .error e => (.error e, self)
  | .ok key =>
    let state := self.state.maybeCleanup now
    (.ok ((state.entries.get key).any fun entry => decide (now.1 < entry.expiresAt.1)), { self with state := state })

/-- The store as a machine; its inputs are the calls in the order they take the lock. -/
def inMemory : Machine (InMemoryIdempotencyStore c) (IdempotencyCall c.Instant) IdempotencyAnswer where
  step s call :=
    match call.op with
    | .setOnce key ttl =>
      let r := s.setOnce call.now key ttl
      (r.1.map .set, r.2)
    | .claimPending key ttl =>
      let r := s.claimPending call.now key ttl
      (r.1.map .claim, r.2)
    | .markCompleted key ttl =>
      let r := s.markCompleted call.now key ttl
      (r.1.map fun _ => .done, r.2)
    | .delete key =>
      let r := s.delete key
      (r.1.map fun _ => .done, r.2)
    | .exists' key =>
      let r := s.exists' call.now key
      (r.1.map .found, r.2)

/-! ## Cleanup -/

/-- Nothing but entries expired at the reading is gone. -/
def Swept (now : c.Instant) (m m' : Table Str (Entry c)) : Prop :=
  ∀ k, m'.get k = m.get k ∨ (m'.get k = none ∧ ∀ e, m.get k = some e → e.expiresAt.1 ≤ now.1)

theorem Swept.refl (now : c.Instant) (m : Table Str (Entry c)) : Swept now m m := fun _ => Or.inl rfl

theorem maybeCleanup_swept (s : InMemoryState c) (now : c.Instant) :
    Swept now s.entries (s.maybeCleanup now).entries := by
  unfold InMemoryState.maybeCleanup
  split
  · exact Swept.refl now s.entries
  · intro k
    simp only [Table.get_retain]
    rcases s.entries.get k with _ | e
    · exact Or.inl rfl
    · rw [Option.filter_some]
      split
      · exact Or.inl rfl
      · rename_i h
        refine Or.inr ⟨rfl, ?_⟩
        rintro _ ⟨rfl⟩
        exact Nat.le_of_not_lt fun hlt => h (decide_eq_true hlt)

/-- What is gone was not shown. -/
theorem Swept.live {now : c.Instant} {m m' : Table Str (Entry c)} (h : Swept now m m') (k : Str) :
    live Entry.alive now m' k = live Entry.alive now m k := by
  rcases h k with h | ⟨hnone, hexp⟩
  · exact live_congr h
  · rw [live_of_get_none hnone, eq_comm, live_eq_none_iff]
    exact fun e he => Entry.alive_eq_false.2 (hexp e he)

theorem live_of_any {now : c.Instant} {m : Table Str (Entry c)} {key : Str} :
    ((m.get key).any fun entry => decide (now.1 < entry.expiresAt.1)) = (Lib.live Entry.alive now m key).isSome := by
  unfold Lib.live
  cases m.get key with
  | none => rfl
  | some e => simp [Entry.alive, Option.isSome_filter]

end InMemoryIdempotencyStore

/-! ## What an operation answers and writes -/

section

variable {c : Clock}

/-- The answer, given the entry that is live under the key. -/
def IdempotencyOp.reply : IdempotencyOp → Option (Entry c) → IdempotencyReply
  | .setOnce _ _, current => .set current.isNone
  | .claimPending _ _, none => .claim .fresh
  | .claimPending _ _, some e => .claim (if e.state = .pending then .pending else .completed)
  | .markCompleted _ _, _ => .done
  | .delete _, _ => .done
  | .exists' _, current => .found current.isSome

theorem IdempotencyOp.reply_wins {op : IdempotencyOp} {current : Option (Entry c)}
    (h : op.reply current = .claim .fresh ∨ op.reply current = .set true) : current = none := by
  rcases current with _ | ⟨_ | _ | _, _⟩
  · rfl
  all_goals cases op <;> rcases h with h | h <;> cases h

theorem IdempotencyOp.reply_pending {op : IdempotencyOp} {current : Option (Entry c)}
    (h : op.reply current = .claim .pending) : ∃ e, current = some e ∧ e.state = .pending := by
  rcases current with _ | ⟨_ | _ | _, _⟩ <;> cases op <;> cases h
  exact ⟨_, rfl, rfl⟩

theorem IdempotencyOp.reply_completed {op : IdempotencyOp} {current : Option (Entry c)}
    (h : op.reply current = .claim .completed) :
    ∃ e, current = some e ∧ (e.state = .marker ∨ e.state = .completed) := by
  rcases current with _ | ⟨_ | _ | _, _⟩ <;> cases op <;> cases h
  · exact ⟨_, rfl, Or.inl rfl⟩
  · exact ⟨_, rfl, Or.inr rfl⟩

/-- The entry written at a reading, given the entry that is live under the key. -/
def IdempotencyOp.writes (now : c.Instant) : IdempotencyOp → Option (Entry c) → Option (Entry c)
  | .setOnce _ ttl, none => some ⟨.marker, saturatingAdd now (ttlDuration ttl)⟩
  | .claimPending _ ttl, none => some ⟨.pending, saturatingAdd now (ttlDuration ttl)⟩
  | .markCompleted _ ttl, _ => some ⟨.completed, saturatingAdd now (ttlDuration ttl)⟩
  | _, _ => none

def IdempotencyOp.isDelete : IdempotencyOp → Bool
  | .delete _ => true
  | _ => false

/-- The entries after an operation on what cleanup has left. -/
def IdempotencyOp.apply (now : c.Instant) (op : IdempotencyOp) (current : Option (Entry c)) (key : Str)
    (m : Table Str (Entry c)) : Table Str (Entry c) :=
  if op.isDelete then m.remove key
  else
    match op.writes now current with
    | some e => m.insert key e
    | none => m

theorem IdempotencyOp.get_apply_ne {now : c.Instant} {op : IdempotencyOp} {current : Option (Entry c)}
    {key k : Str} {m : Table Str (Entry c)} (h : k ≠ key) : (op.apply now current key m).get k = m.get k := by
  unfold IdempotencyOp.apply
  split
  · exact Table.get_remove_ne _ h
  · split
    · exact Table.get_insert_ne _ _ h
    · rfl

theorem IdempotencyOp.get_apply_self {now : c.Instant} {op : IdempotencyOp} {current : Option (Entry c)}
    {key : Str} {m : Table Str (Entry c)} : (op.apply now current key m).get key =
      if op.isDelete then none else (op.writes now current).or (m.get key) := by
  unfold IdempotencyOp.apply
  split
  · exact Table.get_remove_self _ _
  · split
    · rename_i e he
      rw [he]; exact Table.get_insert_self _ _ _
    · rename_i he
      rw [he]; rfl

end

namespace InMemoryIdempotencyStore

variable {c : Clock}

/-- What a step from `s` to `s'` does on the runtime key of its operation. -/
structure Effect (s s' : InMemoryIdempotencyStore c) (call : IdempotencyCall c.Instant) (answer : IdempotencyAnswer)
    (key : Str) : Prop where
  namespace_eq : s'.namespace' = s.namespace'
  format_eq : s'.keyFormat = s.keyFormat
  answer_eq : answer = .ok (call.op.reply (live Entry.alive call.now s.state.entries key))
  entries : ∃ m, Swept call.now s.state.entries m ∧
    s'.state.entries = call.op.apply call.now (live Entry.alive call.now s.state.entries key) key m

theorem step_error (s : InMemoryIdempotencyStore c) {call : IdempotencyCall c.Instant} {e : IdempotencyRuntimeError}
    (hkey : namespacedKey s.namespace' call.op.key s.keyFormat = .error e) : inMemory.step s call = (.error e, s) := by
  obtain ⟨now, op⟩ := call
  cases op <;> simp only [IdempotencyOp.key] at hkey <;>
    simp [inMemory, setOnce, claimPending, markCompleted, delete, exists', hkey, Except.map]

theorem step_effect (s : InMemoryIdempotencyStore c) {call : IdempotencyCall c.Instant} {key : Str}
    (hkey : namespacedKey s.namespace' call.op.key s.keyFormat = .ok key) :
    Effect s (inMemory.step s call).2 call (inMemory.step s call).1 key := by
  obtain ⟨now, op⟩ := call
  have hswept := maybeCleanup_swept s.state now
  cases op with
  | setOnce k ttl =>
    simp only [IdempotencyOp.key] at hkey
    simp only [inMemory, setOnce, hkey, live_of_any, hswept.live]
    rcases hlive : live Entry.alive now s.state.entries key with _ | e
    · refine ⟨rfl, rfl, by rw [hlive]; rfl, _, hswept, ?_⟩
      rw [hlive]; rfl
    · refine ⟨rfl, rfl, by rw [hlive]; rfl, _, hswept, ?_⟩
      rw [hlive]; rfl
  | claimPending k ttl =>
    simp only [IdempotencyOp.key] at hkey
    simp only [inMemory, claimPending, hkey]
    rcases hget : (s.state.maybeCleanup now).entries.get key with _ | ⟨state, expiresAt⟩
    · have hlive := (hswept.live key).symm.trans (live_of_get_none hget)
      refine ⟨rfl, rfl, by rw [hlive]; rfl, _, hswept, ?_⟩
      rw [hlive]; rfl
    · -- the branches of the source go by the state, the specification by whether the entry is live
      by_cases hlt : now.1 < expiresAt.1
      · have hlive := (hswept.live key).symm.trans (live_of_get_some hget (Entry.alive_eq_true.2 hlt))
        cases state <;> simp only [hlt, if_true] <;>
          exact ⟨rfl, rfl, by rw [hlive]; rfl, _, hswept, by rw [hlive]; rfl⟩
      · have hlive := (hswept.live key).symm.trans
          (live_of_get_dead hget (Entry.alive_eq_false.2 (Nat.le_of_not_lt hlt)))
        cases state <;> simp only [hlt, if_false] <;>
          exact ⟨rfl, rfl, by rw [hlive]; rfl, _, hswept, by rw [hlive]; rfl⟩
  | markCompleted k ttl =>
    simp only [IdempotencyOp.key] at hkey
    simp only [inMemory, markCompleted, hkey]
    exact ⟨rfl, rfl, rfl, _, Swept.refl now _, rfl⟩
  | delete k =>
    simp only [IdempotencyOp.key] at hkey
    simp only [inMemory, delete, hkey]
    exact ⟨rfl, rfl, rfl, _, Swept.refl now _, rfl⟩
  | exists' k =>
    simp only [IdempotencyOp.key] at hkey
    simp only [inMemory, exists', hkey, live_of_any, hswept.live]
    exact ⟨rfl, rfl, rfl, _, hswept, rfl⟩

end InMemoryIdempotencyStore

end WorldInfra.Idempotency
