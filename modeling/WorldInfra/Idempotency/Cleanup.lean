/-
idempotency-runtime-core: the lazy cleanup of the in-memory store. The hint is never later than the
first expiry, whatever the operations and whatever the clock reads; so a cleanup leaves exactly the
entries alive at its reading, whether it looks at them or not.
-/
import WorldInfra.Idempotency.InMemory
import WorldInfra.Rust.Halving

namespace WorldInfra.Idempotency

open WorldInfra.Lib WorldInfra.Rust

variable {c : Clock}

namespace InMemoryState

/-- The hint: if there are entries, the next cleanup is due before any of them expires. -/
def Hinted (self : InMemoryState c) : Prop :=
  self.entries ≠ ∅ → ∃ n, self.nextCleanupAt = some n ∧ ∀ key e, self.entries.get key = some e → n ≤ e.expiresAt

/-- The same, entry by entry. -/
theorem hinted_iff {s : InMemoryState c} :
    s.Hinted ↔ ∀ key e, s.entries.get key = some e → ∃ n, s.nextCleanupAt = some n ∧ n ≤ e.expiresAt := by
  constructor
  · intro h key e he
    have hne : s.entries ≠ ∅ := by
      intro hempty
      rw [hempty, Table.get_empty] at he
      cases he
    obtain ⟨n, hn, hle⟩ := h hne
    exact ⟨n, hn, hle key e he⟩
  · intro h hne
    obtain ⟨⟨key, e⟩, he⟩ := List.exists_mem_of_ne_nil s.entries.entries fun hnil => hne (AList.ext hnil)
    obtain ⟨n, hn, -⟩ := h key e (Table.get_eq_some_iff.2 he)
    refine ⟨n, hn, fun key' e' he' => ?_⟩
    obtain ⟨n', hn', hle⟩ := h key' e' he'
    rw [hn, Option.some.injEq] at hn'
    rwa [hn']

theorem hinted_empty : Hinted (⟨∅, none⟩ : InMemoryState c) := fun h => absurd rfl h

/-! ## One cleanup -/

theorem maybeCleanup_of_due {s : InMemoryState c} {now : c.Instant}
    (h : (s.nextCleanupAt.any fun next => decide (now.1 < next.1)) = false) (key : Str) :
    (s.maybeCleanup now).entries.get key = (s.entries.get key).filter (Entry.alive now) := by
  rw [maybeCleanup, if_neg (by rw [h]; exact Bool.false_ne_true)]
  exact Table.get_retain s.entries (Entry.alive now) key

/-- A cleanup leaves the entries alive at its reading, also when the hint tells it to skip. -/
theorem get_maybeCleanup {s : InMemoryState c} (hs : s.Hinted) (now : c.Instant) (key : Str) :
    (s.maybeCleanup now).entries.get key = (s.entries.get key).filter (Entry.alive now) := by
  cases hskip : s.nextCleanupAt.any fun next => decide (now.1 < next.1) with
  | false => exact maybeCleanup_of_due hskip key
  | true =>
    rw [maybeCleanup, if_pos hskip]
    cases hget : s.entries.get key with
    | none => rfl
    | some e =>
      -- nothing has expired before the hint
      obtain ⟨n, hn, hle⟩ := hinted_iff.1 hs key e hget
      rw [hn, Option.any_some, decide_eq_true_eq] at hskip
      rw [Option.filter_some, if_pos (Entry.alive_eq_true.2 (lt_of_lt_of_le hskip hle))]

theorem maybeCleanup_hinted {s : InMemoryState c} (hs : s.Hinted) (now : c.Instant) : (s.maybeCleanup now).Hinted := by
  unfold maybeCleanup
  split
  · exact hs
  · rw [hinted_iff]
    intro key e he
    have hmem : e.expiresAt ∈
        (s.entries.retain fun entry => decide (now.1 < entry.expiresAt.1)).values.map Entry.expiresAt :=
      List.mem_map_of_mem (List.mem_map.2 ⟨⟨key, e⟩, Table.get_eq_some_iff.1 he, rfl⟩)
    cases hmin : (List.map Entry.expiresAt
        (s.entries.retain fun entry => decide (now.1 < entry.expiresAt.1)).values).min? with
    | none =>
      rw [List.min?_eq_none_iff] at hmin
      rw [hmin] at hmem
      cases hmem
    | some n => exact ⟨n, hmin, (List.min?_eq_some_iff.1 hmin).2 _ hmem⟩

/-! ## Writing and deleting -/

theorem insert_hinted {s : InMemoryState c} (hs : s.Hinted) (key : Str) (e : Entry c) :
    (noteExpiry { s with entries := s.entries.insert key e } e.expiresAt).Hinted := by
  rw [hinted_iff]
  intro k e' he'
  change (s.entries.insert key e).get k = some e' at he'
  rw [Table.get_insert] at he'
  split at he'
  · obtain rfl := Option.some.inj he'
    cases hn : s.nextCleanupAt with
    | none => exact ⟨e.expiresAt, rfl, le_refl _⟩
    | some n => exact ⟨min n e.expiresAt, rfl, min_le_right ..⟩
  · obtain ⟨n, hn, hle⟩ := hinted_iff.1 hs k e' he'
    exact ⟨min n e.expiresAt, by rw [noteExpiry, hn]; rfl, (min_le_left ..).trans hle⟩

theorem remove_hinted {s : InMemoryState c} (hs : s.Hinted) (key : Str) :
    Hinted { s with entries := s.entries.remove key } := by
  rw [hinted_iff]
  intro k e he
  change (s.entries.remove key).get k = some e at he
  rw [Table.get_remove] at he
  split at he
  · cases he
  · exact hinted_iff.1 hs k e he

end InMemoryState

/-- The operations that clean up before they look. -/
def IdempotencyOp.sweeps : IdempotencyOp → Bool
  | .setOnce _ _ | .claimPending _ _ | .exists' _ => true
  | .markCompleted _ _ | .delete _ => false

/-! ## Calls and runs -/

namespace InMemoryIdempotencyStore

/-- Clones of a store share its entries and may have other key formats; each call comes with the format
of the clone it is made on. -/
def clones : Machine (InMemoryIdempotencyStore c) (IdempotencyKeyFormat × IdempotencyCall c.Instant)
    IdempotencyAnswer where
  step s call := inMemory.step (s.withKeyFormat call.1) call.2

/-- A sweeping call leaves what the cleanup left, with at most one entry written on top. -/
theorem step_sweeps (s : InMemoryIdempotencyStore c) {call : IdempotencyCall c.Instant} {key : Str}
    (hkey : namespacedKey s.namespace' call.op.key s.keyFormat = .ok key) (hsweeps : call.op.sweeps = true) :
    (inMemory.step s call).2 = { s with state := s.state.maybeCleanup call.now } ∨
      ∃ state ttl, (inMemory.step s call).2 = s.write (s.state.maybeCleanup call.now) key
        ⟨state, saturatingAdd call.now (ttlDuration ttl)⟩ := by
  obtain ⟨now, op⟩ := call
  cases op with
  | setOnce k ttl =>
    simp only [IdempotencyOp.key] at hkey
    simp only [inMemory, setOnce, hkey]
    split
    · exact Or.inl rfl
    · exact Or.inr ⟨.marker, ttl, rfl⟩
  | claimPending k ttl =>
    simp only [IdempotencyOp.key] at hkey
    simp only [inMemory, claimPending, hkey]
    rcases (s.state.maybeCleanup now).entries.get key with _ | ⟨state, expiresAt⟩
    · exact Or.inr ⟨.pending, ttl, rfl⟩
    · by_cases hlt : now.1 < expiresAt.1
      · cases state <;> simp only [hlt, if_true] <;> exact Or.inl trivial
      · cases state <;> simp only [hlt, if_false] <;> exact Or.inr ⟨.pending, ttl, rfl⟩
  | exists' k =>
    simp only [IdempotencyOp.key] at hkey
    simp only [inMemory, exists', hkey]
    exact Or.inl trivial
  | markCompleted k ttl => cases hsweeps
  | delete k => cases hsweeps

/-- The other calls write one entry or remove one. -/
theorem step_not_sweeps (s : InMemoryIdempotencyStore c) {call : IdempotencyCall c.Instant} {key : Str}
    (hkey : namespacedKey s.namespace' call.op.key s.keyFormat = .ok key) (hsweeps : call.op.sweeps = false) :
    (∃ e, (inMemory.step s call).2 = s.write s.state key e) ∨
      (inMemory.step s call).2 = { s with state := { s.state with entries := s.state.entries.remove key } } := by
  obtain ⟨now, op⟩ := call
  cases op with
  | markCompleted k ttl =>
    simp only [IdempotencyOp.key] at hkey
    simp only [inMemory, markCompleted, hkey]
    exact Or.inl ⟨_, rfl⟩
  | delete k =>
    simp only [IdempotencyOp.key] at hkey
    simp only [inMemory, delete, hkey]
    exact Or.inr trivial
  | setOnce k ttl => cases hsweeps
  | claimPending k ttl => cases hsweeps
  | exists' k => cases hsweeps

theorem step_hinted {s : InMemoryIdempotencyStore c} (hs : s.state.Hinted) (call : IdempotencyCall c.Instant) :
    (inMemory.step s call).2.state.Hinted := by
  cases hkey : namespacedKey s.namespace' call.op.key s.keyFormat with
  | error e =>
    rw [step_error s hkey]
    exact hs
  | ok key =>
    cases hsweeps : call.op.sweeps with
    | true =>
      have hclean := InMemoryState.maybeCleanup_hinted hs call.now
      obtain h | ⟨state, ttl, h⟩ := step_sweeps s hkey hsweeps
      · rw [h]
        exact hclean
      · rw [h]
        exact InMemoryState.insert_hinted hclean key _
    | false =>
      obtain ⟨e, h⟩ | h := step_not_sweeps s hkey hsweeps
      · rw [h]
        exact InMemoryState.insert_hinted hs key e
      · rw [h]
        exact InMemoryState.remove_hinted hs key

theorem run_hinted (namespace' : Option IdempotencyNamespace) (keyFormat : IdempotencyKeyFormat)
    (calls : List (IdempotencyKeyFormat × IdempotencyCall c.Instant)) :
    (clones.exec ⟨namespace', keyFormat, ⟨∅, none⟩⟩ calls).state.Hinted :=
  clones.exec_inv (I := fun s => s.state.Hinted) (fun s call hs => step_hinted (s := s.withKeyFormat call.1) hs call.2)
    calls InMemoryState.hinted_empty

/-- After a sweeping call that is answered, nothing has expired. -/
theorem step_alive {s : InMemoryIdempotencyStore c} (hs : s.state.Hinted) {call : IdempotencyCall c.Instant}
    (hnow : call.now.1 + 1 ≤ c.max) (hsweeps : call.op.sweeps = true) {reply : IdempotencyReply}
    (hanswer : (inMemory.step s call).1 = .ok reply) {key : Str} {e : Entry c}
    (he : (inMemory.step s call).2.state.entries.get key = some e) : call.now < e.expiresAt := by
  have hleft : ∀ {e}, (s.state.maybeCleanup call.now).entries.get key = some e → call.now < e.expiresAt := by
    intro e he
    rw [InMemoryState.get_maybeCleanup hs, Option.filter_eq_some_iff] at he
    exact Entry.alive_eq_true.1 he.2
  cases hkey : namespacedKey s.namespace' call.op.key s.keyFormat with
  | error err =>
    rw [step_error s hkey] at hanswer
    cases hanswer
  | ok key' =>
    obtain h | ⟨state, ttl, h⟩ := step_sweeps s hkey hsweeps
    · rw [h] at he
      exact hleft he
    · rw [h] at he
      change ((s.state.maybeCleanup call.now).entries.insert key' _).get key = some e at he
      rw [Table.get_insert] at he
      split at he
      · obtain rfl := Option.some.inj he
        exact lt_saturatingAdd hnow (ttlDuration_pos ttl)
      · exact hleft he

/-- In every state that calls on a store and its clones reach, whatever the clock reads: if there are
entries, the next cleanup is due no later than any of them expires. So a cleanup removes the entries
expired at its reading and no other; and after a marker, a claim or a lookup that is answered, every entry
expires after its reading, if the clock goes on after that. -/
theorem lazy_cleanup (namespace' : Option IdempotencyNamespace) (keyFormat : IdempotencyKeyFormat)
    (calls : List (IdempotencyKeyFormat × IdempotencyCall c.Instant)) (s : InMemoryIdempotencyStore c)
    (hs : s = clones.exec ⟨namespace', keyFormat, ⟨∅, none⟩⟩ calls) :
    (s.state.entries ≠ ∅ → ∃ n, s.state.nextCleanupAt = some n ∧
      ∀ key e, s.state.entries.get key = some e → n ≤ e.expiresAt) ∧
    (∀ now key e, (s.state.maybeCleanup now).entries.get key = some e → now < e.expiresAt) ∧
    (∀ now key e, s.state.entries.get key = some e →
      (s.state.maybeCleanup now).entries.get key = some e ∨ e.expiresAt ≤ now) ∧
    ∀ call reply, call.2.now.1 + 1 ≤ c.max → call.2.op.sweeps = true → (clones.step s call).1 = .ok reply →
      ∀ key e, (clones.step s call).2.state.entries.get key = some e → call.2.now < e.expiresAt := by
  have hhint : s.state.Hinted := hs ▸ run_hinted namespace' keyFormat calls
  refine ⟨hhint, ?_, ?_, ?_⟩
  · intro now key e he
    rw [InMemoryState.get_maybeCleanup hhint, Option.filter_eq_some_iff] at he
    exact Entry.alive_eq_true.1 he.2
  · intro now key e he
    rw [InMemoryState.get_maybeCleanup hhint, he, Option.filter_some]
    cases halive : e.alive now with
    | true => exact Or.inl (if_pos rfl)
    | false => exact Or.inr (Entry.alive_eq_false.1 halive)
  · intro call reply hnow hsweeps hanswer key e he
    exact step_alive (s := s.withKeyFormat call.1) hhint hnow hsweeps hanswer he

/-- A marker written at five microseconds, then a claim on a clone with an earlier reading. -/
def markerThenClaim : List (IdempotencyKeyFormat × IdempotencyCall Clock.i64Secs.Instant) :=
  [(.lengthPrefixed, ⟨readingAt 5000, .setOnce "a".toList ⟨3000, by decide⟩⟩),
    (.namespacePrefix, ⟨readingAt 2000, .claimPending "b".toList ⟨9000, by decide⟩⟩)]

def claimAgain : IdempotencyKeyFormat × IdempotencyCall Clock.i64Secs.Instant :=
  (.namespacePrefix, ⟨readingAt 9000, .claimPending "b".toList ⟨1, by decide⟩⟩)

/-- The marker is due for cleanup at eight microseconds; a second claim at nine leaves the first only. -/
theorem lazy_cleanup_markerThenClaim :
    (∃ n, (clones.exec ⟨none, .lengthPrefixed, ⟨∅, none⟩⟩ markerThenClaim).state.nextCleanupAt = some n ∧
      n.1 = 8000) ∧
    ∀ key e, (clones.step (clones.exec ⟨none, .lengthPrefixed, ⟨∅, none⟩⟩ markerThenClaim)
      claimAgain).2.state.entries.get key = some e → readingAt 9000 < e.expiresAt := by
  obtain ⟨hhint, -, -, hafter⟩ := lazy_cleanup none .lengthPrefixed markerThenClaim _ rfl
  refine ⟨?_, hafter claimAgain (.claim .pending) (by decide) rfl (by decide +kernel)⟩
  obtain ⟨n, hn, -⟩ := hhint fun hempty => absurd (congrArg AList.keys hempty) (by decide +kernel)
  have hdue : (clones.exec ⟨none, .lengthPrefixed, ⟨∅, none⟩⟩ markerThenClaim).state.nextCleanupAt =
    some (readingAt 8000) := by decide +kernel
  rw [hdue, Option.some.injEq] at hn
  exact ⟨n, hdue.trans (congrArg some hn), hn ▸ rfl⟩

end InMemoryIdempotencyStore

end WorldInfra.Idempotency
