/-
idempotency-runtime-core: claims on the in-memory store are exclusive in every run, with clock
readings taken any time before the lock. The invariant of a key relates its latest surviving write
to the entries: the write is there, or it has been swept after it expired.
-/
import WorldInfra.Idempotency.InMemory

namespace WorldInfra.Idempotency

open WorldInfra.Lib WorldInfra.Rust InMemoryIdempotencyStore

variable {c : Clock}

/-! ## Events -/

/-- A call that takes the lock at `lock` with a clock reading from before. -/
structure LockedCall (c : Clock) where
  lock : c.Instant
  now : c.Instant
  le : now ≤ lock
  op : IdempotencyOp

def LockedCall.call (l : LockedCall c) : IdempotencyCall c.Instant := ⟨l.now, l.op⟩

def locked : Machine (InMemoryIdempotencyStore c) (LockedCall c) IdempotencyAnswer := inMemory.comap LockedCall.call

abbrev LockedEvent (c : Clock) : Type := LockedCall c × IdempotencyAnswer

/-- The event's key, validated, is `key`. -/
def OnKey (key : Str) (e : LockedEvent c) : Prop := validatePart e.1.op.key = .ok key

instance (key : Str) (e : LockedEvent c) : Decidable (OnKey key e) :=
  inferInstanceAs (Decidable (validatePart e.1.op.key = .ok key))

/-- The entry the event wrote: a set marker, a fresh claim or a completion. -/
def written (e : LockedEvent c) : Option (Entry c) :=
  match e.1.op, e.2 with
  | .setOnce _ ttl, .ok (.set true) => some ⟨.marker, saturatingAdd e.1.now (ttlDuration ttl)⟩
  | .claimPending _ ttl, .ok (.claim .fresh) => some ⟨.pending, saturatingAdd e.1.now (ttlDuration ttl)⟩
  | .markCompleted _ ttl, .ok .done => some ⟨.completed, saturatingAdd e.1.now (ttlDuration ttl)⟩
  | _, _ => none

/-- The event won its key: a fresh claim or a successful `set_once`. -/
def Wins (e : LockedEvent c) : Prop := e.2 = .ok (.claim .fresh) ∨ e.2 = .ok (.set true)

theorem written_reply (l : LockedCall c) (current : Option (Entry c)) :
    written (l, .ok (l.op.reply current)) = l.op.writes l.now current := by
  obtain ⟨lock, now, le, op⟩ := l
  rcases current with _ | ⟨_ | _ | _, _⟩ <;> cases op <;> rfl

/-! ## The latest surviving write -/

/-- The latest write of the key that no delete follows. -/
def surviving (key : Str) (es : List (LockedEvent c)) : Option (Entry c) :=
  es.foldl (fun latest e =>
    if OnKey key e then if e.1.op.isDelete then none else (written e).or latest else latest) none

theorem surviving_snoc (key : Str) (es : List (LockedEvent c)) (e : LockedEvent c) :
    surviving key (es ++ [e]) =
      if OnKey key e then if e.1.op.isDelete then none else (written e).or (surviving key es)
      else surviving key es := by
  unfold surviving
  rw [List.foldl_append]
  rfl

/-- A surviving write is an event that no later write or delete of the key follows. -/
theorem exists_of_surviving {key : Str} {w : Entry c} : ∀ {es : List (LockedEvent c)}, surviving key es = some w →
    ∃ ds₁ e ds₂, es = ds₁ ++ e :: ds₂ ∧ OnKey key e ∧ written e = some w ∧
      ∀ d ∈ ds₂, OnKey key d → written d = none ∧ d.1.op.isDelete = false := by
  intro es
  induction es using List.reverseRecOn with
  | nil => intro h; cases h
  | append_singleton es e ih =>
    intro h
    rw [surviving_snoc] at h
    -- `e` is the surviving write, or it leaves the one before it
    have hold (hs : surviving key es = some w) (he : OnKey key e → written e = none ∧ e.1.op.isDelete = false) :
        ∃ ds₁ e' ds₂, es ++ [e] = ds₁ ++ e' :: ds₂ ∧ OnKey key e' ∧ written e' = some w ∧
          ∀ d ∈ ds₂, OnKey key d → written d = none ∧ d.1.op.isDelete = false := by
      obtain ⟨ds₁, e', ds₂, rfl, hkey, hw, hrest⟩ := ih hs
      refine ⟨ds₁, e', ds₂ ++ [e], by simp, hkey, hw, fun d hd => ?_⟩
      rcases List.mem_append.1 hd with hd | hd
      · exact hrest d hd
      · rw [List.mem_singleton.1 hd]; exact he
    split at h
    · rename_i hkey
      split at h
      · cases h
      · rename_i hdel
        rcases hw : written e with _ | w'
        · rw [hw] at h
          exact hold h fun _ => ⟨hw, by simpa using hdel⟩
        · rw [hw] at h
          cases h
          exact ⟨es, e, [], rfl, hkey, hw, fun d hd => absurd hd List.not_mem_nil⟩
    · rename_i hkey
      exact hold h fun hk => absurd hk hkey

/-- A write survives until the key is written or deleted. -/
theorem surviving_of_write {key : Str} {w : Entry c} {e : LockedEvent c} (hkey : OnKey key e)
    (hw : written e = some w) (ds₁ : List (LockedEvent c)) : ∀ {ds₂ : List (LockedEvent c)},
    (∀ d ∈ ds₂, OnKey key d → written d = none ∧ d.1.op.isDelete = false) →
      surviving key (ds₁ ++ e :: ds₂) = some w := by
  intro ds₂
  induction ds₂ using List.reverseRecOn with
  | nil =>
    intro _
    have hdel : e.1.op.isDelete = false := by
      unfold written at hw
      split at hw
      · rename_i hop _; rw [hop]; rfl
      · rename_i hop _; rw [hop]; rfl
      · rename_i hop _; rw [hop]; rfl
      · cases hw
    rw [surviving_snoc, if_pos hkey, hdel, hw]
    rfl
  | append_singleton ds₂ d ih =>
    intro hrest
    have hs := ih fun d' hd' => hrest d' (List.mem_append_left _ hd')
    rw [← List.cons_append, ← List.append_assoc, surviving_snoc, hs]
    split
    · rename_i hk
      obtain ⟨hw', hdel⟩ := hrest d (List.mem_append_right _ (List.mem_singleton_self d)) hk
      rw [hw', hdel]
      rfl
    · rfl

/-! ## The invariant -/

/-- The latest surviving write is under the runtime key, or it is gone after it expired; without
one nothing is there. -/
def Tracks (bound : c.Instant) (key runtimeKey : Str) (es : List (LockedEvent c)) (s : InMemoryIdempotencyStore c) :
    Prop :=
  match surviving key es with
  | some w => s.state.entries.get runtimeKey = some w ∨
      (s.state.entries.get runtimeKey = none ∧ w.expiresAt ≤ bound)
  | none => s.state.entries.get runtimeKey = none

theorem tracks_some {bound : c.Instant} {key runtimeKey : Str} {es : List (LockedEvent c)}
    {s : InMemoryIdempotencyStore c} {w : Entry c} (hw : surviving key es = some w) :
    Tracks bound key runtimeKey es s ↔ s.state.entries.get runtimeKey = some w ∨
      (s.state.entries.get runtimeKey = none ∧ w.expiresAt ≤ bound) := by
  rw [Tracks, hw]

theorem tracks_none {bound : c.Instant} {key runtimeKey : Str} {es : List (LockedEvent c)}
    {s : InMemoryIdempotencyStore c} (hw : surviving key es = none) :
    Tracks bound key runtimeKey es s ↔ s.state.entries.get runtimeKey = none := by
  rw [Tracks, hw]

/-- Sweeping at a reading that is not past the bound keeps the invariant. -/
theorem Tracks.swept {bound now : c.Instant} {key runtimeKey : Str} {es es' : List (LockedEvent c)}
    {s s' : InMemoryIdempotencyStore c} (h : Tracks bound key runtimeKey es s) (hle : now ≤ bound)
    {m : Table Str (Entry c)} (hm : Swept now s.state.entries m)
    (hs' : s'.state.entries.get runtimeKey = m.get runtimeKey) (hes : surviving key es' = surviving key es) :
    Tracks bound key runtimeKey es' s' := by
  rcases hw : surviving key es with _ | w
  · rw [tracks_none hw] at h
    rw [tracks_none (hes.trans hw), hs']
    rcases hm runtimeKey with heq | ⟨hnone, -⟩
    · rw [heq]; exact h
    · exact hnone
  · rw [tracks_some hw] at h
    rw [tracks_some (hes.trans hw), hs']
    rcases hm runtimeKey with heq | ⟨hnone, hexp⟩
    · rw [heq]; exact h
    · refine Or.inr ⟨hnone, ?_⟩
      rcases h with hget | ⟨-, hle'⟩
      · exact le_trans (hexp w hget) hle
      · exact hle'

/-- An event on the key itself keeps the invariant. -/
theorem Tracks.on_key {bound : c.Instant} {key runtimeKey : Str} {es : List (LockedEvent c)}
    {s s' : InMemoryIdempotencyStore c} {e : LockedEvent c} {m : Table Str (Entry c)}
    (h : Tracks bound key runtimeKey es s) (hkey : OnKey key e) (hle : e.1.now ≤ bound)
    (hm : Swept e.1.now s.state.entries m) (hs' : s'.state.entries.get runtimeKey =
      if e.1.op.isDelete then none else (written e).or (m.get runtimeKey)) :
    Tracks bound key runtimeKey (es ++ [e]) s' := by
  have hes := surviving_snoc key es e
  rw [if_pos hkey] at hes
  cases hdel : e.1.op.isDelete with
  | true =>
    rw [hdel, if_pos rfl] at hes hs'
    rw [tracks_none hes]
    exact hs'
  | false =>
    rw [hdel, if_neg Bool.false_ne_true] at hes hs'
    rcases hw : written e with _ | w
    · rw [hw, Option.none_or] at hes hs'
      exact h.swept hle hm hs' hes
    · rw [hw, Option.some_or] at hes hs'
      rw [tracks_some hes]
      exact Or.inl hs'

/-- The invariant of a key with the schema of the store. -/
structure Tracked (bound : c.Instant) (namespace' : Option IdempotencyNamespace) (keyFormat : IdempotencyKeyFormat)
    (key : Str) (es : List (LockedEvent c)) (s : InMemoryIdempotencyStore c) : Prop where
  namespace_eq : s.namespace' = namespace'
  format_eq : s.keyFormat = keyFormat
  tracks : Tracks bound key (formatKey keyFormat namespace' key) es s

variable {bound : c.Instant} {namespace' : Option IdempotencyNamespace} {keyFormat : IdempotencyKeyFormat} {key : Str}
  {es : List (LockedEvent c)} {s : InMemoryIdempotencyStore c} {l : LockedCall c}

/-- One call under a lock that is not past the bound keeps the invariant. -/
theorem tracked_step (hlock : l.lock ≤ bound) (h : Tracked bound namespace' keyFormat key es s) :
    Tracked bound namespace' keyFormat key (es ++ [(l, (locked.step s l).1)]) (locked.step s l).2 := by
  have hnow : l.now ≤ bound := le_trans l.le hlock
  obtain ⟨rfl, rfl, htracks⟩ := h
  rcases hv : validatePart l.op.key with e | v
  · -- the call fails on its key
    have herr : namespacedKey s.namespace' l.call.op.key s.keyFormat = .error e := by
      simp only [namespacedKey, LockedCall.call, hv, bind, Except.bind]
    have hstep : locked.step s l = (.error e, s) := step_error s herr
    rw [hstep]
    refine ⟨rfl, rfl, htracks.swept hnow (Swept.refl l.now _) rfl ?_⟩
    rw [surviving_snoc, if_neg]
    intro hk
    rw [OnKey, hv] at hk
    cases hk
  · have hkey : namespacedKey s.namespace' l.call.op.key s.keyFormat = .ok (formatKey s.keyFormat s.namespace' v) := by
      simp only [namespacedKey, LockedCall.call, hv, bind, Except.bind]
    obtain ⟨hns, hfmt, hans, m, hm, hentries⟩ := step_effect s hkey
    refine ⟨hns, hfmt, ?_⟩
    by_cases hvk : v = key
    · -- a call on the key itself
      rw [hvk] at hv hans hentries
      have hevent : written (l, (locked.step s l).1) = l.op.writes l.now
          (live Entry.alive l.now s.state.entries (formatKey s.keyFormat s.namespace' key)) := by
        rw [← written_reply]
        exact congrArg (fun a => written (l, a)) hans
      refine htracks.on_key hv hnow hm ?_
      rw [hevent]
      exact (congrArg (Table.get · _) hentries).trans IdempotencyOp.get_apply_self
    · -- another key is formatted otherwise, so only the sweep can touch the entry
      have hne : formatKey s.keyFormat s.namespace' key ≠ formatKey s.keyFormat s.namespace' v :=
        fun heq => hvk (formatKey_inj heq).symm
      refine htracks.swept hnow hm ?_ ?_
      · show (inMemory.step s l.call).2.state.entries.get _ = _
        rw [hentries]
        exact IdempotencyOp.get_apply_ne hne
      · rw [surviving_snoc, if_neg]
        intro hk
        rw [OnKey, hv, Except.ok.injEq] at hk
        exact hvk hk

variable (namespace' keyFormat key) in
theorem tracked_run {calls : List (LockedCall c)} (hlocks : ∀ l ∈ calls, l.lock ≤ bound) :
    Tracked bound namespace' keyFormat key (locked.trace ⟨namespace', keyFormat, ⟨∅, none⟩⟩ calls)
      (locked.exec ⟨namespace', keyFormat, ⟨∅, none⟩⟩ calls) := by
  have hstart : Tracked bound namespace' keyFormat key [] ⟨namespace', keyFormat, ⟨∅, none⟩⟩ :=
    ⟨rfl, rfl, Table.get_empty _⟩
  have hrun := locked.trace_inv (J := Tracked bound namespace' keyFormat key) (E := fun e => e.1.lock ≤ bound)
    (fun es s l h hl => tracked_step hl h) calls hstart fun e he => hlocks e.1 (locked.mem_inputs he)
  rwa [List.nil_append] at hrun

/-! ## Exclusive claims -/

/-- What a call on a key finds, in terms of the invariant. -/
theorem call_reply (h : Tracked bound namespace' keyFormat key es s) (hkey : validatePart l.op.key = .ok key) :
    ∃ current, (locked.step s l).1 = .ok (l.op.reply current) ∧
      (current = none → ∀ w, surviving key es = some w → w.expiresAt ≤ max bound l.now) ∧
      (∀ e, current = some e → surviving key es = some e) := by
  obtain ⟨rfl, rfl, htracks⟩ := h
  have hk : namespacedKey s.namespace' l.call.op.key s.keyFormat = .ok (formatKey s.keyFormat s.namespace' key) := by
    simp only [namespacedKey, LockedCall.call, hkey, bind, Except.bind]
  refine ⟨_, (step_effect s hk).answer_eq, ?_, ?_⟩
  · intro hnone w hw
    rw [tracks_some hw] at htracks
    rcases htracks with hget | ⟨-, hle⟩
    · exact le_max_of_le_right (Entry.alive_eq_false.1 (live_eq_none_iff.1 hnone w hget))
    · exact le_max_of_le_left hle
  · intro e he
    obtain ⟨hget, -⟩ := live_eq_some_iff.1 he
    rcases hw : surviving key es with _ | w
    · rw [tracks_none hw, hget] at htracks
      cases htracks
    · rw [tracks_some hw, hget] at htracks
      rcases htracks with heq | ⟨hnone, -⟩
      · exact heq.symm
      · cases hnone

/-- In every run whose locks are taken in order, with readings taken at any time before the lock: a
call wins a key only after its latest write was deleted or has expired by the lock; and a claim
finds the key pending, or completed, only if its latest write, not deleted since, was a fresh
claim, or a marker or a completion. -/
theorem claims_exclusive (namespace' : Option IdempotencyNamespace) (keyFormat : IdempotencyKeyFormat)
    (calls : List (LockedCall c)) (hlocks : calls.Pairwise fun a b => a.lock ≤ b.lock) (key : Str)
    (es₁ es₂ : List (LockedEvent c)) (f : LockedEvent c)
    (htrace : locked.trace ⟨namespace', keyFormat, ⟨∅, none⟩⟩ calls = es₁ ++ f :: es₂) (hkey : OnKey key f) :
    (Wins f → ∀ ds₁ e ds₂ w, es₁ = ds₁ ++ e :: ds₂ → OnKey key e → written e = some w →
      (∀ d ∈ ds₂, OnKey key d → written d = none) →
      (∃ d ∈ ds₂, OnKey key d ∧ d.1.op.isDelete = true) ∨ w.expiresAt ≤ f.1.lock) ∧
    (f.2 = .ok (.claim .pending) → ∃ ds₁ e ds₂ w, es₁ = ds₁ ++ e :: ds₂ ∧ OnKey key e ∧ written e = some w ∧
      w.state = .pending ∧ ∀ d ∈ ds₂, OnKey key d → written d = none ∧ d.1.op.isDelete = false) ∧
    (f.2 = .ok (.claim .completed) → ∃ ds₁ e ds₂ w, es₁ = ds₁ ++ e :: ds₂ ∧ OnKey key e ∧ written e = some w ∧
      (w.state = .marker ∨ w.state = .completed) ∧
      ∀ d ∈ ds₂, OnKey key d → written d = none ∧ d.1.op.isDelete = false) := by
  obtain ⟨l, answer⟩ := f
  obtain ⟨l₁, l₂, rfl, htrace₁, hanswer, -⟩ := locked.trace_eq_append_cons htrace
  have hbefore : ∀ l' ∈ l₁, l'.lock ≤ l.lock := fun l' hl' =>
    (List.pairwise_append.1 hlocks).2.2 l' hl' l (List.mem_cons_self ..)
  have htracked := tracked_run namespace' keyFormat key hbefore
  rw [htrace₁] at htracked
  obtain ⟨current, hreply, hnone, hsome⟩ := call_reply htracked hkey
  rw [hanswer] at hreply
  -- the reading of the call is not past its lock, so the bound of the run so far is the lock itself
  have hmax : max l.lock l.now = l.lock := max_eq_left l.le
  rw [hmax] at hnone
  refine ⟨?_, ?_, ?_⟩
  · intro hwins ds₁ e ds₂ w hsplit hkeye hw hrest
    by_cases hdel : ∃ d ∈ ds₂, OnKey key d ∧ d.1.op.isDelete = true
    · exact Or.inl hdel
    · -- no delete follows the write, so it is the one the invariant speaks of
      have hsurvives : surviving key es₁ = some w := by
        rw [hsplit]
        refine surviving_of_write hkeye hw ds₁ fun d hd hk => ⟨hrest d hd hk, ?_⟩
        rw [← Bool.not_eq_true]
        exact fun htrue => hdel ⟨d, hd, hk, htrue⟩
      have hwins' : l.op.reply current = .claim .fresh ∨ l.op.reply current = .set true := by
        simpa only [Wins, hreply, Except.ok.injEq] using hwins
      exact Or.inr (hnone (IdempotencyOp.reply_wins hwins') w hsurvives)
  · intro hpending
    rw [hreply, Except.ok.injEq] at hpending
    obtain ⟨e, he, hstate⟩ := IdempotencyOp.reply_pending hpending
    obtain ⟨ds₁, e', ds₂, hsplit, hkeye, hw, hrest⟩ := exists_of_surviving (hsome e he)
    exact ⟨ds₁, e', ds₂, e, hsplit, hkeye, hw, hstate, hrest⟩
  · intro hcompleted
    rw [hreply, Except.ok.injEq] at hcompleted
    obtain ⟨e, he, hstate⟩ := IdempotencyOp.reply_completed hcompleted
    obtain ⟨ds₁, e', ds₂, hsplit, hkeye, hw, hrest⟩ := exists_of_surviving (hsome e he)
    exact ⟨ds₁, e', ds₂, e, hsplit, hkeye, hw, hstate, hrest⟩

/-- A claim for a second, a cleanup by another key two seconds later, and a claim whose reading is
older than the cleanup. -/
def claimAfterCleanup : List (LockedCall .i64Secs) :=
  [⟨readingAt 0, readingAt 0, by decide, .claimPending "job".toList (.fromSecs 1)⟩,
    ⟨readingAt (2 * 10 ^ 9), readingAt (2 * 10 ^ 9), by decide, IdempotencyOp.exists' "other".toList⟩,
    ⟨readingAt (3 * 10 ^ 9), readingAt (5 * 10 ^ 8), by decide, .claimPending "job".toList (.fromSecs 1)⟩]

theorem claims_exclusive_after_cleanup :
    (∃ d ∈ ((locked.trace ⟨none, .lengthPrefixed, ⟨∅, none⟩⟩ claimAfterCleanup).drop 1).take 1,
      OnKey "job".toList d ∧ d.1.op.isDelete = true) ∨
    readingAt (10 ^ 9) ≤ readingAt (3 * 10 ^ 9) :=
  (claims_exclusive none .lengthPrefixed claimAfterCleanup (by decide) "job".toList [_, _] [] _ rfl rfl).1
    (Or.inl rfl) [] _ [_] ⟨.pending, readingAt (10 ^ 9)⟩ rfl rfl rfl (by decide)

end WorldInfra.Idempotency
