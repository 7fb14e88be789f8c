/-
auth-refresh-core: where the sessions of the in-memory store come from, in every run and whatever the
clocks read. A session that is loaded descends from a set of its token, or by an unbroken chain of
successful rotations from a set of an earlier one; and rotations never make entries out of nothing.
-/
import WorldInfra.Refresh.SingleUse

namespace WorldInfra.Refresh

open WorldInfra.Lib WorldInfra.Rust InMemoryRefreshStore

variable {c : Clock} {sha256 : Bytes → Bytes}

/-! ## Descent -/

/-- The event is a set, a rotation or a deletion that was done and names the token. -/
def Moves (token : Str) (e : RefreshEvent c) : Prop :=
  (e.2 = .ok .done ∨ e.2 = .ok (.rotated true)) ∧ token ∈ e.1.op.tokens

/-- After the events the token stands for the session: it was set to it, or rotated to from a token that
stood at that moment for the session that was shown, and no event since then has moved it. -/
inductive Descends : List (RefreshEvent c) → Str → RefreshSession → Prop
  | set {before call after token session ttl} (op : call.op = .set token session ttl)
      (kept : ∀ e ∈ after, ¬ Moves token e) : Descends (before ++ (call, .ok .done) :: after) token session
  | rotate {before call after oldToken newToken currentSession newSession ttl}
      (op : call.op = .rotate oldToken newToken currentSession newSession ttl)
      (current : Descends before oldToken currentSession) (kept : ∀ e ∈ after, ¬ Moves newToken e) :
      Descends (before ++ (call, .ok (.rotated true)) :: after) newToken newSession

theorem Descends.later {es : List (RefreshEvent c)} {token : Str} {session : RefreshSession}
    (h : Descends es token session) {event : RefreshEvent c} (hevent : ¬ Moves token event) :
    Descends (es ++ [event]) token session := by
  have hkept {after : List (RefreshEvent c)} (h : ∀ e ∈ after, ¬ Moves token e) :
      ∀ e ∈ after ++ [event], ¬ Moves token e := by
    rw [List.forall_mem_append, List.forall_mem_singleton]
    exact ⟨h, hevent⟩
  cases h with
  | set op kept =>
    rw [List.append_assoc, List.cons_append]
    exact .set op (hkept kept)
  | rotate op current kept =>
    rw [List.append_assoc, List.cons_append]
    exact .rotate op current (hkept kept)

/-- Every entry stands under the key of a token that descends to its session. -/
def Traced (sha256 : Bytes → Bytes) (tokens : List Str) (es : List (RefreshEvent c)) (s : InMemoryRefreshStore c) :
    Prop :=
  ∀ k e, s.entries.get k = some e →
    ∃ token ∈ tokens, s.keyForToken sha256 token = .ok k ∧ Descends es token e.session

/-- A store with the same keys for tokens, whose entries are old ones of tokens that the event has not
moved, is traced after the event. -/
theorem Traced.later {tokens : List Str} {es : List (RefreshEvent c)} {s s' : InMemoryRefreshStore c}
    (h : Traced sha256 tokens es s) (hkey : ∀ token, s'.keyForToken sha256 token = s.keyForToken sha256 token)
    {event : RefreshEvent c} (hentries : ∀ k e, s'.entries.get k = some e → s.entries.get k = some e ∧
      ∀ token, s.keyForToken sha256 token = .ok k → ¬ Moves token event) :
    Traced sha256 tokens (es ++ [event]) s' := by
  intro k e he
  obtain ⟨hold, hmoved⟩ := hentries k e he
  obtain ⟨token, ht, hk, hd⟩ := h k e hold
  exact ⟨token, ht, (hkey token).trans hk, hd.later (hmoved token hk)⟩

/-- A token of another key is not the one that is named. -/
theorem ne_of_keys {s : InMemoryRefreshStore c} {token t k key : Str} (hk : s.keyForToken sha256 t = .ok k)
    (hkey : storeKey sha256 s.config s.namespace' token = .ok key) (hne : k ≠ key) : t ≠ token := by
  rintro rfl
  exact hne (Except.ok.inj (hk.symm.trans hkey))

theorem traced_step {tokens : List Str} (hsha : CollisionFree sha256 tokens) {es : List (RefreshEvent c)}
    {s : InMemoryRefreshStore c} {call : RefreshCall c.Instant} (h : Traced sha256 tokens es s)
    (htokens : ∀ t ∈ call.op.tokens, t ∈ tokens) :
    Traced sha256 tokens (es ++ [(call, ((inMemory sha256).step s call).1)]) ((inMemory sha256).step s call).2 := by
  have hkey (token : Str) : ((inMemory sha256).step s call).2.keyForToken sha256 token = s.keyForToken sha256 token :=
    step_keyForToken s call token
  have heffect := step_effect sha256 s call
  generalize (inMemory sha256).step s call = r at hkey heffect ⊢
  obtain ⟨a, s'⟩ := r
  cases heffect with
  | kept hs hfailed hidle =>
    refine h.later hkey fun k e he => ⟨hs.entries k e he, fun _ _ hmoves => ?_⟩
    exact hmoves.1.elim hidle hfailed
  | @stored token session ttl key hop hk =>
    rw [hop] at htokens
    intro k e he
    rw [Table.get_insert] at he
    split at he
    · rename_i hkk
      cases he
      exact ⟨token, htokens token (by simp [RefreshOp.tokens]), by rw [hkk]; exact hk, .set hop (List.forall_mem_nil _)⟩
    · rename_i hne
      obtain ⟨t, ht, hk', hd⟩ := h k e he
      refine ⟨t, ht, hk', hd.later fun hmoves => ne_of_keys hk' hk hne ?_⟩
      simpa [Moves, hop, RefreshOp.tokens] using hmoves
  | @rotated oldToken newToken currentSession newSession ttl oldKey newKey _ hop hold hnew hs =>
    rw [hop] at htokens
    intro k e he
    rw [hs.entries] at he
    split at he
    · -- the new entry: the old one was the old token's, and held the session that was shown
      rename_i hkk
      cases he
      obtain ⟨e, hlive, hsession⟩ := hs.current
      obtain ⟨token, ht, hk, hd⟩ := h oldKey e (live_eq_some_iff.1 hlive).1
      have htoken : token = oldToken :=
        storeKey_inj (hsha token ht oldToken (htokens oldToken (by simp [RefreshOp.tokens]))) hk hold
      rw [htoken, hsession] at hd
      refine ⟨newToken, htokens newToken (by simp [RefreshOp.tokens]), ?_, .rotate hop hd (List.forall_mem_nil _)⟩
      rw [hkk]
      exact (hkey newToken).trans hnew
    · rename_i hnewKey
      split at he
      · cases he
      · rename_i holdKey
        obtain ⟨t, ht, hk', hd⟩ := h k e he
        refine ⟨t, ht, (hkey t).trans hk', hd.later fun hmoves => ?_⟩
        have hnamed : t = oldToken ∨ t = newToken := by simpa [Moves, hop, RefreshOp.tokens] using hmoves
        exact hnamed.elim (ne_of_keys hk' hold holdKey) (ne_of_keys hk' hnew hnewKey)
  | @deleted token key hop hk =>
    refine h.later hkey fun k e he => ?_
    rw [Table.get_remove] at he
    split at he
    · cases he
    · rename_i hne
      refine ⟨he, fun t ht hmoves => ne_of_keys ht hk hne ?_⟩
      simpa [Moves, hop, RefreshOp.tokens] using hmoves

/-- What a load finds is the session of the entry under the token's key. -/
theorem loaded_entry {s : InMemoryRefreshStore c} {now : c.Instant} {token : Str} {session : RefreshSession}
    (h : ((inMemory sha256).step s ⟨now, .get token⟩).1 = .ok (.loaded (some session))) :
    ∃ k e, s.keyForToken sha256 token = .ok k ∧ s.entries.get k = some e ∧ e.session = session := by
  simp only [inMemory] at h
  rcases hk : storeKey sha256 s.config s.namespace' token with e | k
  · simp only [InMemoryRefreshStore.get, hk] at h
    cases h
  · rw [(get_spec s now hk).1] at h
    simp only [Except.map, Except.ok.injEq, RefreshReply.loaded.injEq, Option.map_eq_some_iff] at h
    obtain ⟨e, hlive, hsession⟩ := h
    exact ⟨k, e, hk, (live_eq_some_iff.1 hlive).1, hsession⟩

/-- In every run from an empty store, if SHA-256 has no collision among the tokens, a session that is
loaded was set for its token, or put there by the last of a chain of successful rotations that began
with a set, each from the token that stood for the session it was shown; and no token of the chain has
been set, rotated or deleted otherwise between the link that put it there and the next. -/
theorem loaded_session_descends (sha256 : Bytes → Bytes) (config : RefreshStoreConfig)
    (namespace' : Option RefreshNamespace) (calls : List (RefreshCall c.Instant))
    (hsha : CollisionFree sha256 (callTokens calls)) {es fs : List (RefreshEvent c)} {call : RefreshCall c.Instant}
    {token : Str} {session : RefreshSession} (hop : call.op = .get token)
    (htrace : (inMemory sha256).trace ⟨namespace', config, ∅⟩ calls =
      es ++ (call, .ok (.loaded (some session))) :: fs) :
    Descends es token session := by
  obtain ⟨l₁, l₂, rfl, rfl, hanswer, -⟩ := (inMemory sha256).trace_eq_append_cons htrace
  have hcall : ∀ call' ∈ l₁ ++ call :: l₂, ∀ t ∈ call'.op.tokens, t ∈ callTokens (l₁ ++ call :: l₂) :=
    fun call' hc t ht => List.mem_flatMap.2 ⟨call', hc, ht⟩
  have htraced := (inMemory sha256).trace_inv_nil (J := Traced sha256 (callTokens (l₁ ++ call :: l₂)))
    (E := fun g => ∀ t ∈ g.1.op.tokens, t ∈ callTokens (l₁ ++ call :: l₂))
    (fun es s call' hJ hE => traced_step hsha hJ hE) (s := ⟨namespace', config, ∅⟩) l₁
    (fun k e he => by rw [Table.get_empty] at he; cases he)
    (fun g hg => hcall g.1 (List.mem_append_left _ ((inMemory sha256).mem_inputs hg)))
  obtain ⟨now, op⟩ := call
  obtain rfl : op = .get token := hop
  obtain ⟨k, e, hk, hget, rfl⟩ := loaded_entry hanswer
  obtain ⟨token', ht, hk', hd⟩ := htraced k e hget
  have htoken : token' = token :=
    storeKey_inj (hsha token' ht token (hcall ⟨now, .get token⟩ (by simp) token (by simp [RefreshOp.tokens]))) hk' hk
  rwa [htoken] at hd

/-- A token set, rotated to a second one, which is loaded. -/
theorem loaded_session_descends_rotated :
    let session : RefreshSession := ⟨"account".toList, "session".toList, 0, 0⟩
    let hour := Duration.fromSecs 3600
    let calls : List (RefreshCall Clock.i64Secs.Instant) :=
      [⟨readingAt 0, .set "first".toList session hour⟩,
        ⟨readingAt 1, .rotate "first".toList "second".toList session session hour⟩,
        ⟨readingAt 2, .get "second".toList⟩]
    Descends ((inMemory sha256OfFirstSecond).trace ⟨none, .default, ∅⟩ (calls.take 2)) "second".toList session :=
  loaded_session_descends sha256OfFirstSecond .default none
    [⟨readingAt 0, .set "first".toList ⟨"account".toList, "session".toList, 0, 0⟩ (Duration.fromSecs 3600)⟩,
      ⟨readingAt 1, .rotate "first".toList "second".toList ⟨"account".toList, "session".toList, 0, 0⟩
        ⟨"account".toList, "session".toList, 0, 0⟩ (Duration.fromSecs 3600)⟩,
      ⟨readingAt 2, .get "second".toList⟩] (by unfold CollisionFree; decide) rfl rfl

/-! ## Conservation -/

def entryCount (s : InMemoryRefreshStore c) : Nat := s.entries.count fun _ => true

/-- The event is a set that was done. -/
def isSet (e : RefreshEvent c) : Bool :=
  match e with
  | (⟨_, .set ..⟩, .ok .done) => true
  | _ => false

theorem entryCount_le_of_unchanged {s s' : InMemoryRefreshStore c} {now : c.Instant} (h : Unchanged s s' now) :
    entryCount s' ≤ entryCount s := Table.count_le_of_get h.entries _

theorem entryCount_le_of_rotated {s s' : InMemoryRefreshStore c} {now : c.Instant} {oldKey newKey : Str}
    {currentSession newSession : RefreshSession} {ttl : Duration}
    (h : Rotated s s' now oldKey newKey currentSession newSession ttl) : entryCount s' ≤ entryCount s := by
  obtain ⟨e, hlive, -⟩ := h.current
  have hsame : entryCount s' = ((s.entries.remove oldKey).insert newKey
      ⟨newSession, saturatingAdd now (ttlDuration ttl)⟩).count fun _ => true :=
    Table.count_congr (fun k => by rw [h.entries, Table.get_insert, Table.get_remove]) _
  -- the old entry goes, and at most one comes
  have hdrop := Table.count_remove s.entries oldKey fun _ => true
  rw [(live_eq_some_iff.1 hlive).1, Option.any_some, if_pos rfl] at hdrop
  have hle := Table.count_remove_le (s.entries.remove oldKey) newKey fun _ => true
  rw [hsame, Table.count_insert, if_pos rfl]
  unfold entryCount
  omega

theorem entryCount_step (s : InMemoryRefreshStore c) (call : RefreshCall c.Instant) :
    entryCount ((inMemory sha256).step s call).2 ≤
      entryCount s + if isSet (call, ((inMemory sha256).step s call).1) then 1 else 0 := by
  have heffect := step_effect sha256 s call
  generalize (inMemory sha256).step s call = r at heffect ⊢
  obtain ⟨a, s'⟩ := r
  cases heffect with
  | kept hs => exact Nat.le_add_right_of_le (entryCount_le_of_unchanged hs)
  | @stored token session ttl key hop _ =>
    obtain ⟨now, op⟩ := call
    obtain rfl : op = .set token session ttl := hop
    have hle := Table.count_remove_le s.entries key fun _ => true
    simp only [entryCount, Table.count_insert, isSet, if_true]
    omega
  | rotated _ _ _ hs => exact Nat.le_add_right_of_le (entryCount_le_of_rotated hs)
  | deleted _ _ => exact Nat.le_add_right_of_le (Table.count_remove_le s.entries _ _)

/-- In every run from an empty store, and whatever the clocks read, there are never more entries than
there have been sets: rotations and loads only ever move or clear entries. -/
theorem entries_le_sets (sha256 : Bytes → Bytes) (config : RefreshStoreConfig) (namespace' : Option RefreshNamespace)
    (calls : List (RefreshCall c.Instant)) :
    entryCount ((inMemory sha256).exec ⟨namespace', config, ∅⟩ calls) ≤
      ((inMemory sha256).trace ⟨namespace', config, ∅⟩ calls).countP isSet := by
  exact (inMemory sha256).trace_inv_nil (J := fun es (s : InMemoryRefreshStore c) => entryCount s ≤ es.countP isSet)
    (E := fun _ => True) (fun es s call hJ _ => by
      rw [List.countP_append, List.countP_singleton]
      exact (entryCount_step s call).trans (Nat.add_le_add_right hJ _)) (s := ⟨namespace', config, ∅⟩) calls
    (Nat.le_refl _) fun _ _ => trivial

end WorldInfra.Refresh
