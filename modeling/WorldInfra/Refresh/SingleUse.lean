/-
auth-refresh-core: rotation of the in-memory store is single-use in every run, whatever the number
of clients and the order of their clock readings. The invariant behind it is the absence of a
token's entry, which only a store of that token ends.
-/
import WorldInfra.Refresh.InMemory

namespace WorldInfra.Refresh

open WorldInfra.Lib WorldInfra.Rust InMemoryRefreshStore

variable {c : Clock} {sha256 : Bytes → Bytes}

/-! ## Events of a run -/

abbrev RefreshEvent (c : Clock) : Type := RefreshCall c.Instant × RefreshAnswer

/-- The event stores `token`: a set of it, or a successful rotation to it. -/
def Stores (token : Str) (e : RefreshEvent c) : Prop :=
  match e.1.op with
  | .set t _ _ => t = token
  | .rotate _ newToken _ _ _ => newToken = token ∧ e.2 = .ok (.rotated true)
  | _ => False

/-- The event is a successful rotation from `token`. -/
def RotatedFrom (token : Str) (e : RefreshEvent c) : Prop :=
  match e.1.op with
  | .rotate oldToken _ _ _ _ => oldToken = token ∧ e.2 = .ok (.rotated true)
  | _ => False

theorem mem_tokens_of_rotatedFrom {token : Str} {e : RefreshEvent c} (h : RotatedFrom token e) :
    token ∈ e.1.op.tokens := by
  unfold RotatedFrom at h
  split at h
  · rename_i hop
    rw [hop, ← h.1]
    exact List.mem_cons_self ..
  · exact h.elim

def callTokens (calls : List (RefreshCall c.Instant)) : List Str := calls.flatMap fun call => call.op.tokens

/-- SHA-256 has no collision among the tokens. -/
def CollisionFree (sha256 : Bytes → Bytes) (tokens : List Str) : Prop :=
  ∀ s ∈ tokens, ∀ t ∈ tokens, sha256 (Utf8.encode s) = sha256 (Utf8.encode t) → s = t

/-! ## Absence -/

/-- The token is valid and no entry stands under its key. -/
def Absent (sha256 : Bytes → Bytes) (token : Str) (s : InMemoryRefreshStore c) : Prop :=
  ∃ k, s.keyForToken sha256 token = .ok k ∧ s.entries.get k = none

/-- A call other than a store of the token keeps it absent, if the call's tokens have other keys. -/
theorem absent_step {token : Str} {s : InMemoryRefreshStore c} {call : RefreshCall c.Instant}
    (h : Absent sha256 token s)
    (hsha : ∀ t ∈ call.op.tokens, sha256 (Utf8.encode t) = sha256 (Utf8.encode token) → t = token)
    (hst : ¬ Stores token (call, ((inMemory sha256).step s call).1)) :
    Absent sha256 token ((inMemory sha256).step s call).2 := by
  obtain ⟨k, hk, hget⟩ := h
  refine ⟨k, by rw [step_keyForToken]; exact hk, ?_⟩
  have heffect := step_effect sha256 s call
  generalize (inMemory sha256).step s call = r at heffect hst ⊢
  obtain ⟨a, s'⟩ := r
  cases heffect with
  | kept hs =>
    rw [Option.eq_none_iff_forall_ne_some]
    intro e he
    rw [hs.entries k e he] at hget
    cases hget
  | @stored t _ _ key hop hkey =>
    -- an entry under the token's key would be the token's
    rw [Table.get_insert_ne]
    · exact hget
    · rintro rfl
      rw [hop] at hsha
      refine hst ?_
      simp only [Stores, hop]
      exact storeKey_inj (hsha t (by simp [RefreshOp.tokens])) hkey hk
  | @rotated _ newToken _ _ _ oldKey newKey _ hop _ hnew hs =>
    show s'.entries.get k = none
    rw [hs.entries, if_neg, hget, ite_self]
    rintro rfl
    rw [hop] at hsha
    refine hst ?_
    simp only [Stores, hop]
    exact ⟨storeKey_inj (hsha newToken (by simp [RefreshOp.tokens])) hnew hk, trivial⟩
  | deleted _ _ => rw [Table.get_remove, hget, ite_self]

/-- A successful rotation leaves its old token absent. -/
theorem absent_of_rotatedFrom {token : Str} {s : InMemoryRefreshStore c} {call : RefreshCall c.Instant}
    (h : RotatedFrom token (call, ((inMemory sha256).step s call).1)) :
    Absent sha256 token ((inMemory sha256).step s call).2 := by
  unfold Absent
  rw [step_keyForToken]
  have heffect := step_effect sha256 s call
  generalize (inMemory sha256).step s call = r at heffect h ⊢
  obtain ⟨a, s'⟩ := r
  cases heffect with
  | kept _ hfail _ =>
    unfold RotatedFrom at h
    split at h
    · exact absurd h.2 hfail
    · exact h.elim
  | stored hop _ => simp only [RotatedFrom, hop] at h
  | @rotated oldToken _ _ _ _ oldKey newKey _ hop hold _ hs =>
    simp only [RotatedFrom, hop] at h
    refine ⟨oldKey, by rw [← h.1]; exact hold, ?_⟩
    rw [hs.entries, if_neg hs.ne, if_pos rfl]
  | deleted hop _ => simp only [RotatedFrom, hop] at h

/-- What is asked of an absent token is refused. -/
theorem absent_answers {token : Str} {s : InMemoryRefreshStore c} (h : Absent sha256 token s) (now : c.Instant) :
    ((inMemory sha256).step s ⟨now, .get token⟩).1 = .ok (.loaded none) ∧
    ∀ newToken currentSession newSession ttl,
      ((inMemory sha256).step s ⟨now, .rotate token newToken currentSession newSession ttl⟩).1 =
        if validateToken newToken = .ok newToken then .ok (.rotated false) else .error .invalidToken := by
  obtain ⟨k, hk, hget⟩ := h
  rw [keyForToken] at hk
  constructor
  · simp only [inMemory, InMemoryRefreshStore.get, hk, hget]
    rfl
  · intro newToken currentSession newSession ttl
    simp only [inMemory]
    rcases rotate_cases sha256 s now token newToken currentSession newSession ttl with
      ⟨e, he, hkey⟩ | ⟨oldKey, newKey, hold, hnew, s', ⟨he, -, -⟩ | ⟨he, hs⟩⟩
    · rw [he]
      rcases hkey with hold | hnew
      · rw [hold] at hk; cases hk
      · obtain ⟨hv, rfl⟩ := storeKey_error hnew
        rw [if_neg (by rw [hv]; intro h; cases h)]
        rfl
    · rw [he, if_pos (storeKey_ok hnew)]
      rfl
    · -- a success would need a live entry under the token's key
      obtain ⟨e, hlive, -⟩ := hs.current
      rw [hold, Except.ok.injEq] at hk
      rw [hk, live_of_get_none hget] at hlive
      cases hlive

/-! ## Single use -/

/-- After a successful rotation from a token and events none of which stores it, it is absent. -/
theorem absent_after {s : InMemoryRefreshStore c} {calls : List (RefreshCall c.Instant)} {token : Str}
    (hsha : CollisionFree sha256 (callTokens calls)) {es₁ es₂ es₃ : List (RefreshEvent c)} {e : RefreshEvent c}
    (htrace : (inMemory sha256).trace s calls = es₁ ++ e :: (es₂ ++ es₃)) (he : RotatedFrom token e)
    (hst : ∀ g ∈ es₂, ¬ Stores token g) :
    ∃ l₁ l₂, calls = l₁ ++ l₂ ∧ (inMemory sha256).trace ((inMemory sha256).exec s l₁) l₂ = es₃ ∧
      Absent sha256 token ((inMemory sha256).exec s l₁) := by
  obtain ⟨call, answer⟩ := e
  obtain ⟨l, l', rfl, -, rfl, h'⟩ := (inMemory sha256).trace_eq_append_cons htrace
  -- the run: up to the rotation, the events that do not store the token, the rest
  obtain ⟨m, n, rfl, hm, hn⟩ := (inMemory sha256).trace_eq_append h'
  refine ⟨l ++ call :: m, n, by simp, by rw [Machine.exec_append]; exact hn, ?_⟩
  rw [Machine.exec_append, Machine.exec_cons]
  have htoken : token ∈ call.op.tokens := mem_tokens_of_rotatedFrom he
  refine (inMemory sha256).exec_inv_of_events
    (E := fun g => ¬ Stores token g ∧
      ∀ t ∈ g.1.op.tokens, sha256 (Utf8.encode t) = sha256 (Utf8.encode token) → t = token)
    (fun t call' hI hE => absent_step hI hE.2 hE.1) m (absent_of_rotatedFrom he) fun g hg => ?_
  rw [hm] at hg
  refine ⟨hst g hg, fun t ht => hsha t ?_ token ?_⟩
  · have hmem : g.1 ∈ m := (inMemory sha256).mem_inputs (hm ▸ hg)
    exact List.mem_flatMap.2 ⟨g.1, by simp [hmem], ht⟩
  · exact List.mem_flatMap.2 ⟨call, by simp, htoken⟩

/-- After a successful rotation from a token, and until it is stored, loading the token finds
nothing and rotating from it is refused. -/
theorem refused_after_rotation {s : InMemoryRefreshStore c} {calls : List (RefreshCall c.Instant)} {token : Str}
    (hsha : CollisionFree sha256 (callTokens calls)) {es₁ es₂ es₃ : List (RefreshEvent c)} {e f : RefreshEvent c}
    (htrace : (inMemory sha256).trace s calls = es₁ ++ e :: (es₂ ++ f :: es₃)) (he : RotatedFrom token e)
    (hst : ∀ g ∈ es₂, ¬ Stores token g) :
    (f.1.op = .get token → f.2 = .ok (.loaded none)) ∧
    (∀ newToken currentSession newSession ttl, f.1.op = .rotate token newToken currentSession newSession ttl →
      f.2 = if validateToken newToken = .ok newToken then .ok (.rotated false) else .error .invalidToken) := by
  obtain ⟨l₁, l₂, -, htail, habsent⟩ := absent_after hsha htrace he hst
  cases l₂ with
  | nil => cases htail
  | cons call l₂ =>
    rw [Machine.trace_cons, List.cons.injEq] at htail
    obtain ⟨rfl, -⟩ := htail
    obtain ⟨now, op⟩ := call
    obtain ⟨hload, hrotate⟩ := absent_answers habsent now
    constructor
    · rintro rfl; exact hload
    · rintro newToken currentSession newSession ttl rfl; exact hrotate ..

/-- Between two successful rotations from a token there is a store of it. -/
theorem stored_between_rotations {s : InMemoryRefreshStore c} {calls : List (RefreshCall c.Instant)} {token : Str}
    (hsha : CollisionFree sha256 (callTokens calls)) {es₁ es₂ es₃ : List (RefreshEvent c)} {e f : RefreshEvent c}
    (htrace : (inMemory sha256).trace s calls = es₁ ++ e :: (es₂ ++ f :: es₃)) (he : RotatedFrom token e)
    (hf : RotatedFrom token f) : ∃ g ∈ es₂, Stores token g := by
  by_contra hno
  have hst : ∀ g ∈ es₂, ¬ Stores token g := fun g hg hs => hno ⟨g, hg, hs⟩
  obtain ⟨-, hrefused⟩ := refused_after_rotation hsha htrace he hst
  unfold RotatedFrom at hf
  split at hf
  · rename_i oldToken newToken currentSession newSession ttl hop
    obtain ⟨rfl, hans⟩ := hf
    rw [hrefused newToken currentSession newSession ttl hop] at hans
    split at hans <;> cases hans
  · exact hf

/-! ## What rotations do to the live entries -/

/-- The number of live entries at a reading. -/
def liveCount (now : c.Instant) (s : InMemoryRefreshStore c) : Nat := s.entries.count (Entry.alive now)

theorem liveCount_le_of_rotated {s s' : InMemoryRefreshStore c} {now : c.Instant} {oldKey newKey : Str}
    {currentSession newSession : RefreshSession} {ttl : Duration}
    (h : Rotated s s' now oldKey newKey currentSession newSession ttl) : liveCount now s' ≤ liveCount now s := by
  obtain ⟨e, hlive, -⟩ := h.current
  obtain ⟨hget, halive⟩ := live_eq_some_iff.1 hlive
  have hsame : liveCount now s' = ((s.entries.remove oldKey).insert newKey
      ⟨newSession, saturatingAdd now (ttlDuration ttl)⟩).count (Entry.alive now) :=
    Table.count_congr (fun k => by rw [h.entries, Table.get_insert, Table.get_remove]) _
  -- one live entry goes, and at most one comes
  have hdrop := Table.count_remove s.entries oldKey (Entry.alive now)
  rw [hget, Option.any_some, halive, if_pos rfl] at hdrop
  have hle := Table.count_remove_le (s.entries.remove oldKey) newKey (Entry.alive now)
  rw [hsame, Table.count_insert]
  unfold liveCount
  split <;> omega

theorem rotation_effect (s : InMemoryRefreshStore c) (now : c.Instant) (oldToken newToken : Str)
    (currentSession newSession : RefreshSession) (ttl : Duration) :
    let r := (inMemory sha256).step s ⟨now, .rotate oldToken newToken currentSession newSession ttl⟩
    (r.1 = .ok (.rotated true) →
      (∃ oldKey newKey, s.keyForToken sha256 oldToken = .ok oldKey ∧ s.keyForToken sha256 newToken = .ok newKey ∧
        Rotated s r.2 now oldKey newKey currentSession newSession ttl) ∧ liveCount now r.2 ≤ liveCount now s) ∧
    (r.1 ≠ .ok (.rotated true) → ∀ k, live Entry.alive now r.2.entries k = live Entry.alive now s.entries k) := by
  simp only [inMemory]
  rcases rotate_cases sha256 s now oldToken newToken currentSession newSession ttl with
    ⟨e, he, -⟩ | ⟨oldKey, newKey, hold, hnew, s', ⟨he, hs, -⟩ | ⟨he, hs⟩⟩
  · rw [he]
    refine ⟨?_, fun _ k => rfl⟩
    intro h; cases h
  · rw [he]
    refine ⟨?_, fun _ => hs.live⟩
    intro h; cases h
  · rw [he]
    exact ⟨fun _ => ⟨⟨oldKey, newKey, hold, hnew, hs⟩, liveCount_le_of_rotated hs⟩, fun h => absurd rfl h⟩

/-- In every run: between two successful rotations from a token there is a store of it; after one,
and until the token is stored, loading it finds nothing and rotating from it is refused; a
successful rotation removes the old entry and adds the new one, over no live entry; any other
rotation changes no live entry. -/
theorem rotation_single_use (sha256 : Bytes → Bytes) (s : InMemoryRefreshStore c)
    (calls : List (RefreshCall c.Instant)) (hsha : CollisionFree sha256 (callTokens calls)) :
    (∀ token es₁ es₂ es₃ e f, (inMemory sha256).trace s calls = es₁ ++ e :: (es₂ ++ f :: es₃) →
      RotatedFrom token e → RotatedFrom token f → ∃ g ∈ es₂, Stores token g) ∧
    (∀ token es₁ es₂ es₃ e f, (inMemory sha256).trace s calls = es₁ ++ e :: (es₂ ++ f :: es₃) →
      RotatedFrom token e → (∀ g ∈ es₂, ¬ Stores token g) →
        (f.1.op = .get token → f.2 = .ok (.loaded none)) ∧
        (∀ newToken currentSession newSession ttl,
          f.1.op = .rotate token newToken currentSession newSession ttl →
            f.2 = if validateToken newToken = .ok newToken then .ok (.rotated false) else .error .invalidToken)) ∧
    (∀ l₁ l₂ now oldToken newToken currentSession newSession ttl,
      calls = l₁ ++ ⟨now, .rotate oldToken newToken currentSession newSession ttl⟩ :: l₂ →
      let before := (inMemory sha256).exec s l₁
      let r := (inMemory sha256).step before ⟨now, .rotate oldToken newToken currentSession newSession ttl⟩
      (r.1 = .ok (.rotated true) →
        (∃ oldKey newKey, before.keyForToken sha256 oldToken = .ok oldKey ∧
          before.keyForToken sha256 newToken = .ok newKey ∧
          Rotated before r.2 now oldKey newKey currentSession newSession ttl) ∧
        liveCount now r.2 ≤ liveCount now before) ∧
      (r.1 ≠ .ok (.rotated true) →
        ∀ k, live Entry.alive now r.2.entries k = live Entry.alive now before.entries k)) := by
  refine ⟨?_, ?_, ?_⟩
  · intro token es₁ es₂ es₃ e f htrace he hf
    exact stored_between_rotations hsha htrace he hf
  · intro token es₁ es₂ es₃ e f htrace he hst
    exact refused_after_rotation hsha htrace he hst
  · intro l₁ l₂ now oldToken newToken currentSession newSession ttl _
    exact rotation_effect _ now oldToken newToken currentSession newSession ttl

/-- A token rotated away and back, and away again. -/
def rotateBackAndForth : List (RefreshCall Clock.i64Secs.Instant) :=
  let session : RefreshSession := ⟨"account".toList, "session".toList, 0, 0⟩
  let hour := Duration.fromSecs 3600
  [⟨readingAt 0, .set "first".toList session hour⟩,
    ⟨readingAt 1, .rotate "first".toList "second".toList session session hour⟩,
    ⟨readingAt 2, .rotate "second".toList "first".toList session session hour⟩,
    ⟨readingAt 3, .rotate "first".toList "second".toList session session hour⟩]

theorem rotation_single_use_back_and_forth :
    ∃ g ∈ (((inMemory sha256OfFirstSecond).trace .new rotateBackAndForth).drop 2).take 1, Stores "first".toList g :=
  (rotation_single_use sha256OfFirstSecond .new rotateBackAndForth (by unfold CollisionFree; decide)).1
    "first".toList [_] [_] [] _ _ rfl ⟨rfl, rfl⟩ ⟨rfl, rfl⟩

end WorldInfra.Refresh
