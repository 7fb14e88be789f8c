/-
auth-refresh-core: what a refresh store is for, a session and a deadline for each token, and that the
in-memory store answers every run of calls as that map does: keys, hashes and expired entries, kept
or cleared away, show in no answer.
-/
import WorldInfra.Refresh.SingleUse

namespace WorldInfra.Refresh

open WorldInfra.Lib WorldInfra.Rust InMemoryRefreshStore

variable {c : Clock} {sha256 : Bytes → Bytes} {config : RefreshStoreConfig} {namespace' : Option RefreshNamespace}

/-! ## The map -/

/-- What each token was last stored with. -/
abbrev Sessions (c : Clock) : Type := Str → Option (Entry c)

namespace Sessions

/-- The session a token stands for at a reading. -/
def current (m : Sessions c) (now : c.Instant) (token : Str) : Option RefreshSession :=
  ((m token).filter (Entry.alive now)).map Entry.session

def put (m : Sessions c) (now : c.Instant) (token : Str) (session : RefreshSession) (ttl : Duration) : Sessions c :=
  Function.update m token (some ⟨session, saturatingAdd now (ttlDuration ttl)⟩)

def drop (m : Sessions c) (token : Str) : Sessions c := Function.update m token none

/-- A token can be exchanged for another that stands for nothing, by whoever shows its session. -/
def step (m : Sessions c) (call : RefreshCall c.Instant) : RefreshAnswer × Sessions c :=
  if call.op.tokens.any fun token => decide (validateToken token ≠ .ok token) then (.error .invalidToken, m)
  else
    match call.op with
    | .set token session ttl => (.ok .done, m.put call.now token session ttl)
    | .get token => (.ok (.loaded (m.current call.now token)), m)
    | .rotate oldToken newToken currentSession newSession ttl =>
      if oldToken ≠ newToken ∧ m.current call.now oldToken = some currentSession ∧
          m.current call.now newToken = none then
        (.ok (.rotated true), (m.drop oldToken).put call.now newToken newSession ttl)
      else (.ok (.rotated false), m)
    | .delete token => (.ok .done, m.drop token)

def machine : Machine (Sessions c) (RefreshCall c.Instant) RefreshAnswer := ⟨step⟩

end Sessions

/-! ## The store shows the map -/

/-- At a reading the store has under the keys of the tokens what the map has for them. -/
structure Shows (sha256 : Bytes → Bytes) (config : RefreshStoreConfig) (namespace' : Option RefreshNamespace)
    (tokens : List Str) (now : c.Instant) (s : InMemoryRefreshStore c) (m : Sessions c) : Prop where
  config_eq : s.config = config
  namespace_eq : s.namespace' = namespace'
  live : ∀ token ∈ tokens, ∀ k, storeKey sha256 config namespace' token = .ok k →
    live Entry.alive now s.entries k = (m token).filter (Entry.alive now)

variable {tokens : List Str} {now : c.Instant} {s s' : InMemoryRefreshStore c} {m : Sessions c}

theorem Shows.later {now' : c.Instant} (hnow : now ≤ now') (h : Shows sha256 config namespace' tokens now s m) :
    Shows sha256 config namespace' tokens now' s m := by
  have halive : ∀ e : Entry c, Entry.alive now' e = true → Entry.alive now e = true := fun e he =>
    Entry.alive_eq_true.2 (lt_of_le_of_lt hnow (Entry.alive_eq_true.1 he))
  refine ⟨h.config_eq, h.namespace_eq, fun token ht k hk => ?_⟩
  rw [live_later halive, h.live token ht k hk, Option.filter_filter]
  congr 1
  funext e
  cases he : Entry.alive now' e with
  | false => exact Bool.and_false _
  | true => rw [halive e he]; rfl

/-- The tokens' keys are as different as they are. -/
theorem key_eq_iff (hsha : CollisionFree sha256 tokens) {token token' k k' : Str} (ht : token ∈ tokens)
    (ht' : token' ∈ tokens) (hk : storeKey sha256 config namespace' token = .ok k)
    (hk' : storeKey sha256 config namespace' token' = .ok k') : k' = k ↔ token' = token := by
  constructor
  · rintro rfl
    exact storeKey_inj (hsha token' ht' token ht) hk' hk
  · rintro rfl
    rw [hk] at hk'
    exact (Except.ok.inj hk').symm

/-- The tokens' keys in the store. -/
theorem Shows.storeKey_eq (h : Shows sha256 config namespace' tokens now s m) (token : Str) :
    storeKey sha256 s.config s.namespace' token = storeKey sha256 config namespace' token := by
  rw [h.config_eq, h.namespace_eq]

theorem Shows.current (h : Shows sha256 config namespace' tokens now s m) {token k : Str} (ht : token ∈ tokens)
    (hk : storeKey sha256 config namespace' token = .ok k) :
    m.current now token = (Lib.live Entry.alive now s.entries k).map Entry.session := by
  rw [h.live token ht k hk]
  rfl

theorem Shows.of_unchanged (h : Shows sha256 config namespace' tokens now s m) (hs : Unchanged s s' now) :
    Shows sha256 config namespace' tokens now s' m := by
  refine ⟨hs.config_eq.trans h.config_eq, hs.namespace_eq.trans h.namespace_eq, fun token ht k hk => ?_⟩
  rw [hs.live]
  exact h.live token ht k hk

theorem Shows.put (hsha : CollisionFree sha256 tokens) (h : Shows sha256 config namespace' tokens now s m)
    {token k : Str} (ht : token ∈ tokens) (hk : storeKey sha256 config namespace' token = .ok k)
    (session : RefreshSession) (ttl : Duration) :
    Shows sha256 config namespace' tokens now
      { s with entries := s.entries.insert k ⟨session, saturatingAdd now (ttlDuration ttl)⟩ }
      (m.put now token session ttl) := by
  refine ⟨h.config_eq, h.namespace_eq, fun token' ht' k' hk' => ?_⟩
  simp only [live_insert, Sessions.put, Function.update_apply, key_eq_iff hsha ht ht' hk hk']
  split
  · rfl
  · exact h.live token' ht' k' hk'

theorem Shows.drop (hsha : CollisionFree sha256 tokens) (h : Shows sha256 config namespace' tokens now s m)
    {token k : Str} (ht : token ∈ tokens) (hk : storeKey sha256 config namespace' token = .ok k) :
    Shows sha256 config namespace' tokens now { s with entries := s.entries.remove k } (m.drop token) := by
  refine ⟨h.config_eq, h.namespace_eq, fun token' ht' k' hk' => ?_⟩
  simp only [live_remove, Sessions.drop, Function.update_apply, key_eq_iff hsha ht ht' hk hk']
  split
  · rfl
  · exact h.live token' ht' k' hk'

theorem Shows.rotated (hsha : CollisionFree sha256 tokens) (h : Shows sha256 config namespace' tokens now s m)
    {oldToken newToken oldKey newKey : Str} (hold : oldToken ∈ tokens) (hnew : newToken ∈ tokens)
    (hok : storeKey sha256 config namespace' oldToken = .ok oldKey)
    (hnk : storeKey sha256 config namespace' newToken = .ok newKey) {currentSession newSession : RefreshSession}
    {ttl : Duration} (hs : Rotated s s' now oldKey newKey currentSession newSession ttl) :
    Shows sha256 config namespace' tokens now s' ((m.drop oldToken).put now newToken newSession ttl) := by
  have hdropped := (h.drop hsha hold hok).put hsha hnew hnk newSession ttl
  refine ⟨hs.config_eq.trans h.config_eq, hs.namespace_eq.trans h.namespace_eq, fun token ht k hk => ?_⟩
  rw [← hdropped.live token ht k hk]
  refine live_congr ?_
  rw [hs.entries, Table.get_insert, Table.get_remove]

/-! ## Steps -/

/-- The tokens of a call are valid, or the call is refused. -/
theorem Sessions.step_of_valid (m : Sessions c) (call : RefreshCall c.Instant)
    (h : ∀ token ∈ call.op.tokens, validateToken token = .ok token) :
    m.step call = match call.op with
      | .set token session ttl => (.ok .done, m.put call.now token session ttl)
      | .get token => (.ok (.loaded (m.current call.now token)), m)
      | .rotate oldToken newToken currentSession newSession ttl =>
        if oldToken ≠ newToken ∧ m.current call.now oldToken = some currentSession ∧
            m.current call.now newToken = none then
          (.ok (.rotated true), (m.drop oldToken).put call.now newToken newSession ttl)
        else (.ok (.rotated false), m)
      | .delete token => (.ok .done, m.drop token) := by
  unfold Sessions.step
  rw [if_neg]
  rw [Bool.not_eq_true, List.any_eq_false]
  intro token ht
  simp [h token ht]

theorem Sessions.step_of_invalid (m : Sessions c) (call : RefreshCall c.Instant) {token : Str}
    (ht : token ∈ call.op.tokens)
    (h : validateToken token = .error .invalidToken) : m.step call = (.error .invalidToken, m) := by
  unfold Sessions.step
  rw [if_pos]
  rw [List.any_eq_true]
  exact ⟨token, ht, by simp [h]⟩

theorem step_shows (hsha : CollisionFree sha256 tokens) (call : RefreshCall c.Instant)
    (htokens : ∀ t ∈ call.op.tokens, t ∈ tokens) (h : Shows sha256 config namespace' tokens call.now s m) :
    ((inMemory sha256).step s call).1 = (m.step call).1 ∧
      Shows sha256 config namespace' tokens call.now ((inMemory sha256).step s call).2 (m.step call).2 := by
  obtain ⟨now, op⟩ := call
  cases op with
  | set token session ttl =>
    have ht := htokens token (by simp [RefreshOp.tokens])
    rcases hkey : storeKey sha256 config namespace' token with e | key
    · obtain ⟨hv, rfl⟩ := storeKey_error hkey
      rw [m.step_of_invalid ⟨now, .set token session ttl⟩ (List.mem_cons_self ..) hv]
      simp only [inMemory, InMemoryRefreshStore.set, h.storeKey_eq, hkey]
      exact ⟨rfl, h⟩
    · rw [m.step_of_valid ⟨now, .set token session ttl⟩ (by simpa [RefreshOp.tokens] using storeKey_ok hkey)]
      simp only [inMemory, InMemoryRefreshStore.set, h.storeKey_eq, hkey]
      exact ⟨rfl, h.put hsha ht hkey session ttl⟩
  | get token =>
    have ht := htokens token (by simp [RefreshOp.tokens])
    rcases hkey : storeKey sha256 config namespace' token with e | key
    · obtain ⟨hv, rfl⟩ := storeKey_error hkey
      rw [m.step_of_invalid ⟨now, .get token⟩ (List.mem_cons_self ..) hv]
      simp only [inMemory, InMemoryRefreshStore.get, h.storeKey_eq, hkey]
      exact ⟨rfl, h⟩
    · rw [m.step_of_valid ⟨now, .get token⟩ (by simpa [RefreshOp.tokens] using storeKey_ok hkey)]
      obtain ⟨hget, hunchanged⟩ := get_spec s now ((h.storeKey_eq token).trans hkey)
      simp only [inMemory, hget]
      refine ⟨?_, h.of_unchanged hunchanged⟩
      rw [h.current ht hkey]
      rfl
  | rotate oldToken newToken currentSession newSession ttl =>
    have hold := htokens oldToken (by simp [RefreshOp.tokens])
    have hnew := htokens newToken (by simp [RefreshOp.tokens])
    have hcases := rotate_cases sha256 s now oldToken newToken currentSession newSession ttl
    rw [h.storeKey_eq, h.storeKey_eq] at hcases
    simp only [inMemory]
    rcases hcases with ⟨e, he, hinvalid⟩ | ⟨oldKey, newKey, hok, hnk, s', hs⟩
    · rw [he]
      rcases hinvalid with hkey | hkey
      · obtain ⟨hv, rfl⟩ := storeKey_error hkey
        rw [m.step_of_invalid ⟨now, .rotate oldToken newToken currentSession newSession ttl⟩
          (by simp [RefreshOp.tokens]) hv]
        exact ⟨rfl, h⟩
      · obtain ⟨hv, rfl⟩ := storeKey_error hkey
        rw [m.step_of_invalid ⟨now, .rotate oldToken newToken currentSession newSession ttl⟩
          (by simp [RefreshOp.tokens]) hv]
        exact ⟨rfl, h⟩
    · rw [m.step_of_valid ⟨now, .rotate oldToken newToken currentSession newSession ttl⟩
        (by simpa [RefreshOp.tokens] using ⟨storeKey_ok hok, storeKey_ok hnk⟩)]
      -- without a collision the keys tell the tokens apart, so both sides ask the same questions
      have hkeys := key_eq_iff hsha hnew hold hnk hok
      have holdSession := h.current hold hok
      have hnewSession := h.current hnew hnk
      rcases hs with ⟨he, hunchanged, hrefused⟩ | ⟨he, hrotated⟩
      · rw [he]
        simp only
        rw [if_neg]
        · exact ⟨rfl, h.of_unchanged hunchanged⟩
        -- each reason of the store to refuse is one of the specification's
        · rintro ⟨hne, hcurrent, hunused⟩
          rw [holdSession] at hcurrent
          rw [hnewSession, Option.map_eq_none_iff] at hunused
          rcases hrefused with heq | hdead | hused | ⟨e, hlive, hsession⟩
          · exact hne (hkeys.1 heq)
          · rw [hdead] at hcurrent
            cases hcurrent
          · exact hused hunused
          · rw [hlive] at hcurrent
            exact hsession (Option.some.inj hcurrent)
      · rw [he]
        simp only
        obtain ⟨e, hlive, hsession⟩ := hrotated.current
        rw [if_pos]
        · exact ⟨rfl, h.rotated hsha hold hnew hok hnk hrotated⟩
        · refine ⟨fun heq => hrotated.ne (hkeys.2 heq), ?_, ?_⟩
          · rw [holdSession, hlive, ← hsession]
            rfl
          · rw [hnewSession, hrotated.unused]
            rfl
  | delete token =>
    have ht := htokens token (by simp [RefreshOp.tokens])
    rcases hkey : storeKey sha256 config namespace' token with e | key
    · obtain ⟨hv, rfl⟩ := storeKey_error hkey
      rw [m.step_of_invalid ⟨now, .delete token⟩ (List.mem_cons_self ..) hv]
      simp only [inMemory, InMemoryRefreshStore.delete, h.storeKey_eq, hkey]
      exact ⟨rfl, h⟩
    · rw [m.step_of_valid ⟨now, .delete token⟩ (by simpa [RefreshOp.tokens] using storeKey_ok hkey)]
      simp only [inMemory, InMemoryRefreshStore.delete, h.storeKey_eq, hkey]
      exact ⟨rfl, h.drop hsha ht hkey⟩

/-- Along nondecreasing readings, and if SHA-256 has no collision among the tokens, an empty store
answers every run of calls as the map from tokens to sessions does. -/
theorem inMemory_refines_sessions (sha256 : Bytes → Bytes) (config : RefreshStoreConfig)
    (namespace' : Option RefreshNamespace) (calls : List (RefreshCall c.Instant))
    (hsha : CollisionFree sha256 (callTokens calls)) (htimes : calls.Pairwise fun a b => a.now ≤ b.now) :
    (inMemory sha256).outputs ⟨namespace', config, ∅⟩ calls = Sessions.machine.outputs (fun _ => none) calls := by
  have hstart : Shows sha256 config namespace' (callTokens calls) (⟨0, Nat.zero_le _⟩ : c.Instant)
      ⟨namespace', config, ∅⟩ fun _ => none := ⟨rfl, rfl, fun _ _ _ _ => live_empty⟩
  refine Machine.outputs_eq_of_simulation
    (R := fun t s m => Shows sha256 config namespace' (callTokens calls) t s m)
    (P := fun e => ∀ t ∈ e.1.op.tokens, t ∈ callTokens calls)
    (fun _ _ _ _ ht h => h.later ht) (fun call s m hP h => step_shows hsha call hP h) (fun e he t ht => ?_)
    (Machine.timedFrom_of_pairwise (fun _ _ => Nat.zero_le _) htimes) hstart
  exact List.mem_flatMap.2 ⟨e.1, Machine.mem_inputs _ he, ht⟩

theorem inMemory_refines_sessions_back_and_forth :
    (inMemory sha256OfFirstSecond).outputs ⟨none, .default, ∅⟩ rotateBackAndForth =
      Sessions.machine.outputs (fun _ => none) rotateBackAndForth :=
  inMemory_refines_sessions sha256OfFirstSecond .default none rotateBackAndForth (by unfold CollisionFree; decide)
    (by decide)

end WorldInfra.Refresh
