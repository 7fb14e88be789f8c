/-
auth-refresh-core: how the operations of a Redis store come by their connection and give it up. Once
an operation has reported the failure of its command, the connection it used is never handed out
again, however the other operations on the store are interleaved and dropped.
-/
import WorldInfra.Redis.Connections

namespace WorldInfra.Refresh

open WorldInfra.Lib WorldInfra.Rust WorldInfra.Redis

def redisError (error : Failure) : RefreshStoreError := .backend error.text

def timeoutRedis {α : Type} : Timed α → Except RefreshStoreError α
  | .ready (.ok value) => .ok value
  | .ready (.error error) => .error (redisError error)
  | .elapsed => .error .timeout

/-- The errors on which `clear_conn_on_backend_error` empties the cache. -/
def clearsConn : RefreshStoreError → Bool
  | .timeout | .backend _ => true
  | _ => false

theorem clearsConn_of_timeoutRedis {α : Type} {reply : Timed α} {error : RefreshStoreError}
    (h : timeoutRedis reply = .error error) : clearsConn error = true := by
  cases reply with
  | elapsed =>
    cases h
    rfl
  | ready result =>
    cases result with
    | ok value => cases h
    | error failure =>
      cases h
      rfl

/-- An operation of `RedisRefreshStore` from `get_conn` on, at the await it waits at: for the read
lock, for a connection, for the write lock to cache it, for the reply to its command, for the write
lock to empty the cache; or ended, or dropped. -/
inductive Operation (α : Type) where
  | readingConn
  | connecting
  | storingConn (conn : Nat)
  | querying (conn : Nat)
  | clearingConn (conn : Nat) (error : RefreshStoreError)
  | finished (result : Except RefreshStoreError α)
  | dropped

namespace Operation

variable {α : Type}

/-- `get_conn`, and `clear_conn_on_backend_error(timeout_redis(..))` around the command. -/
def resume (cache : Cache) : Operation α → Wake α → Cache × Operation α
  | .readingConn, .granted =>
    match cache.conn with
    | some conn => (cache, .querying conn)
    | none => (cache, .connecting)
  | .connecting, .connected .elapsed => (cache, .finished (.error .timeout))
  | .connecting, .connected (.ready (.error error)) => (cache, .finished (.error (redisError error)))
  | .connecting, .connected (.ready (.ok ())) => ({ cache with opened := cache.opened + 1 }, .storingConn cache.opened)
  | .storingConn conn, .granted => ({ cache with conn := some conn }, .querying conn)
  | .querying conn, .replied reply =>
    match timeoutRedis reply with
    | .ok value => (cache, .finished (.ok value))
    | .error error => (cache, if clearsConn error then .clearingConn conn error else .finished (.error error))
  | .clearingConn _ error, .granted => ({ cache with conn := none }, .finished (.error error))
  | .finished result, _ => (cache, .finished result)
  | _, .dropped => (cache, .dropped)
  | op, _ => (cache, op)

/-- What the operation has of a connection. -/
def phase : Operation α → SharedHandle.Phase
  | .storingConn conn => .private' conn
  | .querying conn | .clearingConn conn _ => .holding conn
  | .readingConn | .connecting | .finished _ | .dropped => .idle

end Operation

/-- `RedisRefreshStore::new`: nothing is cached, no operation has got past its first await. -/
def Operation.store (α : Type) : Connections (Operation α) := ⟨⟨none, 0⟩, fun _ => .readingConn⟩

namespace Operation

variable {α : Type}

/-! ## The operations are clients of a slot -/

/-- The client's actions behind one wake. -/
def actions : Operation α → Wake α → List SharedHandle.Action
  | .readingConn, .granted => [.take]
  | .connecting, .connected (.ready (.ok ())) => [.make]
  | .storingConn _, .granted => [.publish]
  | .querying _, .replied reply =>
    match timeoutRedis reply with
    | .ok _ => [.abandon]
    | .error _ => []
  | .clearingConn _ _, .granted => [.empty]
  | .finished _, _ => []
  | _, .dropped => [.abandon]
  | _, _ => []

/-- Every wake is what the client's actions do to the slot. -/
theorem follows : Connections.Follows (resume : Cache → Operation α → Wake α → Cache × Operation α) phase := by
  apply Connections.follows_of actions
  rintro i op w ⟨conn, opened⟩ s hslot hmade hp
  -- an await the wake is not for leaves everything as it is
  have hstay : s = ⟨conn, opened, Function.update s.phase i (phase op)⟩ := by
    rw [← hp, Function.update_eq_self, ← show s.slot = conn from hslot, ← show s.made = opened from hmade]
  cases op with
  | readingConn =>
    cases w with
    | granted =>
      cases conn with
      | none => simpa [actions, resume, SharedHandle.step_take_none hslot, phase] using hstay
      | some conn => simp [actions, resume, SharedHandle.step_take hp hslot, hslot, hmade, phase]
    | dropped => simp [actions, resume, SharedHandle.step_abandon, hslot, hmade, phase]
    | connected result => simpa [actions, resume, phase] using hstay
    | replied result => simpa [actions, resume, phase] using hstay
  | connecting =>
    cases w with
    | connected result =>
      cases result with
      | elapsed => simpa [actions, resume, phase] using hstay
      | ready result =>
        cases result with
        | error failure => simpa [actions, resume, phase] using hstay
        | ok _ => simp [actions, resume, SharedHandle.step_make hp, hslot, hmade, phase]
    | dropped => simp [actions, resume, SharedHandle.step_abandon, hslot, hmade, phase]
    | granted => simpa [actions, resume, phase] using hstay
    | replied result => simpa [actions, resume, phase] using hstay
  | storingConn c =>
    cases w with
    | granted => simp [actions, resume, SharedHandle.step_publish hp, hmade, phase]
    | dropped => simp [actions, resume, SharedHandle.step_abandon, hslot, hmade, phase]
    | connected result => simpa [actions, resume, phase] using hstay
    | replied result => simpa [actions, resume, phase] using hstay
  | querying c =>
    cases w with
    | replied reply =>
      cases hr : timeoutRedis reply with
      | ok value => simp [actions, resume, hr, SharedHandle.step_abandon, hslot, hmade, phase]
      | error error => simpa [actions, resume, hr, clearsConn_of_timeoutRedis hr, phase] using hstay
    | dropped => simp [actions, resume, SharedHandle.step_abandon, hslot, hmade, phase]
    | granted => simpa [actions, resume, phase] using hstay
    | connected result => simpa [actions, resume, phase] using hstay
  | clearingConn c error =>
    cases w with
    | granted => simp [actions, resume, SharedHandle.step_empty hp, hmade, phase]
    | dropped => simp [actions, resume, SharedHandle.step_abandon, hslot, hmade, phase]
    | connected result => simpa [actions, resume, phase] using hstay
    | replied result => simpa [actions, resume, phase] using hstay
  | finished result => cases w <;> simpa [actions, resume, phase] using hstay
  | dropped =>
    cases w with
    | dropped => simp [actions, resume, SharedHandle.step_abandon, hslot, hmade, phase]
    | granted => simpa [actions, resume, phase] using hstay
    | connected result => simpa [actions, resume, phase] using hstay
    | replied result => simpa [actions, resume, phase] using hstay

/-- In a store nothing is cached in, no handle is around. -/
theorem sound_store : ((store α).view phase).Sound := by
  constructor <;> simp [store, Connections.view, phase]

/-! ## A failed connection is never handed out again -/

/-- The connection the operation has sent its command on. -/
def connection : Operation α → Option Nat
  | .querying conn | .clearingConn conn _ => some conn
  | _ => none

theorem phase_eq_holding {op : Operation α} {conn : Nat} : phase op = .holding conn ↔ op.connection = some conn := by
  cases op <;> simp [phase, connection]

/-- Where an operation that sent its command on a connection can be later. -/
def Sent (conn : Nat) (i : Nat) (s : Connections (Operation α)) : Prop :=
  (s.operations i).connection = some conn ∨ s.operations i = .dropped ∨
    (∃ value, s.operations i = .finished (.ok value)) ∨
    (∃ error, s.operations i = .finished (.error error)) ∧ (s.view phase).Retired conn

/-- Emptying the cache retires the connection the operation used. -/
theorem retired_of_clearing {conn i : Nat} {error : RefreshStoreError} {s : Connections (Operation α)}
    (hs : (s.view phase).Sound) (h : s.operations i = .clearingConn conn error) :
    ((s.step resume i .granted).view phase).Retired conn := by
  have hp : (s.view phase).phase i = .holding conn := by
    show phase (s.operations i) = _
    rw [h]
    rfl
  have hstep : (s.step resume i .granted).view phase = (s.view phase).step i .empty := by
    rw [Connections.view_step, h, SharedHandle.step_empty hp]
    rfl
  rw [hstep]
  exact hs.retired_of_empty hp hp

theorem sent_step {conn i : Nat} {s : Connections (Operation α)} (hs : (s.view phase).Sound) (h : Sent conn i s)
    (j : Nat)
    (w : Wake α) : Sent conn i (s.step resume j w) := by
  by_cases hj : i = j
  · subst hj
    unfold Sent at h ⊢
    rw [Connections.step_operations_self]
    -- the operation woken: one case for each place it may stand at
    obtain h | h | ⟨value, h⟩ | ⟨⟨error, h⟩, hr⟩ := h
    · cases hop : s.operations i with
      | querying c =>
        obtain rfl : c = conn := by simpa [hop, connection] using h
        cases w with
        | replied reply =>
          cases hr : timeoutRedis reply with
          | ok value => exact .inr (.inr (.inl ⟨value, by simp only [resume, hr]⟩))
          | error error =>
            exact .inl (by simp only [resume, hr, clearsConn_of_timeoutRedis hr, if_true, connection])
        | dropped => exact .inr (.inl rfl)
        | granted => exact .inl rfl
        | connected result => exact .inl rfl
      | clearingConn c error =>
        obtain rfl : c = conn := by simpa [hop, connection] using h
        cases w with
        | granted => exact .inr (.inr (.inr ⟨⟨error, rfl⟩, retired_of_clearing hs hop⟩))
        | dropped => exact .inr (.inl rfl)
        | connected result => exact .inl rfl
        | replied result => exact .inl rfl
      | _ => simp [hop, connection] at h
    · rw [h]
      cases w <;> exact .inr (.inl rfl)
    · rw [h]
      cases w <;> exact .inr (.inr (.inl ⟨value, rfl⟩))
    · rw [h]
      have hr' := follows.retired_run [(i, w)] hr
      cases w <;> exact .inr (.inr (.inr ⟨⟨error, rfl⟩, hr'⟩))
  -- another operation is woken: a connection that is retired stays so
  · unfold Sent at h ⊢
    rw [Connections.step_operations_ne _ _ _ hj]
    exact h.imp_right (Or.imp_right (Or.imp_right (And.imp_right (follows.retired_run [(j, w)]))))

theorem sent_run {conn i : Nat} : ∀ {s : Connections (Operation α)} (l : List (Nat × Wake α)), (s.view phase).Sound →
    Sent conn i s → Sent conn i (s.run resume l)
  | _, [], _, h => h
  | _, e :: l, hs, h => sent_run l (follows.sound [e] hs) (sent_step hs h e.1 e.2)

/-- After an operation that had sent its command on a connection has ended with an error, that connection
is never in the cache again and no further operation comes to send a command on it. -/
theorem failed_connection_never_handed_out (before meanwhile after : List (Nat × Wake α)) {i conn : Nat}
    {error : RefreshStoreError} (hsent : (((store α).run resume before).operations i).connection = some conn)
    (hfailed : ((store α).run resume (before ++ meanwhile)).operations i = .finished (.error error)) :
    ((store α).run resume (before ++ meanwhile ++ after)).cache.conn ≠ some conn ∧
      ∀ j, (((store α).run resume (before ++ meanwhile ++ after)).operations j).connection = some conn →
        (((store α).run resume (before ++ meanwhile)).operations j).connection = some conn := by
  have hsound := follows.sound (s := store α) before sound_store
  have h : Sent conn i _ := sent_run meanwhile hsound (.inl hsent)
  rw [← Connections.run_append] at h
  unfold Sent at h
  rw [hfailed] at h
  obtain h | h | ⟨value, h⟩ | ⟨-, hr⟩ := h
  · cases h
  · cases h
  · cases h
  · obtain ⟨hcache, hops⟩ := follows.retired after hr
    rw [Connections.run_append]
    refine ⟨hcache, fun j hj => ?_⟩
    exact phase_eq_holding.1 (hops j (phase_eq_holding.2 hj))

/-- Two operations open a connection each; the second to cache its own loses it, the third opens another. -/
theorem failed_connection_never_handed_out_example :
    let before : List (Nat × Wake Nat) := [(0, .granted), (1, .granted), (0, .connected (.ready (.ok ()))),
      (1, .connected (.ready (.ok ()))), (0, .granted), (1, .granted)]
    let meanwhile : List (Nat × Wake Nat) := [(1, .replied .elapsed), (2, .granted), (1, .granted)]
    let after : List (Nat × Wake Nat) := [(3, .granted), (3, .connected (.ready (.ok ()))), (3, .granted)]
    ((store Nat).run resume (before ++ meanwhile ++ after)).cache.conn ≠ some 1 ∧
      ∀ j, (((store Nat).run resume (before ++ meanwhile ++ after)).operations j).connection = some 1 →
        (((store Nat).run resume (before ++ meanwhile)).operations j).connection = some 1 :=
  failed_connection_never_handed_out (i := 1) _ _ _ rfl rfl

end Operation

end WorldInfra.Refresh
