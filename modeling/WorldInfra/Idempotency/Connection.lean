/-
idempotency-runtime-core: how the operations of a Redis store come by their connection and give it
up. A reply that times out or says the connection was dropped takes the connection out of use for
good, however the other operations on the store are interleaved; any other reply leaves the cached
connection in place.
-/
import WorldInfra.Redis.Connections

namespace WorldInfra.Idempotency

open WorldInfra.Lib WorldInfra.Rust WorldInfra.Redis

/-- An operation of `RedisIdempotencyStore` from `get_connection` on, at the await it waits at: not
started, waiting for a connection, for the reply to its command; or ended, or dropped. The cache is
behind a mutex that is held at no await. -/
inductive Operation (α : Type) where
  | starting
  | connecting
  | querying (connection : Nat)
  | finished (result : Except IdempotencyRuntimeError α)
  | dropped

/-- Whether a reply makes the operation call `clear_connection`. -/
def clearsConnection {α : Type} : Timed α → Bool
  | .elapsed => true
  | .ready (.error error) => error.isConnectionDropped
  | .ready (.ok _) => false

/-- What the operation answers to a reply. -/
def commandResult {α : Type} : Timed α → Except IdempotencyRuntimeError α
  | .elapsed => .error .timeout
  | .ready (.error error) => .error (.backend error.text)
  | .ready (.ok value) => .ok value

namespace Operation

variable {α : Type}

/-- `get_connection`, and what every command makes of its reply with `clear_connection` and
`redis_error`. -/
def resume (cache : Cache) : Operation α → Wake α → Cache × Operation α
  | .starting, .granted =>
    match cache.conn with
    | some connection => (cache, .querying connection)
    | none => (cache, .connecting)
  | .connecting, .connected .elapsed => (cache, .finished (.error .timeout))
  | .connecting, .connected (.ready (.error error)) => (cache, .finished (.error (.backend error.text)))
  | .connecting, .connected (.ready (.ok ())) => (⟨some cache.opened, cache.opened + 1⟩, .querying cache.opened)
  | .querying _, .replied reply =>
    (if clearsConnection reply then { cache with conn := none } else cache, .finished (commandResult reply))
  | .finished result, _ => (cache, .finished result)
  | _, .dropped => (cache, .dropped)
  | op, _ => (cache, op)

/-- What the operation has of a connection. -/
def phase : Operation α → SharedHandle.Phase
  | .querying connection => .holding connection
  | .starting | .connecting | .finished _ | .dropped => .idle

end Operation

/-- `RedisIdempotencyStore::new`: nothing is cached, no operation has started. -/
def Operation.store (α : Type) : Connections (Operation α) := ⟨⟨none, 0⟩, fun _ => .starting⟩

namespace Operation

variable {α : Type}

/-- The client's actions behind one wake. -/
def actions : Operation α → Wake α → List SharedHandle.Action
  | .starting, .granted => [.take]
  | .connecting, .connected (.ready (.ok ())) => [.make, .publish]
  | .querying _, .replied reply => if clearsConnection reply then [.empty] else [.abandon]
  | .finished _, _ => []
  | _, .dropped => [.abandon]
  | _, _ => []

/-- Every wake is what the client's actions do to the slot. -/
theorem follows : Connections.Follows (resume : Cache → Operation α → Wake α → Cache × Operation α) phase := by
  apply Connections.follows_of actions
  rintro i op w ⟨conn, opened⟩ s hslot hmade hp
  -- an await the wake is not for leaves everything as it is
  have hstay : s = ⟨conn, opened, Function.update s.phase i (phase op)⟩ := by
    rw [← hp, Function.update_eq_self, ← show s.slot = conn from hslot, ← show s.made = opened from hmade]
  cases op with
  | starting =>
    cases w with
    | granted =>
      cases conn with
      | none => simpa [actions, resume, SharedHandle.step_take_none hslot, phase] using hstay
      | some conn => simp [actions, resume, SharedHandle.step_take hp hslot, hslot, hmade, phase]
    | dropped => simp [actions, resume, SharedHandle.step_abandon, hslot, hmade, phase]
    | connected result => simpa [actions, resume, phase] using hstay
    | replied result => simpa [actions, resume, phase] using hstay
  | connecting =>
    cases w with
    | connected result =>
      cases result with
      | elapsed => simpa [actions, resume, phase] using hstay
      | ready result =>
        cases result with
        | error failure => simpa [actions, resume, phase] using hstay
        | ok _ =>
          have hmake := SharedHandle.step_make hp
          have hpublish := SharedHandle.step_publish (s := s.step i .make) (c := i) (h := opened) (by
            rw [hmake, ← show s.made = opened from hmade]
            exact Function.update_self ..)
          show (s.step i .make).step i .publish = _
          rw [hpublish, hmake, ← show s.made = opened from hmade]
          simp only [Function.update_idem]
          rfl
    | dropped => simp [actions, resume, SharedHandle.step_abandon, hslot, hmade, phase]
    | granted => simpa [actions, resume, phase] using hstay
    | replied result => simpa [actions, resume, phase] using hstay
  | querying c =>
    cases w with
    | replied reply =>
      cases hr : clearsConnection reply with
      | true => simp [actions, resume, hr, SharedHandle.step_empty hp, hmade, phase]
      | false => simp [actions, resume, hr, SharedHandle.step_abandon, hslot, hmade, phase]
    | dropped => simp [actions, resume, SharedHandle.step_abandon, hslot, hmade, phase]
    | granted => simpa [actions, resume, phase] using hstay
    | connected result => simpa [actions, resume, phase] using hstay
  | finished result => cases w <;> simpa [actions, resume, phase] using hstay
  | dropped =>
    cases w with
    | dropped => simp [actions, resume, SharedHandle.step_abandon, hslot, hmade, phase]
    | granted => simpa [actions, resume, phase] using hstay
    | connected result => simpa [actions, resume, phase] using hstay
    | replied result => simpa [actions, resume, phase] using hstay

/-- In a store nothing is cached in, no handle is around. -/
theorem sound_store : ((store α).view phase).Sound := by
  constructor <;> simp [store, Connections.view, phase]

theorem phase_eq_holding {op : Operation α} {conn : Nat} : phase op = .holding conn ↔ op = .querying conn := by
  cases op <;> simp [phase]

/-- The reply that clears the cache retires the connection it came on. -/
theorem retired_of_replied {conn i : Nat} {reply : Timed α} {s : Connections (Operation α)}
    (hs : (s.view phase).Sound) (h : s.operations i = .querying conn) (hr : clearsConnection reply = true) :
    ((s.step resume i (.replied reply)).view phase).Retired conn := by
  have hp : (s.view phase).phase i = .holding conn := by
    show phase (s.operations i) = _
    rw [h]
    rfl
  have hstep : (s.step resume i (.replied reply)).view phase = (s.view phase).step i .empty := by
    rw [Connections.view_step, h, SharedHandle.step_empty hp]
    simp [resume, hr, phase, Connections.view]
  rw [hstep]
  exact hs.retired_of_empty hp hp

/-- After a reply that timed out or said the connection was dropped, the connection it came on is never
in the cache again and no further operation comes to use it; any other reply leaves the cache alone. -/
theorem cleared_connection_never_handed_out (before after : List (Nat × Wake α)) {i conn : Nat} (reply : Timed α)
    (hsent : ((store α).run resume before).operations i = .querying conn) :
    if clearsConnection reply then
      ((store α).run resume (before ++ (i, .replied reply) :: after)).cache.conn ≠ some conn ∧
        ∀ j, ((store α).run resume (before ++ (i, .replied reply) :: after)).operations j = .querying conn →
          j ≠ i ∧ ((store α).run resume before).operations j = .querying conn
    else ((store α).run resume (before ++ [(i, .replied reply)])).cache = ((store α).run resume before).cache := by
  rw [Connections.run_append, Connections.run_append, Connections.run_cons, Connections.run_cons]
  generalize hs : (store α).run resume before = s at hsent ⊢
  have hsound : (s.view phase).Sound := by
    rw [← hs]
    exact follows.sound before sound_store
  cases hr : clearsConnection reply with
  | true =>
    rw [if_pos rfl]
    have hretired := retired_of_replied hsound hsent hr
    obtain ⟨hcache, hops⟩ := follows.retired after hretired
    refine ⟨hcache, fun j hj => ?_⟩
    have hj' := phase_eq_holding.1 (hops j (phase_eq_holding.2 hj))
    by_cases hji : j = i
    · rw [hji, Connections.step_operations_self, hsent] at hj'
      cases hj'
    · rw [Connections.step_operations_ne _ _ _ hji] at hj'
      exact ⟨hji, hj'⟩
  | false =>
    rw [if_neg Bool.false_ne_true]
    simp only [Connections.step, Connections.run_nil, hsent, resume, hr, Bool.false_eq_true, if_false]

/-- Two operations use the connection the first opened; the one that times out takes it out of the cache. -/
theorem cleared_connection_never_handed_out_shared :
    let before : List (Nat × Wake Nat) := [(0, .granted), (0, .connected (.ready (.ok ()))), (1, .granted)]
    let after : List (Nat × Wake Nat) := [(2, .granted), (2, .connected (.ready (.ok ()))), (3, .granted)]
    ((store Nat).run resume (before ++ (1, .replied .elapsed) :: after)).cache.conn ≠ some 0 ∧
      ∀ j, ((store Nat).run resume (before ++ (1, .replied .elapsed) :: after)).operations j = .querying 0 →
        j ≠ 1 ∧ ((store Nat).run resume before).operations j = .querying 0 :=
  cleared_connection_never_handed_out (i := 1) _ _ .elapsed rfl

end Operation

end WorldInfra.Idempotency
