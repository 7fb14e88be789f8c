/-
idempotency-runtime-core: the Redis store. A marker, a pending claim and a completion are three
texts under the runtime key; a claim is a script over them.
-/
import WorldInfra.Idempotency.Basic
import WorldInfra.Lib.Machine
import WorldInfra.Redis.Keyspace

namespace WorldInfra.Idempotency

open WorldInfra.Lib WorldInfra.Rust WorldInfra.Redis

/-- `RedisIdempotencyStore`, with the keyspace it is connected to. -/
structure RedisIdempotencyStore where
  (namespace' : Option IdempotencyNamespace)
  keyFormat : IdempotencyKeyFormat
  db : Db

def markerText : Bytes := Utf8.encode "marker".toList

def pendingText : Bytes := Utf8.encode "pending".toList

def completedText : Bytes := Utf8.encode "completed".toList

def claimScript (key : Bytes) (ttlSecs : Nat) : Command Nat := do
  let current ← Redis.get key
  if current = some completedText ∨ current = some markerText then return 2
  if current = some pendingText then return 1
  if current.isSome then return 3
  setEx key pendingText (← luaNumber ttlSecs)
  return 0

namespace RedisIdempotencyStore

variable (redisError : RedisError → Str)

/-- A command's result and the store after it, a failure of Redis being a backend error. -/
def query {α : Type} (self : RedisIdempotencyStore) (now : Int) (command : Command α) :
    Except IdempotencyRuntimeError α × RedisIdempotencyStore :=
  let r := command now self.db
  (match r.1 with
    | .ok a => .ok a
    | .error e => .error (.backend (redisError e)), { self with db := r.2 })

def setOnce (self : RedisIdempotencyStore) (now : Int) (key : Str) (ttl : Duration) :
    Except IdempotencyRuntimeError Bool × RedisIdempotencyStore :=
  match namespacedKey self.namespace' key self.keyFormat with
  | .error e => (.error e, self)
  | .ok key => self.query redisError now (setNxEx (Utf8.encode key) markerText (ttlSecsCeil ttl))

def claimPending (self : RedisIdempotencyStore) (now : Int) (key : Str) (ttl : Duration) :
    Except IdempotencyRuntimeError WorkClaim × RedisIdempotencyStore :=
  match namespacedKey self.namespace' key self.keyFormat with
  | .error e => (.error e, self)
  | .ok key =>
    match self.query redisError now (claimScript (Utf8.encode key) (ttlSecsCeil ttl)) with
    | (.error e, self) => (.error e, self)
    | (.ok 0, self) => (.ok .fresh, self)
    | (.ok 1, self) => (.ok .pending, self)
    | (.ok 2, self) => (.ok .completed, self)
    | (.ok _, self) => (.error .unsupportedMarker, self)

def markCompleted (self : RedisIdempotencyStore) (now : Int) (key : Str) (ttl : Duration) :
    Except IdempotencyRuntimeError Unit × RedisIdempotencyStore :=
  match namespacedKey self.namespace' key self.keyFormat with
  | .error e => (.error e, self)
  | .ok key => self.query redisError now (setEx (Utf8.encode key) completedText (ttlSecsCeil ttl))

def delete (self : RedisIdempotencyStore) (now : Int) (key : Str) :
    Except IdempotencyRuntimeError Unit × RedisIdempotencyStore :=
  match namespacedKey self.namespace' key self.keyFormat with
  | .error e => (.error e, self)
  | .ok key => self.query redisError now (discard <| del (Utf8.encode key))

def exists' (self : RedisIdempotencyStore) (now : Int) (key : Str) :
    Except IdempotencyRuntimeError Bool × RedisIdempotencyStore :=
  match namespacedKey self.namespace' key self.keyFormat with
  | .error e => (.error e, self)
  | .ok key => self.query redisError now (Redis.exists' (Utf8.encode key))

/-- The store as a machine; its inputs are the calls in the order Redis runs them. -/
def redis : Machine RedisIdempotencyStore (IdempotencyCall Int) IdempotencyAnswer where
  step s call :=
    match call.op with
    | .setOnce key ttl =>
      let r := s.setOnce redisError call.now key ttl
      (r.1.map .set, r.2)
    | .claimPending key ttl =>
      let r := s.claimPending redisError call.now key ttl
      (r.1.map .claim, r.2)
    | .markCompleted key ttl =>
      let r := s.markCompleted redisError call.now key ttl
      (r.1.map fun _ => .done, r.2)
    | .delete key =>
      let r := s.delete redisError call.now key
      (r.1.map fun _ => .done, r.2)
    | .exists' key =>
      let r := s.exists' redisError call.now key
      (r.1.map .found, r.2)

end RedisIdempotencyStore

end WorldInfra.Idempotency
