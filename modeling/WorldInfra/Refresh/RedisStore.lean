/-
auth-refresh-core: the Redis store. A session is a hash of four text fields under configurable
names; loading one decodes and parses the hash, and a rotation is a script that compares the
fields of the old key with those of the current session.
-/
import WorldInfra.Lib.Machine
import WorldInfra.Redis.Keyspace
import WorldInfra.Refresh.Basic

namespace WorldInfra.Refresh

open WorldInfra.Lib WorldInfra.Rust WorldInfra.Redis

/-! ## Stored sessions -/

/-- The loop of `decode_session_hash` over the entries still to come. -/
def decodeFields (decoded : Table Str Str) :
    List ((_ : Bytes) × Bytes) → Except RefreshStoreError (Table Str Str)
  | [] => .ok decoded
  | ⟨field, value⟩ :: fields =>
    match Utf8.fromUtf8 field with
    | .error error => .error (.invalidStoredSession ("non-UTF-8 refresh session field: ".toList ++ error.text))
    | .ok field =>
      match Utf8.fromUtf8 value with
      | .error error =>
        .error (.invalidStoredSession
          ("non-UTF-8 refresh session value for ".toList ++ field ++ ": ".toList ++ error.text))
      | .ok value => decodeFields (decoded.insert field value) fields

def decodeSessionHash (fields : Table Bytes Bytes) : Except RefreshStoreError (Table Str Str) :=
  decodeFields ∅ fields.entries

/-- `fields.get(name).ok_or_else(…)`. -/
def requireField (fields : Table Str Str) (name : Str) : Except RefreshStoreError Str :=
  match fields.get name with
  | some value => .ok value
  | none => .error (.invalidStoredSession ("missing ".toList ++ name))

def parseNumber {α : Type} (parse : Str → Except IntErrorKind α) (value : Str) : Except RefreshStoreError α :=
  match parse value with
  | .ok n => .ok n
  | .error error => .error (.invalidStoredSession error.text)

def parseSessionHash (fields : Table Str Str) (config : RefreshStoreConfig) :
    Except RefreshStoreError RefreshSession := do
  let subjectId ← requireField fields config.subjectIdField.value
  let sessionId ← requireField fields config.sessionIdField.value
  let issuedAtUnixSecs ← requireField fields config.issuedAtUnixSecsField.value
  let issuedAtUnixSecs ← parseNumber parseI64 issuedAtUnixSecs
  let sessionVersion ← requireField fields config.sessionVersionField.value
  let sessionVersion ← parseNumber parseU64 sessionVersion
  RefreshSession.new subjectId sessionId issuedAtUnixSecs sessionVersion

/-- What `get` makes of a stored hash. -/
def loadSession (config : RefreshStoreConfig) (fields : Table Bytes Bytes) :
    Except RefreshStoreError RefreshSession := do
  let fields ← decodeSessionHash fields
  parseSessionHash fields config

/-- The field names and values a session is written with. -/
def sessionArgs (config : RefreshStoreConfig) (session : RefreshSession) : List (Bytes × Bytes) :=
  [(Utf8.encode config.subjectIdField.value, Utf8.encode session.subjectId),
    (Utf8.encode config.sessionIdField.value, Utf8.encode session.sessionId),
    (Utf8.encode config.issuedAtUnixSecsField.value, Utf8.encode (decimal session.issuedAtUnixSecs.toInt)),
    (Utf8.encode config.sessionVersionField.value, Utf8.encode (decimal session.sessionVersion.toNat))]

/-! ## The store -/

/-- `RedisRefreshStore`, with the keyspace it is connected to. -/
structure RedisRefreshStore where
  (namespace' : Option RefreshNamespace)
  config : RefreshStoreConfig
  db : Db

/-- The comparisons of the rotation script: every field of the hash has the given value. -/
def fieldsMatch (key : Bytes) : List (Bytes × Bytes) → Command Bool
  | [] => return true
  | (field, value) :: rest => do
    if (← hget key field) ≠ some value then return false
    fieldsMatch key rest

/-- The rotation script; `current` and `next` are the arguments with the fields of the two
sessions. -/
def rotateScript (oldKey newKey : Bytes) (current next : List (Bytes × Bytes)) (ttlSecs : Nat) : Command Nat := do
  if !(← exists' oldKey) then return 0
  if ← exists' newKey then return 0
  if !(← fieldsMatch oldKey current) then return 0
  discard <| del oldKey
  hset newKey next
  discard <| expire newKey (← luaNumber ttlSecs)
  return 1

namespace RedisRefreshStore

variable (sha256 : Bytes → Bytes) (redisError : RedisError → Str)

/-- A command's result and the store after it, a failure of Redis being a backend error. -/
def query {α : Type} (self : RedisRefreshStore) (now : Int) (command : Command α) :
    Except RefreshStoreError α × RedisRefreshStore :=
  let r := command now self.db
  (match r.1 with
    | .ok a => .ok a
    | .error e => .error (.backend (redisError e)), { self with db := r.2 })

def set (self : RedisRefreshStore) (now : Int) (token : Str) (session : RefreshSession) (ttl : Duration) :
    Except RefreshStoreError Unit × RedisRefreshStore :=
  match storeKey sha256 self.config self.namespace' token with
  | .error e => (.error e, self)
  | .ok key =>
    let key := Utf8.encode key
    self.query redisError now
      (transaction [hset key (sessionArgs self.config session), discard <| expire key (ttlSecsCeil ttl)])

def get (self : RedisRefreshStore) (now : Int) (token : Str) :
    Except RefreshStoreError (Option RefreshSession) × RedisRefreshStore :=
  match storeKey sha256 self.config self.namespace' token with
  | .error e => (.error e, self)
  | .ok key =>
    match self.query redisError now (hgetall (Utf8.encode key)) with
    | (.error e, self) => (.error e, self)
    | (.ok rawFields, self) =>
      if rawFields.entries.isEmpty then (.ok none, self)
      else ((loadSession self.config rawFields).map some, self)

def rotate (self : RedisRefreshStore) (now : Int) (oldToken newToken : Str)
    (currentSession newSession : RefreshSession) (ttl : Duration) :
    Except RefreshStoreError Bool × RedisRefreshStore :=
  match storeKey sha256 self.config self.namespace' oldToken with
  | .error e => (.error e, self)
  | .ok oldKey =>
    match storeKey sha256 self.config self.namespace' newToken with
    | .error e => (.error e, self)
    | .ok newKey =>
      if oldKey = newKey then (.ok false, self)
      else
        let r := self.query redisError now
          (rotateScript (Utf8.encode oldKey) (Utf8.encode newKey) (sessionArgs self.config currentSession)
            (sessionArgs self.config newSession) (ttlSecsCeil ttl))
        (r.1.map fun result => decide (result = 1), r.2)

def delete (self : RedisRefreshStore) (now : Int) (token : Str) : Except RefreshStoreError Unit × RedisRefreshStore :=
  match storeKey sha256 self.config self.namespace' token with
  | .error e => (.error e, self)
  | .ok key => self.query redisError now (discard <| del (Utf8.encode key))

/-- The store as a machine; its inputs are the calls in the order Redis runs them. -/
def redis : Machine RedisRefreshStore (RefreshCall Int) RefreshAnswer where
  step s call :=
    match call.op with
    | .set token session ttl =>
      let r := s.set sha256 redisError call.now token session ttl
      (r.1.map fun _ => .done, r.2)
    | .get token =>
      let r := s.get sha256 redisError call.now token
      (r.1.map .loaded, r.2)
    | .rotate oldToken newToken currentSession newSession ttl =>
      let r := s.rotate sha256 redisError call.now oldToken newToken currentSession newSession ttl
      (r.1.map .rotated, r.2)
    | .delete token =>
      let r := s.delete sha256 redisError call.now token
      (r.1.map fun _ => .done, r.2)

end RedisRefreshStore

end WorldInfra.Refresh
