/-
auth-refresh-core: errors and their classification, the key and field schema, sessions, token
hashing and store keys. A schema part and a namespace carry the fact that they are valid.
SHA-256 is a parameter; nothing here depends on which function it is.
-/
import WorldInfra.Rust.Hex
import WorldInfra.Rust.Num
import WorldInfra.Rust.Time
import WorldInfra.Rust.Utf8

namespace WorldInfra.Refresh

open WorldInfra.Rust

/-! ## Errors -/

inductive RefreshStoreError where
  | invalidNamespace
  | invalidToken
  | invalidSchemaConfig
  | invalidSessionField (field : Str)
  | timeout
  | invalidStoredSession (error : Str)
  | backend (error : Str)
  deriving DecidableEq, Repr

inductive RefreshLookupDisposition where
  | credentialMiss
  | retryableBackendFailure
  | internalFailure
  deriving DecidableEq, Repr

namespace RefreshStoreError

def shouldDiscardStoredPayload : RefreshStoreError → Bool
  | .invalidStoredSession _ => true
  | _ => false

def lookupDisposition : RefreshStoreError → RefreshLookupDisposition
  | .invalidToken | .invalidStoredSession _ => .credentialMiss
  | .timeout | .backend _ => .retryableBackendFailure
  | .invalidNamespace | .invalidSchemaConfig | .invalidSessionField _ => .internalFailure

def shouldTreatAsCredentialMiss (e : RefreshStoreError) : Bool := e.lookupDisposition == .credentialMiss

end RefreshStoreError

/-! ## Validation -/

def unsafeChar (c : Char) : Bool := isControl c || isWhitespace c

/-- The ASCII letters, digits and the two separators of tokens and schema parts. -/
def urlSafe (c : Char) : Bool := c.isAlphanum || c == '-' || c == '_'

def validateToken (token : Str) : Except RefreshStoreError Str :=
  if token.isEmpty || token.len > 1024 || token.any unsafeChar || !token.all urlSafe then .error .invalidToken
  else .ok token

def validateKeyPart (value : Str) : Except RefreshStoreError Str :=
  value.validateTrimmed .invalidNamespace fun value => value.isEmpty || value.len > 256 || value.any unsafeChar

def validateSchemaPart (value : Str) : Except RefreshStoreError Str :=
  if value.trim ≠ value then .error .invalidSchemaConfig
  else
    match validateKeyPart value with
    | .error _ => .error .invalidSchemaConfig
    | .ok value => if value.any (fun c => !urlSafe c) then .error .invalidSchemaConfig else .ok value

def validateSessionField (value : Str) (field : Str) : Except RefreshStoreError Str :=
  if value.isEmpty || value.len > 256 || value.any unsafeChar then .error (.invalidSessionField field)
  else .ok value

theorem validateToken_ok {token t : Str} (h : validateToken token = .ok t) : t = token := by
  unfold validateToken at h
  split at h
  · cases h
  · cases h; rfl

theorem validateToken_error {token : Str} {e : RefreshStoreError} (h : validateToken token = .error e) :
    e = .invalidToken := by
  unfold validateToken at h
  split at h
  · cases h; rfl
  · cases h

theorem validateKeyPart_ok {value v : Str} (h : validateKeyPart value = .ok v) : validateKeyPart v = .ok v := by
  refine Str.validateTrimmed_ok (fun v hv c hc => ?_) h
  simp only [Bool.or_eq_false_iff, List.any_eq_false, Bool.not_eq_true, unsafeChar] at hv
  exact (hv.2 c hc).2

theorem validateSchemaPart_ok {value v : Str} (h : validateSchemaPart value = .ok v) :
    validateSchemaPart v = .ok v := by
  have hv : v = value := by
    unfold validateSchemaPart at h
    split at h
    · cases h
    · rename_i htrim
      split at h
      · cases h
      · rename_i w hw
        split at h
        · cases h
        · cases h
          exact (Str.validateTrimmed_cases hw).2.1.trans (not_not.1 htrim)
  rw [hv] at h ⊢
  exact h

theorem validateSessionField_ok {value field v : Str} (h : validateSessionField value field = .ok v) :
    v = value := by
  unfold validateSessionField at h
  split at h
  · cases h
  · cases h; rfl

/-! ## Namespaces, schemas and sessions -/

/-- `RefreshNamespace`: a validated text. -/
structure RefreshNamespace where
  value : Str
  valid : validateKeyPart value = .ok value

def RefreshNamespace.new (value : Str) : Except RefreshStoreError RefreshNamespace :=
  match h : validateKeyPart value with
  | .ok v => .ok ⟨v, validateKeyPart_ok h⟩
  | .error _ => .error .invalidNamespace

/-- A validated key part or field name of the schema. -/
structure SchemaPart where
  value : Str
  valid : validateSchemaPart value = .ok value

def SchemaPart.new (value : Str) : Except RefreshStoreError SchemaPart :=
  match h : validateSchemaPart value with
  | .ok v => .ok ⟨v, validateSchemaPart_ok h⟩
  | .error e => .error e

/-- The loop of `validate_distinct_session_fields` over the fields from some index on, `before`
being those before it. -/
def validateDistinctSessionFields (before : List Str) : List Str → Except RefreshStoreError Unit
  | [] => .ok ()
  | field :: rest =>
    if before.contains field then .error .invalidSchemaConfig
    else validateDistinctSessionFields (before ++ [field]) rest

theorem validateDistinctSessionFields_ok : ∀ {before fields : List Str}, before.Nodup →
    validateDistinctSessionFields before fields = .ok () → (before ++ fields).Nodup
  | _, [], hb, _ => by rw [List.append_nil]; exact hb
  | before, field :: rest, hb, h => by
    unfold validateDistinctSessionFields at h
    split at h
    · cases h
    · -- the field is new, and the loop goes on with it among those before
      rename_i hc
      rw [List.contains_iff_mem] at hc
      have hb' : (before ++ [field]).Nodup := by
        rw [List.nodup_append]
        refine ⟨hb, List.pairwise_singleton _ _, ?_⟩
        rintro a ha b hb rfl
        exact hc (List.mem_singleton.1 hb ▸ ha)
      have := validateDistinctSessionFields_ok hb' h
      rwa [List.append_assoc] at this

/-- `RefreshStoreConfig`: validated parts, and four distinct field names. -/
structure RefreshStoreConfig where
  keyPrefix : SchemaPart
  keyVersion : SchemaPart
  subjectIdField : SchemaPart
  sessionIdField : SchemaPart
  issuedAtUnixSecsField : SchemaPart
  sessionVersionField : SchemaPart
  distinct : validateDistinctSessionFields [] [subjectIdField.value, sessionIdField.value,
    issuedAtUnixSecsField.value, sessionVersionField.value] = .ok ()

namespace RefreshStoreConfig

def default : RefreshStoreConfig where
  keyPrefix := ⟨"rt".toList, rfl⟩
  keyVersion := ⟨"v1".toList, rfl⟩
  subjectIdField := ⟨"subject_id".toList, rfl⟩
  sessionIdField := ⟨"session_id".toList, rfl⟩
  issuedAtUnixSecsField := ⟨"issued_at_unix_secs".toList, rfl⟩
  sessionVersionField := ⟨"session_version".toList, rfl⟩
  distinct := rfl

def new (keyPrefix keyVersion subjectIdField sessionIdField issuedAtUnixSecsField sessionVersionField : Str) :
    Except RefreshStoreError RefreshStoreConfig := do
  let keyPrefix ← SchemaPart.new keyPrefix
  let keyVersion ← SchemaPart.new keyVersion
  let subjectIdField ← SchemaPart.new subjectIdField
  let sessionIdField ← SchemaPart.new sessionIdField
  let issuedAtUnixSecsField ← SchemaPart.new issuedAtUnixSecsField
  let sessionVersionField ← SchemaPart.new sessionVersionField
  match h : validateDistinctSessionFields [] [subjectIdField.value, sessionIdField.value,
      issuedAtUnixSecsField.value, sessionVersionField.value] with
  | .ok () => .ok ⟨keyPrefix, keyVersion, subjectIdField, sessionIdField, issuedAtUnixSecsField,
      sessionVersionField, h⟩
  | .error e => .error e

def withKeyVersion (self : RefreshStoreConfig) (keyVersion : Str) : Except RefreshStoreError RefreshStoreConfig :=
  (SchemaPart.new keyVersion).map fun keyVersion => { self with keyVersion := keyVersion }

def withSessionFields (self : RefreshStoreConfig)
    (subjectIdField sessionIdField issuedAtUnixSecsField sessionVersionField : Str) :
    Except RefreshStoreError RefreshStoreConfig := do
  let subjectIdField ← SchemaPart.new subjectIdField
  let sessionIdField ← SchemaPart.new sessionIdField
  let issuedAtUnixSecsField ← SchemaPart.new issuedAtUnixSecsField
  let sessionVersionField ← SchemaPart.new sessionVersionField
  match h : validateDistinctSessionFields [] [subjectIdField.value, sessionIdField.value,
      issuedAtUnixSecsField.value, sessionVersionField.value] with
  | .ok () => .ok ⟨self.keyPrefix, self.keyVersion, subjectIdField, sessionIdField, issuedAtUnixSecsField,
      sessionVersionField, h⟩
  | .error e => .error e

/-- The four field names a stored session is written under. -/
def sessionFields (self : RefreshStoreConfig) : List Str :=
  [self.subjectIdField.value, self.sessionIdField.value, self.issuedAtUnixSecsField.value,
    self.sessionVersionField.value]

theorem sessionFields_nodup (self : RefreshStoreConfig) : self.sessionFields.Nodup :=
  validateDistinctSessionFields_ok List.nodup_nil self.distinct

end RefreshStoreConfig

structure RefreshSession where
  subjectId : Str
  sessionId : Str
  issuedAtUnixSecs : Int64
  sessionVersion : UInt64
  deriving DecidableEq, Repr

def RefreshSession.new (subjectId sessionId : Str) (issuedAtUnixSecs : Int64) (sessionVersion : UInt64) :
    Except RefreshStoreError RefreshSession := do
  let subjectId ← validateSessionField subjectId "subject_id".toList
  let sessionId ← validateSessionField sessionId "session_id".toList
  .ok { subjectId, sessionId, issuedAtUnixSecs, sessionVersion }

/-- The sessions that `RefreshSession::new` builds. -/
def RefreshSession.Accepted (s : RefreshSession) : Prop :=
  RefreshSession.new s.subjectId s.sessionId s.issuedAtUnixSecs s.sessionVersion = .ok s

instance (s : RefreshSession) : Decidable s.Accepted :=
  inferInstanceAs (Decidable (RefreshSession.new s.subjectId s.sessionId s.issuedAtUnixSecs s.sessionVersion = .ok s))

theorem RefreshSession.new_ok {subjectId sessionId : Str} {issuedAt : Int64} {version : UInt64} {s : RefreshSession}
    (h : RefreshSession.new subjectId sessionId issuedAt version = .ok s) :
    s = ⟨subjectId, sessionId, issuedAt, version⟩ ∧ s.Accepted := by
  have hs : s = ⟨subjectId, sessionId, issuedAt, version⟩ := by
    simp only [RefreshSession.new, bind, Except.bind] at h
    split at h
    · cases h
    · rename_i v hv
      split at h
      · cases h
      · rename_i w hw
        cases h
        rw [validateSessionField_ok hv, validateSessionField_ok hw]
  subst hs
  exact ⟨rfl, h⟩

/-! ## Tokens and keys -/

def hexDigit (n : Nat) : Char := "0123456789abcdef".toList.getD n '0'

def hexLower (bytes : Bytes) : Str := bytes.flatMap fun b => [hexDigit (b.toNat / 16), hexDigit (b.toNat % 16)]

theorem hexLower_injective : Function.Injective hexLower := lowerHex_injective

section

variable (sha256 : Bytes → Bytes)

def hashRefreshToken (token : Str) : Except RefreshStoreError Str := do
  let token ← validateToken token
  .ok (hexLower (sha256 (Utf8.encode token)))

def storeKey (config : RefreshStoreConfig) (namespace' : Option RefreshNamespace) (token : Str) :
    Except RefreshStoreError Str := do
  let tokenHash ← hashRefreshToken sha256 token
  .ok (match namespace' with
    | some ns => ns.value ++ ':' :: config.keyPrefix.value ++ ':' :: config.keyVersion.value ++ ':' :: tokenHash
    | none => config.keyPrefix.value ++ ':' :: config.keyVersion.value ++ ':' :: tokenHash)

variable {sha256} {config : RefreshStoreConfig} {namespace' : Option RefreshNamespace}

theorem storeKey_ok {token k : Str} (h : storeKey sha256 config namespace' token = .ok k) :
    validateToken token = .ok token := by
  rcases hv : validateToken token with e | t
  · simp only [storeKey, hashRefreshToken, bind, Except.bind, hv] at h
    cases h
  · rw [validateToken_ok hv]

theorem storeKey_error {token : Str} {e : RefreshStoreError} (h : storeKey sha256 config namespace' token = .error e) :
    validateToken token = .error .invalidToken ∧ e = .invalidToken := by
  rcases hv : validateToken token with e' | t
  · simp only [storeKey, hashRefreshToken, bind, Except.bind, hv] at h
    cases h
    rw [validateToken_error hv]
    exact ⟨rfl, rfl⟩
  · simp only [storeKey, hashRefreshToken, bind, Except.bind, hv] at h
    cases h

/-- Tokens that SHA-256 tells apart have different keys. -/
theorem storeKey_inj {s t k : Str} (hsha : sha256 (Utf8.encode s) = sha256 (Utf8.encode t) → s = t)
    (hs : storeKey sha256 config namespace' s = .ok k) (ht : storeKey sha256 config namespace' t = .ok k) :
    s = t := by
  simp only [storeKey, hashRefreshToken, bind, Except.bind] at hs ht
  rcases hvs : validateToken s with e | s'
  · rw [hvs] at hs; cases hs
  · rcases hvt : validateToken t with e | t'
    · rw [hvt] at ht; cases ht
    · rw [hvs] at hs
      rw [hvt, ← hs] at ht
      rw [validateToken_ok hvs, validateToken_ok hvt] at ht
      refine hsha (hexLower_injective ?_)
      cases namespace' with
      | none =>
        simp only [Except.ok.injEq, List.append_cancel_left_eq, List.cons_append, List.append_assoc,
          List.cons.injEq, true_and] at ht
        exact ht.symm
      | some ns =>
        simp only [Except.ok.injEq, List.append_cancel_left_eq, List.cons_append, List.append_assoc,
          List.cons.injEq, true_and] at ht
        exact ht.symm

end

/-- SHA-256 on the tokens `first` and `second`. -/
def sha256OfFirstSecond (b : Bytes) : Bytes :=
  if b = Utf8.encode "first".toList then
    [167, 147, 123, 100, 184, 202, 165, 143, 3, 114, 27, 182, 186, 207, 92, 120, 203, 35, 95, 235, 224, 231, 11, 27,
      132, 205, 153, 84, 20, 97, 160, 142]
  else if b = Utf8.encode "second".toList then
    [22, 54, 122, 172, 182, 122, 74, 1, 124, 141, 168, 171, 149, 104, 44, 203, 57, 8, 99, 120, 15, 113, 20, 221, 160,
      160, 224, 197, 86, 68, 199, 196]
  else []

/-! ## Calls -/

/-- An operation of a refresh store, with its arguments. -/
inductive RefreshOp where
  | set (token : Str) (session : RefreshSession) (ttl : Duration)
  | get (token : Str)
  | rotate (oldToken newToken : Str) (currentSession newSession : RefreshSession) (ttl : Duration)
  | delete (token : Str)
  deriving DecidableEq, Repr

def RefreshOp.tokens : RefreshOp → List Str
  | .set token _ _ | .get token | .delete token => [token]
  | .rotate oldToken newToken _ _ _ => [oldToken, newToken]

/-- The sessions an operation is called with. -/
def RefreshOp.sessions : RefreshOp → List RefreshSession
  | .set _ session _ => [session]
  | .rotate _ _ currentSession newSession _ => [currentSession, newSession]
  | .get _ | .delete _ => []

/-- A call: an operation and the time it reads. -/
structure RefreshCall (T : Type) where
  now : T
  op : RefreshOp

inductive RefreshReply where
  | done
  | loaded (session : Option RefreshSession)
  | rotated (success : Bool)
  deriving DecidableEq, Repr

abbrev RefreshAnswer : Type := Except RefreshStoreError RefreshReply

end WorldInfra.Refresh
