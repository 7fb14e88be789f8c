/-
auth-device-core: device hashes. A device id, or else an address and a user agent, is normalized and
written to HMAC-SHA-256 or SHA-256, behind a domain separator or in one of the bare legacy forms.
-/
import WorldInfra.Rust.Bytes
import WorldInfra.Rust.Pattern

namespace WorldInfra.Device

open WorldInfra.Rust

inductive AuthDeviceError where
  | empty (field : Str)
  | invalid (field : Str)
  deriving DecidableEq, Repr

def deviceIdMaxChars : Nat := 128

def validateVisibleTrimmed (value field : Str) (maxChars : Nat) : Except AuthDeviceError Str :=
  if value.trim ≠ value then .error (.invalid field)
  else if value.isEmpty then .error (.empty field)
  else if value.length > maxChars || value.any isControl then .error (.invalid field)
  else .ok value

theorem validateVisibleTrimmed_ok {value field v : Str} {maxChars : Nat}
    (h : validateVisibleTrimmed value field maxChars = .ok v) : v = value ∧ v ≠ [] ∧ v.any isControl = false := by
  unfold validateVisibleTrimmed at h
  split at h
  · cases h
  · split at h
    · cases h
    · next hempty =>
      split at h
      · cases h
      · next hbad =>
        cases h
        rw [Bool.or_eq_true, not_or] at hbad
        exact ⟨rfl, fun hnil => hempty (List.isEmpty_iff.2 hnil), eq_false_of_ne_true hbad.2⟩

/-! ## Device ids -/

structure DeviceId where
  value : Str
  visible : value ≠ [] ∧ value.any isControl = false

def DeviceId.withMaxChars (value : Str) (maxChars : Nat) : Except AuthDeviceError DeviceId :=
  match h : validateVisibleTrimmed value "device_id".toList maxChars with
  | .error e => .error e
  | .ok value => .ok ⟨value, (validateVisibleTrimmed_ok h).2⟩

def DeviceId.new (value : Str) : Except AuthDeviceError DeviceId := DeviceId.withMaxChars value deviceIdMaxChars

inductive DeviceIdNormalization where
  | strictVisible
  | trimmed (maxBytes : Nat) (rejectControl : Bool)
  deriving DecidableEq, Repr

def DeviceIdNormalization.rejectsControl : DeviceIdNormalization → Bool
  | .strictVisible => true
  | .trimmed _ rejectControl => rejectControl

def normalizeDeviceIdForHash (value : Option Str) : DeviceIdNormalization → Option Str
  | .strictVisible => value.bind fun value => (DeviceId.new value).toOption.map DeviceId.value
  | .trimmed maxBytes rejectControl =>
    value.bind fun value =>
      let value := value.trim
      if value.isEmpty || value.len > maxBytes || (rejectControl && value.any isControl) then none else some value

theorem normalizeDeviceIdForHash_control {value : Option Str} {normalization : DeviceIdNormalization} {deviceId : Str}
    (hreject : normalization.rejectsControl = true)
    (h : normalizeDeviceIdForHash value normalization = some deviceId) : deviceId.any isControl = false := by
  cases normalization with
  | strictVisible =>
    obtain ⟨v, -, hv⟩ := Option.bind_eq_some_iff.1 h
    obtain ⟨id, -, rfl⟩ := Option.map_eq_some_iff.1 hv
    exact id.visible.2
  | trimmed maxBytes rejectControl =>
    obtain rfl : rejectControl = true := hreject
    obtain ⟨v, -, hv⟩ := Option.bind_eq_some_iff.1 h
    simp only [Bool.true_and] at hv
    split at hv
    · cases hv
    · next hbad =>
      cases hv
      rw [Bool.or_eq_true, not_or] at hbad
      exact eq_false_of_ne_true hbad.2

/-! ## Keys -/

def validateKeyId (value : Str) : Except AuthDeviceError Str :=
  if value.trim ≠ value then .error (.invalid "key_id".toList)
  else if value.isEmpty then .error (.empty "key_id".toList)
  else if value.len > 32 || !value.all fun c => c.isAlphanum || c == '-' || c == '_' || c == '.' then
    .error (.invalid "key_id".toList)
  else .ok value

structure DeviceHashKey where
  keyId : Str
  secret : Bytes
  named : ∃ value, validateKeyId value = .ok keyId
  keyed : secret ≠ []

namespace DeviceHashKey

def withKeyId (keyId : Str) (secret : Bytes) : Except AuthDeviceError DeviceHashKey :=
  match h : validateKeyId keyId with
  | .error e => .error e
  | .ok keyId' =>
    if hs : secret = [] then .error (.empty "secret".toList) else .ok ⟨keyId', secret, ⟨keyId, h⟩, hs⟩

def new (secret : Bytes) : Except AuthDeviceError DeviceHashKey := withKeyId "v1".toList secret

end DeviceHashKey

/-! ## Policies -/

inductive FallbackMaterialNormalization where
  | trimmedVisible (ipMaxChars userAgentMaxChars : Nat)
  | rawPresent
  deriving DecidableEq, Repr

inductive UnkeyedDeviceIdHash where
  | domainSeparated
  | rawSha256
  deriving DecidableEq, Repr

inductive UnkeyedIpUserAgentHash where
  | domainSeparated
  | legacyLenPrefixed
  deriving DecidableEq, Repr

/-- The checks of `with_domain_separator`. -/
def checkDomainSeparator (value : Str) : Except AuthDeviceError Str :=
  match validateVisibleTrimmed value "domain_separator".toList deviceIdMaxChars with
  | .error e => .error e
  | .ok domainSeparator =>
    if domainSeparator.endsWith [':'] then .error (.invalid "domain_separator".toList) else .ok domainSeparator

structure DeviceHashPolicy where
  domainSeparator : Str
  deviceIdNormalization : DeviceIdNormalization
  fallbackNormalization : FallbackMaterialNormalization
  unkeyedDeviceIdHash : UnkeyedDeviceIdHash
  unkeyedIpUserAgentHash : UnkeyedIpUserAgentHash
  accepted : ∃ value, checkDomainSeparator value = .ok domainSeparator

namespace DeviceHashPolicy

def default : DeviceHashPolicy where
  domainSeparator := "auth-device-core:v1".toList
  deviceIdNormalization := .strictVisible
  fallbackNormalization := .trimmedVisible deviceIdMaxChars 512
  unkeyedDeviceIdHash := .domainSeparated
  unkeyedIpUserAgentHash := .domainSeparated
  accepted := ⟨"auth-device-core:v1".toList, by rfl⟩

def withDomainSeparator (self : DeviceHashPolicy) (value : Str) : Except AuthDeviceError DeviceHashPolicy :=
  match h : checkDomainSeparator value with
  | .error e => .error e
  | .ok domainSeparator => .ok { self with domainSeparator, accepted := ⟨value, h⟩ }

/-- A separator is not empty and has no control character. -/
theorem separator_visible (self : DeviceHashPolicy) :
    self.domainSeparator ≠ [] ∧ self.domainSeparator.any isControl = false := by
  obtain ⟨value, h⟩ := self.accepted
  unfold checkDomainSeparator at h
  split at h
  · cases h
  · next v hv =>
    split at h
    · cases h
    · cases h
      exact (validateVisibleTrimmed_ok hv).2

end DeviceHashPolicy

/-! ## Material -/

structure DeviceHashInput where
  deviceId : Option Str := none
  userAgent : Option Str := none
  ip : Option Str := none
  deriving DecidableEq, Repr

inductive DeviceHashMaterial where
  | deviceId (deviceId : Str)
  | ipUserAgent (ip userAgent : Option Str)
  deriving DecidableEq, Repr

def normalizedVisible (value : Option Str) (maxChars : Nat) : Option Str :=
  value.bind fun value =>
    let value := value.trim
    if value.isEmpty || value.length > maxChars || value.any isControl then none else some value

def FallbackMaterialNormalization.normalize (input : DeviceHashInput) :
    FallbackMaterialNormalization → Option Str × Option Str
  | .trimmedVisible ipMaxChars userAgentMaxChars =>
    (normalizedVisible input.ip ipMaxChars, normalizedVisible input.userAgent userAgentMaxChars)
  | .rawPresent => (input.ip, input.userAgent)

def deviceHashMaterial (input : DeviceHashInput) (policy : DeviceHashPolicy) : Option DeviceHashMaterial :=
  match normalizeDeviceIdForHash input.deviceId policy.deviceIdNormalization with
  | some deviceId => some (.deviceId deviceId)
  | none =>
    let (ip, userAgent) := policy.fallbackNormalization.normalize input
    if ip.isNone && userAgent.isNone then none else some (.ipUserAgent ip userAgent)

/-! ## Hashes -/

/-- `update_bytes` on a digest, by the bytes it has been fed. -/
def updateBytes (digest bytes : Bytes) : Bytes := digest ++ bytes

def updateLenPrefixed (digest : Bytes) (value : Str) : Bytes :=
  updateBytes (updateBytes digest (toBeBytes (.ofNat value.len))) (Utf8.encode value)

def updateHashMaterial (digest : Bytes) (material : DeviceHashMaterial) (domainSeparator : Str) : Bytes :=
  let digest := updateBytes digest (Utf8.encode domainSeparator)
  let digest := updateBytes digest (Utf8.encode [':'])
  match material with
  | .deviceId deviceId =>
    let digest := updateBytes digest (Utf8.encode "device-id:".toList)
    updateLenPrefixed digest deviceId
  | .ipUserAgent ip userAgent =>
    let digest := updateBytes digest (Utf8.encode "ip-ua:".toList)
    let digest := match ip with
      | some ip => updateLenPrefixed (updateBytes digest (Utf8.encode "ip:".toList)) ip
      | none => digest
    match userAgent with
    | some userAgent => updateLenPrefixed (updateBytes digest (Utf8.encode "ua:".toList)) userAgent
    | none => digest

/-- What the digest has been fed when it is finalized; the legacy form needs both fields. -/
def fedBytes (key : Option DeviceHashKey) (policy : DeviceHashPolicy) (material : DeviceHashMaterial) : Option Bytes :=
  match key with
  | some _ => some (updateHashMaterial [] material policy.domainSeparator)
  | none =>
    match material, policy.unkeyedDeviceIdHash with
    | .deviceId deviceId, .rawSha256 => some (updateBytes [] (Utf8.encode deviceId))
    | _, _ =>
      match material, policy.unkeyedIpUserAgentHash with
      | .ipUserAgent ip userAgent, .legacyLenPrefixed =>
        match ip, userAgent with
        | some ip, some userAgent => some (updateLenPrefixed (updateLenPrefixed [] ip) userAgent)
        | _, _ => none
      | _, _ => some (updateHashMaterial [] material policy.domainSeparator)

/-- `compute_device_hash_with_policy`, over the two digests and `hex::encode`. -/
def computeDeviceHashWithPolicy (hmacSha256 : Bytes → Bytes → Bytes) (sha256 : Bytes → Bytes) (hexEncode : Bytes → Str)
    (input : DeviceHashInput) (key : Option DeviceHashKey) (policy : DeviceHashPolicy) : Option Str := do
  let material ← deviceHashMaterial input policy
  let fed ← fedBytes key policy material
  match key with
  | some key => some (key.keyId ++ ':' :: hexEncode (hmacSha256 key.secret fed))
  | none => some (hexEncode (sha256 fed))

end WorldInfra.Device
