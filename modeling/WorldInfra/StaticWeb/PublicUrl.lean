/-
static-web-hardening: public URLs and the policies for their hosts, with the reading of IPv4 addresses
that are not written as dotted quads.
-/
import WorldInfra.Rust.Ipv4Text
import WorldInfra.Rust.Pattern

namespace WorldInfra.StaticWeb

open WorldInfra.Rust

inductive EnvKind where
  | development
  | staging
  | production
  deriving DecidableEq, Repr

def EnvKind.isProductionLike : EnvKind → Bool
  | staging | production => true
  | development => false

inductive PublicUrlKind where
  | http
  | webSocket
  deriving DecidableEq, Repr

inductive StaticWebError where
  | empty (name : Str)
  | invalidUrl (name : Str)
  | insecureScheme (name scheme : Str)
  deriving DecidableEq, Repr

inductive StaticWebUrlPolicyError where
  | url (error : StaticWebError)
  | rejectedHost (name host reason : Str)
  deriving DecidableEq, Repr

structure PublicUrl where
  scheme : Str
  remainder : Str
  deriving DecidableEq

structure HostPolicy where
  rejectLocalhost : Bool
  rejectPrivateIps : Bool
  rejectPlaceholderHosts : Bool

def HostPolicy.permissive : HostPolicy := ⟨false, false, false⟩

def HostPolicy.production : HostPolicy := ⟨true, true, true⟩

/-! ## Hosts -/

def validHostLabel (label : Str) : Bool :=
  !label.isEmpty && label.len ≤ 63 && !label.startsWith ['-'] && !label.endsWith ['-'] &&
    label.all fun c => c.isAlphanum || c == '-'

def validUnbracketedHost (host : Str) : Bool :=
  !host.isEmpty && host.len ≤ 253 && !host.startsWith ['.'] && !host.endsWith ['.'] && !host.containsText "..".toList &&
    (host.split '.').all validHostLabel

def validPort (port : Str) : Bool :=
  !port.isEmpty && port.all Char.isDigit &&
    match parseU16 port with
    | .ok port => port != 0
    | .error _ => false

def endsAuthority (c : Char) : Bool := c == '/' || c == '?' || c == '#'

def authorityHost (remainder : Str) : Option Str :=
  let authority := remainder.firstPart endsAuthority
  if authority.isEmpty then none
  else
    match Str.stripPrefix '[' authority with
    | some rest =>
      match rest.splitOnce ']' with
      | none => none
      | some (host, port) =>
        if host.isEmpty || (Str.stripPrefix ':' port).any List.isEmpty then none
        else if (Net.parseWith Net.readIpv6Addr host).isNone then none
        else if port.isEmpty || (Str.stripPrefix ':' port).any validPort then some host
        else none
    | none =>
      match authority.split ':' with
      | [] => none
      | host :: parts =>
        if host.isEmpty then none
        else if parts.length > 1 then none
        else if !validUnbracketedHost host then none
        else
          match parts with
          | port :: _ => if validPort port then some host else none
          | [] => some host

/-! ## Addresses -/

def parseIpv4Number (part : Str) : Option Nat :=
  if part.isEmpty then none
  else
    let (digits, radix) :=
      match part.stripPrefixText "0x".toList with
      | some rest => (rest, 16)
      | none => if part.len > 1 && part.startsWith ['0'] then (part.drop 1, 8) else (part, 10)
    if digits.isEmpty then some 0
    else
      let validDigits :=
        match radix with
        | 8 => digits.all fun ch => '0' ≤ ch && ch ≤ '7'
        | 10 => digits.all Char.isDigit
        | 16 => digits.all isAsciiHexdigit
        | _ => false
      if !validDigits then none else Net.u64FromStrRadix digits radix

/-- The loop that adds the numbers before the last to it; a sum past 64 bits has no result. -/
def addNumbers (value index : Nat) : List Nat → Option Nat
  | [] => some value
  | number :: numbers =>
    let value := value + number <<< (8 * (3 - index))
    if value < 2 ^ 64 then addNumbers value (index + 1) numbers else none

def parseNoncanonicalIpv4Literal (host : Str) : Option (BitVec 32) :=
  let parts := host.split '.'
  if parts.isEmpty || parts.length > 4 || parts.any List.isEmpty then none
  else
    match parts.mapM parseIpv4Number with
    | none => none
    | some numbers =>
      let lastIndex := numbers.length - 1
      let last := numbers.getD lastIndex 0
      if (numbers.take lastIndex).any fun number => number > 255 then none
      else
        let lastLimit := 256 ^ (5 - numbers.length)
        if last ≥ lastLimit then none
        else (addNumbers last 0 (numbers.take lastIndex)).map (BitVec.ofNat 32)

/-- `Ipv6Addr::segments`, one of them. -/
def segment (ip : BitVec 128) (i : Nat) : Nat := ip.toNat / 65536 ^ (7 - i) % 65536

def ipv4MappedIpv6 (ip : BitVec 128) : Option (BitVec 32) :=
  if (segment ip 0 = 0 ∧ segment ip 1 = 0 ∧ segment ip 2 = 0 ∧ segment ip 3 = 0 ∧ segment ip 4 = 0) ∧
      segment ip 5 = 0xffff then some (BitVec.ofNat 32 (segment ip 6 * 65536 + segment ip 7))
  else none

/-- The arm of `is_documentation_ip` for an `Ipv4Addr`. -/
def isDocumentationIpv4 (ip : BitVec 32) : Bool :=
  (octet ip 0 == 192 && octet ip 1 == 0 && octet ip 2 == 2) ||
    (octet ip 0 == 198 && octet ip 1 == 51 && octet ip 2 == 100) ||
    (octet ip 0 == 203 && octet ip 1 == 0 && octet ip 2 == 113)

def isDocumentationIp : IpAddr → Bool
  | .v4 ip => isDocumentationIpv4 ip
  | .v6 ip =>
    match ipv4MappedIpv6 ip with
    | some mapped => isDocumentationIpv4 mapped
    | none => segment ip 0 == 0x2001 && segment ip 1 == 0x0db8

/-- `Ipv4Addr::is_private`. -/
def isPrivate (ip : BitVec 32) : Bool :=
  octet ip 0 == 10 || (octet ip 0 == 172 && 16 ≤ octet ip 1 && octet ip 1 ≤ 31) ||
    (octet ip 0 == 192 && octet ip 1 == 168)

/-- The arm of `is_private_like_ip` for an `Ipv4Addr`. -/
def isPrivateLikeIpv4 (ip : BitVec 32) : Bool :=
  octet ip 0 == 127 || isPrivate ip || (octet ip 0 == 169 && octet ip 1 == 254) || ip == 0 ||
    (octet ip 0 == 100 && octet ip 1 &&& 0b11000000 == 0b01000000)

def isPrivateLikeIp : IpAddr → Bool
  | .v4 ip => isPrivateLikeIpv4 ip
  | .v6 ip =>
    match ipv4MappedIpv6 ip with
    | some mapped => isPrivateLikeIpv4 mapped
    | none =>
      ip == 1 || ip == 0 || segment ip 0 &&& 0xfe00 == 0xfc00 || segment ip 0 &&& 0xffc0 == 0xfe80

/-! ## Policies -/

def isPlaceholderHost (host : Str) : Bool :=
  (["example", "example.com", "example.org", "example.net", "placeholder", "changeme", "todo"].map String.toList).any
      (· == host) ||
    ([".example", ".example.com", ".example.org", ".example.net", ".invalid"].map String.toList).any (host.endsWith ·)

def validateHostPolicy (name host : Str) (policy : HostPolicy) : Except StaticWebUrlPolicyError Unit :=
  let normalized := (host.trimMatches fun c => c == '[' || c == ']').toAsciiLowercase
  let parsedIp := IpAddr.parse normalized
  let noncanonicalIpv4 := if parsedIp.isNone then parseNoncanonicalIpv4Literal normalized else none
  if (policy.rejectPrivateIps || policy.rejectPlaceholderHosts) && noncanonicalIpv4.isSome then
    .error (.rejectedHost name host "non-canonical IPv4 host".toList)
  else if policy.rejectLocalhost && (normalized == "localhost".toList || normalized.endsWith ".localhost".toList) then
    .error (.rejectedHost name host "localhost host".toList)
  else if policy.rejectPlaceholderHosts && isPlaceholderHost normalized then
    .error (.rejectedHost name host "placeholder host".toList)
  else if policy.rejectPlaceholderHosts && parsedIp.any isDocumentationIp then
    .error (.rejectedHost name host "documentation IP".toList)
  else if policy.rejectPrivateIps && parsedIp.any isPrivateLikeIp then
    .error (.rejectedHost name host "private or local IP".toList)
  else .ok ()

/-! ## URLs -/

def schemeSeparator : Str := "://".toList

def allowedScheme : PublicUrlKind → Str → Bool
  | .http, scheme => scheme == "http".toList || scheme == "https".toList
  | .webSocket, scheme => scheme == "ws".toList || scheme == "wss".toList

def insecureScheme : PublicUrlKind → Str → Bool
  | .http, scheme => scheme == "http".toList
  | .webSocket, scheme => scheme == "ws".toList

def validatePublicUrlBase (name value : Str) (kind : PublicUrlKind) (env : EnvKind) : Except StaticWebError PublicUrl :=
  let value := value.trim
  if value.isEmpty then .error (.empty name)
  else
    match Str.splitOnceText schemeSeparator value with
    | none => .error (.invalidUrl name)
    | some (scheme, remainder) =>
      let scheme := scheme.toAsciiLowercase
      if !allowedScheme kind scheme || remainder.isEmpty || remainder.startsWith ['/'] ||
        remainder.containsText ['@'] ||
          remainder.containsText ['\\'] || (remainder.any fun ch => isWhitespace ch || isControl ch) ||
          (authorityHost remainder).isNone then .error (.invalidUrl name)
      else if env.isProductionLike && insecureScheme kind scheme then .error (.insecureScheme name scheme)
      else .ok ⟨scheme, remainder⟩

def validatePublicUrl (name value : Str) (kind : PublicUrlKind) (env : EnvKind) : Except StaticWebError PublicUrl :=
  validatePublicUrlBase name value kind env

def validatePublicUrlWithHostPolicy (name value : Str) (kind : PublicUrlKind) (env : EnvKind)
    (hostPolicy : HostPolicy) :
    Except StaticWebUrlPolicyError PublicUrl := do
  let publicUrl ← (validatePublicUrlBase name value kind env).mapError .url
  match authorityHost publicUrl.remainder with
  | none => .error (.url (.invalidUrl name))
  | some host =>
    validateHostPolicy name host hostPolicy
    .ok publicUrl

example : parseNoncanonicalIpv4Literal "0x7f.1".toList = some 0x7f000001#32 := by decide

end WorldInfra.StaticWeb
