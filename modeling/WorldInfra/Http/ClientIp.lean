/-
http-primitives: trusted proxy networks and the client address behind them. The header map of the
`http` crate is known by the values it iterates over for a name, and by the text of a value, where
it has one.
-/
import WorldInfra.Rust.Net

namespace WorldInfra.Http

open WorldInfra.Rust

inductive HttpPrimitiveError where
  | empty
  | invalidRequestId
  | invalidOrigin
  | invalidCidr
  | invalidIp
  deriving DecidableEq, Repr

/-! ## Networks -/

/-- `Cidr`: the first `prefixLen` bits of an address. -/
structure Cidr where
  addr : IpAddr
  prefixLen : Nat
  le : prefixLen ≤ addr.bits
  deriving DecidableEq

namespace Cidr

def singleIp (addr : IpAddr) : Cidr := ⟨addr, addr.bits, le_refl _⟩

def parse (value : Str) : Except HttpPrimitiveError Cidr :=
  match value.trim.splitOnce '/' with
  | none => .error .invalidCidr
  | some (addr, prefixLen) =>
    match IpAddr.parse addr with
    | none => .error .invalidIp
    | some addr =>
      match parseU8 prefixLen with
      | .error _ => .error .invalidCidr
      | .ok prefixLen =>
        if h : prefixLen.toNat ≤ addr.bits then .ok ⟨addr, prefixLen.toNat, h⟩ else .error .invalidCidr

def contains (self : Cidr) (addr : IpAddr) : Bool :=
  match self.addr, addr with
  | .v4 network, .v4 addr =>
    let mask := if self.prefixLen = 0 then 0 else BitVec.allOnes 32 <<< (32 - self.prefixLen)
    network &&& mask == addr &&& mask
  | .v6 network, .v6 addr =>
    let mask := if self.prefixLen = 0 then 0 else BitVec.allOnes 128 <<< (128 - self.prefixLen)
    network &&& mask == addr &&& mask
  | _, _ => false

end Cidr

structure TrustedProxyConfig where
  trustedProxies : List Cidr

def TrustedProxyConfig.trustsPeer (self : TrustedProxyConfig) (peer : IpAddr) : Bool :=
  self.trustedProxies.any fun proxy => proxy.contains peer

def isTrustedProxy (addr : IpAddr) (trustedProxies : List Cidr) : Bool :=
  trustedProxies.any fun proxy => proxy.contains addr

def parseTrustedProxies (value : Str) : Except HttpPrimitiveError (List Cidr) :=
  (((value.split ',').map Str.trim).filter fun item => !item.isEmpty).mapM Cidr.parse

/-! ## Entries -/

inductive HeaderClientIp where
  | missing
  | invalid
  | found (addr : IpAddr)
  deriving DecidableEq, Repr

def parseIpToken (value : Str) : Option IpAddr :=
  let value := value.trim
  if value.head? == some '"' || value.getLast? == some '"' then none
  else if value.head? == some '[' then do
    let (host, tail) ← value.splitOnce ']'
    let host ← Str.stripPrefix '[' host
    if host.isEmpty || host.head? == some '[' then failure
    unless tail.isEmpty do
      let port ← Str.stripPrefix ':' tail
      let _ ← (parseU16 port).toOption
    IpAddr.parse host
  else IpAddr.parse value <|> (SocketAddr.parse value).map SocketAddr.ip

def unquoteForwardedValue (value : Str) : Option Str :=
  match Str.stripPrefix '"' value with
  | some value => Str.stripSuffix '"' value
  | none => if value.getLast? == some '"' then none else some value

/-- The loop of `parse_forwarded_entry` over the parts of an entry. -/
def parseForwardedParts : List Str → HeaderClientIp
  | [] => .invalid
  | part :: parts =>
    match part.trim.splitOnce '=' with
    | none => parseForwardedParts parts
    | some (name, raw) =>
      -- the first `for` decides; a later one of the same entry is not looked at
      if name.eqIgnoreAsciiCase "for".toList then
        match unquoteForwardedValue raw.trim with
        | none => .invalid
        | some raw => ((parseIpToken raw).map .found).getD .invalid
      else parseForwardedParts parts

def parseForwardedEntry (entry : Str) : HeaderClientIp := parseForwardedParts (entry.split ';')

/-! ## Headers -/

/-- The entries of a header that are not blank, from the right. -/
def entriesFromRight (value : Str) : List Str :=
  ((value.split ',').reverse.map Str.trim).filter fun entry => !entry.isEmpty

/-- The loop of both header parsers: the first entry that is no trusted proxy decides. -/
def scanEntries (parseEntry : Str → Option IpAddr) (trustedProxies : List Cidr) (sawEntry : Bool) :
    List Str → HeaderClientIp
  | [] => if sawEntry then .invalid else .missing
  | entry :: entries =>
    match parseEntry entry with
    -- an entry that does not parse hides what is to its left, like an untrusted one
    | none => .invalid
    | some addr =>
      if !isTrustedProxy addr trustedProxies then .found addr
      else scanEntries parseEntry trustedProxies true entries

/-- The address of a `Forwarded` entry; an entry without one is invalid. -/
def forwardedAddr (entry : Str) : Option IpAddr :=
  match parseForwardedEntry entry with
  | .found addr => some addr
  | .invalid | .missing => none

def parseForwardedFor (value : Option Str) (trustedProxies : List Cidr) : HeaderClientIp :=
  match value with
  | none => .missing
  | some value => scanEntries forwardedAddr trustedProxies false (entriesFromRight value)

def parseXForwardedFor (value : Option Str) (trustedProxies : List Cidr) : HeaderClientIp :=
  match value with
  | none => .missing
  | some value => scanEntries parseIpToken trustedProxies false (entriesFromRight value)

def parseSingleIpHeader (value : Option Str) : HeaderClientIp :=
  match value with
  | none => .missing
  | some value => ((parseIpToken value).map .found).getD .invalid

/-! ## The client -/

def extractClientIp (peer : IpAddr) (trustedProxies : List Cidr) (forwarded xForwardedFor xRealIp : Option Str) :
    IpAddr :=
  if !trustedProxies.any (fun proxy => proxy.contains peer) then peer
  else
    match parseForwardedFor forwarded trustedProxies with
    | .found addr => addr
    | .invalid => peer
    | .missing =>
      match parseXForwardedFor xForwardedFor trustedProxies with
      | .found addr => addr
      | .invalid => peer
      | .missing =>
        match parseSingleIpHeader xRealIp with
        | .found addr => addr
        | .invalid | .missing => peer

def clientIpFromHeaders (peer : IpAddr) (config : TrustedProxyConfig) (forwarded xForwardedFor xRealIp : Option Str) :
    IpAddr := extractClientIp peer config.trustedProxies forwarded xForwardedFor xRealIp

/-- `http::HeaderMap`, by the values of `get_all`. -/
structure HeaderMap (V : Type) where
  getAll : Str → List V

section

variable {V : Type} (toStr : V → Option Str)

def invalidHeaderValue : Str := "__invalid_header_value__".toList

def joinedHeaderValues (headers : HeaderMap V) (name : Str) : Option Str :=
  match headers.getAll name with
  | [] => none
  | first :: values =>
    some (values.foldl (fun joined value => joined ++ ',' :: (toStr value).getD invalidHeaderValue)
      ((toStr first).getD invalidHeaderValue))

def clientIpFromHeaderMap (headers : HeaderMap V) (peer : IpAddr) (config : TrustedProxyConfig) : IpAddr :=
  let forwarded := joinedHeaderValues toStr headers "forwarded".toList
  let xForwardedFor := joinedHeaderValues toStr headers "x-forwarded-for".toList
  let xRealIp := joinedHeaderValues toStr headers "x-real-ip".toList
  clientIpFromHeaders peer config forwarded xForwardedFor xRealIp

end

end WorldInfra.Http
