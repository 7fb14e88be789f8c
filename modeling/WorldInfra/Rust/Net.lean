/-
Internet addresses and their texts: the parser behind `str::parse` of `IpAddr` and `SocketAddr`.
Every reader either reads or leaves the text as it was, so alternatives need no backtracking.
-/
import WorldInfra.Rust.Num

namespace WorldInfra.Rust

inductive IpAddr where
  | v4 (addr : BitVec 32)
  | v6 (addr : BitVec 128)
  deriving DecidableEq, Repr

def IpAddr.bits : IpAddr → Nat
  | .v4 _ => 32
  | .v6 _ => 128

inductive SocketAddr where
  | v4 (ip : BitVec 32) (port : Nat)
  | v6 (ip : BitVec 128) (port scopeId : Nat)
  deriving DecidableEq, Repr

def SocketAddr.ip : SocketAddr → IpAddr
  | .v4 ip _ => .v4 ip
  | .v6 ip _ _ => .v6 ip

namespace Net

/-- A reader of the rest of a text. -/
abbrev Reader := StateT Str Option

/-- `char::to_digit`. -/
def toDigit (radix : Nat) (c : Char) : Option Nat :=
  let value :=
    if c.isDigit then c.toNat - '0'.toNat
    else if c.isLower then c.toNat - 'a'.toNat + 10
    else if c.isUpper then c.toNat - 'A'.toNat + 10
    else radix
  if value < radix then some value else none

def readGivenChar (target : Char) : Reader Unit
  | [] => none
  | c :: s => if c = target then some ((), s) else none

/-- A number of at most `maxDigits` digits, if that is given, and at most `bound`. -/
def readNumber (radix : Nat) (maxDigits : Option Nat) (allowZeroPrefix : Bool) (bound : Nat) : Reader Nat := fun s =>
  let digits := s.takeWhile fun c => (toDigit radix c).isSome
  let value := digits.foldl (fun n c => n * radix + (toDigit radix c).getD 0) 0
  if digits.isEmpty || maxDigits.any (fun m => digits.length > m) then none
  else if !allowZeroPrefix && digits.head? == some '0' && digits.length > 1 then none
  else if value ≤ bound then some (value, s.drop digits.length)
  else none

/-- What stands at an index of a sequence, after a separator unless it is the first. -/
def readSeparator {α : Type} (sep : Char) (first : Bool) (inner : Reader α) : Reader α := do
  unless first do readGivenChar sep
  inner

def readOctet (first : Bool) : Reader Nat := readSeparator '.' first (readNumber 10 (some 3) false 255)

def readIpv4Addr : Reader (BitVec 32) := do
  let a ← readOctet true
  let b ← readOctet false
  let c ← readOctet false
  let d ← readOctet false
  return BitVec.ofNat 32 (((a * 256 + b) * 256 + c) * 256 + d)

/-- Up to `limit` groups, the last two of them perhaps as an IPv4 address: the groups read, and
whether they end in one. -/
def readGroups (first : Bool) : Nat → Str → (List Nat × Bool) × Str
  | 0, s => (([], false), s)
  | limit + 1, s =>
    match if 0 < limit then readSeparator ':' first readIpv4Addr s else none with
    | some (v4, s) => (([v4.toNat / 65536, v4.toNat % 65536], true), s)
    | none =>
      match readSeparator ':' first (readNumber 16 (some 4) true 65535) s with
      | none => (([], false), s)
      | some (group, s) =>
        let ((groups, v4), s) := readGroups false limit s
        ((group :: groups, v4), s)

def ofGroups (groups : List Nat) : BitVec 128 := BitVec.ofNat 128 (groups.foldl (fun n g => n * 65536 + g) 0)

def readIpv6Addr : Reader (BitVec 128) := do
  let (head, v4) ← fun s => some (readGroups true 8 s)
  if head.length = 8 then return ofGroups head
  if v4 then failure
  readGivenChar ':'
  readGivenChar ':'
  let (tail, _) ← fun s => some (readGroups true (8 - (head.length + 1)) s)
  return ofGroups (head ++ List.replicate (8 - head.length - tail.length) 0 ++ tail)

def readIpAddr : Reader IpAddr := (IpAddr.v4 <$> readIpv4Addr) <|> (IpAddr.v6 <$> readIpv6Addr)

def readPort : Reader Nat := do
  readGivenChar ':'
  readNumber 10 none true 65535

def readScopeId : Reader Nat := do
  readGivenChar '%'
  readNumber 10 none true (2 ^ 32 - 1)

def readSocketAddrV4 : Reader SocketAddr := do
  let ip ← readIpv4Addr
  let port ← readPort
  return .v4 ip port

def readSocketAddrV6 : Reader SocketAddr := do
  readGivenChar '['
  let ip ← readIpv6Addr
  let scopeId ← readScopeId <|> pure 0
  readGivenChar ']'
  let port ← readPort
  return .v6 ip port scopeId

/-- The reader has to read the whole text. -/
def parseWith {α : Type} (reader : Reader α) (s : Str) : Option α :=
  match reader s with
  | some (a, []) => some a
  | _ => none

end Net

def IpAddr.parse (s : Str) : Option IpAddr := Net.parseWith Net.readIpAddr s

def SocketAddr.parse (s : Str) : Option SocketAddr :=
  Net.parseWith (Net.readSocketAddrV4 <|> Net.readSocketAddrV6) s

example : IpAddr.parse "::ffff:192.0.2.1".toList = some (.v6 0xffffc0000201) := by decide

example : IpAddr.parse "192.0.02.1".toList = none := by decide

end WorldInfra.Rust
