/-
RFC 7239, section 6: what a `for` parameter names. A node is a name and perhaps a port; the name is an
IPv4 address, an IPv6 address in brackets, both as RFC 3986 writes them, or a word that stands for none.
-/
import WorldInfra.Rust.Ipv4Text

namespace WorldInfra.Rfc

open WorldInfra.Rust

/-! ## IPv6 addresses -/

/-- The value of a `HEXDIG`. -/
def hexDigit (c : Char) : Nat :=
  if c.isDigit then c.toNat - 48 else if c.isLower then c.toNat - 87 else c.toNat - 55

/-- `h16`. -/
structure H16 where
  digits : Str
  ne : digits ≠ []
  length_le : digits.length ≤ 4
  hex : digits.all isAsciiHexdigit = true

def H16.value (h : H16) : Nat := Nat.ofDigits 16 (h.digits.map hexDigit).reverse

/-- What stands between colons: pieces, the last two of them perhaps as an IPv4 address. -/
structure Ipv6Pieces where
  groups : List H16
  v4 : Option (BitVec 32)

namespace Ipv6Pieces

def length (p : Ipv6Pieces) : Nat := p.groups.length + if p.v4.isSome then 2 else 0

def texts (p : Ipv6Pieces) : List Str := p.groups.map H16.digits ++ (p.v4.map dottedQuad).toList

def values (p : Ipv6Pieces) : List Nat :=
  p.groups.map H16.value ++ p.v4.elim [] fun a => [a.toNat / 2 ^ 16, a.toNat % 2 ^ 16]

end Ipv6Pieces

/-- `IPv6address`: eight pieces, or fewer around a gap, which no IPv4 address stands before. -/
inductive Ipv6Address where
  | full (pieces : Ipv6Pieces) (h : pieces.length = 8)
  | gap (before : List H16) (after : Ipv6Pieces) (h : before.length + after.length ≤ 7)

namespace Ipv6Address

def text : Ipv6Address → Str
  | full pieces _ => [':'].intercalate pieces.texts
  | gap before after _ =>
    [':'].intercalate (before.map H16.digits) ++ ':' :: ':' :: [':'].intercalate after.texts

/-- The eight pieces; the gap is of zeros. -/
def values : Ipv6Address → List Nat
  | full pieces _ => pieces.values
  | gap before after _ =>
    before.map H16.value ++ List.replicate (8 - before.length - after.length) 0 ++ after.values

def address (a : Ipv6Address) : BitVec 128 := BitVec.ofNat 128 (Nat.ofDigits (2 ^ 16) a.values.reverse)

end Ipv6Address

/-! ## Nodes -/

/-- What stands behind the underscore of an `obfnode` or an `obfport`. -/
structure Obfuscated where
  word : Str
  ne : word ≠ []
  chars : word.all (fun c => c.isAlphanum || c == '.' || c == '_' || c == '-') = true

def Obfuscated.text (o : Obfuscated) : Str := '_' :: o.word

/-- `port`. -/
structure Port where
  digits : Str
  ne : digits ≠ []
  length_le : digits.length ≤ 5
  digit : ∀ c ∈ digits, c.isDigit = true

inductive NodeName where
  | v4 (addr : BitVec 32)
  | v6 (addr : Ipv6Address)
  | unknown (word : Str) (h : word.eqIgnoreAsciiCase "unknown".toList = true)
  | obfuscated (name : Obfuscated)

inductive NodePort where
  | port (port : Port)
  | obfuscated (name : Obfuscated)

/-- `node`. -/
structure Node where
  name : NodeName
  port : Option NodePort

def NodeName.text : NodeName → Str
  | v4 addr => dottedQuad addr
  | v6 addr => '[' :: (addr.text ++ [']'])
  | unknown word _ => word
  | obfuscated name => name.text

def NodePort.text : NodePort → Str
  | port p => p.digits
  | obfuscated name => name.text

def Node.text (node : Node) : Str := node.name.text ++ node.port.elim [] fun port => ':' :: port.text

/-- The address a node names, if it names one. -/
def Node.address (node : Node) : Option IpAddr :=
  match node.name with
  | .v4 addr => some (.v4 addr)
  | .v6 addr => some (.v6 addr.address)
  | .unknown .. => none
  | .obfuscated _ => none

/-- The text is a node that names the address. -/
def NamesAddress (s : Str) (addr : IpAddr) : Prop := ∃ node : Node, node.text = s ∧ node.address = some addr

end WorldInfra.Rfc
