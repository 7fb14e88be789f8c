/-
auth-http-core: the refresh cookie, its validation and the two header values built from it.
-/
import WorldInfra.Rust.Pattern
import WorldInfra.Rust.Num
import WorldInfra.Rust.Time

namespace WorldInfra.AuthHttp

open WorldInfra.Rust

inductive AuthHttpError where
  | invalidCookieName
  | invalidCookieValue
  | invalidCookieDomain
  | invalidCookiePath
  | invalidHostPrefixCookie
  | untrustedOrigin
  deriving DecidableEq, Repr

inductive SameSite where
  | lax
  | strict
  | none
  deriving DecidableEq, Repr

def SameSite.asStr : SameSite → Str
  | lax => "Lax".toList
  | strict => "Strict".toList
  | none => "None".toList

structure RefreshCookieConfig where
  name : Str
  path : Str
  domain : Option Str
  secure : Bool
  httpOnly : Bool
  sameSite : SameSite
  maxAge : Duration

/-- `as_secs`, one more for a rest, saturating in 64 bits, and at least one. -/
def durationSecs (duration : Duration) : Nat :=
  max (min (duration.asSecs + if duration.subsecNanos ≠ 0 then 1 else 0) (2 ^ 64 - 1)) 1

/-! ## Validation

The tests look at the bytes of the texts. A character outside ASCII consists of bytes outside ASCII,
and such bytes fail every test, so they are tests of characters here. -/

def cookieNameChar (c : Char) : Bool :=
  c == '!' || ('#' ≤ c && c ≤ '\x27') || c == '*' || c == '+' || c == '-' || c == '.' || ('0' ≤ c && c ≤ '9') ||
    ('A' ≤ c && c ≤ 'Z') || c == '^' || c == '_' || c == '\x60' || ('a' ≤ c && c ≤ 'z') || c == '|' || c == '~'

def validateCookieName (name : Str) : Except AuthHttpError Unit :=
  if name.isEmpty || name.len > 128 || name.any (!cookieNameChar ·) then .error .invalidCookieName else .ok ()

def validateCookieValue (value : Str) : Except AuthHttpError Unit :=
  if value.isEmpty || value.any fun c => !isAscii c || isAsciiControl c || isAsciiWhitespace c || c == '\x22' ||
      c == ';' || c == ',' || c == '\\' then .error .invalidCookieValue
  else .ok ()

def validateCookiePath (path : Str) : Except AuthHttpError Unit :=
  if !path.startsWith ['/'] || path.any fun c => !isAscii c || isAsciiControl c || c == ';' then
    .error .invalidCookiePath
  else .ok ()

def validCookieDomainLabel (label : Str) : Bool :=
  !label.isEmpty && label.len ≤ 63 && !label.startsWith ['-'] && !label.endsWith ['-'] &&
    label.all fun c => c.isAlphanum || c == '-'

def validateCookieDomain (domain : Str) : Except AuthHttpError Unit :=
  if domain.trim ≠ domain then .error .invalidCookieDomain
  else if domain.isEmpty || domain.startsWith ['.'] || domain.endsWith ['.'] || domain.containsText "..".toList ||
      !(domain.split '.').all validCookieDomainLabel then .error .invalidCookieDomain
  else .ok ()

def hostPrefixText : Str := "__Host-".toList

namespace RefreshCookieConfig

def validate (self : RefreshCookieConfig) : Except AuthHttpError Unit := do
  validateCookieName self.name
  validateCookiePath self.path
  (match self.domain with
    | some domain => validateCookieDomain domain
    | none => .ok ())
  if self.name.startsWith hostPrefixText && (!self.secure || self.path != "/".toList || self.domain.isSome) then
    .error .invalidHostPrefixCookie
  else if self.sameSite = .none && !self.secure then .error .invalidCookieValue
  else .ok ()

def hostPrefix (name : Str) (maxAge : Duration) : Except AuthHttpError RefreshCookieConfig :=
  if !name.startsWith hostPrefixText then .error .invalidHostPrefixCookie
  else do
    let config : RefreshCookieConfig := ⟨name, "/".toList, none, true, true, .lax, maxAge⟩
    config.validate
    .ok config

/-- The attributes pushed to both header values. -/
def pushAttributes (self : RefreshCookieConfig) (cookie : Str) : Str :=
  let cookie :=
    match self.domain with
    | some domain => cookie ++ "; Domain=".toList ++ domain
    | none => cookie
  let cookie := if self.httpOnly then cookie ++ "; HttpOnly".toList else cookie
  let cookie := if self.secure then cookie ++ "; Secure".toList else cookie
  cookie ++ "; SameSite=".toList ++ self.sameSite.asStr

def buildSetCookie (self : RefreshCookieConfig) (value : Str) : Except AuthHttpError Str := do
  self.validate
  validateCookieValue value
  let maxAge := durationSecs self.maxAge
  .ok (self.pushAttributes
    (self.name ++ "=".toList ++ value ++ "; Path=".toList ++ self.path ++ "; Max-Age=".toList ++ decimal maxAge))

def buildClearCookie (self : RefreshCookieConfig) : Except AuthHttpError Str := do
  self.validate
  .ok (self.pushAttributes
    (self.name ++ "=; Path=".toList ++ self.path ++ "; Max-Age=0; Expires=Thu, 01 Jan 1970 00:00:00 GMT".toList))

end RefreshCookieConfig

end WorldInfra.AuthHttp
