/-
auth-http-core: trusted origins. The normal form of an origin is the lower case of its trimmed text,
and whether a text has one only depends on that lower case, so the policy compares origins up to
case and outer white space and nothing else.
-/
import WorldInfra.AuthHttp.Cookie
import WorldInfra.Rust.Case

namespace WorldInfra.AuthHttp

open WorldInfra.Rust

def schemeSeparator : Str := "://".toList

/-- `split_host_port`: host, port if there is one, and whether the host stood in brackets. -/
def splitHostPort (authority : Str) : Except AuthHttpError (Str × Option Str × Bool) :=
  match Str.stripPrefix '[' authority with
  | some rest =>
    match rest.splitOnce ']' with
    | none => .error .untrustedOrigin
    | some (host, after) =>
      if after.isEmpty then .ok (host, none, true)
      else
        match Str.stripPrefix ':' after with
        | none => .error .untrustedOrigin
        | some port => .ok (host, some port, true)
  | none =>
    if authority.containsText [']'] || authority.containsText ['['] then .error .untrustedOrigin
    else if authority.count ':' > 1 then .error .untrustedOrigin
    else
      match authority.rsplitOnce ':' with
      | some (host, port) => .ok (host, some port, false)
      | none => .ok (authority, none, false)

def validatePort (port : Str) : Except AuthHttpError Unit :=
  if port.isEmpty || port.len > 5 || !port.all Char.isDigit then .error .untrustedOrigin
  else
    match parseU16 port with
    | .error _ => .error .untrustedOrigin
    | .ok parsed => if parsed = 0 then .error .untrustedOrigin else .ok ()

def invalidHostLabel (label : Str) : Bool :=
  label.isEmpty || label.len > 63 || label.startsWith ['-'] || label.endsWith ['-'] ||
    !label.all fun c => c.isAlphanum || c == '-'

def validateHost (host : Str) : Except AuthHttpError Unit :=
  if host.isEmpty then .error .untrustedOrigin
  else if (IpAddr.parse host).isSome then .ok ()
  else if host.containsText [':'] then .error .untrustedOrigin
  else if host.eqIgnoreAsciiCase "localhost".toList then .ok ()
  else if host.startsWith ['.'] || host.endsWith ['.'] || host.containsText "..".toList then .error .untrustedOrigin
  else if (host.split '.').any invalidHostLabel then .error .untrustedOrigin
  else .ok ()

def validateAuthority (authority : Str) : Except AuthHttpError Unit := do
  let (host, port, bracketed) ← splitHostPort authority
  (match port with
    | some port => validatePort port
    | none => .ok ())
  if bracketed then
    match IpAddr.parse host with
    | some (.v6 _) => .ok ()
    | _ => .error .untrustedOrigin
  else validateHost host

/-- The characters `normalize_origin` refuses first behind the scheme. -/
def endsOrigin (c : Char) : Bool := c == '/' || c == '?' || c == '#' || c == '\\'

/-- `normalize_origin` of a trimmed text. -/
def normalizeTrimmed (origin : Str) : Except AuthHttpError Str :=
  if origin.isEmpty || origin.any isAsciiControl then .error .untrustedOrigin
  else
    match Str.splitOnceText schemeSeparator origin with
    | none => .error .untrustedOrigin
    | some (scheme, rest) =>
      let scheme := scheme.toAsciiLowercase
      if !(scheme == "http".toList || scheme == "https".toList) || rest.isEmpty || rest.any endsOrigin ||
          rest.containsText ['@'] || rest.any isAsciiWhitespace then .error .untrustedOrigin
      else do
        validateAuthority rest
        .ok (scheme ++ schemeSeparator ++ rest.toAsciiLowercase)

def normalizeOrigin (origin : Str) : Except AuthHttpError Str := normalizeTrimmed origin.trim

def endsAuthority (c : Char) : Bool := c == '/' || c == '?' || c == '#'

def originFromUrl (url : Str) : Except AuthHttpError Str :=
  match Str.splitOnceText schemeSeparator url.trim with
  | none => .error .untrustedOrigin
  | some (scheme, rest) =>
    let authority := rest.firstPart endsAuthority
    if authority.isEmpty then .error .untrustedOrigin else normalizeOrigin (scheme ++ schemeSeparator ++ authority)

structure TrustedOriginPolicy where
  allowedOrigins : List Str
  requireOriginOrReferer : Bool
  deriving DecidableEq

namespace TrustedOriginPolicy

def new (allowedOrigins : List Str) : Except AuthHttpError TrustedOriginPolicy := do
  let allowed ← allowedOrigins.mapM normalizeOrigin
  .ok ⟨allowed, true⟩

def allowMissingOriginOrReferer (self : TrustedOriginPolicy) : TrustedOriginPolicy :=
  { self with requireOriginOrReferer := false }

def isTrusted (self : TrustedOriginPolicy) (origin referer : Option Str) : Bool :=
  match origin, referer with
  | some origin, _ => (normalizeOrigin origin).toOption.any fun origin => self.allowedOrigins.any (· == origin)
  | none, some referer => (originFromUrl referer).toOption.any fun origin => self.allowedOrigins.any (· == origin)
  | none, none => !self.requireOriginOrReferer

def requireTrusted (self : TrustedOriginPolicy) (origin referer : Option Str) : Except AuthHttpError Unit :=
  if self.isTrusted origin referer then .ok () else .error .untrustedOrigin

end TrustedOriginPolicy

/-! ## Case -/

theorem splitHostPort_lower (authority : Str) : splitHostPort authority.toAsciiLowercase =
    (splitHostPort authority).map fun r => (r.1.toAsciiLowercase, r.2.1.map Str.toAsciiLowercase, r.2.2) := by
  unfold splitHostPort
  rw [Str.stripPrefix_lower (by decide)]
  cases Str.stripPrefix '[' authority with
  | some rest =>
    simp only [Option.map_some]
    rw [Str.splitOnce_lower (by decide)]
    rcases rest.splitOnce ']' with _ | ⟨host, after⟩
    · rfl
    · simp only [Option.map_some, Str.isEmpty_lower]
      split
      · rfl
      · rw [Str.stripPrefix_lower (by decide)]
        cases Str.stripPrefix ':' after <;> rfl
  | none =>
    simp only [Option.map_none]
    rw [Str.containsText_lower (by decide), Str.containsText_lower (by decide), Str.count_lower (by decide),
      Str.rsplitOnce_lower (by decide)]
    split
    · rfl
    · split
      · rfl
      · rcases authority.rsplitOnce ':' with _ | ⟨host, port⟩
        · rfl
        · rfl

theorem validatePort_lower (port : Str) : validatePort port.toAsciiLowercase = validatePort port := by
  unfold validatePort
  rw [Str.isEmpty_lower, Str.len_lower, Str.all_lower isDigit_toLower]
  split
  · rfl
  · rename_i h
    simp only [Bool.or_eq_true, not_or, Bool.not_eq_true', Bool.not_eq_false] at h
    rw [Str.lower_of_digits h.2]

theorem invalidHostLabel_lower (label : Str) : invalidHostLabel label.toAsciiLowercase = invalidHostLabel label := by
  unfold invalidHostLabel
  rw [Str.isEmpty_lower, Str.len_lower, Str.startsWith_lower (by decide), Str.endsWith_lower (by decide), Str.all_lower]
  intro c
  rw [isAlphanum_toLower, Bool.eq_iff_iff]
  simp only [Bool.or_eq_true, beq_iff_eq, toLower_eq_iff (d := '-') (by decide)]

theorem validateHost_lower (host : Str) : validateHost host.toAsciiLowercase = validateHost host := by
  unfold validateHost
  have hlabels : (host.toAsciiLowercase.split '.').any invalidHostLabel = (host.split '.').any invalidHostLabel := by
    rw [Str.split_lower (by decide), List.any_map]
    congr 1
    funext label
    exact invalidHostLabel_lower label
  rw [Str.isEmpty_lower, IpAddr.parse_lower, Str.containsText_lower (by decide), Str.eqIgnoreAsciiCase_lower,
    Str.startsWith_lower (by decide), Str.endsWith_lower (by decide), Str.containsText_lower (by decide), hlabels]

theorem validateAuthority_lower (authority : Str) :
    validateAuthority authority.toAsciiLowercase = validateAuthority authority := by
  unfold validateAuthority
  rw [splitHostPort_lower]
  rcases splitHostPort authority with e | ⟨host, port, bracketed⟩
  · rfl
  · show ((match port.map Str.toAsciiLowercase with
        | some port => validatePort port
        | none => .ok ()) >>= fun _ => if bracketed then _ else validateHost host.toAsciiLowercase) = _
    rw [IpAddr.parse_lower, validateHost_lower]
    cases port with
    | none => rfl
    | some port =>
      simp only [Option.map_some, validatePort_lower]
      rfl

theorem endsOrigin_toLower (c : Char) : endsOrigin c.toLower = endsOrigin c := by
  rw [Bool.eq_iff_iff]
  simp only [endsOrigin, Bool.or_eq_true, beq_iff_eq, toLower_eq_iff (d := '/') (by decide),
    toLower_eq_iff (d := '?') (by decide), toLower_eq_iff (d := '#') (by decide),
    toLower_eq_iff (d := '\\') (by decide)]

theorem normalizeTrimmed_lower (origin : Str) : normalizeTrimmed origin.toAsciiLowercase = normalizeTrimmed origin := by
  unfold normalizeTrimmed
  rw [Str.isEmpty_lower, Str.any_lower isAsciiControl_toLower, Str.splitOnceText_lower (by decide)]
  split
  · rfl
  · rcases Str.splitOnceText schemeSeparator origin with _ | ⟨scheme, rest⟩
    · rfl
    · simp only [Option.map_some, Str.toAsciiLowercase_idem, Str.isEmpty_lower, Str.any_lower endsOrigin_toLower,
        Str.containsText_lower (p := ['@']) (by decide), Str.any_lower isAsciiWhitespace_toLower,
        validateAuthority_lower]

end WorldInfra.AuthHttp
