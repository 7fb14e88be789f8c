/-
auth-primitives: the bearer credential of an `Authorization` header. The header is one scheme, white
space, and a token of the bearer-token characters; a token behind the scheme is read back as it stands.
-/
import WorldInfra.Rust.Pattern
import WorldInfra.Rust.Utf8

namespace WorldInfra.Auth

open WorldInfra.Rust WorldInfra.Rust.Str

inductive AuthPrimitiveError where
  | empty (field : Str)
  | invalid (field : Str)
  | invalidSessionVersion
  | unknownTokenType (tokenType : Str)
  deriving DecidableEq, Repr

structure BearerCredential where
  token : Str
  deriving DecidableEq, Repr

def isBearerTokenByte (byte : UInt8) : Bool :=
  (48 ≤ byte && byte ≤ 57) || (65 ≤ byte && byte ≤ 90) || (97 ≤ byte && byte ≤ 122) ||
    byte == 45 || byte == 46 || byte == 95 || byte == 126 || byte == 43 || byte == 47 || byte == 61

/-- What `parse_bearer_authorization` refuses in a token that is not empty. -/
def unsafeToken (token : Str) : Bool :=
  (token.any fun ch => isControl ch || isWhitespace ch) || !(Utf8.encode token).all isBearerTokenByte

def authorizationField : Str := "authorization".toList

def parseBearerAuthorization (authorization : Option Str) : Except AuthPrimitiveError BearerCredential :=
  match authorization with
  | none => .error (.empty authorizationField)
  | some header =>
    if header.any isControl then .error (.invalid authorizationField)
    else
      let header := header.trim
      if header.isEmpty then .error (.empty authorizationField)
      else
        let parts := header.splitn2 isWhitespace
        let scheme := parts.1
        let token := Str.trim (parts.2.getD [])
        if !scheme.eqIgnoreAsciiCase "bearer".toList || token.isEmpty then .error (.invalid authorizationField)
        else if unsafeToken token then .error (.invalid authorizationField)
        else .ok ⟨token⟩

/-- The scheme and the space before a token. -/
def bearerPrefix : Str := "Bearer ".toList

/-! ## Tokens -/

theorem not_whitespace_of_safe {token : Str} (h : unsafeToken token = false) : ∀ c ∈ token, isWhitespace c = false := by
  intro c hc
  have hany := (Bool.or_eq_false_iff.1 h).1
  have hcc := List.any_eq_false.1 hany c hc
  exact (Bool.or_eq_false_iff.1 (Bool.not_eq_true _ ▸ hcc)).2

theorem unsafe_of_control {token : Str} (h : token.any isControl = true) : unsafeToken token = true := by
  obtain ⟨c, hc, hcc⟩ := List.any_eq_true.1 h
  have hany : (token.any fun ch => isControl ch || isWhitespace ch) = true :=
    List.any_eq_true.2 ⟨c, hc, by rw [hcc, Bool.true_or]⟩
  rw [unsafeToken, hany, Bool.true_or]

/-! ## Headers -/

/-- An accepted header has no control character, a safe token that is not empty, and white space inside
its trim. -/
theorem parseBearerAuthorization_ok {header : Str} {credential : BearerCredential}
    (h : parseBearerAuthorization (some header) = .ok credential) :
    header.any isControl = false ∧ credential.token ≠ [] ∧ unsafeToken credential.token = false ∧
      ∃ c ∈ header.trim, isWhitespace c = true := by
  unfold parseBearerAuthorization at h
  simp only at h
  split at h
  · cases h
  · next hctl =>
    split at h
    · cases h
    · split at h
      · cases h
      · next hshape =>
        split at h
        · cases h
        · next hsafe =>
          cases h
          rw [Bool.or_eq_true, not_or] at hshape
          refine ⟨eq_false_of_ne_true hctl, fun hnil => hshape.2 (List.isEmpty_iff.2 hnil),
            eq_false_of_ne_true hsafe, ?_⟩
          -- without white space there is no second part, and the token is empty
          by_contra hws
          have hall : ∀ c ∈ header.trim, isWhitespace c = false := by
            intro c hc
            exact eq_false_of_ne_true fun hcc => hws ⟨c, hc, hcc⟩
          apply hshape.2
          rw [splitn2_eq_self hall]
          rfl

/-- A trimmed text behind the scheme and a space is the token of the header. -/
theorem parseBearerAuthorization_bearer {token : Str} (htrim : token.trim = token) (hne : token ≠ []) :
    parseBearerAuthorization (some (bearerPrefix ++ token)) =
      if unsafeToken token then .error (.invalid authorizationField) else .ok ⟨token⟩ := by
  have hctl : (bearerPrefix ++ token).any isControl = token.any isControl := by
    rw [List.any_append]
    rfl
  have hheader : Str.trim (bearerPrefix ++ token) = bearerPrefix ++ token :=
    trim_cons_append (by rfl) "earer ".toList htrim hne
  have hspace : "Bearer".toList.any isWhitespace = false := by rfl
  have hparts : Str.splitn2 isWhitespace (bearerPrefix ++ token) = ("Bearer".toList, some token) := by
    refine splitn2_append (c := ' ') (by rfl) (s := "Bearer".toList) ?_
    intro d hd
    exact Bool.eq_false_iff.2 (List.any_eq_false.1 hspace d hd)
  have hempty : token.isEmpty = false := List.isEmpty_eq_false_iff.2 hne
  have hscheme : (!Str.eqIgnoreAsciiCase "Bearer".toList "bearer".toList) = false := by decide
  unfold parseBearerAuthorization
  simp only [hctl, hheader, hparts, Option.getD_some, htrim, hempty, hscheme, Bool.or_self]
  cases hc : token.any isControl with
  | true => rw [if_pos rfl, unsafe_of_control hc, if_pos rfl]
  | false => rfl

/-- An accepted credential, written behind the scheme, is accepted again. -/
theorem parseBearerAuthorization_token {header : Str} {credential : BearerCredential}
    (h : parseBearerAuthorization (some header) = .ok credential) :
    parseBearerAuthorization (some (bearerPrefix ++ credential.token)) = .ok credential := by
  obtain ⟨-, hne, hsafe, -⟩ := parseBearerAuthorization_ok h
  rw [parseBearerAuthorization_bearer (trim_eq_self (not_whitespace_of_safe hsafe)) hne, hsafe]
  rfl

end WorldInfra.Auth
