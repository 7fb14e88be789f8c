/-
auth-ws-core: the initial authentication frame and the bearer header of its token. The header is one
the HTTP bearer path accepts exactly for the tokens the handshake accepts, with the same credential.
-/
import WorldInfra.Auth.Bearer
import WorldInfra.Ws.ControlLimit

namespace WorldInfra.Ws

open WorldInfra.Rust WorldInfra.Auth

structure WsAuthConfig where
  maxAuthFrameBytes : Nat
  authMessageType : Str
  deriving DecidableEq, Repr

def WsAuthConfig.default : WsAuthConfig := ⟨4096, "auth".toList⟩

structure InitialAuthFrame where
  token : Str
  deriving DecidableEq, Repr

structure RawInitialAuthFrame where
  messageType : Option Str
  token : Option Str
  deriving DecidableEq, Repr

def validWsToken (token : Str) : Bool :=
  if token.isEmpty || decide (token.trim ≠ token) || token.any isControl then false
  else if token.any isWhitespace then (parseBearerAuthorization (some token)).isOk
  else (parseBearerAuthorization (some (bearerPrefix ++ token))).isOk

/-- `parse_initial_auth_text`, over the JSON reader `fromStr` of the raw frame. -/
def parseInitialAuthText (fromStr : Str → Option RawInitialAuthFrame) (text : Str) (config : WsAuthConfig) :
    Except WsAuthError InitialAuthFrame :=
  if text.len > config.maxAuthFrameBytes then .error (.frameTooLarge text.len config.maxAuthFrameBytes)
  else
    match fromStr text with
    | none => .error .malformedAuthFrame
    | some raw =>
      if raw.messageType ≠ some config.authMessageType then .error .invalidMessageType
      else
        let token := raw.token.getD []
        if !validWsToken token then .error .missingToken else .ok ⟨token⟩

def bearerHeaderFromWsToken (token : Str) : Str :=
  let token := token.trim
  match parseBearerAuthorization (some token) with
  | .ok credential => bearerPrefix ++ credential.token
  | .error _ => bearerPrefix ++ token

/-! ## The credential of a token -/

section Trimmed

variable {token : Str} {credential : BearerCredential}

/-- A header the bearer path accepts as it stands: its credential is the header's. -/
theorem bearerHeaderFromWsToken_ok (h : parseBearerAuthorization (some token.trim) = .ok credential) :
    bearerHeaderFromWsToken token = bearerPrefix ++ credential.token := by
  unfold bearerHeaderFromWsToken
  simp only [h]

theorem bearerHeaderFromWsToken_error {e : AuthPrimitiveError}
    (h : parseBearerAuthorization (some token.trim) = .error e) :
    bearerHeaderFromWsToken token = bearerPrefix ++ token.trim := by
  unfold bearerHeaderFromWsToken
  simp only [h]

/-- A blank token leaves the scheme alone in the header. -/
theorem parseBearerAuthorization_prefix :
    parseBearerAuthorization (some bearerPrefix) = .error (.invalid authorizationField) := by rfl

theorem validWsToken_iff : validWsToken token = true ↔
    token ≠ [] ∧ token.trim = token ∧ token.any isControl = false ∧
      ∃ credential, parseBearerAuthorization
        (some (if token.any isWhitespace then token else bearerPrefix ++ token)) = .ok credential := by
  have hok : ∀ r : Except AuthPrimitiveError BearerCredential, r.isOk = true ↔ ∃ c, r = .ok c := by
    intro r
    cases r with
    | error e => exact ⟨nofun, fun ⟨_, h⟩ => nomatch h⟩
    | ok c => exact ⟨fun _ => ⟨c, rfl⟩, fun _ => rfl⟩
  unfold validWsToken
  by_cases hempty : token = []
  · subst hempty
    simp
  by_cases htrim : token.trim = token
  · cases hctl : token.any isControl with
    | true => simp
    | false =>
      cases hws : token.any isWhitespace with
      | true => simp [hempty, htrim, hok]
      | false => simp [hempty, htrim, hok]
  · simp [htrim]

/-- The header of a trimmed token is accepted exactly when the handshake accepts the token. -/
theorem validWsToken_iff_header (htrim : token.trim = token) :
    (∃ credential, parseBearerAuthorization (some (bearerHeaderFromWsToken token)) = .ok credential) ↔
      validWsToken token = true := by
  rw [validWsToken_iff]
  cases hparse : parseBearerAuthorization (some token) with
  | ok credential =>
    -- a whole header: it has white space inside, and its credential is read back
    obtain ⟨hctl, -, -, c, hc, hcc⟩ := parseBearerAuthorization_ok hparse
    rw [htrim] at hc
    have hws : token.any isWhitespace = true := List.any_eq_true.2 ⟨c, hc, hcc⟩
    have hheader : bearerHeaderFromWsToken token = bearerPrefix ++ credential.token :=
      bearerHeaderFromWsToken_ok (htrim.symm ▸ hparse)
    rw [hheader, hws, if_pos rfl, hparse, parseBearerAuthorization_token hparse]
    exact ⟨fun h => ⟨List.ne_nil_of_mem hc, htrim, hctl, h⟩, fun h => h.2.2.2⟩
  | error e =>
    have hheader : bearerHeaderFromWsToken token = bearerPrefix ++ token := by
      rw [bearerHeaderFromWsToken_error (htrim.symm ▸ hparse), htrim]
    rw [hheader]
    by_cases hempty : token = []
    · subst hempty
      rw [List.append_nil, parseBearerAuthorization_prefix]
      exact ⟨fun ⟨_, h⟩ => (nomatch h), fun h => absurd rfl h.1⟩
    · cases hws : token.any isWhitespace with
      | true =>
        -- white space inside is no token, and the token is no header
        have hunsafe : unsafeToken token = true := by
          refine eq_true_of_ne_false fun hsafe => ?_
          obtain ⟨c, hc, hcc⟩ := List.any_eq_true.1 hws
          rw [not_whitespace_of_safe hsafe c hc] at hcc
          cases hcc
        rw [parseBearerAuthorization_bearer htrim hempty, hunsafe, if_pos rfl, if_pos rfl, hparse]
        exact ⟨fun ⟨_, h⟩ => (nomatch h), fun ⟨_, _, _, _, h⟩ => (nomatch h)⟩
      | false =>
        rw [if_neg Bool.false_ne_true]
        constructor
        · rintro ⟨credential, h⟩
          have hctl := (parseBearerAuthorization_ok h).1
          rw [List.any_append, Bool.or_eq_false_iff] at hctl
          exact ⟨hempty, htrim, hctl.2, credential, h⟩
        · rintro ⟨-, -, -, h⟩
          exact h

/-- The credential of a header: the token itself if it has no white space, else the token's own. -/
theorem header_credential (h : parseBearerAuthorization (some (bearerHeaderFromWsToken token)) = .ok credential) :
    bearerHeaderFromWsToken token = bearerPrefix ++ credential.token ∧
      ((∀ c ∈ token.trim, isWhitespace c = false) → credential.token = token.trim) ∧
      ((∃ c ∈ token.trim, isWhitespace c = true) → parseBearerAuthorization (some token.trim) = .ok credential) := by
  cases hparse : parseBearerAuthorization (some token.trim) with
  | ok own =>
    have hheader := bearerHeaderFromWsToken_ok hparse
    rw [hheader, parseBearerAuthorization_token hparse] at h
    cases h
    obtain ⟨-, -, -, c, hc, hcc⟩ := parseBearerAuthorization_ok hparse
    rw [Str.trim_trim] at hc
    refine ⟨hheader, fun hall => ?_, fun _ => rfl⟩
    rw [hall c hc] at hcc
    cases hcc
  | error e =>
    have hheader := bearerHeaderFromWsToken_error hparse
    rw [hheader] at h ⊢
    have hne : token.trim ≠ [] := by
      intro hnil
      rw [hnil, List.append_nil, parseBearerAuthorization_prefix] at h
      cases h
    rw [parseBearerAuthorization_bearer (Str.trim_trim token) hne] at h
    split at h
    · cases h
    · next hsafe =>
      cases h
      refine ⟨rfl, fun _ => rfl, ?_⟩
      rintro ⟨c, hc, hcc⟩
      rw [not_whitespace_of_safe (eq_false_of_ne_true hsafe) c hc] at hcc
      cases hcc

/-- The header only depends on the trimmed token. -/
theorem bearerHeaderFromWsToken_trim (token : Str) :
    bearerHeaderFromWsToken token.trim = bearerHeaderFromWsToken token := by
  unfold bearerHeaderFromWsToken
  rw [Str.trim_trim]

/-- An accepted header is its own header. -/
theorem bearerHeaderFromWsToken_idem
    (h : parseBearerAuthorization (some (bearerHeaderFromWsToken token)) = .ok credential) :
    bearerHeaderFromWsToken (bearerHeaderFromWsToken token) = bearerHeaderFromWsToken token := by
  obtain ⟨-, hne, hsafe, -⟩ := parseBearerAuthorization_ok h
  have hheader := (header_credential h).1
  have htrim : Str.trim (bearerHeaderFromWsToken token) = bearerHeaderFromWsToken token := by
    rw [hheader]
    exact Str.trim_cons_append (by rfl) "earer ".toList (Str.trim_eq_self (not_whitespace_of_safe hsafe)) hne
  rw [bearerHeaderFromWsToken_ok (htrim.symm ▸ h), hheader]

theorem parseInitialAuthText_ok {fromStr : Str → Option RawInitialAuthFrame} {text : Str} {config : WsAuthConfig}
    {frame : InitialAuthFrame} (h : parseInitialAuthText fromStr text config = .ok frame) :
    text.len ≤ config.maxAuthFrameBytes ∧
      fromStr text = some ⟨some config.authMessageType, some frame.token⟩ ∧ validWsToken frame.token = true := by
  unfold parseInitialAuthText at h
  split at h
  · cases h
  · next hlen =>
    cases hraw : fromStr text with
    | none =>
      rw [hraw] at h
      cases h
    | some raw =>
      rw [hraw] at h
      simp only at h
      split at h
      · cases h
      · next htype =>
        split at h
        · cases h
        · next hvalid =>
          cases h
          rw [Bool.not_eq_true, Bool.not_eq_false'] at hvalid
          refine ⟨not_lt.1 hlen, ?_, hvalid⟩
          -- a frame without a token has the empty token, which is refused
          have htoken : raw.token = some (raw.token.getD []) := by
            cases htok : raw.token with
            | none =>
              rw [htok] at hvalid
              cases hvalid
            | some token => rfl
          rw [← not_not.1 htype, ← htoken]

end Trimmed

/-- The bearer header of a WebSocket token is one the HTTP path accepts exactly when the handshake accepts
the trimmed token. It is then the scheme and the recovered token, which is the trimmed token itself if
no white space stands in it, and the credential the HTTP path reads from the trimmed token otherwise;
and making the header again changes nothing. So every token of an initial frame passes the HTTP path
with the same credential. -/
theorem bearerHeader_credential (fromStr : Str → Option RawInitialAuthFrame) (t : Str) :
    ((∃ credential, parseBearerAuthorization (some (bearerHeaderFromWsToken t)) = .ok credential) ↔
      validWsToken t.trim = true) ∧
    (∀ credential, parseBearerAuthorization (some (bearerHeaderFromWsToken t)) = .ok credential →
      bearerHeaderFromWsToken t = bearerPrefix ++ credential.token ∧
      ((∀ c ∈ t.trim, isWhitespace c = false) → credential.token = t.trim) ∧
      ((∃ c ∈ t.trim, isWhitespace c = true) → parseBearerAuthorization (some t.trim) = .ok credential) ∧
      bearerHeaderFromWsToken (bearerHeaderFromWsToken t) = bearerHeaderFromWsToken t) ∧
    ∀ text config frame, parseInitialAuthText fromStr text config = .ok frame →
      ∃ credential, parseBearerAuthorization (some (bearerHeaderFromWsToken frame.token)) = .ok credential ∧
        bearerHeaderFromWsToken frame.token = bearerPrefix ++ credential.token ∧
        ((∀ c ∈ frame.token, isWhitespace c = false) → credential.token = frame.token) ∧
        ((∃ c ∈ frame.token, isWhitespace c = true) →
          parseBearerAuthorization (some frame.token) = .ok credential) := by
  refine ⟨?_, ?_, ?_⟩
  · rw [← bearerHeaderFromWsToken_trim]
    exact validWsToken_iff_header (Str.trim_trim t)
  · intro credential h
    obtain ⟨hheader, hself, hown⟩ := header_credential h
    exact ⟨hheader, hself, hown, bearerHeaderFromWsToken_idem h⟩
  · intro text config frame h
    have hvalid := (parseInitialAuthText_ok h).2.2
    have htrim := (validWsToken_iff.1 hvalid).2.1
    obtain ⟨credential, hcredential⟩ := (validWsToken_iff_header htrim).2 hvalid
    obtain ⟨hheader, hself, hown⟩ := header_credential hcredential
    rw [htrim] at hself hown
    exact ⟨credential, hcredential, hheader, hself, hown⟩

/-- A frame whose token is a whole header, with a no-break space behind the scheme. -/
def noBreakFrame : Str := "\x7b\"type\":\"auth\",\"token\":\"bearer\u00a0abc\"\x7d".toList

/-- The raw frame the reader makes of it. -/
def readNoBreakFrame (text : Str) : Option RawInitialAuthFrame :=
  if text = noBreakFrame then some ⟨some "auth".toList, some "bearer\u00a0abc".toList⟩ else none

theorem bearerHeader_credential_noBreak :
    parseInitialAuthText readNoBreakFrame noBreakFrame .default = .ok ⟨"bearer\u00a0abc".toList⟩ ∧
      bearerHeaderFromWsToken "bearer\u00a0abc".toList = "Bearer abc".toList := by
  have hframe : parseInitialAuthText readNoBreakFrame noBreakFrame .default = .ok ⟨"bearer\u00a0abc".toList⟩ := by rfl
  obtain ⟨credential, hcredential, hheader, -⟩ :=
    (bearerHeader_credential readNoBreakFrame "bearer\u00a0abc".toList).2.2 _ _ _ hframe
  have hown : parseBearerAuthorization (some (bearerHeaderFromWsToken "bearer\u00a0abc".toList)) =
      .ok ⟨"abc".toList⟩ := by rfl
  cases hown.symm.trans hcredential
  exact ⟨hframe, hheader⟩

/-- The trim counts: of the text `"\nBearer abc"` the header is `Bearer abc`, whereas the HTTP path refuses
the text itself, for its control character. -/
theorem bearerHeader_untrimmed :
    ¬ ∀ t credential, parseBearerAuthorization (some (bearerHeaderFromWsToken t)) = .ok credential →
      (∃ c ∈ t, isWhitespace c = true) → parseBearerAuthorization (some t) = .ok credential := by
  intro h
  have hheader : parseBearerAuthorization (some (bearerHeaderFromWsToken ('\n' :: "Bearer abc".toList))) =
      .ok ⟨"abc".toList⟩ := by rfl
  have hrefused : parseBearerAuthorization (some ('\n' :: "Bearer abc".toList)) =
      .error (.invalid authorizationField) := by rfl
  have hread := h _ _ hheader ⟨'\n', List.mem_cons_self .., by rfl⟩
  rw [hrefused] at hread
  cases hread

end WorldInfra.Ws
