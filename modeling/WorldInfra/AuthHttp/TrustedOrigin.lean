/-
What a trusted-origin policy trusts: the origins whose trimmed, lower-cased text is one of the
configured ones, and the referers whose text up to the end of the authority is.
-/
import WorldInfra.AuthHttp.Origin

namespace WorldInfra.AuthHttp

open WorldInfra.Rust

/-! ## Normal forms -/

theorem normalizeOrigin_ok {origin normal : Str} (h : normalizeOrigin origin = .ok normal) :
    normal = origin.trim.toAsciiLowercase := by
  unfold normalizeOrigin normalizeTrimmed at h
  split at h
  · cases h
  · cases hsplit : Str.splitOnceText schemeSeparator origin.trim with
    | none => rw [hsplit] at h; cases h
    | some parts =>
      obtain ⟨scheme, rest⟩ := parts
      rw [hsplit] at h
      simp only at h
      split at h
      · cases h
      · obtain ⟨_, -, h⟩ := Str.bind_eq_ok.1 h
        cases h
        rw [Str.eq_append_of_splitOnceText hsplit, Str.toAsciiLowercase_append, Str.toAsciiLowercase_append]
        rfl

/-- Whether an origin has a normal form only depends on the normal form it would have. -/
theorem normalizeOrigin_congr {o o' : Str} (h : o.trim.toAsciiLowercase = o'.trim.toAsciiLowercase) :
    normalizeOrigin o = normalizeOrigin o' := by
  rw [normalizeOrigin, normalizeOrigin, ← normalizeTrimmed_lower, h, normalizeTrimmed_lower]

theorem normalizeOrigin_idem {origin normal : Str} (h : normalizeOrigin origin = .ok normal) :
    normalizeOrigin normal = .ok normal := by
  have hnormal := normalizeOrigin_ok h
  rw [← h]
  apply normalizeOrigin_congr
  rw [hnormal, Str.trim_lower, Str.trim_trim, Str.toAsciiLowercase_idem]

/-! ## Policies -/

section

variable {origins allowed : List Str} {policy : TrustedOriginPolicy}

theorem mapM_normalizeOrigin : ∀ {origins allowed : List Str}, origins.mapM normalizeOrigin = .ok allowed →
    allowed = origins.map (fun o => o.trim.toAsciiLowercase) ∧
      ∀ o ∈ origins, normalizeOrigin o = .ok o.trim.toAsciiLowercase
  | [], allowed, h => by
    rw [List.mapM_nil] at h
    cases h
    exact ⟨rfl, nofun⟩
  | o :: origins, allowed, h => by
    rw [List.mapM_cons] at h
    obtain ⟨normal, hnormal, h⟩ := Str.bind_eq_ok.1 h
    obtain ⟨rest, hrest, h⟩ := Str.bind_eq_ok.1 h
    obtain ⟨hall, hok⟩ := mapM_normalizeOrigin hrest
    cases h
    have heq := normalizeOrigin_ok hnormal
    refine ⟨?_, ?_⟩
    · rw [List.map_cons, ← hall, heq]
    · intro o' ho'
      rcases List.mem_cons.1 ho' with rfl | ho'
      · rw [hnormal, heq]
      · exact hok o' ho'

theorem new_ok (h : TrustedOriginPolicy.new origins = .ok policy) :
    policy.allowedOrigins = origins.map (fun o => o.trim.toAsciiLowercase) ∧
      ∀ o ∈ origins, normalizeOrigin o = .ok o.trim.toAsciiLowercase := by
  obtain ⟨allowed, hallowed, h⟩ := Str.bind_eq_ok.1 h
  cases h
  exact mapM_normalizeOrigin hallowed

/-- What has an allowed normal form is what would have one. -/
theorem normalizeOrigin_allowed (h : TrustedOriginPolicy.new origins = .ok policy) (o : Str) :
    ((normalizeOrigin o).toOption.any fun normal => policy.allowedOrigins.any (· == normal)) = true ↔
      o.trim.toAsciiLowercase ∈ origins.map fun o => o.trim.toAsciiLowercase := by
  obtain ⟨hallowed, hok⟩ := new_ok h
  rw [hallowed]
  constructor
  · intro hany
    cases hnormal : normalizeOrigin o with
    | error e => rw [hnormal] at hany; cases hany
    | ok normal =>
      rw [hnormal] at hany
      obtain ⟨a, ha, heq⟩ := List.any_eq_true.1 hany
      rw [← normalizeOrigin_ok hnormal, ← eq_of_beq heq]
      exact ha
  · intro hmem
    obtain ⟨o', ho', heq⟩ := List.mem_map.1 hmem
    rw [← normalizeOrigin_congr heq, hok o' ho']
    apply List.any_eq_true.2
    exact ⟨_, List.mem_map.2 ⟨o', ho', rfl⟩, beq_self_eq_true _⟩

end

/-! ## Referers -/

/-- The text of a URL before the first slash, question mark or number sign behind its first `://`. -/
def originText (url : Str) : Option Str :=
  (Str.splitOnceText schemeSeparator url).map fun p =>
    p.1 ++ schemeSeparator ++ p.2.takeWhile fun c => !endsAuthority c

/-- Outer white space of the URL is at most outer white space of its origin's text. -/
theorem originText_of_trim {url scheme rest : Str}
    (h : Str.splitOnceText schemeSeparator url.trim = some (scheme, rest)) :
    ∃ text, originText url = some text ∧
      text.trim = (scheme ++ schemeSeparator ++ rest.takeWhile fun c => !endsAuthority c).trim := by
  obtain ⟨before, after, hurl, hbefore, hafter⟩ := Str.exists_trim url
  have hcolon : ∀ c ∈ before, c ≠ ':' := by
    rintro c hc rfl
    cases hbefore _ hc
  have hmarks : ∀ c ∈ after, c ∉ schemeSeparator := by
    intro c hc hmark
    have hno := List.all_eq_true.1 (by decide : (schemeSeparator.all fun c => !isWhitespace c) = true) c hmark
    rw [hafter c hc] at hno
    cases hno
  have hsplit : Str.splitOnceText schemeSeparator url = some (before ++ scheme, rest ++ after) := by
    have hright := Str.splitOnceText_append_right (by decide) hmarks h
    rw [hurl, List.append_assoc]
    refine (Str.splitOnceText_append_left hcolon (url.trim ++ after)).trans ?_
    exact congrArg (Option.map _) hright
  -- the authority, followed by white space if the URL ends with it
  have htail : ∃ w : Str, (rest ++ after).takeWhile (fun c => !endsAuthority c) =
      rest.takeWhile (fun c => !endsAuthority c) ++ w ∧ ∀ c ∈ w, isWhitespace c = true := by
    rw [List.takeWhile_append]
    split
    · rename_i hlen
      refine ⟨after.takeWhile fun c => !endsAuthority c, ?_, ?_⟩
      · rw [(List.takeWhile_prefix _).eq_of_length hlen]
      · intro c hc
        exact hafter c ((List.takeWhile_prefix _).subset hc)
    · exact ⟨[], (List.append_nil _).symm, nofun⟩
  obtain ⟨w, hw, hspace⟩ := htail
  refine ⟨_, by rw [originText, hsplit]; rfl, ?_⟩
  show ((before ++ scheme) ++ schemeSeparator ++ (rest ++ after).takeWhile fun c => !endsAuthority c).trim = _
  rw [hw, ← List.append_assoc, Str.trim_append_ws hspace, List.append_assoc, List.append_assoc,
    Str.trim_ws_append hbefore, List.append_assoc]

/-- A referer leads to an allowed origin. -/
theorem originFromUrl_allowed {origins : List Str} {policy : TrustedOriginPolicy}
    (h : TrustedOriginPolicy.new origins = .ok policy) (u : Str) :
    ((originFromUrl u).toOption.any fun normal => policy.allowedOrigins.any (· == normal)) = true ↔
      (∃ scheme rest, Str.splitOnceText schemeSeparator u.trim = some (scheme, rest) ∧
        (rest.takeWhile fun c => !endsAuthority c) ≠ []) ∧
      ∃ text, originText u = some text ∧
        text.trim.toAsciiLowercase ∈ origins.map fun o => o.trim.toAsciiLowercase := by
  unfold originFromUrl
  cases hsplit : Str.splitOnceText schemeSeparator u.trim with
  | none =>
    constructor
    · rintro ⟨⟩
    · rintro ⟨⟨_, _, ⟨⟩, -⟩, -⟩
  | some parts =>
    obtain ⟨scheme, rest⟩ := parts
    obtain ⟨text, htext, htrim⟩ := originText_of_trim hsplit
    simp only [Str.firstPart_eq_takeWhile]
    split
    · rename_i hempty
      constructor
      · rintro ⟨⟩
      · rintro ⟨⟨_, _, heq, hne⟩, -⟩
        cases heq
        exact absurd (List.isEmpty_iff.1 hempty) hne
    · rename_i hsome
      rw [List.isEmpty_iff] at hsome
      -- the allowed origins are normalized when the policy is built, so normal forms are compared
      rw [normalizeOrigin_allowed h, ← htrim]
      constructor
      · intro hmem
        exact ⟨⟨scheme, rest, rfl, hsome⟩, text, htext, hmem⟩
      · rintro ⟨-, text', htext', hmem⟩
        rw [htext] at htext'
        cases htext'
        exact hmem

/-- A policy trusts an origin exactly if its trimmed, lower-cased text is that of an allowed one; and a
referer, in the absence of an origin, exactly if it has an authority and the trimmed, lower-cased text
up to the end of it is that of an allowed origin. Normal forms are their own normal forms. -/
theorem trustedOrigins_exact {origins : List Str} {policy : TrustedOriginPolicy}
    (h : TrustedOriginPolicy.new origins = .ok policy) :
    let allowed := origins.map fun o => o.trim.toAsciiLowercase
    (∀ (o : Str) (referer : Option Str),
      policy.isTrusted (some o) referer = true ↔ o.trim.toAsciiLowercase ∈ allowed) ∧
    (∀ u : Str, policy.isTrusted none (some u) = true ↔
      (∃ scheme rest, Str.splitOnceText schemeSeparator u.trim = some (scheme, rest) ∧
        (rest.takeWhile fun c => !endsAuthority c) ≠ []) ∧
      ∃ text, originText u = some text ∧ text.trim.toAsciiLowercase ∈ allowed) ∧
    ∀ o normal : Str, normalizeOrigin o = .ok normal → normalizeOrigin normal = .ok normal := by
  intro allowed
  refine ⟨?_, ?_, ?_⟩
  · intro o referer
    exact normalizeOrigin_allowed h o
  · exact originFromUrl_allowed h
  · intro o normal hnormal
    exact normalizeOrigin_idem hnormal

/-- An allowed origin in capitals, as an origin and as the start of a referer. -/
theorem trustedOrigins_exact_capitals :
    ∃ policy, TrustedOriginPolicy.new ["https://app.example".toList] = .ok policy ∧
      policy.isTrusted (some " HTTPS://App.Example".toList) none = true ∧
      policy.isTrusted none (some "https://APP.example?next=//evil.example".toList) = true ∧
      policy.isTrusted (some "https://app.example@evil.example".toList) none = false := by
  have h : TrustedOriginPolicy.new ["https://app.example".toList] = .ok ⟨["https://app.example".toList], true⟩ := by
    decide
  obtain ⟨horigin, hreferer, -⟩ := trustedOrigins_exact h
  refine ⟨_, h, ?_, ?_, ?_⟩
  · exact (horigin " HTTPS://App.Example".toList none).2 (by decide)
  · exact (hreferer "https://APP.example?next=//evil.example".toList).2
      ⟨⟨"https".toList, "APP.example?next=//evil.example".toList, by decide, by decide⟩,
        "https://APP.example".toList, by decide, by decide⟩
  · rw [← Bool.not_eq_true]
    intro htrusted
    exact absurd ((horigin "https://app.example@evil.example".toList none).1 htrusted) (by decide)

end WorldInfra.AuthHttp
