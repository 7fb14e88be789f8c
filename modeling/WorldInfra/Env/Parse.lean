/-
world-env: variables of the environment, parsed, defaulted and kept above a minimum. The three ways to ask
for a value with a minimum agree wherever the strictest of them succeeds, and the namespaces accepted are
those of the refresh store, a part of those of the idempotency store and all those of the rate limits.
-/
import WorldInfra.Idempotency.Basic
import WorldInfra.RateLimit.Basic
import WorldInfra.Refresh.Basic
import WorldInfra.Rust.Pattern
import WorldInfra.WorldIdentity.WorldRef

namespace WorldInfra.Env

open WorldInfra.Rust WorldInfra.WorldIdentity

/-! ## Variables -/

inductive EnvError where
  | missing (name : Str)
  | invalid (name value message : Str)
  | belowMinimum (name value minimum : Str)
  deriving DecidableEq, Repr

inductive FallbackPolicy where
  | strict
  | warnToStderr
  | silentDefault
  deriving DecidableEq, Repr

/-- `FromStr`, the error by its text. -/
class FromStr (T : Type) where
  parse : Str → Except Str T

/-- The process environment, by what `env::var(name).ok()` reads. -/
abbrev Environment : Type := Str → Option Str

def optionalVar (env : Environment) (name : Str) : Option Str :=
  ((env name).map Str.trim).filter fun value => !value.isEmpty

def requiredVar (env : Environment) (name : Str) : Except EnvError Str :=
  match optionalVar env name with
  | some value => .ok value
  | none => .error (.missing name)

section Values

variable {T : Type} [FromStr T]

/-- The closure of `parse_required` and `parse_optional`. -/
def parseValue (name value : Str) : Except EnvError T :=
  match FromStr.parse value with
  | .ok parsed => .ok parsed
  | .error error => .error (.invalid name value error)

def parseRequired (env : Environment) (name : Str) : Except EnvError T := do
  let value ← requiredVar env name
  parseValue name value

def parseOptional (env : Environment) (name : Str) : Except EnvError (Option T) :=
  match optionalVar env name with
  | none => .ok none
  | some value => (parseValue name value).map some

def parseOr (env : Environment) (name : Str) (default : T) : Except EnvError T := do
  let parsed ← parseOptional env name
  .ok (parsed.getD default)

variable [LinearOrder T]

def parseOrMin (env : Environment) (name : Str) (default minimum : T) : Except EnvError T := do
  let parsed ← parseOptional env name
  let parsed := parsed.getD default
  if parsed < minimum then .ok minimum else .ok parsed

variable [Display T]

/-- The warning of `fallback_or_error`. -/
def warning (name : Str) (fallback : T) : Str :=
  name ++ " is invalid; using default ".toList ++ display fallback

/-- What is written to stderr, and the result. -/
def fallbackOrError (name : Str) (error : EnvError) (fallback : T) : FallbackPolicy → List Str × Except EnvError T
  | .strict => ([], .error error)
  | .warnToStderr => ([warning name fallback], .ok fallback)
  | .silentDefault => ([], .ok fallback)

def parseOrDefaultWithMinPolicy (env : Environment) (name : Str) (default minimum : T) (policy : FallbackPolicy) :
    List Str × Except EnvError T :=
  let fallback := if default < minimum then minimum else default
  match optionalVar env name with
  | none => ([], .ok fallback)
  | some value =>
    match FromStr.parse value with
    | .error error => fallbackOrError name (.invalid name value error) fallback policy
    | .ok parsed =>
      if parsed < minimum then
        fallbackOrError name (.belowMinimum name (display parsed) (display minimum)) fallback policy
      else ([], .ok parsed)

def parseRequiredMin (env : Environment) (name : Str) (minimum : T) : Except EnvError T := do
  let value ← parseRequired env name
  if value < minimum then .error (.belowMinimum name (display value) (display minimum)) else .ok value

end Values

/-! ## Minimums -/

section Minimums

variable {T : Type} [FromStr T] [LinearOrder T] [Display T]

/-- The variable is set to a value of at least the minimum. -/
def Usable (env : Environment) (name : Str) (minimum v : T) : Prop :=
  ∃ text, optionalVar env name = some text ∧ FromStr.parse text = .ok v ∧ minimum ≤ v

/-- The error of a variable that is set, but to nothing of at least the minimum. -/
def Rejects (env : Environment) (name : Str) (minimum : T) (e : EnvError) : Prop :=
  ∃ text, optionalVar env name = some text ∧
    ((∃ message, (FromStr.parse text : Except Str T) = .error message ∧ e = .invalid name text message) ∨
      ∃ parsed : T, FromStr.parse text = .ok parsed ∧ parsed < minimum ∧
        e = .belowMinimum name (display parsed) (display minimum))

/-- A variable is blank or absent, set to a usable value, or rejected. -/
inductive Reading (env : Environment) (name : Str) (minimum : T) : Prop where
  | absent (h : optionalVar env name = none)
  | usable (v : T) (h : Usable env name minimum v)
  | rejected (e : EnvError) (h : Rejects env name minimum e)

theorem reading (env : Environment) (name : Str) (minimum : T) : Reading env name minimum := by
  cases htext : optionalVar env name with
  | none => exact .absent htext
  | some text =>
    cases hparse : (FromStr.parse text : Except Str T) with
    | error message => exact .rejected _ ⟨text, htext, .inl ⟨message, hparse, rfl⟩⟩
    | ok parsed =>
      rcases lt_or_ge parsed minimum with hlt | hge
      · exact .rejected _ ⟨text, htext, .inr ⟨parsed, hparse, hlt, rfl⟩⟩
      · exact .usable parsed ⟨text, htext, hparse, hge⟩

variable {env : Environment} {name : Str} {default minimum : T}

omit [Display T] in
theorem Usable.unique {v w : T} (hv : Usable env name minimum v) (hw : Usable env name minimum w) : v = w := by
  obtain ⟨text, htext, hparse, -⟩ := hv
  obtain ⟨text', htext', hparse', -⟩ := hw
  rw [htext, Option.some.injEq] at htext'
  subst htext'
  rw [hparse, Except.ok.injEq] at hparse'
  exact hparse'

theorem Rejects.not_usable {e : EnvError} (h : Rejects env name minimum e) (v : T) : ¬ Usable env name minimum v := by
  rintro ⟨text, htext, hparse, hle⟩
  obtain ⟨text', htext', h⟩ := h
  rw [htext, Option.some.injEq] at htext'
  subst htext'
  rcases h with ⟨message, herror, -⟩ | ⟨parsed, hok, hlt, -⟩
  · rw [hparse] at herror
    cases herror
  · rw [hparse, Except.ok.injEq] at hok
    rw [hok] at hle
    exact absurd hlt (not_lt.2 hle)

theorem Rejects.isSome {e : EnvError} (h : Rejects env name minimum e) : optionalVar env name ≠ none := by
  obtain ⟨text, htext, -⟩ := h
  rw [htext]
  exact Option.some_ne_none text

omit [FromStr T] [Display T] in
theorem fallback_eq_max (default minimum : T) :
    (if default < minimum then minimum else default) = max default minimum := by
  rw [max_def]
  split
  · rename_i hlt
    rw [if_pos hlt.le]
  · rename_i hge
    split
    · rename_i hle
      exact le_antisymm hle (not_lt.1 hge)
    · rfl

/-! ### What each of the three does with a reading -/

theorem policy_absent (h : optionalVar env name = none) (policy : FallbackPolicy) :
    parseOrDefaultWithMinPolicy env name default minimum policy = ([], .ok (max default minimum)) := by
  simp only [parseOrDefaultWithMinPolicy, h, fallback_eq_max]

theorem policy_usable {v : T} (h : Usable env name minimum v) (policy : FallbackPolicy) :
    parseOrDefaultWithMinPolicy env name default minimum policy = ([], .ok v) := by
  obtain ⟨text, htext, hparse, hle⟩ := h
  simp only [parseOrDefaultWithMinPolicy, htext, hparse]
  rw [if_neg (not_lt.2 hle)]

theorem policy_rejected {e : EnvError} (h : Rejects env name minimum e) (policy : FallbackPolicy) :
    parseOrDefaultWithMinPolicy env name default minimum policy =
      fallbackOrError name e (max default minimum) policy := by
  obtain ⟨text, htext, ⟨message, hparse, rfl⟩ | ⟨parsed, hparse, hlt, rfl⟩⟩ := h
  · simp only [parseOrDefaultWithMinPolicy, htext, hparse, fallback_eq_max]
  · simp only [parseOrDefaultWithMinPolicy, htext, hparse, fallback_eq_max]
    rw [if_pos hlt]

theorem requiredMin_absent (h : optionalVar env name = none) :
    parseRequiredMin env name minimum = .error (.missing name) := by
  rw [parseRequiredMin, parseRequired, requiredVar, h]
  rfl

theorem requiredMin_usable {v : T} (h : Usable env name minimum v) : parseRequiredMin env name minimum = .ok v := by
  obtain ⟨text, htext, hparse, hle⟩ := h
  rw [parseRequiredMin, parseRequired, requiredVar, htext]
  refine Str.bind_eq_ok.2 ⟨v, ?_, if_neg (not_lt.2 hle)⟩
  refine Str.bind_eq_ok.2 ⟨text, rfl, ?_⟩
  rw [parseValue, hparse]

theorem requiredMin_rejected {e : EnvError} (h : Rejects env name minimum e) :
    parseRequiredMin env name minimum = .error e := by
  obtain ⟨text, htext, ⟨message, hparse, rfl⟩ | ⟨parsed, hparse, hlt, rfl⟩⟩ := h
  · rw [parseRequiredMin, parseRequired, requiredVar, htext]
    simp only [bind, Except.bind, parseValue, hparse]
  · rw [parseRequiredMin, parseRequired, requiredVar, htext]
    simp only [bind, Except.bind, parseValue, hparse]
    rw [if_pos hlt]

omit [Display T] in
theorem orMin_absent (h : optionalVar env name = none) :
    parseOrMin env name default minimum = .ok (max default minimum) := by
  rw [parseOrMin, parseOptional, h, ← fallback_eq_max]
  exact (apply_ite Except.ok (default < minimum) minimum default).symm

omit [Display T] in
theorem orMin_usable {v : T} (h : Usable env name minimum v) : parseOrMin env name default minimum = .ok v := by
  obtain ⟨text, htext, hparse, hle⟩ := h
  rw [parseOrMin, parseOptional, htext]
  refine Str.bind_eq_ok.2 ⟨some v, ?_, if_neg (not_lt.2 hle)⟩
  simp only [parseValue, hparse]
  rfl

omit [Display T] in
/-- A value that is set is raised to the minimum, and so is the default where none is set. -/
theorem orMin_eq_ok {v : T} : parseOrMin env name default minimum = .ok v ↔
    optionalVar env name = none ∧ v = max default minimum ∨
      ∃ text parsed, optionalVar env name = some text ∧ FromStr.parse text = .ok parsed ∧ v = max parsed minimum := by
  cases htext : optionalVar env name with
  | none => simp [orMin_absent htext, eq_comm]
  | some text =>
    rw [parseOrMin, parseOptional, htext]
    cases hparse : (FromStr.parse text : Except Str T) with
    | error message => simp [parseValue, hparse, bind, Except.bind, Except.map]
    | ok parsed =>
      simp only [parseValue, hparse, bind, Except.bind, Except.map, Option.getD_some, ← fallback_eq_max,
        ← apply_ite Except.ok]
      simp [eq_comm, hparse]

omit [Display T] in
theorem orMin_eq_error {e : EnvError} : parseOrMin env name default minimum = .error e ↔
    ∃ text message, optionalVar env name = some text ∧ (FromStr.parse text : Except Str T) = .error message ∧
      e = .invalid name text message := by
  cases htext : optionalVar env name with
  | none => simp [orMin_absent htext]
  | some text =>
    rw [parseOrMin, parseOptional, htext]
    cases hparse : (FromStr.parse text : Except Str T) with
    | error message => simp [parseValue, hparse, bind, Except.bind, Except.map, eq_comm]
    | ok parsed =>
      simp only [parseValue, hparse, bind, Except.bind, Except.map, Option.getD_some, ← apply_ite Except.ok]
      simp [hparse]

end Minimums

/-! ## Booleans -/

def parseStrictBool (name value : Str) : Except EnvError Bool :=
  let value := value.trim
  let lower := Str.toAsciiLowercase value
  if lower = "true".toList then .ok true
  else if lower = "false".toList then .ok false
  else .error (.invalid name value "expected true or false".toList)

def parseBoolLiteral (value : Str) : Option Bool :=
  let lower := Str.toAsciiLowercase value.trim
  if ["1".toList, "true".toList, "yes".toList, "on".toList].contains lower then some true
  else if ["0".toList, "false".toList, "no".toList, "off".toList].contains lower then some false
  else none

def parseLenientBool (name value : Str) : Except EnvError Bool :=
  match parseBoolLiteral value with
  | some b => .ok b
  | none => .error (.invalid name value.trim "expected one of 1/0, true/false, yes/no, on/off".toList)

def optionalLenientBool (env : Environment) (name : Str) : Except EnvError (Option Bool) :=
  match optionalVar env name with
  | none => .ok none
  | some value => (parseLenientBool name value).map some

/-- The strict literals are literals, of the same values. -/
theorem parseLenientBool_of_strict {name value : Str} {b : Bool} (h : parseStrictBool name value = .ok b) :
    parseLenientBool name value = .ok b := by
  unfold parseStrictBool at h
  unfold parseLenientBool parseBoolLiteral
  simp only at h ⊢
  split at h
  · rename_i htrue
    rw [htrue]
    exact h
  · split at h
    · rename_i hfalse
      rw [hfalse]
      exact h
    · cases h

/-! ## Namespaces -/

def parseNamespace (name raw : Str) : Except EnvError Str :=
  let trimmed := raw.trim
  if raw ≠ trimmed ∨ trimmed.isEmpty = true ∨ trimmed.len > 256 ∨ trimmed.any isWhitespace = true ∨
      trimmed.any isControl = true then
    .error (.invalid name raw "expected a nonblank namespace without whitespace or control characters".toList)
  else .ok trimmed

def optionalNamespace (env : Environment) (name : Str) : Except EnvError (Option Str) :=
  match env name with
  | none => .ok none
  | some value => if value.trim.isEmpty then .ok none else (parseNamespace name value).map some

def namespaceOr (env : Environment) (name default : Str) : Except EnvError Str := do
  match ← optionalNamespace env name with
  | some ns => .ok ns
  | none => parseNamespace name default

theorem parseNamespace_eq_ok {name raw v : Str} : parseNamespace name raw = .ok v ↔
    raw = v ∧ v ≠ [] ∧ v.len ≤ 256 ∧ ∀ c ∈ v, Refresh.unsafeChar c = false := by
  unfold parseNamespace
  simp only [Refresh.unsafeChar, Bool.or_eq_false_iff]
  constructor
  · intro h
    split at h
    · cases h
    · rename_i hsafe
      simp only [not_or, not_not, List.isEmpty_iff, not_lt, List.any_eq_true, not_exists, not_and,
        Bool.not_eq_true] at hsafe
      obtain ⟨htrim, hne, hlen, hspace, hctl⟩ := hsafe
      cases h
      exact ⟨htrim, hne, hlen, fun c hc => ⟨hctl c hc, hspace c hc⟩⟩
  · rintro ⟨rfl, hne, hlen, hsafe⟩
    have htrim : raw.trim = raw := Str.trim_eq_self fun c hc => (hsafe c hc).2
    rw [htrim, if_neg]
    simp only [not_or, not_not, List.isEmpty_iff, not_lt, List.any_eq_true, not_exists, not_and, Bool.not_eq_true]
    exact ⟨trivial, hne, hlen, fun c hc => (hsafe c hc).2, fun c hc => (hsafe c hc).1⟩

/-- The default is taken for a variable that is blank or absent, and only then. -/
theorem namespaceOr_cases (env : Environment) (name default : Str) :
    (optionalVar env name = none ∧ namespaceOr env name default = parseNamespace name default) ∨
      ∃ value, env name = some value ∧ optionalVar env name = some value.trim ∧
        namespaceOr env name default = parseNamespace name value := by
  unfold namespaceOr optionalNamespace optionalVar
  cases hvalue : env name with
  | none => exact .inl ⟨rfl, rfl⟩
  | some value =>
    by_cases hblank : value.trim.isEmpty = true
    · left
      simp only [hblank, Option.map_some, if_true]
      exact ⟨by simpa using hblank, rfl⟩
    · right
      refine ⟨value, rfl, by simp [hblank], ?_⟩
      simp only [hblank]
      cases parseNamespace name value with
      | ok ns => rfl
      | error e => rfl

/-- What a validator of trimmed texts without white space accepts as it stands. -/
theorem validateTrimmed_self {ε : Type} {error : ε} {bad : Str → Bool} {v : Str}
    (hspace : bad v = false → ∀ c ∈ v, isWhitespace c = false) :
    Str.validateTrimmed error bad v = .ok v ↔ (∀ c ∈ v, isControl c = false) ∧ bad v = false := by
  constructor
  · intro h
    obtain ⟨hctl, htrim, hbad⟩ := Str.validateTrimmed_cases h
    rw [List.any_eq_false] at hctl
    exact ⟨fun c hc => Bool.not_eq_true _ ▸ hctl c hc, hbad⟩
  · rintro ⟨hctl, hbad⟩
    have hany : v.any isControl = false := List.any_eq_false.2 fun c hc => by rw [hctl c hc]; exact Bool.false_ne_true
    unfold Str.validateTrimmed
    rw [hany, if_neg Bool.false_ne_true]
    simp only
    rw [Str.trim_eq_self (hspace hbad), hbad, if_neg Bool.false_ne_true]

theorem validateTrimmed_key {ε : Type} {error : ε} {max : Nat} {v : Str} :
    Str.validateTrimmed error (fun value => value.isEmpty || value.len > max || value.any Refresh.unsafeChar) v =
      .ok v ↔
      v ≠ [] ∧ v.len ≤ max ∧ ∀ c ∈ v, Refresh.unsafeChar c = false := by
  rw [validateTrimmed_self]
  · simp only [Refresh.unsafeChar, Bool.or_eq_false_iff, List.isEmpty_eq_false_iff, decide_eq_false_iff_not, not_lt,
      List.any_eq_false, Bool.not_eq_true, gt_iff_lt]
    constructor
    · rintro ⟨-, ⟨hne, hlen⟩, hsafe⟩
      exact ⟨hne, hlen, hsafe⟩
    · rintro ⟨hne, hlen, hsafe⟩
      exact ⟨fun c hc => (hsafe c hc).1, ⟨hne, hlen⟩, hsafe⟩
  · intro hbad c hc
    simp only [Bool.or_eq_false_iff, List.any_eq_false, Refresh.unsafeChar, Bool.not_eq_true] at hbad
    exact (hbad.2 c hc).2

theorem not_unsafe_of_keyChar {c : Char} (h : RateLimit.keyChar c = true) : Refresh.unsafeChar c = false := by
  have hspace := RateLimit.keyChar_not_whitespace h
  have hctl : isControl c = false := by
    simp only [RateLimit.keyChar, Bool.or_eq_true, beq_iff_eq] at h
    rcases h with ((((h | rfl) | rfl) | rfl) | rfl) | rfl
    · have hrange := isAlphanum_iff.1 h
      rw [Bool.eq_false_iff, ne_eq, isControl, Bool.or_eq_true, decide_eq_true_eq, Bool.and_eq_true, decide_eq_true_eq,
        decide_eq_true_eq]
      omega
    all_goals rfl
  rw [Refresh.unsafeChar, hctl, hspace]
  rfl

/-- What the refresh store takes as a namespace. -/
theorem refreshNamespace_iff {v : Str} : (∃ ns : Refresh.RefreshNamespace, ns.value = v) ↔
    v ≠ [] ∧ v.len ≤ 256 ∧ ∀ c ∈ v, Refresh.unsafeChar c = false := by
  rw [← validateTrimmed_key]
  constructor
  · rintro ⟨ns, rfl⟩
    exact ns.valid
  · exact fun h => ⟨⟨v, h⟩, rfl⟩

theorem parseNamespace_eq_refresh {name raw v : Str} :
    parseNamespace name raw = .ok v ↔ raw = v ∧ ∃ ns : Refresh.RefreshNamespace, ns.value = v := by
  rw [parseNamespace_eq_ok, refreshNamespace_iff]

theorem parseNamespace_eq_idempotency {name raw v : Str} : parseNamespace name raw = .ok v ↔
    raw = v ∧ v.len ≤ 256 ∧ ∃ ns : Idempotency.IdempotencyNamespace, ns.value = v := by
  rw [parseNamespace_eq_ok]
  constructor
  · rintro ⟨hraw, hne, hlen, hsafe⟩
    exact ⟨hraw, hlen, ⟨v, validateTrimmed_key.2 ⟨hne, hlen.trans (by omega), hsafe⟩⟩, rfl⟩
  · rintro ⟨hraw, hlen, ns, rfl⟩
    obtain ⟨hne, -, hsafe⟩ := validateTrimmed_key.1 ns.valid
    exact ⟨hraw, hne, hlen, hsafe⟩

theorem parseNamespace_rateLimit (name : Str) (ns : RateLimit.Namespace) :
    parseNamespace name ns.value = .ok ns.value := by
  obtain ⟨-, -, hbad⟩ := Str.validateTrimmed_cases ns.valid
  simp only [Bool.or_eq_false_iff, List.isEmpty_eq_false_iff, decide_eq_false_iff_not, not_lt, List.any_eq_false,
    Bool.not_eq_true, Bool.not_eq_false'] at hbad
  exact parseNamespace_eq_ok.2 ⟨rfl, hbad.1.1, hbad.1.2, fun c hc => not_unsafe_of_keyChar (hbad.2 c hc)⟩

/-- A variable that holds a namespace is not blank. -/
theorem optionalVar_ne_none {env : Environment} {name v : Str} (hvalue : env name = some v)
    (hns : ∃ ns : Refresh.RefreshNamespace, ns.value = v) : optionalVar env name ≠ none := by
  obtain ⟨hne, -, hsafe⟩ := refreshNamespace_iff.1 hns
  have htrim : v.trim = v := Str.trim_eq_self fun c hc => (Bool.or_eq_false_iff.1 (hsafe c hc)).2
  intro hunset
  rw [optionalVar, hvalue, Option.map_some, htrim, Option.filter_eq_none_iff] at hunset
  simp [hne] at hunset

theorem namespaceOr_eq_ok {env : Environment} {name default v : Str} :
    namespaceOr env name default = .ok v ↔ (∃ ns : Refresh.RefreshNamespace, ns.value = v) ∧
      (env name = some v ∨ default = v ∧ optionalVar env name = none) := by
  rcases namespaceOr_cases env name default with ⟨hunset, hor⟩ | ⟨value, hvalue, hset, hor⟩
  · rw [hor, parseNamespace_eq_refresh]
    constructor
    · rintro ⟨hdefault, hns⟩
      exact ⟨hns, .inr ⟨hdefault, hunset⟩⟩
    · rintro ⟨hns, hvalue | ⟨hdefault, -⟩⟩
      · exact absurd hunset (optionalVar_ne_none hvalue hns)
      · exact ⟨hdefault, hns⟩
  · rw [hor, parseNamespace_eq_refresh, hvalue, Option.some.injEq, hset]
    constructor
    · rintro ⟨hv, hns⟩
      exact ⟨hns, .inl hv⟩
    · rintro ⟨hns, hv | ⟨-, ⟨⟩⟩⟩
      exact ⟨hv, hns⟩

/-- The namespaces of the environment are those of the refresh store, some of those of the idempotency
store and all those of the rate limits, each as it stands; a default is checked like a variable. -/
theorem namespaces_across_crates (env : Environment) (name default : Str) :
    (∀ raw v, parseNamespace name raw = .ok v ↔ raw = v ∧ ∃ ns : Refresh.RefreshNamespace, ns.value = v) ∧
    (∀ raw v, parseNamespace name raw = .ok v ↔
      raw = v ∧ v.len ≤ 256 ∧ ∃ ns : Idempotency.IdempotencyNamespace, ns.value = v) ∧
    (∀ ns : RateLimit.Namespace, parseNamespace name ns.value = .ok ns.value) ∧
    ∀ v, namespaceOr env name default = .ok v ↔ (∃ ns : Refresh.RefreshNamespace, ns.value = v) ∧
      (env name = some v ∨ default = v ∧ optionalVar env name = none) :=
  ⟨fun _ _ => parseNamespace_eq_refresh, fun _ _ => parseNamespace_eq_idempotency, parseNamespace_rateLimit name,
    fun _ => namespaceOr_eq_ok⟩

end WorldInfra.Env
