/-
rate-limit-core: the texts of limits, in the permissive and in the strict mode, and the JSON overrides.
A limit is accepted exactly if a count and a window are spelled out in it whose values are in range.
-/
import WorldInfra.Json.Value
import WorldInfra.RateLimit.InProcess
import WorldInfra.Rust.Case
import WorldInfra.Rust.Numeral

namespace WorldInfra.RateLimit

open WorldInfra.Lib WorldInfra.Rust

/-! ## The parser -/

inductive WindowParseMode where
  | permissiveBareSeconds
  | strictSuffix
  deriving DecidableEq, Repr

inductive LimitParseError where
  | empty
  | invalidCount
  | invalidWindow
  deriving DecidableEq, Repr

def NonZeroU32.new (n : UInt32) : Option NonZeroU32 := if h : 0 < n.toNat then some ⟨n.toNat, h, n.toNat_lt⟩ else none

/-- `LimitSpec::fixed`. -/
def LimitSpec.ofCount (count : UInt32) (window : Duration) : Except LimitParseError LimitSpec :=
  if window.isZero then .error .invalidWindow
  else
    match NonZeroU32.new count with
    | some count => .ok (.fixed count window)
    | none => .error .invalidCount

def checkedMul (a b : UInt64) : Option UInt64 := if a.toNat * b.toNat < 2 ^ 64 then some (a * b) else none

/-- The units before a suffix, or alone. -/
def parseUnits (number : Str) (scaleMillis : UInt64) : Except LimitParseError Duration :=
  match parseU64 (Str.trim number) with
  | .error _ => .error .invalidWindow
  | .ok units =>
    if units = 0 then .error .invalidWindow
    else
      match checkedMul units scaleMillis with
      | none => .error .invalidWindow
      | some millis => .ok (.fromMillis millis)

/-- The windows that are words. -/
def windowWord (value : Str) : Option Duration :=
  if ["s".toList, "sec".toList, "second".toList, "seconds".toList].contains value then some (.fromSecs 1)
  else if ["m".toList, "min".toList, "minute".toList, "minutes".toList].contains value then some (.fromSecs 60)
  else if ["h".toList, "hr".toList, "hour".toList, "hours".toList].contains value then some (.fromSecs 3600)
  else if ["d".toList, "day".toList, "days".toList].contains value then some (.fromSecs 86400)
  else none

/-- The number of a window and its unit in milliseconds. -/
def windowNumber (value : Str) (mode : WindowParseMode) : Except LimitParseError (Str × UInt64) :=
  match Str.stripSuffixText value "ms".toList with
  | some number => .ok (number, 1)
  | none =>
    match Str.stripSuffix 's' value with
    | some number => .ok (number, 1000)
    | none =>
      match Str.stripSuffix 'm' value with
      | some number => .ok (number, 60000)
      | none =>
        match Str.stripSuffix 'h' value with
        | some number => .ok (number, 3600000)
        | none =>
          match Str.stripSuffix 'd' value with
          | some number => .ok (number, 86400000)
          | none => if mode = .strictSuffix then .error .invalidWindow else .ok (value, 1000)

def parseWindow (value : Str) (mode : WindowParseMode) : Except LimitParseError Duration :=
  let value := (Str.trim value).toAsciiLowercase
  match windowWord value with
  | some window => .ok window
  | none => do
    let (number, scaleMillis) ← windowNumber value mode
    parseUnits number scaleMillis

def parseLimitSpecWithMode (value : Str) (mode : WindowParseMode) : Except LimitParseError LimitSpec := do
  let value := value.trim
  if value.isEmpty then .error .empty
  else if ["unlimited".toList, "none".toList, "off".toList].contains value.toAsciiLowercase then .ok .unlimited
  else
    match Str.splitOnce '/' value with
    | none => .error .invalidWindow
    | some (count, window) =>
      match parseU32 (Str.trim count) with
      | .error _ => .error .invalidCount
      | .ok count =>
        match NonZeroU32.new count with
        | none => .error .invalidCount
        | some count => do
          let window ← parseWindow window mode
          .ok (.fixed count window)

def parseLimitSpec (value : Str) : Except LimitParseError LimitSpec :=
  parseLimitSpecWithMode value .permissiveBareSeconds

def parseLimitSpecStrict (value : Str) : Except LimitParseError LimitSpec :=
  parseLimitSpecWithMode value .strictSuffix

/-! ## JSON overrides -/

/-- `LimitCatalog`: limits by label. -/
structure LimitCatalog where
  limits : Table Str LimitSpec

def LimitCatalog.new : LimitCatalog := ⟨∅⟩

/-- `LimitCatalog::insert`: the limit replaced, and the catalog. -/
def LimitCatalog.insert (self : LimitCatalog) (label : Str) (spec : LimitSpec) :
    Except RateLimitError (Option LimitSpec × LimitCatalog) := do
  let label ← validateKeyPart label
  .ok (self.limits.get label, ⟨self.limits.insert label spec⟩)

/-- `LimitCatalog::get`. -/
def LimitCatalog.get (self : LimitCatalog) (label : Str) : Option LimitSpec :=
  match validateKeyPart label with
  | .ok label => self.limits.get label
  | .error _ => none

inductive LimitCatalogError where
  | invalidJson (error : Str)
  | invalidLabel (label : Str)
  | invalidSpec (label : Str)
  deriving DecidableEq, Repr

section

variable {Number : Type} (fromStr : Str → Except Str (Json.Document Number)) (asU64 : Number → Option UInt64)

/-- `Value::as_u64`. -/
def valueAsU64 : Json.Value Number → Option UInt64
  | .number n => asU64 n
  | _ => none

/-- `Value::as_bool`. -/
def valueAsBool : Json.Value Number → Option Bool
  | .bool b => some b
  | _ => none

/-- A count from a value that is an integer of 32 bits. -/
def valueAsU32 (value : Json.Value Number) : Option UInt32 :=
  (valueAsU64 asU64 value).bind fun n => if n.toNat < 2 ^ 32 then some (UInt32.ofNat n.toNat) else none

/-- The end of both structured forms: a count and a number of seconds. -/
def limitOfCountAndSecs (label : Str) (count : Option UInt32) (windowSecs : Option UInt64) :
    Except LimitCatalogError LimitSpec :=
  match count, windowSecs with
  | some count, some windowSecs =>
    (LimitSpec.ofCount count (.fromSecs windowSecs)).mapError fun _ => .invalidSpec label
  | _, _ => .error (.invalidSpec label)

def limitSpecFromJsonValue (label : Str) : Json.Value Number → Except LimitCatalogError LimitSpec
  | .string value =>
    match parseLimitSpecStrict value with
    | .ok spec => .ok spec
    | .error _ => .error (.invalidSpec label)
  | .array [count, window] => limitOfCountAndSecs label (valueAsU32 asU64 count) (valueAsU64 asU64 window)
  | .array _ => .error (.invalidSpec label)
  | .object object =>
    if ((object.lookup "unlimited".toList).bind valueAsBool).getD false then .ok .unlimited
    else
      let windowSecs := (object.lookup "windowSecs".toList).or
        ((object.lookup "window_seconds".toList).or (object.lookup "window_secs".toList))
      limitOfCountAndSecs label ((object.lookup "count".toList).bind (valueAsU32 asU64))
        (windowSecs.bind (valueAsU64 asU64))
  | _ => .error (.invalidSpec label)

/-- The loop of `parse_limit_overrides_json` over the fields still to come. -/
def insertLimits (catalog : LimitCatalog) : List (Str × Json.Value Number) → Except LimitCatalogError LimitCatalog
  | [] => .ok catalog
  | (label, value) :: fields => do
    let spec ← limitSpecFromJsonValue asU64 label value
    match catalog.insert label spec with
    | .error _ => .error (.invalidLabel label)
    | .ok (_, catalog) => insertLimits catalog fields

def parseLimitOverridesJson (raw : Str) : Except LimitCatalogError LimitCatalog :=
  match fromStr raw with
  | .error error => .error (.invalidJson error)
  | .ok document =>
    match document.value with
    | .object object => insertLimits asU64 .new object
    | _ => .error (.invalidJson "expected object".toList)

end

/-! ## What is spelled out -/

/-- The unit words, and the milliseconds in a unit. -/
def unitWords : List (Str × Nat) :=
  [("s".toList, 1000), ("sec".toList, 1000), ("second".toList, 1000), ("seconds".toList, 1000),
    ("m".toList, 60000), ("min".toList, 60000), ("minute".toList, 60000), ("minutes".toList, 60000),
    ("h".toList, 3600000), ("hr".toList, 3600000), ("hour".toList, 3600000), ("hours".toList, 3600000),
    ("d".toList, 86400000), ("day".toList, 86400000), ("days".toList, 86400000)]

/-- The suffixes of numbers, and the milliseconds in a unit. -/
def unitSuffixes : List (Str × Nat) :=
  [("ms".toList, 1), ("s".toList, 1000), ("m".toList, 60000), ("h".toList, 3600000), ("d".toList, 86400000)]

/-- A lower-case text spells out a number of units of so many milliseconds: one, by a unit word; a
number before a suffix; or, in the permissive mode, a number of seconds. -/
inductive WindowText (mode : WindowParseMode) : Str → Nat → Nat → Prop where
  | word {w : Str} {scale : Nat} (h : (w, scale) ∈ unitWords) : WindowText mode w 1 scale
  | suffixed {number suffix : Str} {units scale : Nat} (h : (suffix, scale) ∈ unitSuffixes)
      (hunits : Spells number.trim units) : WindowText mode (number ++ suffix) units scale
  | bare {w : Str} {units : Nat} (h : mode = .permissiveBareSeconds) (hunits : Spells w.trim units) :
      WindowText mode w units 1000

/-- So many units, without wrapping around or stopping at the largest number of milliseconds. -/
def IsProduct (window : Duration) (units scale : Nat) : Prop :=
  0 < units ∧ units * scale < 2 ^ 64 ∧ window.nanos = units * scale * 10 ^ 6

instance (window : Duration) (units scale : Nat) : Decidable (IsProduct window units scale) :=
  inferInstanceAs (Decidable (0 < units ∧ units * scale < 2 ^ 64 ∧ window.nanos = units * scale * 10 ^ 6))

theorem windowWord_of_mem : ∀ word ∈ unitWords, windowWord word.1 = some (.fromMillis (UInt64.ofNat word.2)) := by
  decide

theorem isProduct_of_mem : ∀ word ∈ unitWords, IsProduct (.fromMillis (UInt64.ofNat word.2)) 1 word.2 := by decide

theorem mem_of_windowWord {w : Str} {window : Duration} (h : windowWord w = some window) :
    ∃ scale, (w, scale) ∈ unitWords := by
  unfold windowWord at h
  split at h
  · rename_i hw
    refine ⟨1000, ?_⟩
    simp only [List.contains_iff_mem, List.mem_cons, List.not_mem_nil, or_false] at hw
    rcases hw with rfl | rfl | rfl | rfl <;> simp [unitWords]
  · split at h
    · rename_i hw
      refine ⟨60000, ?_⟩
      simp only [List.contains_iff_mem, List.mem_cons, List.not_mem_nil, or_false] at hw
      rcases hw with rfl | rfl | rfl | rfl <;> simp [unitWords]
    · split at h
      · rename_i hw
        refine ⟨3600000, ?_⟩
        simp only [List.contains_iff_mem, List.mem_cons, List.not_mem_nil, or_false] at hw
        rcases hw with rfl | rfl | rfl | rfl <;> simp [unitWords]
      · split at h
        · rename_i hw
          refine ⟨86400000, ?_⟩
          simp only [List.contains_iff_mem, List.mem_cons, List.not_mem_nil, or_false] at hw
          rcases hw with rfl | rfl | rfl <;> simp [unitWords]
        · cases h

theorem windowWord_ok {w : Str} {window : Duration} :
    windowWord w = some window ↔ ∃ scale, (w, scale) ∈ unitWords ∧ IsProduct window 1 scale := by
  constructor
  · intro h
    obtain ⟨scale, hmem⟩ := mem_of_windowWord h
    have hword := windowWord_of_mem _ hmem
    rw [h, Option.some.injEq] at hword
    exact ⟨scale, hmem, hword ▸ isProduct_of_mem _ hmem⟩
  · rintro ⟨scale, hmem, -, -, hnanos⟩
    rw [windowWord_of_mem _ hmem, Option.some.injEq]
    ext
    rw [(isProduct_of_mem _ hmem).2.2, hnanos]

theorem spells_of_parseUnits {number : Str} {scale : UInt64} {window : Duration}
    (h : parseUnits number scale = .ok window) :
    ∃ units, Spells number.trim units ∧ IsProduct window units scale.toNat := by
  unfold parseUnits at h
  split at h
  · cases h
  · rename_i units hunits
    split at h
    · cases h
    · rename_i hzero
      split at h
      · cases h
      · rename_i millis hmillis
        cases h
        unfold checkedMul at hmillis
        split at hmillis
        · rename_i hlt
          cases hmillis
          refine ⟨units.toNat, parseU64_ok.1 hunits, ?_, hlt, ?_⟩
          · exact Nat.pos_of_ne_zero fun h0 => hzero (UInt64.toNat_inj.1 h0)
          · show (units * scale).toNat * 10 ^ 6 = _
            rw [UInt64.toNat_mul, Nat.mod_eq_of_lt hlt]
        · cases hmillis

theorem parseUnits_of_spells {number : Str} {scale : UInt64} (hscale : 0 < scale.toNat) {window : Duration}
    {units : Nat} (hspells : Spells number.trim units) (hproduct : IsProduct window units scale.toNat) :
    parseUnits number scale = .ok window := by
  obtain ⟨hpos, hlt, hnanos⟩ := hproduct
  have hunits : units < 2 ^ 64 := lt_of_le_of_lt (Nat.le_mul_of_pos_right _ hscale) hlt
  have hto : (UInt64.ofNat units).toNat = units := UInt64.toNat_ofNat_of_lt hunits
  have hparse : parseU64 number.trim = .ok (UInt64.ofNat units) := parseU64_ok.2 (by rw [hto]; exact hspells)
  have hne : UInt64.ofNat units ≠ 0 := by
    intro h0
    rw [h0] at hto
    exact absurd hto.symm (Nat.pos_iff_ne_zero.1 hpos)
  have hmul : checkedMul (UInt64.ofNat units) scale = some (UInt64.ofNat units * scale) := by
    rw [checkedMul, hto, if_pos hlt]
  unfold parseUnits
  rw [hparse]
  simp only [hne, if_false, hmul]
  congr 1
  ext
  show (UInt64.ofNat units * scale).toNat * 10 ^ 6 = window.nanos
  rw [UInt64.toNat_mul, hto, Nat.mod_eq_of_lt hlt, hnanos]

/-- A suffix is a letter or two, so no text that ends in it is spelled as a number. -/
theorem not_spells_letter {t : Str} {c : Char} {n : Nat} (hspace : isWhitespace c = false)
    (hdigit : c.isDigit = false) : ¬ Spells (Str.trim (t ++ [c])) n := by
  intro h
  rw [isDigit_of_spells_trim hspace h] at hdigit
  cases hdigit

theorem unitWords_no_digit : ∀ word ∈ unitWords, word.1.all (fun c => !c.isDigit) = true := by decide

/-- A text with a number in it is no unit word. -/
theorem windowWord_none {w number : Str} {units : Nat} (hspells : Spells number.trim units)
    (hsub : ∀ c ∈ number, c ∈ w) : windowWord w = none := by
  cases hword : windowWord w with
  | none => rfl
  | some window =>
    obtain ⟨scale, hmem⟩ := mem_of_windowWord hword
    obtain ⟨c, hc, hdigit⟩ := hspells.exists_digit
    have hno := List.all_eq_true.1 (unitWords_no_digit _ hmem) c (hsub c (Str.mem_of_mem_trim hc))
    rw [hdigit] at hno
    cases hno

/-- The number and the unit the parser finds are those of a suffix, or of bare seconds. -/
theorem windowText_of_windowNumber {w number : Str} {mode : WindowParseMode} {scale : UInt64} {units : Nat}
    (h : windowNumber w mode = .ok (number, scale)) (hunits : Spells number.trim units) :
    WindowText mode w units scale.toNat := by
  unfold windowNumber at h
  -- the suffixes in the order they are tried, `ms` before `s` and `m`
  split at h
  · rename_i n hms
    cases h
    rw [Str.stripSuffixText_eq_some.1 hms]
    exact .suffixed (by simp [unitSuffixes]) hunits
  · split at h
    · rename_i n hs
      cases h
      rw [Str.stripSuffix_eq_some.1 hs]
      exact .suffixed (by simp [unitSuffixes]) hunits
    · split at h
      · rename_i n hm
        cases h
        rw [Str.stripSuffix_eq_some.1 hm]
        exact .suffixed (by simp [unitSuffixes]) hunits
      · split at h
        · rename_i n hh
          cases h
          rw [Str.stripSuffix_eq_some.1 hh]
          exact .suffixed (by simp [unitSuffixes]) hunits
        · split at h
          · rename_i n hd
            cases h
            rw [Str.stripSuffix_eq_some.1 hd]
            exact .suffixed (by simp [unitSuffixes]) hunits
          · split at h
            · cases h
            · rename_i hmode
              cases h
              refine .bare ?_ hunits
              cases mode
              · rfl
              · exact absurd rfl hmode

theorem stripSuffix_of_ne {c d : Char} (h : d ≠ c) (t : Str) : Str.stripSuffix c (t ++ [d]) = none := by
  rw [Str.stripSuffix, List.getLast?_concat, if_neg fun heq => h (Option.some.inj heq)]

theorem stripMs_of_ne {d : Char} (h : d ≠ 's') (t : Str) : Str.stripSuffixText (t ++ [d]) "ms".toList = none := by
  cases hstrip : Str.stripSuffixText (t ++ [d]) "ms".toList with
  | none => rfl
  | some n =>
    have hlast := congrArg List.getLast? (Str.stripSuffixText_eq_some.1 hstrip)
    rw [show n ++ "ms".toList = (n ++ ['m']) ++ ['s'] by rw [List.append_assoc]; rfl, List.getLast?_concat,
      List.getLast?_concat, Option.some.injEq] at hlast
    exact absurd hlast h

/-- And the parser finds the number and the unit that are spelled out. -/
theorem windowNumber_of_suffix {number suffix : Str} {mode : WindowParseMode} {scale units : Nat}
    (h : (suffix, scale) ∈ unitSuffixes) (hunits : Spells number.trim units) :
    windowNumber (number ++ suffix) mode = .ok (number, UInt64.ofNat scale) := by
  simp only [unitSuffixes, List.mem_cons, Prod.mk.injEq, List.not_mem_nil, or_false] at h
  have hself (c : Char) : Str.stripSuffix c (number ++ [c]) = some number := Str.stripSuffix_eq_some.2 rfl
  unfold windowNumber
  rcases h with ⟨rfl, rfl⟩ | ⟨rfl, rfl⟩ | ⟨rfl, rfl⟩ | ⟨rfl, rfl⟩ | ⟨rfl, rfl⟩
  · rw [Str.stripSuffixText_eq_some.2 rfl]
    rfl
  · -- seconds, not milliseconds: before the suffix stands no letter
    have hms : Str.stripSuffixText (number ++ "s".toList) "ms".toList = none := by
      cases hstrip : Str.stripSuffixText (number ++ "s".toList) "ms".toList with
      | none => rfl
      | some n =>
        have heq : number ++ ['s'] = (n ++ ['m']) ++ ['s'] := by
          rw [List.append_assoc]
          exact Str.stripSuffixText_eq_some.1 hstrip
        rw [List.append_cancel_right_eq] at heq
        rw [heq] at hunits
        exact absurd hunits (not_spells_letter (by decide) (by decide))
    rw [hms, show "s".toList = ['s'] from rfl, hself]
    rfl
  · rw [show "m".toList = ['m'] from rfl, stripMs_of_ne (by decide), stripSuffix_of_ne (by decide), hself]
    rfl
  · rw [show "h".toList = ['h'] from rfl, stripMs_of_ne (by decide), stripSuffix_of_ne (by decide),
      stripSuffix_of_ne (by decide), hself]
    rfl
  · rw [show "d".toList = ['d'] from rfl, stripMs_of_ne (by decide), stripSuffix_of_ne (by decide),
      stripSuffix_of_ne (by decide), stripSuffix_of_ne (by decide), hself]
    rfl

/-- A bare number has none of the suffixes. -/
theorem windowNumber_of_bare {w : Str} {units : Nat} (hunits : Spells w.trim units) :
    windowNumber w .permissiveBareSeconds = .ok (w, 1000) := by
  have hnone {c : Char} (hspace : isWhitespace c = false) (hdigit : c.isDigit = false) :
      Str.stripSuffix c w = none := by
    cases hstrip : Str.stripSuffix c w with
    | none => rfl
    | some n =>
      rw [Str.stripSuffix_eq_some.1 hstrip] at hunits
      exact absurd hunits (not_spells_letter hspace hdigit)
  have hms : Str.stripSuffixText w "ms".toList = none := by
    cases hstrip : Str.stripSuffixText w "ms".toList with
    | none => rfl
    | some n =>
      have heq : w = (n ++ ['m']) ++ ['s'] := by
        rw [List.append_assoc]
        exact Str.stripSuffixText_eq_some.1 hstrip
      rw [heq] at hunits
      exact absurd hunits (not_spells_letter (by decide) (by decide))
  unfold windowNumber
  rw [hms, hnone (by decide) (by decide), hnone (by decide) (by decide), hnone (by decide) (by decide),
    hnone (by decide) (by decide)]
  rfl

theorem unitSuffixes_scale : ∀ suffix ∈ unitSuffixes, 0 < suffix.2 ∧ suffix.2 < 2 ^ 64 := by decide

/-- A window is accepted exactly if units are spelled out whose product with the unit fits. -/
theorem parseWindow_ok {value : Str} {mode : WindowParseMode} {window : Duration} :
    parseWindow value mode = .ok window ↔
      ∃ units scale, WindowText mode (Str.trim value).toAsciiLowercase units scale ∧ IsProduct window units scale := by
  unfold parseWindow
  generalize (Str.trim value).toAsciiLowercase = w
  simp only
  constructor
  · intro h
    split at h
    · rename_i word hword
      cases h
      obtain ⟨scale, hmem, hproduct⟩ := windowWord_ok.1 hword
      exact ⟨1, scale, .word hmem, hproduct⟩
    -- no word for a window: a number with a suffix or a bare one
    · obtain ⟨⟨number, scale⟩, hnumber, hparse⟩ := Str.bind_eq_ok.1 h
      obtain ⟨units, hunits, hproduct⟩ := spells_of_parseUnits hparse
      exact ⟨units, scale.toNat, windowText_of_windowNumber hnumber hunits, hproduct⟩
  · rintro ⟨units, scale, htext, hproduct⟩
    cases htext with
    | word hmem =>
      rw [windowWord_ok.2 ⟨scale, hmem, hproduct⟩]
    | suffixed hmem hunits =>
      obtain ⟨hpos, hlt⟩ := unitSuffixes_scale _ hmem
      have hscale : (UInt64.ofNat scale).toNat = scale := UInt64.toNat_ofNat_of_lt hlt
      rw [windowWord_none hunits fun c hc => List.mem_append_left _ hc]
      refine Str.bind_eq_ok.2 ⟨_, windowNumber_of_suffix hmem hunits, ?_⟩
      apply parseUnits_of_spells _ hunits
      · rw [hscale]
        exact hproduct
      · rw [hscale]
        exact hpos
    | bare hmode hunits =>
      subst hmode
      rw [windowWord_none hunits fun c hc => hc]
      have hscale : 0 < (1000 : UInt64).toNat := by decide
      exact Str.bind_eq_ok.2 ⟨_, windowNumber_of_bare hunits, parseUnits_of_spells hscale hunits hproduct⟩

/-! ## Limits -/

/-- A text spells out a count and a window. -/
def FixedText (mode : WindowParseMode) (value : Str) (count : Nat) (window : Duration) : Prop :=
  ∃ countText windowText units scale, Str.trim value = countText ++ '/' :: windowText ∧ '/' ∉ countText ∧
    Spells (Str.trim countText) count ∧ WindowText mode (Str.trim windowText).toAsciiLowercase units scale ∧
    IsProduct window units scale

theorem nonZeroU32_new_ok {n : UInt32} {count : NonZeroU32} : NonZeroU32.new n = some count ↔ n.toNat = count.val := by
  unfold NonZeroU32.new
  constructor
  · intro h
    split at h
    · cases h
      rfl
    · cases h
  · intro h
    have hpos : 0 < n.toNat := h ▸ count.pos
    rw [dif_pos hpos, Option.some.injEq]
    cases count
    cases h
    rfl

/-- The words for no limit have no slash. -/
theorem not_keyword {value : Str} (h : '/' ∈ value) :
    ¬ ["unlimited".toList, "none".toList, "off".toList].contains value.toAsciiLowercase = true := by
  rw [List.contains_iff_mem]
  intro hmem
  have hslash : '/' ∈ Str.toAsciiLowercase value := List.mem_map.2 ⟨'/', h, rfl⟩
  have hno : ∀ word ∈ ["unlimited".toList, "none".toList, "off".toList], word.contains '/' = false := by decide
  have hcontains : (Str.toAsciiLowercase value).contains '/' = true := List.contains_iff_mem.2 hslash
  rw [hno _ hmem] at hcontains
  cases hcontains

/-- A fixed limit is accepted exactly if it is spelled out. -/
theorem parseLimitSpecWithMode_fixed {value : Str} {mode : WindowParseMode} {count : NonZeroU32} {window : Duration} :
    parseLimitSpecWithMode value mode = .ok (.fixed count window) ↔ FixedText mode value count.val window := by
  unfold parseLimitSpecWithMode FixedText
  generalize Str.trim value = v
  simp only
  constructor
  · intro h
    split at h
    · cases h
    · split at h
      · cases h
      · split at h
        · cases h
        · rename_i countText windowText hsplit
          obtain ⟨hv, hslash⟩ := Str.splitOnce_eq_some.1 hsplit
          split at h
          · cases h
          · rename_i n hn
            split at h
            · cases h
            · rename_i count' hcount'
              obtain ⟨window', hwindow', hok⟩ := Str.bind_eq_ok.1 h
              cases hok
              obtain ⟨units, scale, htext, hproduct⟩ := parseWindow_ok.1 hwindow'
              refine ⟨countText, windowText, units, scale, hv, hslash, ?_, htext, hproduct⟩
              rw [← nonZeroU32_new_ok.1 hcount']
              exact parseU32_ok.1 hn
  · rintro ⟨countText, windowText, units, scale, rfl, hslash, hcount, htext, hproduct⟩
    -- a text with a slash is no keyword
    have hmem : '/' ∈ countText ++ '/' :: windowText := List.mem_append_right _ (List.mem_cons_self ..)
    have hto : (UInt32.ofNat count.val).toNat = count.val := UInt32.toNat_ofNat_of_lt count.lt
    have hparse : parseU32 (Str.trim countText) = .ok (UInt32.ofNat count.val) := by
      rw [parseU32_ok, hto]
      exact hcount
    rw [if_neg (by simp), if_neg (not_keyword hmem), Str.splitOnce_eq_some.2 ⟨rfl, hslash⟩]
    simp only [hparse, nonZeroU32_new_ok.2 hto]
    exact Str.bind_eq_ok.2 ⟨window, parseWindow_ok.2 ⟨units, scale, htext, hproduct⟩, rfl⟩

/-- What is accepted otherwise is a word for no limit. -/
theorem parseLimitSpecWithMode_unlimited {value : Str} {mode : WindowParseMode} :
    parseLimitSpecWithMode value mode = .ok .unlimited ↔
      (Str.trim value).toAsciiLowercase ∈ ["unlimited".toList, "none".toList, "off".toList] := by
  unfold parseLimitSpecWithMode
  generalize Str.trim value = v
  simp only
  rw [← List.contains_iff_mem]
  constructor
  · intro h
    split at h
    · cases h
    · split at h
      · rename_i hword
        exact hword
      · split at h
        · cases h
        · split at h
          · cases h
          · split at h
            · cases h
            · obtain ⟨window, -, hok⟩ := Str.bind_eq_ok.1 h
              cases hok
  · intro h
    have hne : ¬ v.isEmpty = true := by
      rw [List.isEmpty_iff]
      rintro rfl
      cases h
    rw [if_neg hne, if_pos h]

/-! ## The two modes -/

theorem WindowText.permissive {w : Str} {units scale : Nat} (h : WindowText .strictSuffix w units scale) :
    WindowText .permissiveBareSeconds w units scale := by
  cases h with
  | word hmem => exact .word hmem
  | suffixed hmem hunits => exact .suffixed hmem hunits
  | bare hmode _ => cases hmode

theorem parseLimitSpec_of_strict {value : Str} {spec : LimitSpec} (h : parseLimitSpecStrict value = .ok spec) :
    parseLimitSpec value = .ok spec := by
  cases spec with
  | fixed count window =>
    obtain ⟨countText, windowText, units, scale, hvalue, hslash, hcount, htext, hproduct⟩ :=
      parseLimitSpecWithMode_fixed.1 h
    exact parseLimitSpecWithMode_fixed.2
      ⟨countText, windowText, units, scale, hvalue, hslash, hcount, htext.permissive, hproduct⟩
  | unlimited => exact parseLimitSpecWithMode_unlimited.2 (parseLimitSpecWithMode_unlimited.1 h)

/-- What only the permissive parser accepts has a bare number of seconds for its window. -/
theorem bare_of_permissive_only {value : Str} {spec : LimitSpec} (h : parseLimitSpec value = .ok spec)
    (hstrict : parseLimitSpecStrict value ≠ .ok spec) :
    ∃ countText windowText units count window, Str.trim value = countText ++ '/' :: windowText ∧ '/' ∉ countText ∧
      Spells (Str.trim windowText) units ∧ spec = .fixed count window ∧ window.nanos = units * 10 ^ 9 := by
  cases spec with
  | fixed count window =>
    obtain ⟨countText, windowText, units, scale, hvalue, hslash, hcount, htext, hproduct⟩ :=
      parseLimitSpecWithMode_fixed.1 h
    have hstrict' (htext : WindowText .strictSuffix (Str.trim windowText).toAsciiLowercase units scale) : False :=
      hstrict (parseLimitSpecWithMode_fixed.2
        ⟨countText, windowText, units, scale, hvalue, hslash, hcount, htext, hproduct⟩)
    generalize hw : (Str.trim windowText).toAsciiLowercase = w at htext hstrict'
    cases htext with
    | word hmem => exact (hstrict' (.word hmem)).elim
    | suffixed hmem hunits => exact (hstrict' (.suffixed hmem hunits)).elim
    | bare _ hunits =>
      rw [← hw, Str.trim_lower, Str.trim_trim] at hunits
      have hcase := toAsciiLowercase_of_spells hunits
      rw [hcase] at hunits
      refine ⟨countText, windowText, units, count, window, hvalue, hslash, hunits, rfl, ?_⟩
      rw [hproduct.2.2]
      omega
  | unlimited => exact absurd (parseLimitSpecWithMode_unlimited.2 (parseLimitSpecWithMode_unlimited.1 h)) hstrict

theorem WindowText.scale_pos {mode : WindowParseMode} {w : Str} {units scale : Nat}
    (h : WindowText mode w units scale) : 0 < scale := by
  have hwords : ∀ word ∈ unitWords, 0 < word.2 := by decide
  cases h with
  | word hmem => exact hwords _ hmem
  | suffixed hmem _ => exact (unitSuffixes_scale _ hmem).1
  | bare _ _ => decide

theorem FixedText.millis {mode : WindowParseMode} {value : Str} {count : Nat} {window : Duration}
    (h : FixedText mode value count window) : 10 ^ 6 ≤ window.nanos := by
  obtain ⟨_, _, units, scale, -, -, -, htext, hpos, -, hnanos⟩ := h
  have hone : 1 ≤ units * scale := Nat.mul_pos hpos htext.scale_pos
  omega

/-! ## No zero window -/

/-- A limit that the backend takes: it has no window, or one that is not zero. -/
def NonZeroWindow (spec : LimitSpec) : Prop := ∀ count window, spec = .fixed count window → window.isZero = false

theorem check_ne_zeroWindow {spec : LimitSpec} (h : NonZeroWindow spec) (s : InProcessFixedWindow) (ns : Namespace)
    (key : RateLimitKey) (now : SystemTime) : (s.check ns key spec now).1 ≠ .error .zeroWindow := by
  cases spec with
  | fixed count window =>
    obtain ⟨b, -, -, hcheck⟩ := check_fixed s ns key count window now (h count window rfl)
    rw [hcheck]
    rintro ⟨⟩
  | unlimited => rintro ⟨⟩

theorem parseLimitSpecWithMode_nonZero {value : Str} {mode : WindowParseMode} {spec : LimitSpec}
    (h : parseLimitSpecWithMode value mode = .ok spec) : NonZeroWindow spec := by
  rintro count window rfl
  have hmillis := (parseLimitSpecWithMode_fixed.1 h).millis
  rw [Duration.isZero, beq_eq_false_iff_ne]
  omega

theorem ofCount_nonZero {count : UInt32} {window : Duration} {spec : LimitSpec}
    (h : LimitSpec.ofCount count window = .ok spec) : NonZeroWindow spec := by
  unfold LimitSpec.ofCount at h
  split at h
  · cases h
  · rename_i hw
    split at h
    · cases h
      rintro count' window' heq
      cases heq
      exact Bool.not_eq_true _ ▸ hw
    · cases h

section

variable {Number : Type} {fromStr : Str → Except Str (Json.Document Number)} {asU64 : Number → Option UInt64}

theorem limitOfCountAndSecs_nonZero {label : Str} {count : Option UInt32} {windowSecs : Option UInt64}
    {spec : LimitSpec} (h : limitOfCountAndSecs label count windowSecs = .ok spec) : NonZeroWindow spec := by
  rcases count with _ | count
  · cases h
  · rcases windowSecs with _ | windowSecs
    · cases h
    · rcases hspec : LimitSpec.ofCount count (.fromSecs windowSecs) with e | spec'
      · rw [limitOfCountAndSecs, hspec] at h
        cases h
      · rw [limitOfCountAndSecs, hspec] at h
        cases h
        exact ofCount_nonZero hspec

theorem limitSpecFromJsonValue_nonZero {label : Str} {value : Json.Value Number} {spec : LimitSpec}
    (h : limitSpecFromJsonValue asU64 label value = .ok spec) : NonZeroWindow spec := by
  unfold limitSpecFromJsonValue at h
  split at h
  · split at h
    · rename_i hspec
      cases h
      exact parseLimitSpecWithMode_nonZero hspec
    · cases h
  · exact limitOfCountAndSecs_nonZero h
  · cases h
  · simp only at h
    split at h
    · cases h
      rintro count window ⟨⟩
    · exact limitOfCountAndSecs_nonZero h
  · cases h

/-- Every limit of a catalog is one that the backend takes. -/
def LimitCatalog.AllNonZero (catalog : LimitCatalog) : Prop :=
  ∀ label spec, catalog.limits.get label = some spec → NonZeroWindow spec

theorem insertLimits_nonZero : ∀ {fields : List (Str × Json.Value Number)} {catalog catalog' : LimitCatalog},
    catalog.AllNonZero → insertLimits asU64 catalog fields = .ok catalog' → catalog'.AllNonZero
  | [], _, _, hall, h => by
    cases h
    exact hall
  | (label, value) :: fields, catalog, catalog', hall, h => by
    obtain ⟨spec, hspec, h⟩ := Str.bind_eq_ok.1 h
    rcases hinsert : catalog.insert label spec with e | ⟨old, next⟩
    · rw [hinsert] at h
      cases h
    · rw [hinsert] at h
      refine insertLimits_nonZero (fun label' spec' hget => ?_) h
      obtain ⟨key, -, hnext⟩ := Str.bind_eq_ok.1 hinsert
      cases hnext
      rw [Table.get_insert] at hget
      split at hget
      · cases hget
        exact limitSpecFromJsonValue_nonZero hspec
      · exact hall label' spec' hget

theorem parseLimitOverridesJson_nonZero {raw : Str} {catalog : LimitCatalog}
    (h : parseLimitOverridesJson fromStr asU64 raw = .ok catalog) : catalog.AllNonZero := by
  unfold parseLimitOverridesJson at h
  split at h
  · cases h
  · split at h
    · refine insertLimits_nonZero (fun label spec hget => ?_) h
      rw [show LimitCatalog.new.limits = ∅ from rfl, Table.get_empty] at hget
      cases hget
    · cases h

end

/-! ## The parsers are exact -/

/-- The strict mode restricts the permissive one by windows that are bare numbers; both accept a fixed
limit exactly if a count and a window are spelled out that are in range, and no limit from a text or
from JSON makes the backend refuse its window. -/
theorem parseLimitSpec_exact :
    (∀ {value : Str} {spec : LimitSpec}, parseLimitSpecStrict value = .ok spec → parseLimitSpec value = .ok spec) ∧
    (∀ {value : Str} {spec : LimitSpec}, parseLimitSpec value = .ok spec → parseLimitSpecStrict value ≠ .ok spec →
      ∃ countText windowText units count window, Str.trim value = countText ++ '/' :: windowText ∧ '/' ∉ countText ∧
        Spells (Str.trim windowText) units ∧ spec = .fixed count window ∧ window.nanos = units * 10 ^ 9) ∧
    (∀ {value : Str} {mode : WindowParseMode} {count : NonZeroU32} {window : Duration},
      parseLimitSpecWithMode value mode = .ok (.fixed count window) ↔ FixedText mode value count.val window) ∧
    (∀ {value : Str} {mode : WindowParseMode}, parseLimitSpecWithMode value mode = .ok .unlimited ↔
      (Str.trim value).toAsciiLowercase ∈ ["unlimited".toList, "none".toList, "off".toList]) ∧
    (∀ {value : Str} {mode : WindowParseMode} {count : Nat} {window : Duration}, FixedText mode value count window →
      10 ^ 6 ≤ window.nanos) ∧
    (∀ {value : Str} {mode : WindowParseMode} {spec : LimitSpec}, parseLimitSpecWithMode value mode = .ok spec →
      ∀ (s : InProcessFixedWindow) (ns : Namespace) (key : RateLimitKey) (now : SystemTime),
        (s.check ns key spec now).1 ≠ .error .zeroWindow) ∧
    ∀ {Number : Type} {fromStr : Str → Except Str (Json.Document Number)} {asU64 : Number → Option UInt64} {raw : Str}
      {catalog : LimitCatalog}, parseLimitOverridesJson fromStr asU64 raw = .ok catalog →
      ∀ (label : Str) (spec : LimitSpec), catalog.get label = some spec →
        ∀ (s : InProcessFixedWindow) (ns : Namespace) (key : RateLimitKey) (now : SystemTime),
          (s.check ns key spec now).1 ≠ .error .zeroWindow := by
  refine ⟨parseLimitSpec_of_strict, bare_of_permissive_only, parseLimitSpecWithMode_fixed,
    parseLimitSpecWithMode_unlimited, FixedText.millis,
    fun h => check_ne_zeroWindow (parseLimitSpecWithMode_nonZero h), ?_⟩
  intro Number fromStr asU64 raw catalog h label spec hget
  unfold LimitCatalog.get at hget
  split at hget
  · exact check_ne_zeroWindow (parseLimitOverridesJson_nonZero h _ spec hget)
  · cases hget

/-- Ten in a minute and a half, with white space, a plus sign and capitals; and sixty bare seconds. -/
theorem parseLimitSpec_exact_spaced :
    parseLimitSpec " +10/ 90 S".toList = .ok (.fixed ⟨10, by decide, by decide⟩ (.fromSecs 90)) ∧
      ∃ countText windowText units count window, Str.trim "10/60".toList = countText ++ '/' :: windowText ∧
        '/' ∉ countText ∧ Spells (Str.trim windowText) units ∧
        LimitSpec.fixed ⟨10, by decide, by decide⟩ (.fromSecs 60) = .fixed count window ∧
        window.nanos = units * 10 ^ 9 :=
  ⟨parseLimitSpec_exact.1 (by decide), parseLimitSpec_exact.2.1 (by decide) (by decide)⟩

end WorldInfra.RateLimit
