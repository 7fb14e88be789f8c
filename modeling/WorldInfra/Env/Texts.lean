/-
world-env: durations and lists in the values of variables. A duration is accepted exactly if a number of
units is spelled out that fits, and is then the rate limits' window of the same text; a list is written
back and read again unchanged.
-/
import WorldInfra.Env.Parse
import WorldInfra.RateLimit.LimitText
import WorldInfra.Rust.Lines

namespace WorldInfra.Env

open WorldInfra.Rust

/-! ## Durations -/

/-- The number in a duration, and its unit in milliseconds. -/
def durationNumber (value : Str) : Str × UInt64 :=
  match Str.stripSuffixText value "ms".toList with
  | some number => (number, 1)
  | none =>
    match value.getLast? with
    | some 's' => (value.dropLast, 1000)
    | some 'm' => (value.dropLast, 60000)
    | some 'h' => (value.dropLast, 3600000)
    | _ => (value, 1000)

def parseDuration (name value : Str) : Except EnvError Duration :=
  let value := value.trim
  let number := durationNumber value
  match parseU64 number.1 with
  | .error error => .error (.invalid name value error.text)
  | .ok units =>
    match RateLimit.checkedMul units number.2 with
    | none => .error (.invalid name value "duration is too large".toList)
    | some millis => .ok (.fromMillis millis)

/-- The suffixes of durations, and the milliseconds in a unit. -/
def durationUnits : List (Str × Nat) :=
  [("ms".toList, 1), ("s".toList, 1000), ("m".toList, 60000), ("h".toList, 3600000), ([], 1000)]

theorem durationUnits_scale : ∀ suffix ∈ durationUnits, 0 < suffix.2 ∧ suffix.2 < 2 ^ 64 := by decide

/-- A text spells out a number of units of so many milliseconds. -/
def DurationText (value : Str) (units scale : Nat) : Prop :=
  ∃ number suffix, value = number ++ suffix ∧ (suffix, scale) ∈ durationUnits ∧ Spells number units

/-- The number and the unit that are found are those of a suffix, or of bare seconds. -/
theorem suffix_of_durationNumber (value : Str) : ∃ suffix, value = (durationNumber value).1 ++ suffix ∧
    (suffix, (durationNumber value).2.toNat) ∈ durationUnits := by
  unfold durationNumber
  split
  · rename_i number hms
    exact ⟨"ms".toList, Str.stripSuffixText_eq_some.1 hms, by simp [durationUnits]⟩
  · split
    · rename_i hlast
      exact ⟨['s'], (List.dropLast_append_getLast? _ hlast).symm, by simp [durationUnits]⟩
    · rename_i hlast
      exact ⟨['m'], (List.dropLast_append_getLast? _ hlast).symm, by simp [durationUnits]⟩
    · rename_i hlast
      exact ⟨['h'], (List.dropLast_append_getLast? _ hlast).symm, by simp [durationUnits]⟩
    · exact ⟨[], (List.append_nil value).symm, by simp [durationUnits]⟩

/-- A text with another letter or a digit before its last is no number of milliseconds. -/
theorem stripMs_eq_none {t : Str} {c d : Char} (h : c ≠ 'm') :
    Str.stripSuffixText (t ++ [c, d]) "ms".toList = none := by
  cases hstrip : Str.stripSuffixText (t ++ [c, d]) "ms".toList with
  | none => rfl
  | some number =>
    have heq : (t ++ [c]) ++ [d] = (number ++ ['m']) ++ ['s'] := by
      rw [List.append_assoc, List.append_assoc]
      exact Str.stripSuffixText_eq_some.1 hstrip
    obtain ⟨hfront, -⟩ := List.append_inj' heq rfl
    obtain ⟨-, hc⟩ := List.append_inj' hfront rfl
    exact absurd (List.singleton_inj.1 hc) h

/-- And the parser finds the number and the unit that are spelled out. -/
theorem durationNumber_of_suffix {number suffix : Str} {units scale : Nat} (hunits : Spells number units)
    (h : (suffix, scale) ∈ durationUnits) : durationNumber (number ++ suffix) = (number, UInt64.ofNat scale) := by
  -- a digit stands before the suffix
  obtain ⟨t, c, rfl⟩ : ∃ t c, number = t ++ [c] := by
    obtain ⟨c, hc, -⟩ := hunits.exists_digit
    exact ⟨number.dropLast, _, (List.dropLast_append_getLast (List.ne_nil_of_mem hc)).symm⟩
  have hdigit := hunits.getLast_isDigit
  have hm : c ≠ 'm' := by rintro rfl; cases hdigit
  have hs : c ≠ 's' := by rintro rfl; cases hdigit
  have hh : c ≠ 'h' := by rintro rfl; cases hdigit
  simp only [durationUnits, List.mem_cons, Prod.mk.injEq, List.not_mem_nil, or_false] at h
  unfold durationNumber
  rcases h with ⟨rfl, rfl⟩ | ⟨rfl, rfl⟩ | ⟨rfl, rfl⟩ | ⟨rfl, rfl⟩ | ⟨rfl, rfl⟩
  · rw [Str.stripSuffixText_eq_some.2 rfl]
    rfl
  · rw [List.append_assoc, show [c] ++ "s".toList = [c, 's'] from rfl, stripMs_eq_none hm]
    simp
  · rw [List.append_assoc, show [c] ++ "m".toList = [c, 'm'] from rfl, stripMs_eq_none hm]
    simp
  · rw [List.append_assoc, show [c] ++ "h".toList = [c, 'h'] from rfl, stripMs_eq_none hm]
    simp
  · rw [List.append_nil, RateLimit.stripMs_of_ne hs]
    simp [hm, hs, hh]

/-- So many units, in a number of milliseconds that fits. -/
def Measures (d : Duration) (units scale : Nat) : Prop := units * scale < 2 ^ 64 ∧ d.nanos = units * scale * 10 ^ 6

theorem checkedMul_eq_some {a b m : UInt64} :
    RateLimit.checkedMul a b = some m ↔ a.toNat * b.toNat < 2 ^ 64 ∧ m.toNat = a.toNat * b.toNat := by
  unfold RateLimit.checkedMul
  split
  · rename_i hlt
    rw [Option.some.injEq, ← UInt64.toNat_inj, UInt64.toNat_mul, Nat.mod_eq_of_lt hlt]
    constructor
    · intro h
      exact ⟨hlt, h.symm⟩
    · rintro ⟨-, h⟩
      exact h.symm
  · rename_i hge
    constructor
    · rintro ⟨⟩
    · rintro ⟨hlt, -⟩
      exact absurd hlt hge

theorem parseDuration_eq_ok {name value : Str} {d : Duration} : parseDuration name value = .ok d ↔
    ∃ units scale, DurationText value.trim units scale ∧ Measures d units scale := by
  unfold parseDuration
  generalize value.trim = text
  simp only
  constructor
  · intro h
    obtain ⟨suffix, htext, hsuffix⟩ := suffix_of_durationNumber text
    split at h
    · cases h
    · rename_i units hunits
      split at h
      · cases h
      · rename_i millis hmillis
        cases h
        obtain ⟨hlt, hval⟩ := checkedMul_eq_some.1 hmillis
        refine ⟨units.toNat, _, ⟨_, suffix, htext, hsuffix, parseU64_ok.1 hunits⟩, hlt, ?_⟩
        rw [← hval]
        rfl
  · rintro ⟨units, scale, ⟨number, suffix, rfl, hsuffix, hunits⟩, hlt, hnanos⟩
    have hscale : 0 < scale ∧ scale < 2 ^ 64 := durationUnits_scale _ hsuffix
    have hto : (UInt64.ofNat scale).toNat = scale := UInt64.toNat_ofNat_of_lt hscale.2
    have hfits : (UInt64.ofNat units).toNat = units :=
      UInt64.toNat_ofNat_of_lt (lt_of_le_of_lt (Nat.le_mul_of_pos_right _ hscale.1) hlt)
    have hparse : parseU64 number = .ok (UInt64.ofNat units) := parseU64_ok.2 (by rw [hfits]; exact hunits)
    -- the product fits, and with it both factors
    have hproduct : (UInt64.ofNat (units * scale)).toNat = units * scale := UInt64.toNat_ofNat_of_lt hlt
    have hmillis : RateLimit.checkedMul (UInt64.ofNat units) (UInt64.ofNat scale) =
        some (UInt64.ofNat (units * scale)) := by
      rw [checkedMul_eq_some, hfits, hto]
      exact ⟨hlt, hproduct⟩
    rw [durationNumber_of_suffix hunits hsuffix]
    simp only [hparse, hmillis]
    congr 1
    ext
    rw [hnanos]
    show (UInt64.ofNat (units * scale)).toNat * 10 ^ 6 = _
    rw [hproduct]

theorem parseDuration_error {name value : Str} {e : EnvError} (h : parseDuration name value = .error e) :
    ∃ message, e = .invalid name value.trim message := by
  unfold parseDuration at h
  simp only at h
  split at h
  · cases h
    exact ⟨_, rfl⟩
  · split at h
    · cases h
      exact ⟨_, rfl⟩
    · cases h

/-! ### The rate limits' windows -/

theorem Spells.char {s : Str} {n : Nat} (h : Spells s n) : ∀ c ∈ s, c.isDigit = true ∨ c = '+' := by
  obtain ⟨digits, rfl | rfl, -, hdigits, -⟩ := h
  · exact fun c hc => .inl (hdigits c hc)
  · intro c hc
    rcases List.mem_cons.1 hc with rfl | hc
    · exact .inr rfl
    · exact .inl (hdigits c hc)

theorem not_whitespace_of_spells {s : Str} {n : Nat} (h : Spells s n) : ∀ c ∈ s, isWhitespace c = false := by
  intro c hc
  rcases Spells.char h c hc with hdigit | rfl
  · have hrange := isDigit_iff.1 hdigit
    exact isWhitespace_of_isAlphanum (isAlphanum_iff.2 (by omega))
  · rfl

theorem durationUnits_visible : ∀ suffix ∈ durationUnits, suffix.1.any isWhitespace = false := by decide

theorem lower_of_spells {s : Str} {n : Nat} (h : Spells s n) : Str.toAsciiLowercase s = s := by
  refine (List.map_congr_left ?_).trans (List.map_id s)
  intro c hc
  rcases Spells.char h c hc with hdigit | rfl
  · have hrange := isDigit_iff.1 hdigit
    rcases toLower_cases c with ⟨hle, -, -⟩ | ⟨-, heq⟩
    · omega
    · exact heq
  · rfl

theorem lower_durationUnits : ∀ suffix ∈ durationUnits, Str.toAsciiLowercase suffix.1 = suffix.1 := by decide

/-- A duration is a text of a window, without a suffix in the permissive mode. -/
theorem DurationText.window {value : Str} {units scale : Nat} (h : DurationText value units scale) :
    RateLimit.WindowText .permissiveBareSeconds (Str.toAsciiLowercase value) units scale := by
  obtain ⟨number, suffix, rfl, hsuffix, hunits⟩ := h
  have hlower : Str.toAsciiLowercase (number ++ suffix) = number ++ suffix := by
    rw [Str.toAsciiLowercase_append, lower_of_spells hunits, lower_durationUnits _ hsuffix]
  have htrim : Spells number.trim units := by rwa [Str.trim_eq_self (not_whitespace_of_spells hunits)]
  rw [hlower]
  simp only [durationUnits, List.mem_cons, Prod.mk.injEq, List.not_mem_nil, or_false] at hsuffix
  rcases hsuffix with ⟨rfl, rfl⟩ | ⟨rfl, rfl⟩ | ⟨rfl, rfl⟩ | ⟨rfl, rfl⟩ | ⟨rfl, rfl⟩
  · exact .suffixed (by simp [RateLimit.unitSuffixes]) htrim
  · exact .suffixed (by simp [RateLimit.unitSuffixes]) htrim
  · exact .suffixed (by simp [RateLimit.unitSuffixes]) htrim
  · exact .suffixed (by simp [RateLimit.unitSuffixes]) htrim
  · rw [List.append_nil]
    exact .bare rfl htrim

/-- The texts that are durations, whatever the spaces around them; the rate limits read all but zero alike. -/
theorem durations_accepted (name value : Str) (d : Duration) :
    (parseDuration name value = .ok d ↔ ∃ units scale, DurationText value.trim units scale ∧ Measures d units scale) ∧
    (∀ e, parseDuration name value = .error e → ∃ message, e = .invalid name value.trim message) ∧
    (parseDuration name value = .ok d → d.isZero = false →
      RateLimit.parseWindow value .permissiveBareSeconds = .ok d) ∧
    ∀ (n : UInt64) suffix scale, (suffix, scale) ∈ durationUnits → Measures d n.toNat scale →
      parseDuration name (decimal n.toNat ++ suffix) = .ok d := by
  refine ⟨parseDuration_eq_ok, fun e => parseDuration_error, fun h hzero => ?_, fun n suffix scale hsuffix hd => ?_⟩
  · obtain ⟨units, scale, htext, hlt, hnanos⟩ := parseDuration_eq_ok.1 h
    refine RateLimit.parseWindow_ok.2 ⟨units, scale, htext.window, ?_, hlt, hnanos⟩
    rw [Duration.isZero, beq_eq_false_iff_ne, hnanos] at hzero
    exact Nat.pos_of_ne_zero fun h0 => hzero (by rw [h0, Nat.zero_mul, Nat.zero_mul])
  · have hspells : Spells (decimal n.toNat) n.toNat := parseU64_ok.1 (parseU64_decimal n)
    have htrim : Str.trim (decimal n.toNat ++ suffix) = decimal n.toNat ++ suffix := by
      refine Str.trim_eq_self fun c hc => ?_
      rcases List.mem_append.1 hc with hc | hc
      · exact not_whitespace_of_spells hspells c hc
      · exact Bool.not_eq_true _ ▸ List.any_eq_false.1 (durationUnits_visible _ hsuffix) c hc
    exact parseDuration_eq_ok.2 ⟨_, _, ⟨_, suffix, htrim, hsuffix, hspells⟩, hd⟩

/-! ## Lists -/

def parseCsv (value : Str) : List Str := ((value.split ',').map Str.trim).filter fun item => !item.isEmpty

def parseHeaderList (value : Str) : List Str := (parseCsv value).map Str.toAsciiLowercase

/-- An item of a list as it is returned. -/
structure CsvItem (item : Str) : Prop where
  nonempty : item ≠ []
  trimmed : item.trim = item
  noComma : ',' ∉ item

theorem parseCsv_append (a b : Str) : parseCsv (a ++ ',' :: b) = parseCsv a ++ parseCsv b := by
  rw [parseCsv, Str.split_append_cons, List.map_append, List.filter_append]
  rfl

theorem csvItem_of_mem {value item : Str} (h : item ∈ parseCsv value) : CsvItem item := by
  rw [parseCsv, List.mem_filter, List.mem_map] at h
  obtain ⟨⟨part, hpart, rfl⟩, hne⟩ := h
  refine ⟨?_, Str.trim_trim part, fun hcomma => Str.not_mem_of_mem_split hpart (Str.mem_of_mem_trim hcomma)⟩
  simpa using hne

theorem parseCsv_item {item : Str} (h : CsvItem item) : parseCsv item = [item] := by
  rw [parseCsv, Str.split, List.splitOn_eq_singleton h.noComma, List.map_singleton, h.trimmed]
  simp [h.nonempty]

theorem parseCsv_intercalate : ∀ {items : List Str}, (∀ item ∈ items, CsvItem item) →
    parseCsv ([','].intercalate items) = items
  | [], _ => rfl
  | [item], h => by
    rw [List.intercalate_singleton]
    exact parseCsv_item (h item (List.mem_singleton_self item))
  | item :: next :: items, h => by
    rw [List.intercalate_cons_cons, List.append_assoc, List.singleton_append, parseCsv_append,
      parseCsv_item (h item (List.mem_cons_self ..)),
      parseCsv_intercalate fun other hother => h other (List.mem_cons_of_mem _ hother)]
    rfl

theorem CsvItem.lower {item : Str} (h : CsvItem item) : CsvItem (Str.toAsciiLowercase item) := by
  refine ⟨?_, ?_, ?_⟩
  · rw [Str.toAsciiLowercase, ne_eq, List.map_eq_nil_iff]
    exact h.nonempty
  · rw [Str.trim_lower, h.trimmed]
  · intro hcomma
    obtain ⟨c, hc, hlower⟩ := List.mem_map.1 hcomma
    rw [toLower_eq_iff (by decide)] at hlower
    exact h.noComma (hlower ▸ hc)

theorem parseHeaderList_lower (value : Str) : parseHeaderList value.toAsciiLowercase = parseHeaderList value := by
  have htrim : (Str.trim ∘ Str.toAsciiLowercase) = Str.toAsciiLowercase ∘ Str.trim := funext Str.trim_lower
  have hempty : ((fun item : Str => !item.isEmpty) ∘ Str.toAsciiLowercase) = fun item => !item.isEmpty :=
    funext fun item => by rw [Function.comp_apply, Str.isEmpty_lower]
  have hidem : (Str.toAsciiLowercase ∘ Str.toAsciiLowercase) = Str.toAsciiLowercase := funext Str.toAsciiLowercase_idem
  rw [parseHeaderList, parseHeaderList, parseCsv, parseCsv, Str.split_lower (by rfl), List.map_map, htrim,
    ← List.map_map, List.filter_map, hempty, List.map_map, hidem]

/-- What is read from a list is written back and read again unchanged; a list of texts is read back exactly
if each of them is an item; and lists are joined by commas. -/
theorem csv_round_trip (value rest : Str) (items : List Str) :
    (parseCsv ([','].intercalate items) = items ↔ ∀ item ∈ items, CsvItem item) ∧
    parseCsv ([','].intercalate (parseCsv value)) = parseCsv value ∧
    parseHeaderList ([','].intercalate (parseHeaderList value)) = parseHeaderList value ∧
    parseHeaderList value.toAsciiLowercase = parseHeaderList value ∧
    parseCsv (value ++ ',' :: rest) = parseCsv value ++ parseCsv rest := by
  refine ⟨⟨fun h item hitem => ?_, parseCsv_intercalate⟩, ?_, ?_, ?_, parseCsv_append value rest⟩
  · rw [← h] at hitem
    exact csvItem_of_mem hitem
  · exact parseCsv_intercalate fun item hitem => csvItem_of_mem hitem
  · have hitems : ∀ item ∈ parseHeaderList value, CsvItem item := by
      intro item hitem
      obtain ⟨header, hheader, rfl⟩ := List.mem_map.1 hitem
      exact (csvItem_of_mem hheader).lower
    rw [parseHeaderList, parseCsv_intercalate hitems, parseHeaderList, List.map_map]
    refine List.map_congr_left fun header _ => ?_
    exact Str.toAsciiLowercase_idem header
  · exact parseHeaderList_lower value

/-! ## Environments -/

inductive EnvironmentKind where
  | development
  | test
  | staging
  | production
  | unknown
  deriving DecidableEq, Repr

def classifyEnvironment (name : Str) : EnvironmentKind :=
  let lower := Str.toAsciiLowercase name.trim
  if ["dev".toList, "development".toList, "local".toList].contains lower then .development
  else if ["test".toList, "ci".toList].contains lower then .test
  else if ["stage".toList, "staging".toList, "preprod".toList, "pre-production".toList].contains lower then .staging
  else if ["prod".toList, "production".toList].contains lower then .production
  else .unknown

/-- No other label is taken for production, and no label of production for another environment. -/
theorem classifyEnvironment_production {name : Str} : classifyEnvironment name = .production ↔
    Str.toAsciiLowercase name.trim ∈ ["prod".toList, "production".toList] := by
  unfold classifyEnvironment
  simp only
  generalize Str.toAsciiLowercase name.trim = lower
  constructor
  · intro h
    split at h
    · cases h
    · split at h
      · cases h
      · split at h
        · cases h
        · split at h
          · rename_i hproduction
            exact List.contains_iff_mem.1 hproduction
          · cases h
  · intro h
    simp only [List.mem_cons, List.not_mem_nil, or_false] at h
    rcases h with rfl | rfl <;> rfl

end WorldInfra.Env
