/-
scoped-sql-lint: the scan of a source. A line is reported if it has a raw pool pattern, no comment allows it,
and a sensitive table is named in the lines around it. The end of these lines is computed with plain `usize`
additions.
-/
import WorldInfra.Rust.Lines
import WorldInfra.ScopedSql.Comments
import WorldInfra.ScopedSql.Identifiers

namespace WorldInfra.Rust

/-- Whether arithmetic that overflows panics or wraps. -/
structure Build where
  overflowChecks : Bool
  deriving DecidableEq, Repr

/-- `+` on `usize`; no value is a panic. -/
def Build.addUsize (build : Build) (m n : Nat) : Option Nat :=
  if m + n < 2 ^ 64 then some (m + n)
  else if build.overflowChecks then none
  else some ((m + n) % 2 ^ 64)

end WorldInfra.Rust

namespace WorldInfra.ScopedSql

open WorldInfra.Rust

structure ScopedSqlLintConfig where
  sensitiveTables : List Str
  rawPoolPatterns : List Str
  allowCommentPrefix : Str
  contextRadius : UInt64
  deriving DecidableEq, Repr

def ScopedSqlLintConfig.new (tables : List Str) : ScopedSqlLintConfig where
  sensitiveTables := tables
  rawPoolPatterns :=
    ["&self.pool".toList, "sqlx_pool()".toList, "require_sqlx_pool".toList, ".pool()".toList]
  allowCommentPrefix := "scoped-sqlx-lint: allow".toList
  contextRadius := 8

structure ScopedSqlFinding where
  line : Nat
  pattern : Str
  table : Option Str
  message : Str
  deriving DecidableEq, Repr

structure ScopedSqlFindingWithSnippet where
  finding : ScopedSqlFinding
  snippet : Str
  deriving DecidableEq, Repr

inductive ScopedSqlLintError where
  | missingRawPoolPatterns
  | missingAllowCommentPrefix
  deriving DecidableEq, Repr

def validateConfig (config : ScopedSqlLintConfig) : Except ScopedSqlLintError Unit :=
  if config.rawPoolPatterns.isEmpty then .error .missingRawPoolPatterns
  else if config.allowCommentPrefix.trim.isEmpty then .error .missingAllowCommentPrefix
  else .ok ()

section

variable (build : Build) (config : ScopedSqlLintConfig) (lines : List Str)

def nearbySensitiveTable (index : Nat) : Option (Option Str) := do
  let start := index - config.contextRadius.toNat
  let stop ← build.addUsize index config.contextRadius.toNat
  let stop ← build.addUsize stop 1
  let stop := min stop lines.length
  -- a slice whose start is behind its end panics
  if start ≤ stop then
    let window := Str.toAsciiLowercase (['\n'].intercalate ((lines.take stop).drop start))
    some (config.sensitiveTables.find? (containsIdentifier window ·))
  else none

def findingMessage : Str :=
  "raw pool access near world/tenant-sensitive SQL needs scoped review".toList

/-- The body of the loop: no value is a panic, `some none` is a `continue`. -/
def scanLine (index : Nat) (line : Str) : Option (Option ScopedSqlFindingWithSnippet) :=
  match config.rawPoolPatterns.find? (line.containsText ·) with
  | none => some none
  | some pattern =>
    if isAllowed lines index config.allowCommentPrefix then some none
    else do
      let table ← nearbySensitiveTable build config lines index
      if table.isNone ∧ config.sensitiveTables ≠ [] then some none
      else some (some ⟨⟨index + 1, pattern, table, findingMessage⟩, line.trim⟩)

def scanLines : Nat → List Str → Option (List ScopedSqlFindingWithSnippet)
  | _, [] => some []
  | index, line :: rest => do
    let finding ← scanLine build config lines index line
    let findings ← scanLines (index + 1) rest
    some (finding.toList ++ findings)

end

def scanSourceInner (build : Build) (source : Str) (config : ScopedSqlLintConfig) :
    Option (Except ScopedSqlLintError (List ScopedSqlFindingWithSnippet)) :=
  match validateConfig config with
  | .error e => some (.error e)
  | .ok () => (scanLines build config source.lines 0 source.lines).map .ok

def scanSource (build : Build) (source : Str) (config : ScopedSqlLintConfig) :
    Option (Except ScopedSqlLintError (List ScopedSqlFinding)) :=
  (scanSourceInner build source config).map fun result => result.map (List.map (·.finding))

/-! ## What is to be reported -/

/-- `a` is the first of the list with the property. -/
def FirstWith {α : Type} (l : List α) (p : α → Prop) (a : α) : Prop :=
  p a ∧ ∃ before after, l = before ++ a :: after ∧ ∀ b ∈ before, ¬ p b

theorem find?_eq_some_iff_firstWith {α : Type} {l : List α} {p : α → Bool} {a : α} :
    l.find? p = some a ↔ FirstWith l (fun a => p a = true) a := by
  simp only [List.find?_eq_some_iff_append, FirstWith, Bool.not_eq_true', Bool.not_eq_true]

section

variable (config : ScopedSqlLintConfig) (lines : List Str)

/-- The lines at most `contextRadius` away from line `i`. -/
def nearLines (i : Nat) : List Str :=
  (lines.zipIdx.filter fun line => i ≤ line.2 + config.contextRadius.toNat ∧
    line.2 ≤ i + config.contextRadius.toNat).map
    Prod.fst

def window (i : Nat) : Str := Str.toAsciiLowercase (['\n'].intercalate (nearLines config lines i))

/-- No comment allows what stands on line `i`. -/
def NotAllowed (i : Nat) : Prop :=
  ∀ k line, k = i ∨ k + 1 = i → lines[k]? = some line → isAllowComment line config.allowCommentPrefix = false

/-- Line `i` is to be reported as `finding`. -/
structure Reported (i : Nat) (finding : ScopedSqlFinding) : Prop where
  line : finding.line = i + 1
  pattern : ∃ line, lines[i]? = some line ∧ FirstWith config.rawPoolPatterns (· <:+: line) finding.pattern
  notAllowed : NotAllowed config lines i
  table : (config.sensitiveTables = [] ∧ finding.table = none) ∨ ∃ table, finding.table = some table ∧
    FirstWith config.sensitiveTables (fun table => containsIdentifier (window config lines i) table = true) table
  message : finding.message = findingMessage

/-- The lines around line `i` are looked at. -/
def Examined (i : Nat) : Prop :=
  (∃ line pattern, lines[i]? = some line ∧ pattern ∈ config.rawPoolPatterns ∧ pattern <:+: line) ∧
    NotAllowed config lines i

/-- The end of the lines around every line that is examined fits a `usize`. -/
def EndsFit : Prop := ∀ i, Examined config lines i → i + config.contextRadius.toNat + 1 < 2 ^ 64

end

/-- The findings ascend, at most one for a line, and are those of the lines to be reported. -/
def ExactlyReported (build : Build) (source : Str) (config : ScopedSqlLintConfig) : Prop :=
  ∃ findings, scanSource build source config = some (.ok findings) ∧
    findings.Pairwise (fun f g => f.line < g.line) ∧
    ∀ f, f ∈ findings ↔ ∃ i, Reported config source.lines i f

/-! ## The lines around a line -/

theorem filter_zipIdx_between {α : Type} (a b : Nat) : ∀ (l : List α) (n : Nat),
    ((l.zipIdx n).filter fun x => a ≤ x.2 ∧ x.2 < b).map Prod.fst = (l.take (b - n)).drop (a - n)
  | [], n => by simp
  | x :: l, n => by
    rw [List.zipIdx_cons, List.filter_cons]
    have ih := filter_zipIdx_between a b l (n + 1)
    by_cases hb : n < b
    · rw [show b - n = b - (n + 1) + 1 by omega, List.take_succ_cons]
      by_cases ha : a ≤ n
      · rw [if_pos (by simp [ha, hb]), List.map_cons, ih, Nat.sub_eq_zero_of_le ha,
          Nat.sub_eq_zero_of_le (show a ≤ n + 1 by omega), List.drop_zero, List.drop_zero]
      · rw [if_neg (by simp [ha]), ih, show a - n = a - (n + 1) + 1 by omega, List.drop_succ_cons]
    · rw [if_neg (by simp [hb]), ih, Nat.sub_eq_zero_of_le (show b ≤ n by omega),
        Nat.sub_eq_zero_of_le (show b ≤ n + 1 by omega), List.take_zero, List.take_zero, List.drop_nil, List.drop_nil]

section

variable {build : Build} {config : ScopedSqlLintConfig} {lines : List Str}

theorem nearLines_eq (i : Nat) :
    nearLines config lines i = (lines.take (i + config.contextRadius.toNat + 1)).drop
      (i - config.contextRadius.toNat) := by
  have h := filter_zipIdx_between (i - config.contextRadius.toNat) (i + config.contextRadius.toNat + 1) lines 0
  rw [Nat.sub_zero, Nat.sub_zero] at h
  rw [← h, nearLines]
  congr 2
  funext line
  rw [decide_eq_decide]
  omega

theorem addUsize_fits {m n : Nat} (h : m + n < 2 ^ 64) : build.addUsize m n = some (m + n) := if_pos h

theorem addUsize_checked {m n : Nat} (h : ¬ m + n < 2 ^ 64) : Build.addUsize ⟨true⟩ m n = none := by
  rw [Build.addUsize, if_neg h, if_pos rfl]

theorem nearbySensitiveTable_fits {i : Nat} (hi : i < lines.length)
    (hfits : i + config.contextRadius.toNat + 1 < 2 ^ 64) :
    nearbySensitiveTable build config lines i =
      some (config.sensitiveTables.find? (containsIdentifier (window config lines i) ·)) := by
  have hslice : (lines.take (min (i + config.contextRadius.toNat + 1) lines.length)).drop
      (i - config.contextRadius.toNat) =
      nearLines config lines i := by
    rw [nearLines_eq, ← List.take_eq_take_min]
  unfold nearbySensitiveTable
  rw [addUsize_fits (by omega), Option.bind_eq_bind, Option.bind_some, addUsize_fits hfits]
  simp only [Option.bind_some]
  rw [if_pos (by omega), hslice]
  rfl

/-- With overflow checks, a line whose end does not fit brings the scan down. -/
theorem nearbySensitiveTable_overflow {i : Nat} (h : ¬ i + config.contextRadius.toNat + 1 < 2 ^ 64) :
    nearbySensitiveTable ⟨true⟩ config lines i = none := by
  unfold nearbySensitiveTable
  by_cases hfirst : i + config.contextRadius.toNat < 2 ^ 64
  · rw [addUsize_fits hfirst, Option.bind_eq_bind, Option.bind_some, addUsize_checked h]
    rfl
  · rw [addUsize_checked hfirst]
    rfl

/-! ## One line -/

theorem isAllowed_eq_false {i : Nat} : isAllowed lines i config.allowCommentPrefix = false ↔
    NotAllowed config lines i := by
  have hany : ∀ o : Option Str, o.any (isAllowComment · config.allowCommentPrefix) = false ↔
      ∀ line, o = some line → isAllowComment line config.allowCommentPrefix = false := by
    intro o
    cases o <;> simp
  rw [isAllowed, Bool.or_eq_false_iff, hany, hany]
  constructor
  · rintro ⟨hsame, hbefore⟩ k line (rfl | rfl) hline
    · exact hsame line hline
    · exact hbefore line hline
  · intro h
    refine ⟨fun line hline => h i line (Or.inl rfl) hline, fun line hline => ?_⟩
    split at hline
    · exact h (i - 1) line (Or.inr (by omega)) hline
    · cases hline

theorem find?_containsText {line pattern : Str} : config.rawPoolPatterns.find? (line.containsText ·) = some pattern ↔
    FirstWith config.rawPoolPatterns (· <:+: line) pattern := by
  rw [find?_eq_some_iff_firstWith]
  simp only [Str.containsText, decide_eq_true_eq]

/-- An examined line is to be reported with its first pattern, and with what is found in the lines around it. -/
theorem reported_iff {i : Nat} {line pattern : Str} {f : ScopedSqlFinding} (hline : lines[i]? = some line)
    (hpattern : config.rawPoolPatterns.find? (line.containsText ·) = some pattern)
    (hallowed : NotAllowed config lines i) :
    Reported config lines i f ↔ ∃ table, f = ⟨i + 1, pattern, table, findingMessage⟩ ∧
      config.sensitiveTables.find? (containsIdentifier (window config lines i) ·) = table ∧
      (table = none → config.sensitiveTables = []) := by
  constructor
  · rintro ⟨hl, ⟨line', hline', hfirst⟩, -, htable, hmessage⟩
    rw [Option.some.inj (hline'.symm.trans hline), ← find?_containsText, hpattern] at hfirst
    refine ⟨f.table, ?_, ?_⟩
    · obtain ⟨_, _, _, _⟩ := f
      cases hl
      cases hfirst
      cases hmessage
      rfl
    · rcases htable with ⟨hempty, hnone⟩ | ⟨table, hsome, hfound⟩
      · rw [hempty, hnone]
        exact ⟨rfl, fun _ => rfl⟩
      · rw [hsome, ← find?_eq_some_iff_firstWith.2 hfound]
        exact ⟨rfl, fun h => by rw [find?_eq_some_iff_firstWith.2 hfound] at h; cases h⟩
  · rintro ⟨table, rfl, htable, hempty⟩
    refine ⟨rfl, ⟨line, hline, find?_containsText.1 hpattern⟩, hallowed, ?_, rfl⟩
    cases table with
    | none => exact Or.inl ⟨hempty rfl, rfl⟩
    | some table => exact Or.inr ⟨table, rfl, find?_eq_some_iff_firstWith.1 htable⟩

/-- What is examined and fits gives the finding that is to be reported, if any. -/
theorem scanLine_spec {i : Nat} {line : Str} (hline : lines[i]? = some line)
    (hfits : Examined config lines i → i + config.contextRadius.toNat + 1 < 2 ^ 64) :
    ∃ finding, scanLine build config lines i line = some finding ∧
      ∀ f, f ∈ finding.map (·.finding) ↔ Reported config lines i f := by
  have hsame : ∀ {line'}, lines[i]? = some line' → line' = line := fun h => Option.some.inj (h.symm.trans hline)
  unfold scanLine
  cases hpattern : config.rawPoolPatterns.find? (line.containsText ·) with
  | none =>
    refine ⟨none, rfl, fun f => iff_of_false (by simp) ?_⟩
    rintro ⟨-, ⟨line', hline', hfirst⟩, -⟩
    rw [hsame hline', ← find?_containsText, hpattern] at hfirst
    cases hfirst
  | some pattern =>
    have hfirst := find?_containsText.1 hpattern
    simp only
    split
    · next hallowed =>
      refine ⟨none, rfl, fun f => iff_of_false (by simp) ?_⟩
      rintro ⟨-, -, hnot, -⟩
      rw [isAllowed_eq_false.2 hnot] at hallowed
      cases hallowed
    · next hallowed =>
      rw [Bool.not_eq_true, isAllowed_eq_false] at hallowed
      -- only an examined line has to fit: the window is not computed for the others
      have hexamined : Examined config lines i := by
        obtain ⟨hin, before, after, hsplit, -⟩ := hfirst
        exact ⟨⟨line, pattern, hline, hsplit ▸ by simp, hin⟩, hallowed⟩
      rw [nearbySensitiveTable_fits (List.getElem?_eq_some_iff.1 hline).1 (hfits hexamined), Option.bind_eq_bind,
        Option.bind_some]
      simp only [reported_iff hline hpattern hallowed]
      cases hfound : config.sensitiveTables.find? (containsIdentifier (window config lines i) ·) with
      | none =>
        by_cases hempty : config.sensitiveTables = []
        · exact ⟨_, by rw [if_neg (by simp [hempty])], fun f => by simp [hempty, eq_comm]⟩
        · exact ⟨_, by rw [if_pos ⟨rfl, hempty⟩], fun f => by simp [hempty]⟩
      | some table => exact ⟨_, by rw [if_neg (by simp)], fun f => by simp [eq_comm]⟩

/-! ## The whole source -/

theorem scanLines_spec (hfits : EndsFit config lines) : ∀ {index : Nat} {rest : List Str}, lines.drop index = rest →
    ∃ findings, scanLines build config lines index rest = some findings ∧
      (findings.map (·.finding)).Pairwise (fun f g => f.line < g.line) ∧
      ∀ f, f ∈ findings.map (·.finding) ↔ ∃ i, index ≤ i ∧ Reported config lines i f
  | index, [], hrest => by
    refine ⟨[], rfl, List.Pairwise.nil, fun f => iff_of_false (by simp) ?_⟩
    rintro ⟨i, hi, -, ⟨line, hline, -⟩, -⟩
    rw [List.drop_eq_nil_iff] at hrest
    have := (List.getElem?_eq_some_iff.1 hline).1
    omega
  | index, line :: rest, hrest => by
    have hline : lines[index]? = some line := by
      rw [← List.head?_drop, hrest, List.head?_cons]
    have hnext : lines.drop (index + 1) = rest := by rw [← List.drop_drop, hrest, List.drop_one, List.tail_cons]
    -- a line gives one finding at most, under its own number, which the later ones exceed
    obtain ⟨finding, hfinding, hreported⟩ := @scanLine_spec build config lines index line hline (hfits index)
    obtain ⟨findings, hfindings, hascend, hmem⟩ := scanLines_spec hfits hnext
    refine ⟨finding.toList ++ findings, ?_, ?_, fun f => ?_⟩
    · rw [scanLines, hfinding, hfindings]
      rfl
    · cases finding with
      | none => exact hascend
      | some x =>
        refine List.pairwise_cons.2 ⟨fun g hg => ?_, hascend⟩
        obtain ⟨i, hi, hg⟩ := (hmem g).1 hg
        rw [((hreported x.finding).1 rfl).line, hg.line]
        omega
    · have hsplit : f ∈ (finding.toList ++ findings).map (·.finding) ↔
          f ∈ finding.map (·.finding) ∨ f ∈ findings.map (·.finding) := by
        cases finding <;> simp [eq_comm]
      rw [hsplit, hreported, hmem]
      constructor
      · rintro (hf | ⟨i, hi, hf⟩)
        · exact ⟨index, le_rfl, hf⟩
        · exact ⟨i, by omega, hf⟩
      · rintro ⟨i, hi, hf⟩
        rcases Nat.eq_or_lt_of_le hi with rfl | hlt
        · exact Or.inl hf
        · exact Or.inr ⟨i, hlt, hf⟩

/-- With overflow checks, the scan ends at a line that is examined and whose end does not fit. -/
theorem scanLines_overflow {i : Nat} (hexamined : Examined config lines i)
    (hoverflow : ¬ i + config.contextRadius.toNat + 1 < 2 ^ 64) : ∀ {index : Nat} {rest : List Str}, index ≤ i →
      lines.drop index = rest → scanLines ⟨true⟩ config lines index rest = none
  | index, [], hi, hrest => by
    obtain ⟨⟨line, _, hline, -⟩, -⟩ := hexamined
    rw [List.drop_eq_nil_iff] at hrest
    have := (List.getElem?_eq_some_iff.1 hline).1
    omega
  | index, line :: rest, hi, hrest => by
    have hnext : lines.drop (index + 1) = rest := by rw [← List.drop_drop, hrest, List.drop_one, List.tail_cons]
    rcases Nat.eq_or_lt_of_le hi with rfl | hlt
    · obtain ⟨⟨line', pattern, hline', hmem, hin⟩, hallowed⟩ := hexamined
      have hline : line' = line := by
        rw [← List.head?_drop, hrest, List.head?_cons] at hline'
        exact (Option.some.inj hline').symm
      obtain ⟨first, hfirst⟩ : ∃ first, config.rawPoolPatterns.find? (line.containsText ·) = some first := by
        rw [← Option.isSome_iff_exists, List.find?_isSome]
        exact ⟨pattern, hmem, by rw [Str.containsText, decide_eq_true_eq, ← hline]; exact hin⟩
      have hscan : scanLine ⟨true⟩ config lines index line = none := by
        rw [scanLine, hfirst]
        simp only [isAllowed_eq_false.2 hallowed, Bool.false_eq_true, if_false, nearbySensitiveTable_overflow hoverflow]
        rfl
      rw [scanLines, hscan]
      rfl
    · rw [scanLines, scanLines_overflow hexamined hoverflow hlt hnext]
      cases scanLine ⟨true⟩ config lines index line <;> rfl

end

theorem scanSource_of_valid {build : Build} {source : Str} {config : ScopedSqlLintConfig}
    (hvalid : validateConfig config = .ok ()) : scanSource build source config =
      (scanLines build config source.lines 0 source.lines).map fun findings => .ok (findings.map (·.finding)) := by
  rw [scanSource, scanSourceInner, hvalid]
  simp only [Option.map_map]
  rfl

theorem exactlyReported_of_endsFit {build : Build} {source : Str} {config : ScopedSqlLintConfig}
    (hvalid : validateConfig config = .ok ()) (hfits : EndsFit config source.lines) :
    ExactlyReported build source config := by
  obtain ⟨findings, hscan, hascend, hmem⟩ := @scanLines_spec build config source.lines hfits 0 _ List.drop_zero
  refine ⟨findings.map (·.finding), ?_, hascend, fun f => ?_⟩
  · rw [scanSource_of_valid hvalid, hscan]
    rfl
  · rw [hmem]
    simp only [Nat.zero_le, true_and]

/-! ## A larger radius -/

section

variable {config : ScopedSqlLintConfig} {lines : List Str} {radius : UInt64}

theorem EndsFit.of_le (hle : config.contextRadius ≤ radius)
    (h : EndsFit { config with contextRadius := radius } lines) :
    EndsFit config lines := by
  intro i hi
  have := h i hi
  rw [UInt64.le_iff_toNat_le] at hle
  simp only at this
  omega

/-- The lines around a line stand in one piece among the lines of a larger radius. -/
theorem nearLines_wider {i : Nat} (hi : i < lines.length) (hle : config.contextRadius ≤ radius) :
    ∃ before after, nearLines { config with contextRadius := radius } lines i =
      before ++ nearLines config lines i ++ after := by
  rw [UInt64.le_iff_toNat_le] at hle
  rw [nearLines_eq, nearLines_eq]
  obtain ⟨after, hafter⟩ : lines.take (i + config.contextRadius.toNat + 1) <+: lines.take (i + radius.toNat + 1) :=
    List.take_prefix_take_left (by omega)
  obtain ⟨before, hbefore⟩ : (lines.take (i + config.contextRadius.toNat + 1)).drop (i - config.contextRadius.toNat) <:+
      (lines.take (i + config.contextRadius.toNat + 1)).drop (i - radius.toNat) :=
    List.drop_suffix_drop_left _ (by omega)
  refine ⟨before, after, ?_⟩
  rw [← hafter, List.drop_append_of_le_length (by rw [List.length_take]; omega), hbefore]

theorem nearLines_ne_nil {i : Nat} (hi : i < lines.length) : nearLines config lines i ≠ [] := by
  rw [nearLines_eq, ← List.length_pos_iff, List.length_drop, List.length_take]
  omega

/-- What is named in the lines around a line is named in those of a larger radius. -/
theorem containsIdentifier_wider {i : Nat} {table : Str} (hi : i < lines.length) (hle : config.contextRadius ≤ radius)
    (hname : '\n' ∉ table ∨ ¬ HidesItself table.toAsciiLowercase)
    (h : containsIdentifier (window config lines i) table = true) :
    containsIdentifier (window { config with contextRadius := radius } lines i) table = true := by
  obtain ⟨before, after, hlines⟩ := nearLines_wider hi hle
  have hnear : nearLines config lines i ≠ [] := nearLines_ne_nil hi
  have hbefore : containsIdentifier
      (Str.toAsciiLowercase (['\n'].intercalate (before ++ nearLines config lines i))) table = true := by
    by_cases hnil : before = []
    · rw [hnil, List.nil_append]
      exact h
    · rw [Str.intercalate_append '\n' hnil hnear, Str.toAsciiLowercase_append, Str.toAsciiLowercase_cons]
      exact containsIdentifier_behind_line hname _ h
  rw [window, hlines]
  by_cases hnil : after = []
  · rw [hnil, List.append_nil]
    exact hbefore
  · rw [Str.intercalate_append '\n' (List.append_ne_nil_of_right_ne_nil _ hnear) hnil, Str.toAsciiLowercase_append,
      Str.toAsciiLowercase_cons]
    exact containsIdentifier_before_line hname _ hbefore

theorem Reported.wider {i : Nat} {f : ScopedSqlFinding} (hle : config.contextRadius ≤ radius)
    (hnames : ∀ table ∈ config.sensitiveTables, '\n' ∉ table ∨ ¬ HidesItself table.toAsciiLowercase)
    (h : Reported config lines i f) :
    ∃ g, Reported { config with contextRadius := radius } lines i g ∧ g.line = f.line ∧ g.pattern = f.pattern := by
  obtain ⟨line, hline, hfirst⟩ := h.pattern
  have hi := (List.getElem?_eq_some_iff.1 hline).1
  have hreported := fun g => @reported_iff { config with contextRadius := radius } lines i line f.pattern g hline
    (find?_containsText.2 hfirst) h.notAllowed
  refine ⟨⟨i + 1, f.pattern, _, findingMessage⟩, (hreported _).2 ⟨_, rfl, rfl, ?_⟩, h.line.symm, rfl⟩
  intro hnone
  rcases h.table with ⟨hempty, -⟩ | ⟨table, -, hfound, before, after, hsplit, -⟩
  · exact hempty
  · have hmem : table ∈ config.sensitiveTables := hsplit ▸ by simp
    exact absurd (containsIdentifier_wider hi hle (hnames table hmem) hfound) (List.find?_eq_none.1 hnone table hmem)

end

/-- The scan of a valid configuration reports the right lines in every build if and only if the end of the lines
around every examined line fits a `usize`. A larger radius that fits keeps every finding, if no table name breaks
off a line and can hide itself. -/
theorem scanSource_exact_iff (source : Str) (config : ScopedSqlLintConfig) (hvalid : validateConfig config = .ok ()) :
    ((∀ build, ExactlyReported build source config) ↔ EndsFit config source.lines) ∧
    ∀ radius, config.contextRadius ≤ radius → EndsFit { config with contextRadius := radius } source.lines →
      (∀ table ∈ config.sensitiveTables, '\n' ∉ table ∨ ¬ HidesItself table.toAsciiLowercase) →
      ∀ build findings raised, scanSource build source config = some (.ok findings) →
        scanSource build source { config with contextRadius := radius } = some (.ok raised) →
        ∀ f ∈ findings, ∃ g ∈ raised, g.line = f.line ∧ g.pattern = f.pattern := by
  constructor
  · refine ⟨fun h i hexamined => ?_, fun h build => exactlyReported_of_endsFit hvalid h⟩
    by_contra hoverflow
    obtain ⟨findings, hscan, -⟩ := h ⟨true⟩
    rw [scanSource_of_valid hvalid, scanLines_overflow hexamined hoverflow (Nat.zero_le i) List.drop_zero] at hscan
    cases hscan
  · intro radius hle hfits hnames build findings raised hscan hraised f hf
    have hexact : ExactlyReported build source config := exactlyReported_of_endsFit hvalid (hfits.of_le hle)
    have hwider : ExactlyReported build source { config with contextRadius := radius } :=
      exactlyReported_of_endsFit hvalid hfits
    obtain ⟨_, hscan', -, hmem⟩ := hexact
    obtain ⟨_, hraised', -, hmem'⟩ := hwider
    cases hscan.symm.trans hscan'
    cases hraised.symm.trans hraised'
    obtain ⟨i, hi⟩ := (hmem f).1 hf
    obtain ⟨g, hg, hsame⟩ := hi.wider hle hnames
    exact ⟨g, (hmem' g).2 ⟨i, hg⟩, hsame⟩

/-- One line of pool access to `world`. -/
def poolAccess : Str := "self.pool(), from world".toList

theorem lines_poolAccess : poolAccess.lines = [poolAccess] := by decide

theorem scanSource_exact_poolAccess : ExactlyReported ⟨true⟩ poolAccess (.new ["world".toList]) := by
  refine (scanSource_exact_iff poolAccess (.new ["world".toList]) rfl).1.2 (fun i hi => ?_) ⟨true⟩
  obtain ⟨⟨line, _, hline, -⟩, -⟩ := hi
  rw [lines_poolAccess] at hline
  have hi : i < 1 := (List.getElem?_eq_some_iff.1 hline).1
  have hradius : (ScopedSqlLintConfig.new ["world".toList]).contextRadius.toNat = 8 := rfl
  omega

/-- The largest radius: already the end of the lines around the first line does not fit. -/
def widestConfig : ScopedSqlLintConfig :=
  { ScopedSqlLintConfig.new ["world".toList] with contextRadius := UInt64.ofNat (2 ^ 64 - 1) }

theorem scanSource_widest : ¬ ∀ build source config, validateConfig config = .ok () →
    ExactlyReported build source config := by
  intro h
  obtain ⟨findings, hscan, -⟩ := h ⟨true⟩ poolAccess widestConfig rfl
  have hnone : scanSource ⟨true⟩ poolAccess widestConfig = none := by rfl
  rw [hnone] at hscan
  cases hscan

end WorldInfra.ScopedSql
