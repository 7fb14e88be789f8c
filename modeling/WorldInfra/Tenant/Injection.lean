/-
tenant-scope-sqlx: what PostgreSQL reads in a `SET LOCAL` statement. The lexer takes up the name
part by part and the value character by character, so nothing of either is read as anything else.
-/
import WorldInfra.Pg.Lexer
import WorldInfra.Tenant.SetLocal

namespace WorldInfra.Tenant

open WorldInfra.Lib WorldInfra.Rust WorldInfra.Pg

/-! ## Names -/

/-- The tokens of a dotted name. -/
def nameTokens (name : Str) : List Token := ((name.split '.').map .word).intersperse .dot

theorem identCont_iff {c : Char} : identCont c = true ↔
    ((97 ≤ c.toNat ∧ c.toNat ≤ 122) ∨ (48 ≤ c.toNat ∧ c.toNat ≤ 57)) ∨ c = '_' := by
  simp only [identCont, Char.isLower, Char.isDigit, Bool.or_eq_true, Bool.and_eq_true, decide_eq_true_eq,
    UInt32.le_iff_toNat_le, ge_iff_le, beq_iff_eq]
  rfl

/-- The characters of a name are in lower case. -/
theorem toLower_of_identCont {c : Char} (h : identCont c = true) : c.toLower = c := by
  rw [identCont_iff] at h
  refine dif_neg fun hupper => ?_
  simp only [ge_iff_le, UInt32.le_iff_toNat_le] at hupper
  have h1 : 65 ≤ c.toNat := hupper.1
  have h2 : c.toNat ≤ 90 := hupper.2
  rcases h with h | rfl
  · omega
  · revert h2; decide

theorem clip_of_le : ∀ {budget : Nat} {s : Str}, s.len ≤ budget → clip budget s = s
  | _, [], _ => by rw [clip]
  | budget, c :: s, h => by
    rw [Str.len_cons] at h
    rw [clip, if_pos (by omega), clip_of_le (by omega)]

/-- An identifier of the crate stands for itself. -/
theorem identifier_of_isUnquotedIdentifier {part : Str} (h : isUnquotedIdentifier part = true) :
    identifier part = part := by
  obtain ⟨hlen, c, s, rfl, hc, hs⟩ := isUnquotedIdentifier_iff.1 h
  have hlower : (c :: s).map Char.toLower = c :: s := by
    refine (List.map_congr_left fun d hd => ?_).trans (List.map_id _)
    rcases List.mem_cons.1 hd with rfl | hd
    · exact toLower_of_identCont (identCont_of_identStart hc)
    · exact toLower_of_identCont (hs d hd)
  rw [identifier, hlower, clip_of_le hlen]

theorem identStart_iff {c : Char} : identStart c = true ↔ (97 ≤ c.toNat ∧ c.toNat ≤ 122) ∨ c = '_' := by
  simp only [identStart, Char.isLower, Bool.or_eq_true, Bool.and_eq_true, decide_eq_true_eq,
    UInt32.le_iff_toNat_le, ge_iff_le, beq_iff_eq]
  rfl

theorem isIdentStart_of_identStart {c : Char} (h : identStart c = true) : isIdentStart c = true := by
  simp only [identStart, isIdentStart, Char.isAlpha, Bool.or_eq_true] at h ⊢
  rcases h with h | h
  · exact Or.inl (Or.inl (Or.inr h))
  · exact Or.inl (Or.inr h)

theorem isIdentCont_of_identCont {c : Char} (h : identCont c = true) : isIdentCont c = true := by
  simp only [identCont, isIdentCont, isIdentStart, Char.isAlpha, Bool.or_eq_true] at h ⊢
  rcases h with (h | h) | h
  · exact Or.inl (Or.inl (Or.inl (Or.inl (Or.inr h))))
  · exact Or.inl (Or.inr h)
  · exact Or.inl (Or.inl (Or.inl (Or.inr h)))

/-- In mode `m` a word may begin, and then `ts` has been read before it. -/
def Opens (m : Mode) (ts : List Token) : Prop := ∀ c, identStart c = true → step m c = some (ts, .word [c])

theorem begin_word {c : Char} (h : identStart c = true) : begin c = some (.word [c]) := by
  have hspace : isSpace c = false := by
    rw [← Bool.not_eq_true, isSpace, List.contains_iff_mem]
    intro hc
    simp only [List.mem_cons, List.not_mem_nil, or_false] at hc
    rcases hc with rfl | rfl | rfl | rfl | rfl | rfl <;> cases h
  rw [begin, hspace, if_neg Bool.false_ne_true, if_pos (isIdentStart_of_identStart h)]

theorem opens_start : Opens .start [] := by
  intro c hc
  rw [step, begin_word hc]
  rfl

theorem opens_dot : Opens .dot [.dot] := by
  intro c hc
  have hno : ¬ (c.isDigit = true ∨ c = '.') := by
    rw [identStart_iff] at hc
    rintro (hd | rfl)
    · simp only [Char.isDigit, Bool.and_eq_true, decide_eq_true_eq, UInt32.le_iff_toNat_le, ge_iff_le] at hd
      have hle : c.toNat ≤ 57 := hd.2
      rcases hc with hc | rfl
      · omega
      · revert hle; decide
    · revert hc; decide
  rw [step, if_neg hno, begin_word hc]
  rfl

theorem feed_part {part : Str} (h : isUnquotedIdentifier part = true) {m : Mode} {ts : List Token} (hm : Opens m ts) :
    lexer.feed m part = some (ts, .word part) := by
  obtain ⟨-, c, s, rfl, hc, hs⟩ := isUnquotedIdentifier_iff.1 h
  have hstep : lexer.step m c = some (ts, .word ([c] ++ [])) := hm c hc
  have hrest : lexer.feed (.word [c]) (s.flatMap fun d => [d]) = some ([], .word ([c] ++ s)) := by
    refine Scanner.feed_flatMap [c] fun acc d hd => ?_
    have hd' : lexer.step (.word acc) d = some ([], .word (acc ++ [d])) :=
      if_pos (isIdentCont_of_identCont (hs d hd))
    exact Scanner.feed_cons hd' Scanner.feed_nil
  rw [List.flatMap_singleton'] at hrest
  have hpart := Scanner.feed_cons hstep hrest
  rwa [List.append_nil] at hpart

/-- A word ends where another token or a space begins. -/
theorem step_word_end {part : Str} (h : isUnquotedIdentifier part = true) {c : Char} {m : Mode}
    (hc : isIdentCont c = false) (hquote : c ≠ '\'') (hm : begin c = some m) :
    lexer.step (.word part) c = some ([.word part], m) := by
  show step (.word part) c = _
  rw [step, hc, if_neg Bool.false_ne_true, if_neg hquote, hm, identifier_of_isUnquotedIdentifier h]
  rfl

/-- A dotted name before a space is read as its parts. -/
theorem feed_parts : ∀ {parts : List Str}, parts ≠ [] → (∀ part ∈ parts, isUnquotedIdentifier part = true) →
    ∀ {m : Mode} {ts : List Token}, Opens m ts →
      lexer.feed m (['.'].intercalate parts ++ [' ']) = some (ts ++ (parts.map Token.word).intersperse .dot, .start)
  | [], hne, _, _, _, _ => absurd rfl hne
  | [part], _, h, m, ts, hm => by
    have hvalid := h part (List.mem_singleton_self _)
    have hspace : lexer.step (.word part) ' ' = some ([.word part], .start) :=
      step_word_end hvalid rfl (by decide) rfl
    rw [List.intercalate_singleton]
    exact Scanner.feed_append (feed_part hvalid hm) (Scanner.feed_cons hspace Scanner.feed_nil)
  | part :: next :: parts, _, h, m, ts, hm => by
    have hvalid := h part (List.mem_cons_self ..)
    have hdot : lexer.step (.word part) '.' = some ([.word part], .dot) :=
      step_word_end hvalid rfl (by decide) rfl
    have hrest := feed_parts (List.cons_ne_nil next parts) (fun p hp => h p (List.mem_cons_of_mem _ hp)) opens_dot
    rw [List.intercalate_cons_cons, List.append_assoc, List.append_assoc]
    exact Scanner.feed_append (feed_part hvalid hm) (Scanner.feed_cons hdot hrest)

/-! ## Values -/

/-- What the two passes make of one character. -/
def escapeChar (c : Char) : Str := if c = '\\' then ['\\', '\\'] else if c = '\'' then ['\'', '\''] else [c]

theorem escaped_eq (value : Str) : escaped value = value.flatMap escapeChar := by
  rw [escaped, Str.replace, Str.replace, List.flatMap_assoc]
  refine List.flatMap_congr fun c _ => ?_
  unfold escapeChar
  -- the second pass leaves the backslashes of the first alone
  by_cases hb : c = '\\'
  · rw [hb]; rfl
  · by_cases hq : c = '\''
    · rw [hq]; rfl
    · simp [hb, hq]

theorem feed_escapeChar (acc : Str) (c : Char) :
    lexer.feed (.literal acc) (escapeChar c) = some ([], .literal (acc ++ [c])) := by
  unfold escapeChar
  by_cases hb : c = '\\'
  · rw [hb]; rfl
  · by_cases hq : c = '\''
    · rw [hq]; rfl
    · rw [if_neg hb, if_neg hq]
      have hstep : lexer.step (.literal acc) c = some ([], .literal (acc ++ [c])) := by
        show step (.literal acc) c = _
        rw [step, if_neg hq, if_neg hb]
      exact Scanner.feed_cons hstep Scanner.feed_nil

/-- The lexer takes up the value whose escaped text it reads. -/
theorem feed_escaped (value : Str) :
    lexer.feed (.literal []) (escaped value) = some ([], .literal value) := by
  rw [escaped_eq]
  exact Scanner.feed_flatMap [] fun acc c _ => feed_escapeChar acc c

/-! ## Statements -/

theorem setLocalStatement_eq (name : SettingName) {value : Str} (h : '\x00' ∉ value) :
    setLocalStatement name value =
      .ok ("SET LOCAL ".toList ++ name.value ++ " = ".toList ++ ("E'".toList ++ escaped value ++ "'".toList)) := by
  have hvalue : ScopeValue.toScopeValue value = .ok value := by
    show (if value.contains '\x00' then _ else _) = _
    rw [if_neg (by rwa [List.contains_iff_mem])]
  rw [setLocalStatement, quoteSettingValue, hvalue]
  rfl

/-- The statement is read as the assignment of one literal, the value, to the name. -/
theorem tokens_setLocalStatement (name : SettingName) {value : Str} (h : '\x00' ∉ value) {text : Str}
    (htext : setLocalStatement name value = .ok text) : tokens text =
      some ([.word "set".toList, .word "local".toList] ++ nameTokens name.value ++ [.equals, .literal value]) := by
  rw [setLocalStatement_eq name h, Except.ok.injEq] at htext
  have hstart : lexer.feed .start "SET LOCAL ".toList =
      some ([.word "set".toList, .word "local".toList], .start) := by decide
  have hname : lexer.feed .start (name.value ++ [' ']) = some ([] ++ nameTokens name.value, .start) := by
    have := feed_parts (List.splitOn_ne_nil _ _) (parts_of_valid name.valid) opens_start
    rwa [List.intercalate_splitOn] at this
  -- the five stretches of the statement, each from the mode the one before ends in
  have hequals : lexer.feed .start "= E'".toList = some ([.equals], .literal []) := by decide
  have hquote : lexer.feed (.literal value) "'".toList = some ([], .quote value) := rfl
  have hliteral := Scanner.feed_append (feed_escaped value) hquote
  have hwhole := Scanner.feed_append hstart (Scanner.feed_append hname (Scanner.feed_append hequals hliteral))
  have hsplit : text = "SET LOCAL ".toList ++ ((name.value ++ [' ']) ++ ("= E'".toList ++
      (escaped value ++ "'".toList))) := by
    rw [← htext]
    simp
  rw [tokens, hsplit, Scanner.scan_of_feed hwhole rfl]
  simp

/-- What a token was read from. -/
def spelling : Token → Str
  | .word name => name
  | .dot => ['.']
  | .equals => ['=']
  | .literal value => value

/-- The tokens of a name spell it. -/
theorem spelling_nameTokens (name : Str) : (nameTokens name).flatMap spelling = name := by
  have hparts : ∀ parts : List Str, ((parts.map Token.word).intersperse .dot).flatMap spelling =
      ['.'].intercalate parts := by
    intro parts
    induction parts with
    | nil => rfl
    | cons part parts ih =>
      cases parts with
      | nil => simp [spelling]
      | cons next parts =>
        rw [List.map_cons, List.map_cons, List.intersperse_cons_cons, List.intercalate_cons_cons, ← ih]
        simp [spelling]
  rw [nameTokens, hparts, List.intercalate_splitOn]

theorem setLocalStatement_nul (name : SettingName) {value : Str} (h : '\x00' ∈ value) :
    setLocalStatement name value = .error .invalidSettingValue := by
  have hvalue : ScopeValue.toScopeValue value = .error .invalidSettingValue := by
    show (if value.contains '\x00' then _ else _) = _
    rw [if_pos (List.contains_iff_mem.2 h)]
  rw [setLocalStatement, quoteSettingValue, hvalue]
  rfl

theorem setLocalStatement_inj {name name' : SettingName} {value value' text : Str}
    (h : setLocalStatement name value = .ok text) (h' : setLocalStatement name' value' = .ok text) :
    name.value = name'.value ∧ value = value' := by
  have hnul {n : SettingName} {v : Str} (hok : setLocalStatement n v = .ok text) : '\x00' ∉ v := by
    intro hmem
    rw [setLocalStatement_nul n hmem] at hok
    cases hok
  have hsame := (tokens_setLocalStatement name (hnul h) h).symm.trans (tokens_setLocalStatement name' (hnul h') h')
  rw [Option.some.injEq] at hsame
  obtain ⟨hnames, hvalues⟩ := List.append_inj' hsame rfl
  rw [List.append_cancel_left_eq] at hnames
  have hspelling := congrArg (List.flatMap spelling) hnames
  rw [spelling_nameTokens, spelling_nameTokens] at hspelling
  exact ⟨hspelling, by simpa using hvalues⟩

/-- A value with a NUL is rejected. Every other one gives a statement that PostgreSQL reads as the
assignment of one literal, the value, to the name, and that no other name and value give. -/
theorem setLocalStatement_reads_back (name : SettingName) (value : Str) :
    ('\x00' ∈ value ∧ setLocalStatement name value = .error .invalidSettingValue) ∨
    ('\x00' ∉ value ∧ ∃ text, setLocalStatement name value = .ok text ∧
      tokens text = some ([.word "set".toList, .word "local".toList] ++ nameTokens name.value ++
        [.equals, .literal value]) ∧
      (nameTokens name.value).flatMap spelling = name.value ∧
      ∀ (name' : SettingName) (value' : Str), setLocalStatement name' value' = .ok text →
        name'.value = name.value ∧ value' = value) := by
  by_cases h : '\x00' ∈ value
  · exact Or.inl ⟨h, setLocalStatement_nul name h⟩
  · have htext := setLocalStatement_eq name h
    refine Or.inr ⟨h, _, htext, tokens_setLocalStatement name h htext, spelling_nameTokens _, ?_⟩
    intro name' value' h'
    exact setLocalStatement_inj h' htext

/-- A value that tries to end its literal. -/
example : ∃ name, SettingName.new " app.tenant_id".toList = .ok name ∧
    (setLocalStatement name "\\'; DROP TABLE t; --\\".toList).toOption.bind tokens =
      some [.word "set".toList, .word "local".toList, .word "app".toList, .dot, .word "tenant_id".toList, .equals,
        .literal "\\'; DROP TABLE t; --\\".toList] := ⟨_, rfl, by decide⟩

end WorldInfra.Tenant
