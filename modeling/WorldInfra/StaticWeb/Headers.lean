/-
static-web-hardening: header files of static hosting and the directives their headers must have. A file
is read line by line, so files can be joined, and the headers read from one are written back as a file
that reads the same. A directive is matched by the name of a clause, or, if it has more than a name in
it, by the whole clause.
-/
import WorldInfra.Rust.Lines
import WorldInfra.Rust.Token

namespace WorldInfra.StaticWeb

open WorldInfra.Rust

/-! ## Header files -/

@[ext] structure StaticHeader where
  name : Str
  value : Str
  deriving DecidableEq, Repr

def isHeaderNameChar (c : Char) : Bool :=
  c.isAlphanum || "!#$%&'*+-.^_`|~".toList.contains c

def validHeaderName (name : Str) : Bool := !name.isEmpty && name.all isHeaderNameChar

/-- The closure of `parse_static_headers`, for one line. -/
def parseStaticHeader (line : Str) : Option StaticHeader :=
  let line := line.trim
  if line.isEmpty || line.startsWith ['#'] then none
  else do
    let (name, value) ← line.splitOnce ':'
    let name := name.trim
    if !validHeaderName name then none else some ⟨name, value.trim⟩

def parseStaticHeaders (input : Str) : List StaticHeader := input.lines.filterMap parseStaticHeader

/-- A header as a line has it: no comment, no space around the value. -/
structure StaticHeader.WellFormed (header : StaticHeader) : Prop where
  name : validHeaderName header.name = true
  noComment : header.name.head? ≠ some '#'
  trimmed : header.value.trim = header.value
  oneLine : '\n' ∉ header.value

def StaticHeader.line (header : StaticHeader) : Str := header.name ++ ':' :: ' ' :: header.value

/-- A file with the headers, one a line. -/
def renderHeaders (headers : List StaticHeader) : Str := headers.flatMap fun header => header.line ++ ['\n']

theorem parseStaticHeaders_eq (input : Str) :
    parseStaticHeaders input = (input.split '\n').filterMap parseStaticHeader := by
  refine Str.filterMap_lines rfl (fun line => ?_) input
  unfold parseStaticHeader
  rw [Str.trim_append_ws fun c hc => by rw [List.mem_singleton.1 hc]; rfl]

theorem parseStaticHeaders_append (a b : Str) :
    parseStaticHeaders (a ++ '\n' :: b) = parseStaticHeaders a ++ parseStaticHeaders b := by
  rw [parseStaticHeaders_eq, parseStaticHeaders_eq, parseStaticHeaders_eq, Str.split_append_cons,
    List.filterMap_append]

/-! ## Lines -/

theorem headerNameChar {c : Char} (h : isHeaderNameChar c = true) :
    isWhitespace c = false ∧ c ≠ ':' ∧ c ≠ '\n' := by
  rw [isHeaderNameChar, Bool.or_eq_true] at h
  rcases h with h | h
  · refine ⟨isWhitespace_of_isAlphanum h, ?_, ?_⟩
    · rintro rfl
      cases h
    · rintro rfl
      cases h
  · have hall : ("!#$%&'*+-.^_`|~".toList.all fun c => !isWhitespace c && c != ':' && c != '\n') = true := rfl
    have hc := List.all_eq_true.1 hall c (List.contains_iff_mem.1 h)
    simpa [and_assoc] using hc

theorem StaticHeader.WellFormed.nameChar {header : StaticHeader} (h : header.WellFormed) {c : Char}
    (hc : c ∈ header.name) : isHeaderNameChar c = true := by
  have hname := h.name
  rw [validHeaderName, Bool.and_eq_true] at hname
  exact List.all_eq_true.1 hname.2 c hc

theorem StaticHeader.WellFormed.name_ne_nil {header : StaticHeader} (h : header.WellFormed) : header.name ≠ [] := by
  intro hn
  have hname := h.name
  rw [hn] at hname
  cases hname

theorem trim_trimEnd_space {value : Str} (h : value.trim = value) : (Str.trimEnd (' ' :: value)).trim = value := by
  by_cases hne : value = []
  · rw [hne]
    rfl
  · have hend : Str.trimEnd (' ' :: value) = [' '] ++ value := by
      rw [Str.trimEnd, List.rdropWhile_eq_self_iff.2]
      · rfl
      · intro hcons
        rw [List.getLast_cons hne, Str.getLast_of_trim h hne]
        exact Bool.false_ne_true
    rw [hend, Str.trim_ws_append fun c hc => by rw [List.mem_singleton.1 hc]; rfl, h]

/-- Reading the line of a header. -/
theorem parseStaticHeader_line {header : StaticHeader} (h : header.WellFormed) :
    parseStaticHeader header.line = some header := by
  have hcolon : ':' ∉ header.name := fun hm => (headerNameChar (h.nameChar hm)).2.1 rfl
  have hname : header.name.trim = header.name := Str.trim_eq_self fun c hc => (headerNameChar (h.nameChar hc)).1
  -- trimming the line leaves the name, and of the value at most the space before it
  have hline : header.line.trim = header.name ++ ':' :: Str.trimEnd (' ' :: header.value) := by
    rw [StaticHeader.line, Str.trim, Str.trimStart_append_cons rfl, Str.trimEnd_append_cons rfl, Str.trimStart,
      List.dropWhile_eq_self_iff.2]
    intro hlen
    rw [(headerNameChar (h.nameChar (List.getElem_mem hlen))).1]
    exact Bool.false_ne_true
  have hvalue : (Str.trimEnd (' ' :: header.value)).trim = header.value := trim_trimEnd_space h.trimmed
  have hstart : (header.name ++ ':' :: Str.trimEnd (' ' :: header.value)).startsWith ['#'] = false := by
    rw [Bool.eq_false_iff]
    intro hs
    cases hn : header.name with
    | nil => exact absurd hn h.name_ne_nil
    | cons c name =>
      rw [hn, List.cons_append] at hs
      exact h.noComment (by rw [hn, List.head?_cons, Str.head_of_startsWith hs])
  have hsplit : Str.splitOnce ':' (header.name ++ ':' :: Str.trimEnd (' ' :: header.value)) =
      some (header.name, Str.trimEnd (' ' :: header.value)) := Str.splitOnce_eq_some.2 ⟨rfl, hcolon⟩
  have hread : parseStaticHeader header.line = some ⟨header.name.trim, (Str.trimEnd (' ' :: header.value)).trim⟩ := by
    unfold parseStaticHeader
    simp only [hline, hstart, hsplit, Option.bind_eq_bind, Option.bind_some, hname, h.name]
    simp
  rw [hread, hname, hvalue]

/-- What is read from a line is well formed, if the line is one. -/
theorem wellFormed_of_parse {line : Str} (hline : '\n' ∉ line) {header : StaticHeader}
    (h : parseStaticHeader line = some header) : header.WellFormed := by
  unfold parseStaticHeader at h
  simp only [Bool.or_eq_true] at h
  split at h
  · cases h
  · rename_i hcomment
    rw [not_or] at hcomment
    rw [Option.bind_eq_bind, Option.bind_eq_some_iff] at h
    obtain ⟨⟨name, value⟩, hsplit, h⟩ := h
    simp only at h
    split at h
    · cases h
    · rename_i hvalid
      rw [Bool.not_eq_true, Bool.not_eq_false'] at hvalid
      obtain ⟨htrim, -⟩ := Str.splitOnce_eq_some.1 hsplit
      cases h
      refine ⟨hvalid, fun hhead => ?_, Str.trim_trim value, fun hm => hline ?_⟩
      · -- the name begins as the trimmed line does
        cases name with
        | nil => cases hhead
        | cons c name =>
          have hc : isWhitespace c = false := Str.first_of_trimMatches htrim
          have hname : Str.trim (c :: name) = c :: Str.trimEnd name := by
            rw [← List.nil_append (c :: name), Str.trim, Str.trimStart_append_cons hc, Str.trimEnd_append_cons hc]
            rfl
          rw [hname, List.head?_cons, Option.some.injEq] at hhead
          rw [htrim, hhead] at hcomment
          exact hcomment.2 (List.isPrefixOf_iff_prefix.2 (List.prefix_append ['#'] _))
      · apply Str.mem_of_mem_trim
        rw [htrim]
        exact List.mem_append_right _ (List.mem_cons_of_mem _ (Str.mem_of_mem_trim hm))

/-! ## Files -/

theorem parse_render : ∀ {headers : List StaticHeader}, (∀ header ∈ headers, header.WellFormed) →
    parseStaticHeaders (renderHeaders headers) = headers
  | [], _ => rfl
  | header :: headers, h => by
    have hheader := h header (List.mem_cons_self ..)
    have hline : '\n' ∉ header.line := by
      have hname : '\n' ∉ header.name := fun hm => (headerNameChar (hheader.nameChar hm)).2.2 rfl
      simp [StaticHeader.line, hname, hheader.oneLine]
    rw [renderHeaders, List.flatMap_cons, List.append_assoc, List.singleton_append, ← renderHeaders,
      parseStaticHeaders_append, parse_render fun x hx => h x (List.mem_cons_of_mem _ hx), parseStaticHeaders_eq,
      Str.split, List.splitOn_eq_singleton hline]
    simp only [List.filterMap_cons, parseStaticHeader_line hheader, List.filterMap_nil, List.singleton_append]

theorem wellFormed_of_mem {input : Str} {header : StaticHeader} (h : header ∈ parseStaticHeaders input) :
    header.WellFormed := by
  rw [parseStaticHeaders_eq, List.mem_filterMap] at h
  obtain ⟨line, hline, hparse⟩ := h
  exact wellFormed_of_parse (Str.not_mem_of_mem_split hline) hparse

/-- Headers written one a line are read back; what is read from any file can be written so, and a file
in two parts is read part by part. -/
theorem static_headers_round_trip (input rest : Str) :
    (∀ header ∈ parseStaticHeaders input, header.WellFormed) ∧
    (∀ headers : List StaticHeader, (∀ header ∈ headers, header.WellFormed) →
      parseStaticHeaders (renderHeaders headers) = headers) ∧
    parseStaticHeaders (renderHeaders (parseStaticHeaders input)) = parseStaticHeaders input ∧
    parseStaticHeaders (input ++ '\n' :: rest) = parseStaticHeaders input ++ parseStaticHeaders rest :=
  ⟨fun _ h => wellFormed_of_mem h, fun _ h => parse_render h, parse_render fun _ h => wellFormed_of_mem h,
    parseStaticHeaders_append input rest⟩

/-! ## Directives -/

/-- The errors of `StaticWebError` about headers. -/
inductive StaticWebHeaderError where
  | missingHeader (name : Str)
  | missingHeaderDirective (name directive : Str)
  deriving DecidableEq, Repr

/-- `split_whitespace().next()`. -/
def firstWord (s : Str) : Option Str :=
  let word := s.trimStart.takeWhile fun c => !isWhitespace c
  if word.isEmpty then none else some word

def isClauseSeparator (c : Char) : Bool := c == ';' || c == ','

/-- `token.split_once('=').map_or(token, |(name, _)| name)`. -/
def tokenName (token : Str) : Str := ((token.splitOnce '=').map Prod.fst).getD token

def headerHasDirective (value directive : Str) : Bool :=
  let directive := directive.trim
  (value.splitOnP isClauseSeparator).any fun part =>
    let part := Str.trim part
    if part == directive then true
    else
      match firstWord part with
      | none => false
      | some token => (tokenName token).eqIgnoreAsciiCase directive

/-- The body of the loop of `assert_header_directives`. -/
def requireDirective (name value directive : Str) : Except StaticWebHeaderError Unit :=
  if directive.trim.isEmpty then .error (.missingHeaderDirective name directive)
  else if !headerHasDirective value directive then .error (.missingHeaderDirective name directive)
  else .ok ()

def assertHeaderDirectives (headers : List (Str × Str)) (name : Str) (requiredDirectives : List Str) :
    Except StaticWebHeaderError Unit :=
  match headers.find? fun header => header.1.eqIgnoreAsciiCase name with
  | none => .error (.missingHeader name)
  | some (_, value) => forM requiredDirectives (requireDirective name value)

/-! ## Clauses -/

def clauses (value : Str) : List Str := (value.splitOnP isClauseSeparator).map Str.trim

/-- What a clause begins with, before any white space or equals sign. -/
def clauseName (clause : Str) : Str := clause.takeWhile fun c => !isWhitespace c && c != '='

/-- A directive that is a name. -/
def IsName (directive : Str) : Prop := ∀ c ∈ directive, isWhitespace c = false ∧ c ≠ '='

/-- A name is had by a clause with that name in any case, anything else by the same clause. -/
def HasDirective (value directive : Str) : Prop :=
  (IsName directive ∧ ∃ clause ∈ clauses value, (clauseName clause).eqIgnoreAsciiCase directive = true) ∨
    (¬ IsName directive ∧ directive ∈ clauses value)

theorem tokenName_eq (token : Str) : tokenName token = token.takeWhile (· != '=') := by
  unfold tokenName
  cases h : token.splitOnce '=' with
  | none =>
    rw [Option.map_none, Option.getD_none, List.takeWhile_eq_self_iff.2]
    intro c hc
    rw [bne_iff_ne]
    rintro rfl
    exact Str.splitOnce_eq_none.1 h hc
  | some p =>
    obtain ⟨rfl, hnot⟩ := Str.splitOnce_eq_some.1 h
    rw [Option.map_some, Option.getD_some, List.takeWhile_append_of_pos]
    · simp
    · intro c hc
      rw [bne_iff_ne]
      rintro rfl
      exact hnot hc

/-- The first word of a trimmed clause begins it. -/
theorem firstWord_clause {clause : Str} (htrim : clause.trim = clause) :
    (firstWord clause).map tokenName = if clause = [] then none else some (clauseName clause) := by
  cases clause with
  | nil => rfl
  | cons c clause =>
    have hc : isWhitespace c = false := Str.first_of_trimMatches htrim
    have hstart : Str.trimStart (c :: clause) = c :: clause :=
      List.dropWhile_cons_of_neg (by rw [hc]; exact Bool.false_ne_true)
    have hword : ((c :: clause).takeWhile fun c => !isWhitespace c).isEmpty = false := by
      rw [List.takeWhile_cons_of_pos (by rw [hc]; rfl)]
      rfl
    rw [firstWord, hstart, hword, if_neg Bool.false_ne_true, Option.map_some, tokenName_eq, List.takeWhile_takeWhile,
      if_neg (List.cons_ne_nil c clause), clauseName]
    simp only [Bool.decide_and, Bool.decide_eq_true, Bool.and_comm]

theorem headerHasDirective_eq (value directive : Str) :
    headerHasDirective value directive =
      (clauses value).any fun clause => clause == directive.trim ||
        (!clause.isEmpty && (clauseName clause).eqIgnoreAsciiCase directive.trim) := by
  simp only [headerHasDirective, clauses, List.any_map]
  congr 1
  funext part
  have hword := firstWord_clause (Str.trim_trim part)
  simp only [Function.comp_apply]
  cases hpart : (Str.trim part == directive.trim) with
  | true => rfl
  | false =>
    rw [if_neg Bool.false_ne_true, Bool.false_or]
    cases hfirst : firstWord (Str.trim part) with
    | none =>
      rw [hfirst, Option.map_none] at hword
      split at hword
      · rename_i hempty
        rw [hempty]
        rfl
      · cases hword
    | some token =>
      rw [hfirst, Option.map_some] at hword
      split at hword
      · cases hword
      · rename_i hne
        rw [← Option.some.inj hword, List.isEmpty_eq_false_iff.2 hne]
        rfl

/-- What is no separator of clauses. -/
theorem clause_char {value clause : Str} (h : clause ∈ clauses value) :
    ∀ c ∈ clause, isClauseSeparator c = false := by
  obtain ⟨part, hpart, rfl⟩ := List.mem_map.1 h
  exact fun c hc => Str.forall_mem_splitOnP hpart c (Str.mem_of_mem_trim hc)

theorem clauseName_eq_self {directive : Str} (h : IsName directive) : clauseName directive = directive := by
  rw [clauseName, List.takeWhile_eq_self_iff]
  intro c hc
  simp [h c hc]

theorem isName_clauseName (clause : Str) : IsName (clauseName clause) := by
  intro c hc
  have h := List.mem_takeWhile_imp hc
  simpa using h

/-- Case does not make a name of what is none. -/
theorem isName_of_eqIgnoreAsciiCase {s t : Str} (h : s.eqIgnoreAsciiCase t = true) (hs : IsName s) : IsName t := by
  intro c hc
  have hmem : c.toLower ∈ s.map Char.toLower := by
    rw [eq_of_beq h]
    exact List.mem_map_of_mem hc
  obtain ⟨d, hd, hdc⟩ := List.mem_map.1 hmem
  obtain ⟨hwhite, heq⟩ := hs d hd
  refine ⟨?_, ?_⟩
  · rw [← isWhitespace_toLower, ← hdc, isWhitespace_toLower]
    exact hwhite
  · rintro rfl
    exact heq ((toLower_eq_iff rfl d).1 (hdc.trans rfl))

theorem headerHasDirective_iff {value directive : Str} (hne : directive.trim ≠ []) :
    headerHasDirective value directive = true ↔ HasDirective value directive.trim := by
  rw [headerHasDirective_eq, List.any_eq_true]
  simp only [Bool.or_eq_true, beq_iff_eq, Bool.and_eq_true, Bool.not_eq_true', List.isEmpty_eq_false_iff]
  unfold HasDirective
  by_cases hname : IsName directive.trim
  · simp only [hname, true_and, not_true, false_and, or_false]
    refine exists_congr fun clause => and_congr_right fun hclause => ⟨?_, fun h => .inr ⟨?_, h⟩⟩
    · rintro (rfl | ⟨-, h⟩)
      · rw [clauseName_eq_self hname]
        exact beq_self_eq_true _
      · exact h
    · rintro rfl
      exact hne (List.map_eq_nil_iff.1 (eq_of_beq h).symm)
  · simp only [hname, false_and, not_false_eq_true, true_and, false_or]
    constructor
    · rintro ⟨clause, hclause, rfl | ⟨-, h⟩⟩
      · exact hclause
      · exact absurd (isName_of_eqIgnoreAsciiCase h (isName_clauseName clause)) hname
    · exact fun h => ⟨_, h, .inl rfl⟩

/-- Nothing has a directive with a separator of clauses in it. -/
theorem not_hasDirective_of_separator {value directive : Str} {c : Char} (hc : c ∈ directive)
    (hsep : isClauseSeparator c = true) : ¬ HasDirective value directive := by
  have hclause : ∀ clause ∈ clauses value, c ∉ clause := fun clause h hm => by
    rw [clause_char h c hm] at hsep
    cases hsep
  rintro (⟨-, clause, h, heq⟩ | ⟨-, h⟩)
  · have hmem : c.toLower ∈ (clauseName clause).map Char.toLower := by
      rw [eq_of_beq heq]
      exact List.mem_map_of_mem hc
    obtain ⟨d, hd, hdc⟩ := List.mem_map.1 hmem
    -- separators have no case
    have hcd : d = c := by
      rw [isClauseSeparator, Bool.or_eq_true, beq_iff_eq, beq_iff_eq] at hsep
      rcases hsep with rfl | rfl
      · exact (toLower_eq_iff rfl d).1 hdc
      · exact (toLower_eq_iff rfl d).1 hdc
    rw [hcd] at hd
    exact hclause clause h ((List.takeWhile_prefix _).subset hd)
  · exact hclause directive h hc

/-! ## Required directives -/

/-- The value of the first header with a name, in any case. -/
def FirstNamed (headers : List (Str × Str)) (name value : Str) : Prop :=
  ∃ before header after, headers = before ++ (header, value) :: after ∧ header.eqIgnoreAsciiCase name = true ∧
    ∀ other ∈ before, other.1.eqIgnoreAsciiCase name = false

/-- A requirement is met by a value that has it; a blank one is never. -/
def Meets (value directive : Str) : Prop := directive.trim ≠ [] ∧ HasDirective value directive.trim

theorem firstNamed_iff {headers : List (Str × Str)} {name value : Str} :
    FirstNamed headers name value ↔
      (headers.find? fun header => header.1.eqIgnoreAsciiCase name).map Prod.snd = some value := by
  rw [Option.map_eq_some_iff]
  simp only [List.find?_eq_some_iff_append, Bool.not_eq_eq_eq_not, Bool.not_true]
  constructor
  · rintro ⟨before, header, after, h, hname, hbefore⟩
    exact ⟨(header, value), ⟨hname, before, after, h, hbefore⟩, rfl⟩
  · rintro ⟨⟨header, v⟩, ⟨hname, before, after, h, hbefore⟩, rfl⟩
    exact ⟨before, header, after, h, hname, hbefore⟩

theorem requireDirective_cases (name value directive : Str) :
    Meets value directive ∧ requireDirective name value directive = .ok () ∨
      ¬ Meets value directive ∧
        requireDirective name value directive = .error (.missingHeaderDirective name directive) := by
  unfold requireDirective
  by_cases hempty : directive.trim = []
  · rw [if_pos (List.isEmpty_iff.2 hempty)]
    exact .inr ⟨fun hm => hm.1 hempty, rfl⟩
  · rw [if_neg (mt List.isEmpty_iff.1 hempty)]
    have hiff : headerHasDirective value directive = true ↔ _ := headerHasDirective_iff hempty
    cases h : headerHasDirective value directive with
    | true =>
      exact .inl ⟨⟨hempty, hiff.1 h⟩, rfl⟩
    | false =>
      refine .inr ⟨fun hm => ?_, rfl⟩
      rw [hiff.2 hm.2] at h
      cases h

theorem requireDirective_eq_ok {name value directive : Str} :
    requireDirective name value directive = .ok () ↔ Meets value directive := by
  rcases requireDirective_cases name value directive with ⟨hm, h⟩ | ⟨hm, h⟩
  · simp [h, hm]
  · simp [h, hm]

theorem requireDirective_eq_error {name value directive : Str} {error : StaticWebHeaderError} :
    requireDirective name value directive = .error error ↔
      ¬ Meets value directive ∧ error = .missingHeaderDirective name directive := by
  rcases requireDirective_cases name value directive with ⟨hm, h⟩ | ⟨hm, h⟩
  · simp [h, hm]
  · simp [h, hm, eq_comm]

theorem assertHeaderDirectives_of_firstNamed {headers : List (Str × Str)} {name value : Str}
    (h : FirstNamed headers name value) (required : List Str) :
    assertHeaderDirectives headers name required = forM required (requireDirective name value) := by
  rw [firstNamed_iff, Option.map_eq_some_iff] at h
  obtain ⟨header, hfind, rfl⟩ := h
  rw [assertHeaderDirectives, hfind]

theorem assertHeaderDirectives_of_unnamed {headers : List (Str × Str)} {name : Str}
    (h : ∀ header ∈ headers, header.1.eqIgnoreAsciiCase name = false) (required : List Str) :
    assertHeaderDirectives headers name required = .error (.missingHeader name) := by
  have hfind : (headers.find? fun header => header.1.eqIgnoreAsciiCase name) = none :=
    List.find?_eq_none.2 fun header hh => Bool.eq_false_iff.1 (h header hh)
  rw [assertHeaderDirectives, hfind]

theorem firstNamed_or (headers : List (Str × Str)) (name : Str) :
    (∃ value, ∀ other, FirstNamed headers name other ↔ other = value) ∨
      (∀ header ∈ headers, header.1.eqIgnoreAsciiCase name = false) := by
  cases hfind : headers.find? fun header => header.1.eqIgnoreAsciiCase name with
  | none => exact .inr fun header hh => Bool.eq_false_iff.2 (List.find?_eq_none.1 hfind header hh)
  | some header =>
    refine .inl ⟨header.2, fun other => ?_⟩
    rw [firstNamed_iff, hfind, Option.map_some, Option.some.injEq]
    exact eq_comm

theorem not_firstNamed {headers : List (Str × Str)} {name : Str}
    (h : ∀ header ∈ headers, header.1.eqIgnoreAsciiCase name = false) (value : Str) :
    ¬ FirstNamed headers name value := by
  rintro ⟨before, header, after, rfl, hname, -⟩
  have hfalse := h (header, value) (List.mem_append_right _ (List.mem_cons_self ..))
  rw [hname] at hfalse
  cases hfalse

/-- The assertion holds if the first header with the name, in any case, has every required directive: one
that is a name as the name of a clause in any case, any other as a whole clause. Else it names the first
directive that is not had, if there is such a header. No directive with a separator in it is ever had. -/
theorem header_directives (headers : List (Str × Str)) (name : Str) (required : List Str) :
    (assertHeaderDirectives headers name required = .ok () ↔
      ∃ value, FirstNamed headers name value ∧ ∀ directive ∈ required, Meets value directive) ∧
    (∀ directive, assertHeaderDirectives headers name required = .error (.missingHeaderDirective name directive) ↔
      ∃ value, FirstNamed headers name value ∧ ∃ before after, required = before ++ directive :: after ∧
        (∀ other ∈ before, Meets value other) ∧ ¬ Meets value directive) ∧
    (assertHeaderDirectives headers name required = .error (.missingHeader name) ↔
      ∀ header ∈ headers, header.1.eqIgnoreAsciiCase name = false) ∧
    ∀ directive ∈ required, ';' ∈ directive.trim ∨ ',' ∈ directive.trim →
      assertHeaderDirectives headers name required ≠ .ok () := by
  rcases firstNamed_or headers name with ⟨value, hvalue⟩ | hunnamed
  -- the first header of the name decides, whatever the later ones hold
  · have hfirst : FirstNamed headers name value := (hvalue value).2 rfl
    have hok : forM required (requireDirective name value) = .ok () ↔
        ∀ directive ∈ required, Meets value directive := by
      simp only [Str.forM_eq_ok, requireDirective_eq_ok]
    rw [assertHeaderDirectives_of_firstNamed hfirst]
    simp only [hvalue, exists_eq_left, hok]
    refine ⟨trivial, fun directive => ?_, ⟨fun h => ?_, fun h => absurd hfirst (not_firstNamed h value)⟩,
      fun directive hd hsep h => ?_⟩
    · simp only [Str.forM_eq_error, requireDirective_eq_ok, requireDirective_eq_error,
        StaticWebHeaderError.missingHeaderDirective.injEq, true_and]
      constructor
      · rintro ⟨before, other, after, hsplit, hbefore, hnot, rfl⟩
        exact ⟨before, after, hsplit, hbefore, hnot⟩
      · rintro ⟨before, after, hsplit, hbefore, hnot⟩
        exact ⟨before, directive, after, hsplit, hbefore, hnot, rfl⟩
    · obtain ⟨_, _, _, _, _, herror⟩ := Str.forM_eq_error.1 h
      cases (requireDirective_eq_error.1 herror).2
    · have hmeets := (hok.1 h directive hd).2
      rcases hsep with hsep | hsep
      · exact not_hasDirective_of_separator hsep rfl hmeets
      · exact not_hasDirective_of_separator hsep rfl hmeets
  · rw [assertHeaderDirectives_of_unnamed hunnamed]
    simp only [not_firstNamed hunnamed, false_and, exists_false, reduceCtorEq, Except.error.injEq]
    exact ⟨trivial, fun _ => trivial, ⟨fun _ => hunnamed, fun _ => trivial⟩, fun _ _ _ h => nomatch h⟩

end WorldInfra.StaticWeb
