/-
Looking a hash up in a sorted breach file: in a file that validation accepts, the search by byte
offsets finds what the linear scan finds.
-/
import WorldInfra.Password.BreachFile

namespace WorldInfra.Password

open WorldInfra.Lib WorldInfra.Rust

/-! ## Entries -/

/-- The hash of a line as `lines` reports it; empty, if it has none. -/
def entryHash (line : Except Str Str) : Str := (line.toOption.bind breachedHashFromLine).getD []

theorem entryHash_ok (text : Str) : entryHash (.ok text) = (breachedHashFromLine text).getD [] := by
  unfold entryHash
  rw [Except.toOption, Option.bind_some]

/-- What validation accepts as a line. -/
def IsEntry (line : Except Str Str) : Prop :=
  ∃ text, line = .ok text ∧ text.trim.isEmpty = false ∧ breachedHashFromLine text = some (entryHash line)

theorem isEntry_ok {text hash : Str} (hblank : ¬ text.trim.isEmpty = true)
    (hhash : breachedHashFromLine text = some hash) : IsEntry (.ok text) ∧ entryHash (.ok text) = hash := by
  have he : entryHash (.ok text) = hash := by rw [entryHash_ok, hhash, Option.getD_some]
  exact ⟨⟨text, rfl, Bool.not_eq_true _ ▸ hblank, by rw [he, hhash]⟩, he⟩

/-- Validation of a sorted file leaves entries in order, none below the hash before it. -/
theorem validateEntries_ok : ∀ {rest : List (Except Str Str)} {idx n m : Nat} {previousHash : Option Str},
    validateEntries true idx previousHash n rest = .ok m →
      (∀ line ∈ rest, IsEntry line) ∧ (previousHash.toList ++ rest.map entryHash).IsChain (· ≤ ·)
  | [], _, _, _, previousHash, _ => by
    constructor
    · rintro _ ⟨⟩
    · cases previousHash with
      | none => exact List.IsChain.nil
      | some _ => exact List.IsChain.singleton _
  | .error _ :: _, _, _, _, _, h => by cases h
  | .ok text :: rest, idx, n, m, previousHash, h => by
    unfold validateEntries at h
    split at h
    · cases h
    · rename_i hblank
      split at h
      · cases h
      · rename_i hash hhash
        split at h
        · cases h
        · rename_i hord
          -- the rest is validated with this line's hash as the previous one
          obtain ⟨hrest, hchain⟩ := validateEntries_ok h
          obtain ⟨hentry, he⟩ := isEntry_ok hblank hhash
          constructor
          · rintro line hl
            rcases List.mem_cons.1 hl with rfl | hl
            · exact hentry
            · exact hrest line hl
          · rw [List.map_cons, he]
            cases previousHash with
            | none => exact hchain
            | some previous =>
              refine List.isChain_cons_cons.2 ⟨?_, hchain⟩
              apply le_of_not_gt
              intro hlt
              exact hord ⟨rfl, decide_eq_true hlt⟩

/-- On entries the linear scan answers, and answers whether the hash is among theirs. -/
theorem scanEntries_entries (passwordHash : Str) : ∀ {rest : List (Except Str Str)} (idx : Nat),
    (∀ line ∈ rest, IsEntry line) →
      scanEntries passwordHash idx rest = .ok (decide (passwordHash ∈ rest.map entryHash))
  | [], _, _ => rfl
  | line :: rest, idx, h => by
    obtain ⟨text, hline, hblank, hhash⟩ := h line (List.mem_cons_self ..)
    have ih := scanEntries_entries passwordHash (idx + 1)
      fun l hl => h l (List.mem_cons_of_mem _ hl)
    rw [List.map_cons]
    generalize entryHash line = hash at hhash ⊢
    subst hline
    unfold scanEntries
    rw [if_neg (Bool.eq_false_iff.1 hblank), hhash]
    simp only
    split
    · rename_i he
      rw [he, decide_eq_true (List.mem_cons_self ..)]
    · rename_i he
      rw [ih]
      refine congrArg _ (decide_eq_decide.2 ?_)
      constructor
      · intro hm; exact List.mem_cons_of_mem _ hm
      · intro hm; exact (List.mem_cons.1 hm).resolve_left fun e => he e.symm

/-! ## Files that validation accepts -/

/-- The hash of a line as it stands in the file. -/
def rawHash (raw : Bytes) : Str := ((Utf8.decode raw).bind breachedHashFromLine).getD []

/-- A file all lines of which are texts with a hash, in the order of the hashes. -/
structure SortedFile (content : Bytes) : Prop where
  entry : ∀ raw ∈ lines newline content, ∃ line, Reader.lineText raw = .ok line ∧
    breachedHashFromLine line = some (rawHash raw)
  sorted : (lines newline content).Pairwise fun r s => rawHash r ≤ rawHash s

theorem entryHash_line (raw : Bytes) :
    entryHash ((Reader.lineText raw).map stripLineEnding) = rawHash raw := by
  unfold rawHash Reader.lineText
  cases Utf8.decode raw with
  | none => rfl
  | some line => rw [Except.map, entryHash_ok, breachedHashFromLine_strip, Option.bind_some]

theorem map_entryHash (content : Bytes) :
    (fileLines content).map entryHash = (lines newline content).map rawHash := by
  rw [fileLines, List.map_map]
  exact List.map_congr_left fun raw _ => entryHash_line raw

theorem validateBreachedPasswordFile_ok {file : File} {options : BreachedPasswordFileOptions}
    (hsorted : options.sorted = true) (h : validateBreachedPasswordFile (.ok file) options = .ok ()) :
    validateBreachFileMetadata (.ok file) options = .ok () ∧ (∀ line ∈ fileLines file.content, IsEntry line) ∧
      SortedFile file.content := by
  unfold validateBreachedPasswordFile at h
  cases hm : validateBreachFileMetadata (.ok file) options with
  | error e => rw [hm] at h; cases h
  | ok u =>
    cases hv : validateEntries options.sorted 0 none 0 (fileLines file.content) with
    | error e =>
      rw [hm] at h
      change (validateEntries options.sorted 0 none 0 (fileLines file.content) >>= _) = _ at h
      rw [hv] at h; cases h
    | ok n =>
      rw [hsorted] at hv
      obtain ⟨hentries, hchain⟩ := validateEntries_ok hv
      refine ⟨rfl, hentries, ⟨?_, ?_⟩⟩
      · intro raw hraw
        obtain ⟨text, htext, -, hhash⟩ := hentries _ (List.mem_map_of_mem hraw)
        rw [entryHash_line] at hhash
        cases hl : Reader.lineText raw with
        | error e => rw [hl] at htext; cases htext
        | ok line =>
          rw [hl] at htext
          cases htext
          exact ⟨line, rfl, by rw [← breachedHashFromLine_strip, hhash]⟩
      · rw [map_entryHash] at hchain
        exact List.pairwise_map.1 (List.isChain_iff_pairwise.1 hchain)

/-! ## Reading at a line -/

section

variable {content : Bytes} {passwordHash : Str} {t : Nat} {reader : Reader}

theorem readLine_start (hf : SortedFile content) (h : t < (lines newline content).length) :
    ∃ line, (⟨content, start (lines newline content) t⟩ : Reader).readLine =
      .ok ((lines newline content)[t].length, line,
      ⟨content, start (lines newline content) (t + 1)⟩) ∧
        breachedHashFromLine line = some (rawHash (lines newline content)[t]) := by
  obtain ⟨line, hline, hhash⟩ := hf.entry _ (List.getElem_mem h)
  refine ⟨line, ?_, hhash⟩
  have hraw := firstLine_start h
  unfold Reader.readLine Reader.seek
  rw [start_succ h]
  simp only [hraw, hline]

theorem lineHashCmp_of_hash {line hash : Str} (h : breachedHashFromLine line = some hash) :
    lineHashCmp line passwordHash = .ok (Str.cmp hash passwordHash) := by
  unfold lineHashCmp
  rw [h]

/-- A line with a hash is at least as long as the hash. -/
theorem SortedFile.length_line (hf : SortedFile content) (h : t < (lines newline content).length) :
    40 ≤ (lines newline content)[t].length := by
  obtain ⟨line, hline, hhash⟩ := hf.entry _ (List.getElem_mem h)
  generalize (lines newline content)[t] = raw at hline ⊢
  unfold Reader.lineText at hline
  cases hd : Utf8.decode raw with
  | none => rw [hd] at hline; cases hline
  | some text =>
    rw [hd] at hline
    cases hline
    rw [← Utf8.decode_eq_some_iff.1 hd, Utf8.length_encode]
    exact len_of_breachedHashFromLine hhash

theorem readByte_of_lt {pos : Nat} (h : pos < content.length) :
    (⟨content, pos⟩ : Reader).readByte = .ok (content[pos], ⟨content, pos + 1⟩) := by
  unfold Reader.readByte
  simp only [List.getElem?_eq_getElem h]
  rfl

/-- From inside a line the way back leads to its start. -/
theorem seekLineStart_line (h : t < (lines newline content).length) : ∀ {pos : Nat} {reader : Reader},
    reader.content = content → start (lines newline content) t ≤ pos →
      pos < start (lines newline content) t + (lines newline content)[t].length →
        seekLineStart reader pos =
          .ok (start (lines newline content) t, ⟨content, start (lines newline content) t⟩)
  | 0, reader, hr, hle, _ => by
    have h0 : start (lines newline content) t = 0 := Nat.le_zero.1 hle
    unfold seekLineStart
    rw [h0, Reader.seek_eq hr]
  | pos + 1, reader, hr, hle, hlt => by
    have hin : pos < content.length := lt_length h (by omega)
    unfold seekLineStart
    rw [Reader.seek_eq hr, readByte_of_lt hin]
    simp only
    rcases Nat.lt_or_eq_of_le hle with hlo | heq
    · -- still inside the line: the byte before is no newline
      obtain ⟨i, hi⟩ := Nat.exists_eq_add_of_le (Nat.le_of_lt_succ hlo)
      have hne : content[pos] ≠ newline := by
        intro he
        have := line_inner h (i := i) (by omega)
        rw [← hi, List.getElem?_eq_getElem hin, he] at this
        exact this rfl
      rw [if_neg hne]
      exact seekLineStart_line h rfl (Nat.le_of_lt_succ hlo) (by omega)
    · -- the line starts here: the byte before ends the line before
      have heq' : content[pos] = newline := by
        cases t with
        | zero => rw [start_zero] at heq; omega
        | succ t =>
          have := getElem?_before h
          rw [heq, Nat.add_sub_cancel, List.getElem?_eq_getElem hin] at this
          exact Option.some.inj this
      rw [if_pos heq', heq]

/-- A probe inside a line finds its start, or, on the newline, the start of the next one. -/
theorem seekProbeLineStart_line (h : t < (lines newline content).length) (hr : reader.content = content)
    {mid : Nat} (hle : start (lines newline content) t ≤ mid)
    (hlt : mid < start (lines newline content) t + (lines newline content)[t].length) :
    ∃ u, (u = t ∨ u = t + 1 ∧ start (lines newline content) u = mid + 1) ∧
      seekProbeLineStart reader mid content.length =
        .ok (start (lines newline content) u, ⟨content, start (lines newline content) u⟩) := by
  have hin : mid < content.length := lt_length h hlt
  unfold seekProbeLineStart
  by_cases h0 : mid = 0
  · rw [if_pos h0]
    refine ⟨t, Or.inl rfl, ?_⟩
    have hs : start (lines newline content) t = 0 := by omega
    rw [hs, Reader.seek_eq hr]
  · rw [if_neg h0, if_neg (Nat.not_le_of_lt hin), Reader.seek_eq hr, readByte_of_lt hin]
    simp only
    by_cases hnl : content[mid] = newline
    · have hnext : mid + 1 = start (lines newline content) (t + 1) :=
        start_of_sep h hle hlt (by rw [List.getElem?_eq_getElem hin, hnl])
      rw [if_pos hnl]
      refine ⟨t + 1, Or.inr ⟨rfl, hnext.symm⟩, ?_⟩
      rw [← hnext]
    · rw [if_neg hnl]
      exact ⟨t, Or.inl rfl, seekLineStart_line h rfl hle hlt⟩

/-! ## The search -/

/-- What a round answers when it probes a line with this hash, which starts at `lineStart` and ends at
`lineEnd`. -/
def roundAnswer (content : Bytes) (low high lineStart lineEnd : Nat) : Ordering → Round
  | .eq => .finished true
  | .lt => .narrowed lineEnd high ⟨content, lineEnd⟩
  | .gt => .narrowed low lineStart ⟨content, lineEnd⟩

variable (passwordHash) in
/-- A round probes a line of the window. -/
theorem searchRound_window (hf : SortedFile content) (hr : reader.content = content) {i j : Nat} (hij : i < j)
    (hj : j ≤ (lines newline content).length) :
    ∃ u, ∃ h : u < (lines newline content).length, i ≤ u ∧ u < j ∧
      searchRound passwordHash content.length reader (start (lines newline content) i)
          (start (lines newline content) j) =
        .ok (roundAnswer content (start (lines newline content) i) (start (lines newline content) j)
          (start (lines newline content) u) (start (lines newline content) (u + 1))
          (Str.cmp (rawHash (lines newline content)[u]) passwordHash)) := by
  have hspan : start (lines newline content) i + 40 ≤ start (lines newline content) j := by
    have hline := hf.length_line (Nat.lt_of_lt_of_le hij hj)
    have := start_succ_le (lines newline content) hij
    rw [start_succ (Nat.lt_of_lt_of_le hij hj)] at this
    omega
  generalize hmid : start (lines newline content) i +
    (start (lines newline content) j - start (lines newline content) i) / 2 = mid
  obtain ⟨t, ht, hit, htj, hle, hlt⟩ := exists_part (p := mid)
    (by omega : start (lines newline content) i ≤ mid) hj (by omega)
  obtain ⟨u, hu, hprobe⟩ := seekProbeLineStart_line ht hr hle hlt
  -- a newline hit at the very end of the window would make the window two bytes long
  have huj : u < j := by
    rcases hu with rfl | ⟨rfl, hnext⟩
    · exact htj
    · refine lt_of_le_of_ne htj ?_
      rintro rfl
      omega
  have hul : u < (lines newline content).length := Nat.lt_of_lt_of_le huj hj
  have hstart : ¬ start (lines newline content) u ≥ start (lines newline content) j := by
    have := start_lt hul
    have := start_succ_le (lines newline content) huj
    omega
  obtain ⟨line, hread, hhash⟩ := readLine_start hf hul
  have hne : (lines newline content)[u].length ≠ 0 := by
    have := hf.length_line hul
    omega
  refine ⟨u, hul, ?_, huj, ?_⟩
  · rcases hu with rfl | ⟨rfl, -⟩ <;> omega
  · unfold searchRound
    simp only [hmid, hprobe]
    rw [if_neg hstart, hread]
    simp only
    rw [if_neg hne, lineHashCmp_of_hash hhash]
    cases Str.cmp (rawHash (lines newline content)[u]) passwordHash <;> rfl

/-- When the window is empty, the line behind it does not have the hash. -/
theorem lineAtMatches_empty (hf : SortedFile content) (hr : reader.content = content) {i : Nat}
    (w : Window rawHash passwordHash (lines newline content) i i) :
    lineAtMatches reader (start (lines newline content) i) passwordHash = .ok false := by
  rcases Nat.lt_or_eq_of_le w.bound with h | h
  · obtain ⟨line, hread, hhash⟩ := readLine_start hf h
    have hne : (lines newline content)[i].length ≠ 0 := by
      have := hf.length_line h
      omega
    have hkey : Str.cmp (rawHash (lines newline content)[i]) passwordHash ≠ .eq := by
      rw [Ne, Str.cmp_eq_eq]
      exact w.absent _ (List.getElem_mem h)
    unfold lineAtMatches
    rw [Reader.seek_eq hr, hread]
    simp only
    rw [if_neg hne, lineHashCmp_of_hash hhash]
    simp only [beq_eq_false_iff_ne.2 hkey]
  · -- the end of the file
    have hread : (⟨content, start (lines newline content) i⟩ : Reader).readLine =
        .ok (0, [], ⟨content, start (lines newline content) i⟩) := by
      unfold Reader.readLine
      simp only [h, start_lines_length, List.drop_length]
      rfl
    unfold lineAtMatches
    rw [Reader.seek_eq hr, hread]
    rfl

/-- The search within a window answers whether any line has the hash. -/
theorem searchLoop_window (hf : SortedFile content) : ∀ {rounds i j : Nat} {reader : Reader},
    reader.content = content → Window rawHash passwordHash (lines newline content) i j → j - i ≤ rounds →
      searchLoop passwordHash content.length rounds reader (start (lines newline content) i)
          (start (lines newline content) j) =
        some (.ok (decide (passwordHash ∈ (lines newline content).map rawHash)))
  | rounds, i, j, reader, hr, w, hrounds => by
    rcases Nat.lt_or_eq_of_le w.le with hij | rfl
    · have hlt : start (lines newline content) i < start (lines newline content) j := by
        have := start_lt (Nat.lt_of_lt_of_le hij w.bound)
        have := start_succ_le (lines newline content) hij
        omega
      cases rounds with
      | zero => omega
      | succ rounds =>
        obtain ⟨u, hu, hiu, huj, hround⟩ := searchRound_window passwordHash hf hr hij w.bound
        unfold searchLoop
        rw [if_pos hlt]
        simp only [hround]
        -- the window goes on above the line probed, or the line is the one, or the window goes on below
        rcases lt_trichotomy (rawHash (lines newline content)[u]) passwordHash with hk | hk | hk
        · rw [Str.cmp_of_lt hk]
          exact searchLoop_window hf rfl (w.raise hf.sorted huj hu hk) (by omega)
        · rw [Str.cmp_eq_eq.2 hk]
          have hmem : passwordHash ∈ (lines newline content).map rawHash :=
            hk ▸ List.mem_map_of_mem (List.getElem_mem hu)
          rw [decide_eq_true hmem]
          rfl
        · rw [Str.cmp_of_gt hk]
          exact searchLoop_window hf rfl (w.lower hf.sorted hiu hu hk) (by omega)
    · have hmem : passwordHash ∉ (lines newline content).map rawHash := by
        rw [List.mem_map]
        rintro ⟨raw, hraw, hk⟩
        exact w.absent raw hraw hk
      unfold searchLoop
      rw [if_neg (lt_irrefl _), lineAtMatches_empty hf hr w, decide_eq_false hmem]

theorem breachedPasswordHashSortedFileContains_sorted {file : File} (hf : SortedFile file.content) :
    breachedPasswordHashSortedFileContains (.ok file) passwordHash =
      some (.ok (decide (passwordHash ∈ (lines newline file.content).map rawHash))) := by
  unfold breachedPasswordHashSortedFileContains openFile
  simp only
  split
  · rename_i h0
    rw [List.length_eq_zero_iff.1 h0]
    rfl
  · have hlines : (lines newline file.content).length - 0 ≤ file.content.length := by
      have hle := le_start (le_refl (lines newline file.content).length)
      rwa [start_lines_length] at hle
    have hloop := searchLoop_window hf (rfl : (⟨file.content, 0⟩ : Reader).content = _)
      (window_all : Window rawHash passwordHash _ 0 _) hlines
    rwa [start_zero, start_lines_length] at hloop

end

/-- In a file that validation accepts as sorted, the lookup answers, and answers what the linear scan
does: whether some line has the hash. -/
theorem sorted_lookup_eq_scan (file : File) (options : BreachedPasswordFileOptions) (passwordHash : Str)
    (hsorted : options.sorted = true) (hvalid : validateBreachedPasswordFile (.ok file) options = .ok ())
    (hlen : passwordHash.length = 40) (hhex : ∀ c ∈ passwordHash, isAsciiHexdigit c = true) :
    ∃ found : Bool,
      breachedPasswordFileContains (.ok file) passwordHash options = some (.ok found) ∧
      breachedPasswordHashLinearScanContains (.ok file) passwordHash.toAsciiUppercase options = .ok found ∧
      (found = true ↔ ∃ line, .ok line ∈ fileLines file.content ∧
        breachedHashFromLine line = some passwordHash.toAsciiUppercase) := by
  obtain ⟨hmeta, hentries, hf⟩ := validateBreachedPasswordFile_ok hsorted hvalid
  refine ⟨decide (passwordHash.toAsciiUppercase ∈ (fileLines file.content).map entryHash), ?_, ?_, ?_⟩
  · unfold breachedPasswordFileContains
    rw [hmeta, normalizeSha1Hash_hex hlen hhex]
    simp only
    rw [if_pos hsorted, breachedPasswordHashSortedFileContains_sorted hf, map_entryHash]
  · unfold breachedPasswordHashLinearScanContains
    rw [hmeta]
    exact scanEntries_entries _ 0 hentries
  · rw [decide_eq_true_eq, List.mem_map]
    constructor
    · rintro ⟨line, hline, hhash⟩
      obtain ⟨text, rfl, -, htext⟩ := hentries line hline
      exact ⟨text, hline, by rw [htext, hhash]⟩
    · rintro ⟨text, htext, hhash⟩
      exact ⟨.ok text, htext, by rw [entryHash_ok, hhash, Option.getD_some]⟩

/-- Two entries, one with a count and a carriage return, one in lower case at the end of the file. -/
def twoEntries : File where
  isFile := true
  content := Utf8.encode ("0000000000000000000000000000000000000000:3\x0d\n".toList ++
    "0f00000000000000000000000000000000000000".toList)

theorem fileLines_twoEntries : fileLines twoEntries.content =
    [.ok "0000000000000000000000000000000000000000:3".toList,
      .ok "0f00000000000000000000000000000000000000".toList] := by
  have hlines : lines newline twoEntries.content =
      [Utf8.encode "0000000000000000000000000000000000000000:3\x0d\n".toList,
        Utf8.encode "0f00000000000000000000000000000000000000".toList] := by decide
  rw [fileLines, hlines]
  simp only [List.map_cons, List.map_nil, Reader.lineText, Utf8.decode_encode, Except.map]
  decide

theorem validate_twoEntries : validateBreachedPasswordFile (.ok twoEntries) {} = .ok () := by
  have hmeta : validateBreachFileMetadata (.ok twoEntries) {} = .ok () := by decide
  have hentries : validateEntries ({} : BreachedPasswordFileOptions).sorted 0 none 0
      (fileLines twoEntries.content) = .ok 2 := by
    rw [fileLines_twoEntries]
    decide
  unfold validateBreachedPasswordFile
  simp only [hmeta, openFile, bind, Except.bind, hentries]
  rfl

theorem lookup_twoEntries :
    breachedPasswordFileContains (.ok twoEntries) "0F00000000000000000000000000000000000000".toList {} =
      some (.ok true) := by
  obtain ⟨found, hfound, -, hiff⟩ := sorted_lookup_eq_scan twoEntries {}
    "0F00000000000000000000000000000000000000".toList rfl validate_twoEntries (by decide)
    (List.all_eq_true.1 (by decide))
  have hline : found = true := hiff.2
    ⟨"0f00000000000000000000000000000000000000".toList, by rw [fileLines_twoEntries]; simp, by decide⟩
  rw [hfound, hline]

end WorldInfra.Password
