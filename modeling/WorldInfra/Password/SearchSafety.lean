/-
The search by byte offsets on any file: sorted or not, valid or not. Its range always lies between
two line starts, so every round narrows it, and no subtraction and no seek leaves the file.
-/
import WorldInfra.Password.SortedLookup

namespace WorldInfra.Password

open WorldInfra.Lib WorldInfra.Rust

/-! ## The range of the search -/

/-- `low` and `high` each time the loop looks at them. -/
def searchRanges (passwordHash : Str) (len : Nat) : Nat → Reader → Nat → Nat → List (Nat × Nat)
  | rounds, reader, low, high =>
    (low, high) ::
      if low < high then
        match rounds with
        | 0 => []
        | rounds + 1 =>
          match searchRound passwordHash len reader low high with
          | .ok (.narrowed low high reader) => searchRanges passwordHash len rounds reader low high
          | .ok (.finished _) | .error _ => []
      else []

/-! ## The search with its arithmetic and its seeks checked -/

/-- What the search must not do. -/
inductive Fault where
  | subtractBelowZero
  | seekPastEnd
  deriving DecidableEq, Repr

def checkedSub (a b : Nat) : Except Fault Nat := if b ≤ a then .ok (a - b) else .error .subtractBelowZero

def checkedSeek (reader : Reader) (pos : Nat) : Except Fault Reader :=
  if pos ≤ reader.content.length then .ok (reader.seek pos) else .error .seekPastEnd

def checkedSeekLineStart (reader : Reader) : Nat → Except Fault (Except PasswordError (Nat × Reader))
  | 0 => do
    let reader ← checkedSeek reader 0
    return .ok (0, reader)
  | pos + 1 => do
    let previousPos ← checkedSub (pos + 1) 1
    let reader ← checkedSeek reader previousPos
    match reader.readByte with
    | .error e => return .error (ioError e)
    | .ok (previous, reader) =>
      if previous = newline then return .ok (pos + 1, reader) else checkedSeekLineStart reader pos

def checkedSeekProbeLineStart (reader : Reader) (mid len : Nat) :
    Except Fault (Except PasswordError (Nat × Reader)) := do
  if mid = 0 then
    let reader ← checkedSeek reader 0
    return .ok (0, reader)
  else if mid ≥ len then return .ok (len, reader)
  else
    let reader ← checkedSeek reader mid
    match reader.readByte with
    | .error e => return .error (ioError e)
    | .ok (current, reader) =>
      if current = newline then return .ok (mid + 1, reader) else checkedSeekLineStart reader mid

def checkedLineAtMatches (reader : Reader) (low : Nat) (passwordHash : Str) :
    Except Fault (Except PasswordError Bool) := do
  let reader ← checkedSeek reader low
  match reader.readLine with
  | .error e => return .error (ioError e)
  | .ok (read, line, _) =>
    if read = 0 then return .ok false
    else
      match lineHashCmp line passwordHash with
      | .error e => return .error e
      | .ok ordering => return .ok (ordering == .eq)

def checkedSearchRound (passwordHash : Str) (len : Nat) (reader : Reader) (low high : Nat) :
    Except Fault (Except PasswordError Round) := do
  let range ← checkedSub high low
  let mid := low + range / 2
  match ← checkedSeekProbeLineStart reader mid len with
  | .error e => return .error e
  | .ok (lineStart, reader) =>
    if lineStart ≥ high then
      let found ← checkedLineAtMatches reader low passwordHash
      return found.map .finished
    else
      match reader.readLine with
      | .error e => return .error (ioError e)
      | .ok (read, line, reader) =>
        if read = 0 then return .ok (.finished false)
        else
          match lineHashCmp line passwordHash with
          | .error e => return .error e
          | .ok .eq => return .ok (.finished true)
          | .ok .lt => return .ok (.narrowed reader.pos high reader)
          | .ok .gt => return .ok (.narrowed low lineStart reader)

def checkedSearchLoop (passwordHash : Str) (len : Nat) :
    Nat → Reader → Nat → Nat → Option (Except Fault (Except PasswordError Bool))
  | rounds, reader, low, high =>
    if low < high then
      match rounds with
      | 0 => none
      | rounds + 1 =>
        match checkedSearchRound passwordHash len reader low high with
        | .error fault => some (.error fault)
        | .ok (.error e) => some (.ok (.error e))
        | .ok (.ok (.finished found)) => some (.ok (.ok found))
        | .ok (.ok (.narrowed low high reader)) => checkedSearchLoop passwordHash len rounds reader low high
    else some (checkedLineAtMatches reader low passwordHash)

def checkedSortedFileContains (path : Path) (passwordHash : Str) : Option (Except Fault (Except PasswordError Bool)) :=
  match openFile path with
  | .error e => some (.ok (.error e))
  | .ok content =>
    let len := content.length
    if len = 0 then some (.ok (.ok false)) else checkedSearchLoop passwordHash len len ⟨content, 0⟩ 0 len

section

variable {content : Bytes} {passwordHash : Str} {reader : Reader}

theorem checkedSub_of_le {a b : Nat} (h : b ≤ a) : checkedSub a b = .ok (a - b) := if_pos h

theorem checkedSeek_of_le {pos : Nat} (h : pos ≤ reader.content.length) :
    checkedSeek reader pos = .ok (reader.seek pos) :=
  if_pos h

theorem content_of_readByte {b : UInt8} {reader' : Reader} (h : reader.readByte = .ok (b, reader')) :
    reader'.content = reader.content := by
  unfold Reader.readByte at h
  split at h
  · cases h
  · cases h
    rfl

theorem checkedSeekLineStart_of_le : ∀ {pos : Nat} {reader : Reader}, pos ≤ reader.content.length →
    checkedSeekLineStart reader pos = .ok (seekLineStart reader pos)
  | 0, reader, _ => by
    unfold checkedSeekLineStart seekLineStart
    rw [checkedSeek_of_le (Nat.zero_le _)]
    rfl
  | pos + 1, reader, h => by
    unfold checkedSeekLineStart seekLineStart
    rw [checkedSub_of_le (Nat.le_add_left 1 pos), Nat.add_sub_cancel]
    simp only [bind, Except.bind]
    rw [checkedSeek_of_le (Nat.le_of_succ_le h)]
    simp only
    cases hread : (reader.seek pos).readByte with
    | error e => rfl
    | ok read =>
      obtain ⟨previous, reader'⟩ := read
      have hcontent : reader'.content = reader.content := (content_of_readByte hread).trans rfl
      simp only
      split
      · rfl
      · refine checkedSeekLineStart_of_le ?_
        rw [hcontent]
        exact Nat.le_of_succ_le h

theorem checkedSeekProbeLineStart_of_content (hr : reader.content = content) (mid : Nat) :
    checkedSeekProbeLineStart reader mid content.length = .ok (seekProbeLineStart reader mid content.length) := by
  unfold checkedSeekProbeLineStart seekProbeLineStart
  split
  · rw [checkedSeek_of_le (Nat.zero_le _)]
    rfl
  · split
    · rfl
    · rename_i hin
      have hin' : mid ≤ reader.content.length := by rw [hr]; omega
      rw [checkedSeek_of_le hin']
      simp only [bind, Except.bind]
      cases hread : (reader.seek mid).readByte with
      | error e => rfl
      | ok read =>
        obtain ⟨current, reader'⟩ := read
        have hcontent : reader'.content = reader.content := (content_of_readByte hread).trans rfl
        simp only
        split
        · rfl
        · refine checkedSeekLineStart_of_le ?_
          rw [hcontent]
          exact hin'

theorem checkedLineAtMatches_of_le {low : Nat} (h : low ≤ reader.content.length) :
    checkedLineAtMatches reader low passwordHash = .ok (lineAtMatches reader low passwordHash) := by
  unfold checkedLineAtMatches lineAtMatches
  rw [checkedSeek_of_le h]
  simp only [bind, Except.bind]
  cases (reader.seek low).readLine with
  | error e => rfl
  | ok read =>
    obtain ⟨read, line, _⟩ := read
    simp only
    split
    · rfl
    · cases lineHashCmp line passwordHash <;> rfl

/-! ## Rounds between line starts -/

/-- Some line of the file normalizes to the hash. -/
def HasHash (content : Bytes) (passwordHash : Str) : Prop :=
  ∃ line, .ok line ∈ fileLines content ∧ breachedHashFromLine line = some passwordHash

theorem start_le_length {t : Nat} (h : t ≤ (lines newline content).length) :
    start (lines newline content) t ≤ content.length := by
  have hle : start (lines newline content) t ≤ start (lines newline content) (lines newline content).length :=
    start_mono h
  rwa [start_lines_length] at hle

/-- A window of fewer lines is a shorter range of bytes. -/
theorem start_sub_lt {i j i' j' : Nat} (hi : i ≤ i') (hij : i' ≤ j') (hj : j' ≤ j)
    (hbound : j ≤ (lines newline content).length) (hlt : j' - i' < j - i) :
    start (lines newline content) j' - start (lines newline content) i' <
      start (lines newline content) j - start (lines newline content) i := by
  have h1 : start (lines newline content) i ≤ start (lines newline content) i' := start_mono hi
  have h2 : start (lines newline content) i' ≤ start (lines newline content) j' := start_mono hij
  have h3 : start (lines newline content) j' ≤ start (lines newline content) j := start_mono hj
  rcases Nat.lt_or_eq_of_le hi with hlo | rfl
  · have hinside : i < (lines newline content).length := by omega
    have hone := start_lt hinside
    have := start_succ_le (lines newline content) hlo
    omega
  · have hhi : j' < j := by omega
    have hinside : j' < (lines newline content).length := by omega
    have hone := start_lt hinside
    have := start_succ_le (lines newline content) hhi
    omega

/-- Reading at a line start reads that line, if it is text. -/
theorem readLine_at {t : Nat} (h : t < (lines newline content).length) :
    (⟨content, start (lines newline content) t⟩ : Reader).readLine =
      match Reader.lineText (lines newline content)[t] with
      | .error e => .error e
      | .ok line => .ok ((lines newline content)[t].length, line,
        ⟨content, start (lines newline content) (t + 1)⟩) := by
  unfold Reader.readLine Reader.seek
  rw [start_succ h]
  cases htext : Reader.lineText (lines newline content)[t] with
  | error e => simp only [firstLine_start h, htext]
  | ok line => simp only [firstLine_start h, htext]

theorem hasHash_of_eq {t : Nat} (h : t < (lines newline content).length) {line : Str}
    (hline : Reader.lineText (lines newline content)[t] = .ok line) (heq : lineHashCmp line passwordHash = .ok .eq) :
    HasHash content passwordHash := by
  refine ⟨stripLineEnding line, ?_, ?_⟩
  · refine List.mem_map.2 ⟨(lines newline content)[t], List.getElem_mem h, ?_⟩
    rw [hline]
    rfl
  · rw [breachedHashFromLine_strip]
    unfold lineHashCmp at heq
    cases hhash : breachedHashFromLine line with
    | none => rw [hhash] at heq; cases heq
    | some hash =>
      rw [hhash] at heq
      rw [Str.cmp_eq_eq.1 (Except.ok.inj heq)]

theorem hasHash_of_lineAtMatches (hr : reader.content = content) {t : Nat} (h : t ≤ (lines newline content).length)
    (hfound : lineAtMatches reader (start (lines newline content) t) passwordHash = .ok true) :
    HasHash content passwordHash := by
  unfold lineAtMatches at hfound
  rw [Reader.seek_eq hr] at hfound
  rcases Nat.lt_or_eq_of_le h with hlt | rfl
  · rw [readLine_at hlt] at hfound
    cases hline : Reader.lineText (lines newline content)[t] with
    | error e => rw [hline] at hfound; cases hfound
    | ok line =>
      rw [hline] at hfound
      simp only at hfound
      split at hfound
      · cases hfound
      · cases hcmp : lineHashCmp line passwordHash with
        | error e => rw [hcmp] at hfound; cases hfound
        | ok ordering =>
          rw [hcmp] at hfound
          simp only [Except.ok.injEq, beq_iff_eq] at hfound
          rw [hfound] at hcmp
          exact hasHash_of_eq hlt hline hcmp
  · -- behind the last line nothing is read
    have hread : (⟨content, start (lines newline content) (lines newline content).length⟩ : Reader).readLine =
        .ok (0, [], ⟨content, start (lines newline content) (lines newline content).length⟩) := by
      unfold Reader.readLine
      simp only [start_lines_length, List.drop_length]
      rfl
    rw [hread] at hfound
    cases hfound

/-- How a round ends that began between the starts of lines `i` and `j`. -/
inductive RoundEnds (content : Bytes) (passwordHash : Str) (i j : Nat) : Except PasswordError Round → Prop where
  | error (e : PasswordError) : RoundEnds content passwordHash i j (.error e)
  | finished (found : Bool) (h : found = true → HasHash content passwordHash) :
      RoundEnds content passwordHash i j (.ok (.finished found))
  | narrowed (i' j' : Nat) (reader : Reader) (hr : reader.content = content) (hi : i ≤ i') (hij : i' ≤ j') (hj : j' ≤ j)
      (hlt : j' - i' < j - i) : RoundEnds content passwordHash i j
        (.ok (.narrowed (start (lines newline content) i') (start (lines newline content) j') reader))

/-- The last look, at the line where the range begins. -/
theorem lastLook_ends (hr : reader.content = content) {i j : Nat} (hi : i ≤ (lines newline content).length) :
    RoundEnds content passwordHash i j
      ((lineAtMatches reader (start (lines newline content) i) passwordHash).map .finished) := by
  cases hmatch : lineAtMatches reader (start (lines newline content) i) passwordHash with
  | error e => exact .error e
  | ok found =>
    refine .finished found ?_
    rintro rfl
    exact hasHash_of_lineAtMatches hr hi hmatch

theorem searchRound_ends (hr : reader.content = content) {i j : Nat} (hij : i < j)
    (hj : j ≤ (lines newline content).length) :
    RoundEnds content passwordHash i j
      (searchRound passwordHash content.length reader (start (lines newline content) i)
        (start (lines newline content) j)) ∧
    checkedSearchRound passwordHash content.length reader (start (lines newline content) i)
        (start (lines newline content) j) =
      .ok (searchRound passwordHash content.length reader (start (lines newline content) i)
        (start (lines newline content) j)) := by
  have hi : i < (lines newline content).length := Nat.lt_of_lt_of_le hij hj
  have hspan : start (lines newline content) i < start (lines newline content) j :=
    Nat.lt_of_lt_of_le (start_lt hi) (start_succ_le _ hij)
  generalize hmid : start (lines newline content) i +
    (start (lines newline content) j - start (lines newline content) i) / 2 = mid
  obtain ⟨t, ht, hit, htj, hle, hlt⟩ := exists_part (p := mid)
    (by omega : start (lines newline content) i ≤ mid) hj (by omega)
  obtain ⟨u, hu, hprobe⟩ := seekProbeLineStart_line ht hr hle hlt
  have hiu : i ≤ u := by
    rcases hu with rfl | ⟨rfl, -⟩ <;> omega
  have hchecked := checkedSeekProbeLineStart_of_content hr mid
  rw [hprobe] at hchecked
  unfold searchRound checkedSearchRound
  rw [checkedSub_of_le (Nat.le_of_lt hspan)]
  simp only [bind, Except.bind, hmid, hprobe, hchecked]
  split
  · -- the probe left the range
    have hlow : start (lines newline content) i ≤
        (⟨content, start (lines newline content) u⟩ : Reader).content.length := start_le_length (Nat.le_of_lt hi)
    rw [checkedLineAtMatches_of_le hlow]
    refine ⟨lastLook_ends ?_ (Nat.le_of_lt hi), rfl⟩
    rfl
  · rename_i hstart
    -- the probed line is inside the range, so either side of it is a smaller one
    have huj : u < j := by
      by_contra hn
      exact hstart (start_mono (Nat.le_of_not_lt hn))
    have hul : u < (lines newline content).length := Nat.lt_of_lt_of_le huj hj
    rw [readLine_at hul]
    cases hline : Reader.lineText (lines newline content)[u] with
    | error e => exact ⟨.error _, rfl⟩
    | ok line =>
      simp only
      split
      · refine ⟨.finished false ?_, rfl⟩
        rintro ⟨⟩
      · cases hcmp : lineHashCmp line passwordHash with
        | error e => exact ⟨.error _, rfl⟩
        | ok ordering =>
          cases ordering with
          | eq => exact ⟨.finished true fun _ => hasHash_of_eq hul hline hcmp, rfl⟩
          | lt => exact ⟨.narrowed (u + 1) j _ rfl (by omega) huj (le_refl _) (by omega), rfl⟩
          | gt => exact ⟨.narrowed i u _ rfl (le_refl _) hiu (Nat.le_of_lt huj) (by omega), rfl⟩

/-! ## The loop -/

/-- What is said of a whole search from `low` to `high`. -/
structure SearchSafe (content : Bytes) (passwordHash : Str) (low high : Nat) (ranges : List (Nat × Nat))
    (answer : Option (Except PasswordError Bool)) (checked : Option (Except Fault (Except PasswordError Bool))) :
      Prop where
  first : ranges.head? = some (low, high)
  within : ∀ range ∈ ranges, range.1 ≤ range.2 ∧ range.2 ≤ content.length
  narrowing : ranges.IsChain fun range next => next.2 - next.1 < range.2 - range.1
  answers : ∃ a, answer = some a ∧ checked = some (.ok a) ∧ (a = .ok true → HasHash content passwordHash)

/-- A search that ends with its first range. -/
theorem SearchSafe.single {low high : Nat} {a : Except PasswordError Bool} (hlow : low ≤ high)
    (hhigh : high ≤ content.length) (h : a = .ok true → HasHash content passwordHash) :
    SearchSafe content passwordHash low high [(low, high)] (some a) (some (.ok a)) where
  first := rfl
  within := by
    intro range hrange
    rw [List.mem_singleton.1 hrange]
    exact ⟨hlow, hhigh⟩
  narrowing := List.IsChain.singleton _
  answers := ⟨a, rfl, rfl, h⟩

theorem searchLoop_safe : ∀ {rounds i j : Nat} {reader : Reader}, reader.content = content → i ≤ j →
    j ≤ (lines newline content).length → j - i ≤ rounds →
      SearchSafe content passwordHash (start (lines newline content) i) (start (lines newline content) j)
        (searchRanges passwordHash content.length rounds reader (start (lines newline content) i)
          (start (lines newline content) j))
        (searchLoop passwordHash content.length rounds reader (start (lines newline content) i)
          (start (lines newline content) j))
        (checkedSearchLoop passwordHash content.length rounds reader (start (lines newline content) i)
          (start (lines newline content) j))
  | rounds, i, j, reader, hr, hij, hj, hrounds => by
    have hlow : start (lines newline content) i ≤ start (lines newline content) j := start_mono hij
    have hhigh : start (lines newline content) j ≤ content.length := start_le_length hj
    unfold searchRanges searchLoop checkedSearchLoop
    by_cases hlt : start (lines newline content) i < start (lines newline content) j
    · have hij' : i < j := by
        by_contra hn
        exact absurd (start_mono (Nat.le_of_not_lt hn) : start (lines newline content) j ≤ _) (Nat.not_le_of_lt hlt)
      simp only [if_pos hlt]
      cases rounds with
      | zero => omega
      | succ rounds =>
        obtain ⟨hends, hchecked⟩ : RoundEnds content passwordHash i j _ ∧ _ := searchRound_ends hr hij' hj
        simp only [hchecked]
        generalize searchRound passwordHash content.length reader (start (lines newline content) i)
          (start (lines newline content) j) = round at hends ⊢
        cases hends with
        | error e =>
          apply SearchSafe.single hlow hhigh
          rintro ⟨⟩
        | finished found h =>
          apply SearchSafe.single hlow hhigh
          intro hfound
          exact h (Except.ok.inj hfound)
        | narrowed i' j' reader' hr' hi hij'' hj' hlt' =>
          -- the rounds left cover the lines left
          have hrest := searchLoop_safe hr' hij'' (le_trans hj' hj) (by omega : j' - i' ≤ rounds)
          have hnarrow := start_sub_lt hi hij'' hj' hj hlt'
          refine ⟨rfl, ?_, ?_, hrest.answers⟩
          · intro range hrange
            rcases List.mem_cons.1 hrange with rfl | hrange
            · exact ⟨hlow, hhigh⟩
            · exact hrest.within range hrange
          · refine List.isChain_cons.2 ⟨?_, hrest.narrowing⟩
            intro next hnext
            rw [hrest.first] at hnext
            cases hnext
            exact hnarrow
    · simp only [if_neg hlt]
      have hin : start (lines newline content) i ≤ reader.content.length := by
        rw [hr]
        exact le_trans hlow hhigh
      rw [checkedLineAtMatches_of_le hin]
      apply SearchSafe.single hlow hhigh
      intro hfound
      exact hasHash_of_lineAtMatches hr (le_trans hij hj) hfound

end

/-- The search of a whole file. -/
theorem searchLoop_safe_file (content : Bytes) (passwordHash : Str) :
    SearchSafe content passwordHash 0 content.length
      (searchRanges passwordHash content.length content.length ⟨content, 0⟩ 0 content.length)
      (searchLoop passwordHash content.length content.length ⟨content, 0⟩ 0 content.length)
      (checkedSearchLoop passwordHash content.length content.length ⟨content, 0⟩ 0 content.length) := by
  have hlines : (lines newline content).length - 0 ≤ content.length := by
    have hle := le_start (le_refl (lines newline content).length)
    rwa [start_lines_length] at hle
  have hsafe : SearchSafe content passwordHash _ _ _ _ _ :=
    searchLoop_safe (rfl : (⟨content, 0⟩ : Reader).content = content) (Nat.zero_le _)
      (le_refl (lines newline content).length) hlines
  rwa [start_zero, start_lines_length] at hsafe

theorem sortedSearch_answers (file : File) (passwordHash : Str) :
    ∃ a, searchLoop passwordHash file.content.length file.content.length ⟨file.content, 0⟩ 0 file.content.length =
      some a := by
  obtain ⟨a, hanswer, -⟩ := (searchLoop_safe_file file.content passwordHash).answers
  exact ⟨a, hanswer⟩

theorem breachedPasswordFileContains_isSome (path : Path) (passwordHash : Str) (options : BreachedPasswordFileOptions) :
    ∃ a, breachedPasswordFileContains path passwordHash options = some a := by
  unfold breachedPasswordFileContains
  cases validateBreachFileMetadata path options with
  | error e => exact ⟨_, rfl⟩
  | ok u =>
    cases normalizeSha1Hash passwordHash with
    | error e => exact ⟨_, rfl⟩
    | ok hash =>
      simp only
      split
      · unfold breachedPasswordHashSortedFileContains
        rcases path with e | file
        · exact ⟨_, rfl⟩
        · simp only [openFile]
          split
          · exact ⟨_, rfl⟩
          · exact sortedSearch_answers file hash
      · exact ⟨_, rfl⟩

/-- On any file and for any hash the search of a sorted file answers. `low` and `high` stay in order and
in the file, and get closer at every iteration; the search whose subtractions and seeks are checked
answers the same, so none goes below zero or past the end; and the answer is true only if some line
normalizes to the hash. -/
theorem sortedSearch_safe (file : File) (passwordHash : Str) :
    let len := file.content.length
    let ranges := searchRanges passwordHash len len ⟨file.content, 0⟩ 0 len
    (∀ range ∈ ranges, range.1 ≤ range.2 ∧ range.2 ≤ len) ∧
    ranges.IsChain (fun range next => next.2 - next.1 < range.2 - range.1) ∧
    ∃ answer, breachedPasswordHashSortedFileContains (.ok file) passwordHash = some answer ∧
      checkedSortedFileContains (.ok file) passwordHash = some (.ok answer) ∧
      (answer = .ok true → ∃ line, .ok line ∈ fileLines file.content ∧
        breachedHashFromLine line = some passwordHash) := by
  intro len ranges
  have hsafe := searchLoop_safe_file file.content passwordHash
  refine ⟨hsafe.within, hsafe.narrowing, ?_⟩
  unfold breachedPasswordHashSortedFileContains checkedSortedFileContains openFile
  simp only
  by_cases h0 : file.content.length = 0
  · -- an empty file is answered before the loop
    rw [if_pos h0, if_pos h0]
    refine ⟨_, rfl, rfl, ?_⟩
    rintro ⟨⟩
  · rw [if_neg h0, if_neg h0]
    exact hsafe.answers

/-- Blank lines are searched, and no hash is found on them. -/
theorem sortedSearch_safe_blankLines :
    ∃ answer, breachedPasswordHashSortedFileContains (.ok ⟨true, [10, 10, 10]⟩) "0A".toList = some answer ∧
      answer ≠ .ok true := by
  obtain ⟨-, -, answer, hanswer, -, hfound⟩ := sortedSearch_safe ⟨true, [10, 10, 10]⟩ "0A".toList
  refine ⟨answer, hanswer, ?_⟩
  intro htrue
  obtain ⟨line, hline, hhash⟩ := hfound htrue
  have hlines : fileLines [10, 10, 10] = [.ok [], .ok [], .ok []] := by
    have hraw : lines newline [10, 10, 10] = [Utf8.encode ['\n'], Utf8.encode ['\n'], Utf8.encode ['\n']] := by decide
    rw [fileLines, hraw]
    simp only [List.map_cons, List.map_nil, Reader.lineText, Utf8.decode_encode, Except.map]
    decide
  rw [hlines] at hline
  simp only [List.mem_cons, List.not_mem_nil, or_false, or_self, Except.ok.injEq] at hline
  subst hline
  revert hhash
  decide

end WorldInfra.Password
