/-
auth-password-core: SHA-1 breach files. Validation of a file, the linear scan, and the search of a
sorted file by byte offsets.
-/
import WorldInfra.Lib.Lines
import WorldInfra.Rust.Num
import WorldInfra.Rust.Utf8

namespace WorldInfra.Password

open WorldInfra.Lib WorldInfra.Rust

inductive PasswordError where
  | empty
  | tooShort (chars min : Nat)
  | tooLong (chars max : Nat)
  | common
  | breached
  | invalidHash
  | hash (text : Str)
  | breachFile (text : Str)
  | worker (text : Str)
  deriving DecidableEq, Repr

/-- `io_error`, of the error's text. -/
def ioError (error : Str) : PasswordError := .breachFile error

def defaultMinBreachFileBytes : Nat := 1

def defaultLinearScanMaxBytes : Nat := 64 * 1024 * 1024

structure BreachedPasswordFileOptions where
  sorted : Bool := true
  minBytes : Nat := defaultMinBreachFileBytes
  linearScanMaxBytes : Nat := defaultLinearScanMaxBytes
  deriving DecidableEq, Repr

/-! ## Files -/

/-- What a path leads to. -/
structure File where
  isFile : Bool
  content : Bytes
  deriving DecidableEq, Repr

/-- A path as the file system resolves it: the file, or the text of the error. -/
abbrev Path := Except Str File

def newline : UInt8 := 10

/-- `BufReader<File>`. -/
structure Reader where
  content : Bytes
  pos : Nat
  deriving DecidableEq, Repr

namespace Reader

def seek (reader : Reader) (pos : Nat) : Reader := { reader with pos := pos }

theorem seek_eq {reader : Reader} {content : Bytes} (h : reader.content = content) (pos : Nat) :
    reader.seek pos = ⟨content, pos⟩ := by
  rw [← h]; rfl

/-- `read_exact` of one byte. -/
def readByte (reader : Reader) : Except Str (UInt8 × Reader) :=
  match reader.content[reader.pos]? with
  | none => .error "failed to fill whole buffer".toList
  | some b => .ok (b, reader.seek (reader.pos + 1))

def lineText (raw : Bytes) : Except Str Str :=
  match Utf8.decode raw with
  | none => .error "stream did not contain valid UTF-8".toList
  | some line => .ok line

/-- `read_line` into an empty buffer: the number of bytes read, the line, and the reader behind it. -/
def readLine (reader : Reader) : Except Str (Nat × Str × Reader) :=
  let raw := firstLine newline (reader.content.drop reader.pos)
  match lineText raw with
  | .error e => .error e
  | .ok line => .ok (raw.length, line, reader.seek (reader.pos + raw.length))

end Reader

/-- What `lines` takes off a line: the newline, and a carriage return before it. -/
def stripLineEnding (line : Str) : Str :=
  match Str.stripSuffix '\n' line with
  | none => line
  | some line => (Str.stripSuffix '\r' line).getD line

/-- `BufRead::lines` from the start of a file. -/
def fileLines (content : Bytes) : List (Except Str Str) :=
  (lines newline content).map fun raw => (Reader.lineText raw).map stripLineEnding

/-! ## Hashes -/

def normalizeSha1Hash (value : Str) : Except PasswordError Str :=
  let value := value.trim
  if value.len = 40 ∧ value.all isAsciiHexdigit then .ok value.toAsciiUppercase
  else .error (.breachFile "invalid breached password SHA-1 hash".toList)

def breachedHashFromLine (line : Str) : Option Str :=
  let hash := (((Str.splitOnce ':' line).map Prod.fst).getD line).trim
  (normalizeSha1Hash hash).toOption

theorem normalizeSha1Hash_cases {value hash : Str} (h : normalizeSha1Hash value = .ok hash) :
    value.trim.len = 40 ∧ hash = value.trim.toAsciiUppercase := by
  unfold normalizeSha1Hash at h
  simp only at h
  split at h
  · rename_i hv
    cases h
    exact ⟨hv.1, rfl⟩
  · cases h

theorem normalizeSha1Hash_hex {value : Str} (hlen : value.length = 40)
    (hhex : ∀ c ∈ value, isAsciiHexdigit c = true) : normalizeSha1Hash value = .ok value.toAsciiUppercase := by
  have htrim : value.trim = value :=
    Str.trim_eq_self fun c hc => isWhitespace_of_isAlphanum (isAlphanum_of_isAsciiHexdigit (hhex c hc))
  unfold normalizeSha1Hash
  simp only [htrim]
  rw [if_pos]
  exact ⟨(Str.len_of_hexdigits hhex).trans hlen, List.all_eq_true.2 hhex⟩

/-- A line with a hash is at least as long as the hash. -/
theorem len_of_breachedHashFromLine {line hash : Str} (h : breachedHashFromLine line = some hash) : 40 ≤ line.len := by
  have hpart : ((Str.splitOnce ':' line).map Prod.fst).getD line <:+: line := by
    cases hs : Str.splitOnce ':' line with
    | none => exact List.infix_refl _
    | some p =>
      obtain ⟨hash, count⟩ := p
      obtain ⟨rfl, -⟩ := Str.splitOnce_eq_some.1 hs
      exact (List.prefix_append _ _).isInfix
  unfold breachedHashFromLine at h
  simp only at h
  generalize ((Str.splitOnce ':' line).map Prod.fst).getD line = part at h hpart
  cases hn : normalizeSha1Hash part.trim with
  | error e => rw [hn] at h; cases h
  | ok value =>
    have hlen := (normalizeSha1Hash_cases hn).1
    obtain ⟨before, after, rfl⟩ := ((Str.trim_within _).trans (Str.trim_within part)).trans hpart
    rw [Str.len_append, Str.len_append]
    omega

/-- White space at its end does not change a line's hash. -/
theorem breachedHashFromLine_append_ws {w : Str} (hw : ∀ c ∈ w, isWhitespace c = true) (line : Str) :
    breachedHashFromLine (line ++ w) = breachedHashFromLine line := by
  have hsep : ':' ∉ w := fun h => absurd (hw ':' h) (by decide)
  unfold breachedHashFromLine
  cases hs : Str.splitOnce ':' line with
  | none =>
    have hs' : Str.splitOnce ':' (line ++ w) = none := by
      rw [Str.splitOnce_eq_none] at hs ⊢
      rw [List.mem_append, not_or]
      exact ⟨hs, hsep⟩
    simp only [hs', Option.map_none, Option.getD_none, Str.trim_append_ws hw]
  | some p =>
    obtain ⟨hash, count⟩ := p
    obtain ⟨rfl, hn⟩ := Str.splitOnce_eq_some.1 hs
    have hs' : Str.splitOnce ':' ((hash ++ ':' :: count) ++ w) = some (hash, count ++ w) :=
      Str.splitOnce_eq_some.2 ⟨by rw [List.append_assoc, List.cons_append], hn⟩
    simp only [hs', Option.map_some, Option.getD_some]

theorem stripLineEnding_append (line : Str) :
    ∃ w, line = stripLineEnding line ++ w ∧ ∀ c ∈ w, isWhitespace c = true := by
  unfold stripLineEnding
  cases hn : Str.stripSuffix '\n' line with
  | none => exact ⟨[], (List.append_nil line).symm, fun c hc => absurd hc List.not_mem_nil⟩
  | some l =>
    show ∃ w, line = (Str.stripSuffix '\r' l).getD l ++ w ∧ _
    have hl := Str.eq_append_of_stripSuffix hn
    have hnl : isWhitespace '\n' = true := by decide
    cases hr : Str.stripSuffix '\r' l with
    | none =>
      refine ⟨['\n'], hl, ?_⟩
      intro c hc
      rw [List.mem_singleton.1 hc]; exact hnl
    | some l' =>
      refine ⟨['\r', '\n'], ?_, ?_⟩
      · rw [hl, Str.eq_append_of_stripSuffix hr, List.append_assoc]; rfl
      · intro c hc
        rcases List.mem_cons.1 hc with rfl | hc
        · decide
        · rw [List.mem_singleton.1 hc]; exact hnl

theorem breachedHashFromLine_strip (line : Str) :
    breachedHashFromLine (stripLineEnding line) = breachedHashFromLine line := by
  obtain ⟨w, hline, hw⟩ := stripLineEnding_append line
  rw [← breachedHashFromLine_append_ws hw (stripLineEnding line), ← hline]

def invalidEntry : PasswordError := .breachFile "invalid breached password SHA-1 entry".toList

def lineHashCmp (line passwordHash : Str) : Except PasswordError Ordering :=
  match breachedHashFromLine line with
  | none => .error invalidEntry
  | some hash => .ok (Str.cmp hash passwordHash)

/-! ## Validation -/

def tooSmall (len minBytes : Nat) : PasswordError :=
  .breachFile ("breached password SHA-1 file is ".toList ++ decimal len ++ " bytes; minimum is ".toList ++
    decimal minBytes)

def tooLargeToScan (len linearScanMaxBytes : Nat) : PasswordError :=
  .breachFile ("breached password SHA-1 file is ".toList ++ decimal len ++ " bytes; linear scan limit is ".toList ++
    decimal linearScanMaxBytes ++ " bytes".toList)

def validateBreachFileMetadata (path : Path) (options : BreachedPasswordFileOptions) :
    Except PasswordError Unit :=
  match path with
  | .error e => .error (ioError e)
  | .ok metadata =>
    let len := metadata.content.length
    if !metadata.isFile then .error (.breachFile "breached password SHA-1 path is not a file".toList)
    else if len < options.minBytes then .error (tooSmall len options.minBytes)
    else if !options.sorted ∧ len > options.linearScanMaxBytes then
      .error (tooLargeToScan len options.linearScanMaxBytes)
    else .ok ()

/-- `File::open`. -/
def openFile (path : Path) : Except PasswordError Bytes :=
  match path with
  | .error e => .error (ioError e)
  | .ok file => .ok file.content

def blankEntryOnLine (line : Nat) : PasswordError :=
  .breachFile ("blank breached password SHA-1 entry on line ".toList ++ decimal line)

def invalidEntryOnLine (line : Nat) : PasswordError :=
  .breachFile ("invalid breached password SHA-1 entry on line ".toList ++ decimal line)

def notSortedAtLine (line : Nat) : PasswordError :=
  .breachFile ("breached password SHA-1 file is not sorted at line ".toList ++ decimal line)

/-- The loop over the lines: the number of entries. -/
def validateEntries (sorted : Bool) (idx : Nat) (previousHash : Option Str) (validEntries : Nat) :
    List (Except Str Str) → Except PasswordError Nat
  | [] => .ok validEntries
  | .error e :: _ => .error (ioError e)
  | .ok line :: rest =>
    if line.trim.isEmpty then .error (blankEntryOnLine (idx + 1))
    else
      match breachedHashFromLine line with
      | none => .error (invalidEntryOnLine (idx + 1))
      | some hash =>
        if sorted ∧ previousHash.any (hash < ·) then .error (notSortedAtLine (idx + 1))
        else validateEntries sorted (idx + 1) (some hash) (validEntries + 1) rest

def validateBreachedPasswordFile (path : Path) (options : BreachedPasswordFileOptions) : Except PasswordError Unit := do
  validateBreachFileMetadata path options
  let content ← openFile path
  let validEntries ← validateEntries options.sorted 0 none 0 (fileLines content)
  if validEntries = 0 then
    throw (.breachFile "breached password SHA-1 file contains no valid hashes".toList)

/-! ## The linear scan -/

def scanEntries (passwordHash : Str) (idx : Nat) : List (Except Str Str) → Except PasswordError Bool
  | [] => .ok false
  | .error e :: _ => .error (ioError e)
  | .ok line :: rest =>
    if line.trim.isEmpty then scanEntries passwordHash (idx + 1) rest
    else
      match breachedHashFromLine line with
      | none => .error (invalidEntryOnLine (idx + 1))
      | some hash => if hash = passwordHash then .ok true else scanEntries passwordHash (idx + 1) rest

def breachedPasswordHashLinearScanContains (path : Path) (passwordHash : Str)
    (options : BreachedPasswordFileOptions) : Except PasswordError Bool := do
  validateBreachFileMetadata path options
  let content ← openFile path
  scanEntries passwordHash 0 (fileLines content)

/-! ## The search of a sorted file -/

/-- The way back from `pos` to the byte behind the nearest newline. -/
def seekLineStart (reader : Reader) : Nat → Except PasswordError (Nat × Reader)
  | 0 => .ok (0, reader.seek 0)
  | previousPos + 1 =>
    match (reader.seek previousPos).readByte with
    | .error e => .error (ioError e)
    | .ok (previous, reader) =>
      if previous = newline then .ok (previousPos + 1, reader) else seekLineStart reader previousPos

def seekProbeLineStart (reader : Reader) (mid len : Nat) : Except PasswordError (Nat × Reader) :=
  if mid = 0 then .ok (0, reader.seek 0)
  else if mid ≥ len then .ok (len, reader)
  else
    match (reader.seek mid).readByte with
    | .error e => .error (ioError e)
    | .ok (current, reader) =>
      -- on a newline the next line is probed, and the reader already stands at it
      if current = newline then .ok (mid + 1, reader) else seekLineStart reader mid

/-- The read that ends a search: whether the line at `low` has the hash. -/
def lineAtMatches (reader : Reader) (low : Nat) (passwordHash : Str) : Except PasswordError Bool :=
  match (reader.seek low).readLine with
  | .error e => .error (ioError e)
  | .ok (read, line, _) =>
    if read = 0 then .ok false
    else
      match lineHashCmp line passwordHash with
      | .error e => .error e
      | .ok ordering => .ok (ordering == .eq)

/-- How a round of the search ends. -/
inductive Round where
  | finished (found : Bool)
  | narrowed (low high : Nat) (reader : Reader)
  deriving DecidableEq, Repr

/-- One round of the search loop, between `low` and `high`. -/
def searchRound (passwordHash : Str) (len : Nat) (reader : Reader) (low high : Nat) : Except PasswordError Round :=
  let mid := low + (high - low) / 2
  match seekProbeLineStart reader mid len with
  | .error e => .error e
  | .ok (lineStart, reader) =>
    -- the probe left the range: one last look at the line at `low`
    if lineStart ≥ high then (lineAtMatches reader low passwordHash).map .finished
    else
      match reader.readLine with
      | .error e => .error (ioError e)
      | .ok (read, line, reader) =>
        if read = 0 then .ok (.finished false)
        else
          match lineHashCmp line passwordHash with
          | .error e => .error e
          | .ok .eq => .ok (.finished true)
          | .ok .lt => .ok (.narrowed reader.pos high reader)
          | .ok .gt => .ok (.narrowed low lineStart reader)

/-- The search loop; `none` if the rounds do not suffice. -/
def searchLoop (passwordHash : Str) (len : Nat) : Nat → Reader → Nat → Nat → Option (Except PasswordError Bool)
  | rounds, reader, low, high =>
    if low < high then
      match rounds with
      | 0 => none
      | rounds + 1 =>
        match searchRound passwordHash len reader low high with
        | .error e => some (.error e)
        | .ok (.finished found) => some (.ok found)
        | .ok (.narrowed low high reader) => searchLoop passwordHash len rounds reader low high
    else some (lineAtMatches reader low passwordHash)

/-- The search, given as many rounds as the file has bytes. -/
def breachedPasswordHashSortedFileContains (path : Path) (passwordHash : Str) :
    Option (Except PasswordError Bool) :=
  match openFile path with
  | .error e => some (.error e)
  | .ok content =>
    let len := content.length
    if len = 0 then some (.ok false) else searchLoop passwordHash len len ⟨content, 0⟩ 0 len

def breachedPasswordFileContains (path : Path) (passwordHash : Str) (options : BreachedPasswordFileOptions) :
    Option (Except PasswordError Bool) :=
  match validateBreachFileMetadata path options with
  | .error e => some (.error e)
  | .ok () =>
    match normalizeSha1Hash passwordHash with
    | .error e => some (.error e)
    | .ok passwordHash =>
      if options.sorted then breachedPasswordHashSortedFileContains path passwordHash
      else some (breachedPasswordHashLinearScanContains path passwordHash options)

end WorldInfra.Password
