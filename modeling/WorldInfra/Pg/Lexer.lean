/-
The part of PostgreSQL's lexical syntax that settings are written in: unquoted identifiers, the
dot, the equals sign and escape string literals. What else a text may hold is refused.
-/
import WorldInfra.Lib.Scanner
import WorldInfra.Rust.Text

namespace WorldInfra.Pg

open WorldInfra.Lib WorldInfra.Rust

/-- A token; keywords are words, and a word is read in lower case. -/
inductive Token where
  | word (name : Str)
  | dot
  | equals
  | literal (value : Str)
  deriving DecidableEq, Repr

def isSpace (c : Char) : Bool := [' ', '\t', '\n', '\r', '\x0b', '\x0c'].contains c

def isOperator (c : Char) : Bool := "~!@#^&|`?+-*/%<>=".toList.contains c

def isIdentStart (c : Char) : Bool := c.isAlpha || c == '_' || decide (128 ≤ c.toNat)

def isIdentCont (c : Char) : Bool := isIdentStart c || c.isDigit || c == '$'

/-- The longest prefix within a number of bytes. -/
def clip : Nat → Str → Str
  | _, [] => []
  | budget, c :: s => if c.utf8Size ≤ budget then c :: clip (budget - c.utf8Size) s else []

/-- The name an identifier stands for: in lower case, and truncated to 63 bytes. -/
def identifier (s : Str) : Str := clip 63 (s.map Char.toLower)

/-- The character an escape stands for. A numeric escape is not read; every other character stands
for itself, the backslash and the quote among them. -/
def unescape : Char → Option Char
  | 'b' => some '\x08'
  | 'f' => some '\x0c'
  | 'n' => some '\n'
  | 'r' => some '\r'
  | 't' => some '\t'
  | c => if "01234567xuU".toList.contains c then none else some c

inductive Mode where
  | start
  | word (s : Str)
  | dot
  | equals
  | literal (s : Str)
  | escape (s : Str)
  | quote (s : Str)
  deriving DecidableEq, Repr

/-- The mode after the first character of a token, or a space. -/
def begin (c : Char) : Option Mode :=
  if isSpace c then some .start
  else if isIdentStart c then some (.word [c])
  else if c = '.' then some .dot
  else if c = '=' then some .equals
  else none

def step : Mode → Char → Option (List Token × Mode)
  | .start, c => (begin c).map fun m => ([], m)
  | .word s, c =>
    if isIdentCont c then some ([], .word (s ++ [c]))
    else if c = '\'' then
      -- a quote right after the one letter opens an escape string
      if s = ['E'] ∨ s = ['e'] then some ([], .literal []) else none
    else (begin c).map fun m => ([.word (identifier s)], m)
  | .dot, c => if c.isDigit ∨ c = '.' then none else (begin c).map fun m => ([.dot], m)
  | .equals, c => if isOperator c then none else (begin c).map fun m => ([.equals], m)
  | .literal s, c =>
    if c = '\'' then some ([], .quote s)
    else if c = '\\' then some ([], .escape s)
    else some ([], .literal (s ++ [c]))
  | .escape s, c => (unescape c).map fun d => ([], .literal (s ++ [d]))
  | .quote s, c =>
    -- a doubled quote is a quote, any other one has ended the literal
    if c = '\'' then some ([], .literal (s ++ [c]))
    else (begin c).map fun m => ([.literal s], m)

def finish : Mode → Option (List Token)
  | .start => some []
  | .word s => some [.word (identifier s)]
  | .dot => some [.dot]
  | .equals => some [.equals]
  | .literal _ | .escape _ => none
  | .quote s => some [.literal s]

def lexer : Scanner Mode Char Token := ⟨.start, step, finish⟩

/-- The tokens of a statement. -/
def tokens (s : Str) : Option (List Token) := lexer.scan s

end WorldInfra.Pg
