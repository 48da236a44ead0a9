/-!
  UnitLedger.Yaml.Cursor — the characters of a YAML text and a place among them.

  A cursor knows what is left of the text, how many characters came before, and its line and
  column. Line breaks are CR LF, CR, LF, NEL (U+0085) and the Unicode line and paragraph separators;
  all but the last two are read as LF.
-/

namespace UnitLedger.Yaml

/-- A YAML text holds these characters only. -/
def isAllowed (c : Char) : Bool :=
  c == '\t' || c == '\n' || c == '\r' || (0x20 ≤ c.toNat && c.toNat ≤ 0x7E) || c.toNat == 0x85
    || (0xA0 ≤ c.toNat && c.toNat ≤ 0xD7FF) || (0xE000 ≤ c.toNat && c.toNat ≤ 0xFFFD)
    || 0x10000 ≤ c.toNat

def isBlank (c : Char) : Bool := c == ' ' || c == '\t'

def isBreak (c : Char) : Bool :=
  c == '\n' || c == '\r' || c == '\u0085' || c == '\u2028' || c == '\u2029'

/-- A character of a name: an ASCII letter or digit, a hyphen or an underscore. -/
def isNameChar (c : Char) : Bool := c.isAlphanum || c == '-' || c == '_'

/-- The end of a line: a line break or the end of the text. -/
def endsLine : Option Char → Bool
  | none => true
  | some c => isBreak c

/-- The end of a word: a blank, a line break or the end of the text. -/
def endsWord : Option Char → Bool
  | none => true
  | some c => isBlank c || isBreak c

structure Cursor where
  rest : List Char
  index : Nat := 0
  line : Nat := 0
  column : Nat := 0
  deriving Repr

namespace Cursor

def head (c : Cursor) : Option Char := c.rest.head?

/-- The character `n` places on. -/
def ahead (c : Cursor) (n : Nat) : Option Char := c.rest[n]?

def skipMany (c : Cursor) (n : Nat) : Cursor :=
  { c with rest := c.rest.drop n, index := c.index + n, column := c.column + n }

def skip (c : Cursor) : Cursor := c.skipMany 1

def skipWhile (c : Cursor) (p : Char → Bool) : Cursor := c.skipMany (c.rest.takeWhile p).length

/-- To the end of the line. -/
def skipLine (c : Cursor) : Cursor := c.skipWhile (!isBreak ·)

/-- To the start of the next line. -/
def nextLine (c : Cursor) (taken : Nat) : Cursor :=
  { rest := c.rest.drop taken, index := c.index + taken, line := c.line + 1, column := 0 }

/-- Past the line break that stands here, if one does. -/
def skipBreak (c : Cursor) : Cursor :=
  match c.rest with
  | '\r' :: '\n' :: _ => c.nextLine 2
  | b :: _ => if isBreak b then c.nextLine 1 else c
  | [] => c

/-- The text of the line break that stands here; nothing if none does. -/
def breakText (c : Cursor) : List Char :=
  match c.head with
  | none => []
  | some b =>
    if b == '\u2028' || b == '\u2029' then [b] else if isBreak b then ['\n'] else []

def isAtBreak (c : Cursor) : Bool := c.head.any isBreak

def isAtBlank (c : Cursor) : Bool := c.head.any isBlank

/-- These characters stand at the start of a line, alone in their word. -/
def isAtMarker (c : Cursor) (marker : List Char) : Bool :=
  c.column == 0 && c.rest.take marker.length == marker && endsWord (c.ahead marker.length)

/-- The start or the end of a document is marked here. -/
def isAtDocument (c : Cursor) : Bool :=
  c.isAtMarker ['-', '-', '-'] || c.isAtMarker ['.', '.', '.']

end Cursor

end UnitLedger.Yaml
