import UnitLedger.Yaml.Scalar

/-!
  UnitLedger.Yaml.Token — the tokens of a YAML text.

  Tokens make the structure explicit that a text only shows by its indentation: where a block
  collection opens and closes, and which nodes are keys. A node turns out to be a key when a colon
  follows it in the same line and within 1024 characters; the tokens in front of it are then put in
  later. A node that can only be a key must be one.
-/

namespace UnitLedger.Yaml

inductive Token where
  | versionDirective (major minor : Nat)
  /-- Tags that start with the handle are written for tags that start with the other text. -/
  | tagDirective (handle expansion : String)
  | documentStart
  | documentEnd
  | openBlockList
  | openBlockMap
  | closeBlock
  | openFlowList
  | closeFlowList
  | openFlowMap
  | closeFlowMap
  /-- The hyphen in front of an item. -/
  | item
  | comma
  | key
  | value
  /-- An alias. -/
  | reference (name : String)
  | anchor (name : String)
  | tag (handle suffix : String)
  | scalar (style : Style) (text : String)
  | finish
  deriving DecidableEq, Repr

/-! ## Names and tags -/

/-- The name behind the mark of an anchor or an alias, which has been read. -/
def scanName (c : Cursor) : Option (String × Cursor) :=
  let name := c.rest.takeWhile isNameChar
  let c := c.skipMany name.length
  let ends := endsWord c.head || c.head.any fun ch =>
    ch == '?' || ch == ':' || ch == ',' || ch == ']' || ch == '\x7d' || ch == '%' || ch == '@'
      || ch == '\x60'
  if name.isEmpty || !ends then none else some (String.ofList name, c)

/-- A handle: an exclamation mark, or a name between two of them. -/
def scanHandle (c : Cursor) : Option (List Char × Cursor) :=
  if c.head != some '!' then none
  else
    let name := (c.rest.drop 1).takeWhile isNameChar
    let c := c.skipMany (1 + name.length)
    if c.head == some '!' then some ('!' :: name ++ ['!'], c.skip)
    else some ('!' :: name, c)

/-- A byte written as a percent sign and two digits. -/
def escapedByte? : List Char → Option UInt8
  | '%' :: a :: b :: _ => do return UInt8.ofNat (16 * (← hexDigit? a) + (← hexDigit? b))
  | _ => none

/-- The bytes written as escapes from here on, at most `n`. -/
def escapedBytes : Nat → List Char → List UInt8
  | 0, _ => []
  | n + 1, cs =>
    match escapedByte? cs with
    | none => []
    | some b => b :: escapedBytes n (cs.drop 3)

/-- The character whose bytes are escaped from here on, and the number of its bytes. -/
def escapedChar? (cs : List Char) : Option (Char × Nat) :=
  let bytes := escapedBytes 4 cs
  [1, 2, 3, 4].findSome? fun n =>
    if bytes.length < n then none
    else
      match (String.fromUTF8? ⟨(bytes.take n).toArray⟩).map (·.toList) with
      | some [c] => some (c, n)
      | _ => none

def isUriChar (isOpen : Bool) (c : Char) : Bool :=
  isNameChar c || ";/?:@&=+$.!~*'()".toList.contains c || (isOpen && ",[]".toList.contains c)

/-- The characters of a tag. Commas and square brackets belong to it only if `isOpen`. -/
def scanUri (isOpen : Bool) : Nat → Cursor → Option (List Char × Cursor)
  | 0, _ => none
  | fuel + 1, c =>
    match c.head with
    | none => some ([], c)
    | some ch =>
      if ch == '%' then do
        let (x, n) ← escapedChar? c.rest
        let (more, c) ← scanUri isOpen fuel (c.skipMany (3 * n))
        return (x :: more, c)
      else if isUriChar isOpen ch then do
        let (more, c) ← scanUri isOpen fuel c.skip
        return (ch :: more, c)
      else some ([], c)

/-- A tag: one written out in angle brackets has no handle, and a lone exclamation mark is a tag of
its own. -/
def scanTag (inFlow : Bool) (c : Cursor) : Option (Token × Cursor) := do
  let (token, c) ← (if c.ahead 1 == some '<' then do
      let (uri, c) ← scanUri true (c.rest.length + 1) (c.skipMany 2)
      if uri.isEmpty || c.head != some '>' then none
      return (Token.tag "" (String.ofList uri), c.skip)
    else do
      let (handle, after) ← scanHandle c
      let (suffix, c) ← scanUri false (c.rest.length + 1) after
      if 2 ≤ handle.length ∧ handle.getLast? = some '!' then
        if suffix.isEmpty then none
        return (.tag (String.ofList handle) (String.ofList suffix), c)
      else
        let suffix := handle.drop 1 ++ suffix
        if suffix.isEmpty then return (.tag "" "!", c)
        return (.tag "!" (String.ofList suffix), c) : Option (Token × Cursor))
  if endsWord c.head || (inFlow && c.head == some ',') then return (token, c) else none

/-! ## Directives -/

/-- A number of at most nine digits. -/
def scanVersionPart (c : Cursor) : Option (Nat × Cursor) :=
  let ds := c.rest.takeWhile Char.isDigit
  if ds.isEmpty || 9 < ds.length then none
  else some (ds.foldl (fun n d => 10 * n + (d.toNat - 48)) 0, c.skipMany ds.length)

/-- A directive whose percent sign has been read. -/
def scanDirective (c : Cursor) : Option (Token × Cursor) := do
  let name := c.rest.takeWhile isNameChar
  let c := c.skipMany name.length
  if name.isEmpty || !endsWord c.head then none
  let c := c.skipWhile isBlank
  let (token, c) ← (if name = ['Y', 'A', 'M', 'L'] then do
      let (major, c) ← scanVersionPart c
      if c.head != some '.' then none
      let (minor, c) ← scanVersionPart c.skip
      return (.versionDirective major minor, c)
    else if name = ['T', 'A', 'G'] then do
      let (handle, c) ← scanHandle c
      if handle ≠ ['!'] ∧ handle.getLast? ≠ some '!' then none
      if !c.isAtBlank then none
      let (uri, c) ← scanUri true (c.rest.length + 1) (c.skipWhile isBlank)
      if uri.isEmpty || !endsWord c.head then none
      return (.tagDirective (String.ofList handle) (String.ofList uri), c)
    else none : Option (Token × Cursor))
  let c := c.skipWhile isBlank
  let c := if c.head == some '#' then c.skipLine else c
  if endsLine c.head then return (token, c.skipBreak) else none

/-! ## Structure -/

/-- A node that becomes a key if a colon follows it. -/
structure Candidate where
  /-- How many tokens stand before it. -/
  position : Nat
  index : Nat
  line : Nat
  column : Nat
  /-- The node can only be a key. -/
  isRequired : Bool
  deriving Repr

structure Lexer where
  cursor : Cursor
  tokens : Array Token := #[]
  /-- The indentation of the innermost block collection, or -1. -/
  indent : Int := -1
  /-- The indentations of the block collections around it. -/
  outer : List Int := []
  /-- How many flow collections are open. -/
  flow : Nat := 0
  /-- A key may start here. -/
  keyAllowed : Bool := true
  /-- The candidate of each open flow collection and of the block around them. -/
  candidates : List (Option Candidate) := [none]

namespace Lexer

def inFlow (l : Lexer) : Bool := l.flow != 0

def emit (l : Lexer) (t : Token) : Lexer := { l with tokens := l.tokens.push t }

/-- Puts a token in front of those from `position` on. -/
def insert (l : Lexer) (position : Nat) (t : Token) : Lexer :=
  { l with tokens := l.tokens.insertIdxIfInBounds position t }

/-- Closes the block collections that are indented more than `column`. -/
def closeBlocks (l : Lexer) (column : Int) : Lexer :=
  if l.inFlow then l else close l.outer { l with outer := [] }
where
  close : List Int → Lexer → Lexer
    | [], l => l
    | next :: rest, l =>
      if column < l.indent then close rest ({ l with indent := next }.emit .closeBlock)
      else { l with outer := next :: rest }

/-- Opens a block collection at `column` unless one is open there. -/
def openBlock (l : Lexer) (column : Nat) (position : Nat) (t : Token) : Lexer :=
  if l.inFlow || (column : Int) ≤ l.indent then l
  else { l with indent := column, outer := l.indent :: l.outer }.insert position t

/-- The innermost candidate is no key. -/
def dropCandidate (l : Lexer) : Option Lexer :=
  match l.candidates with
  | some k :: rest => if k.isRequired then none else some { l with candidates := none :: rest }
  | _ => some l

/-- A node starts here. -/
def noteCandidate (l : Lexer) : Option Lexer :=
  if !l.keyAllowed then some l
  else do
    let l ← l.dropCandidate
    let k : Candidate :=
      { position := l.tokens.size, index := l.cursor.index, line := l.cursor.line
        column := l.cursor.column
        isRequired := !l.inFlow && l.indent == l.cursor.column }
    return { l with candidates := some k :: l.candidates.drop 1 }

/-- A key ends in the line in which it starts, and within 1024 characters. -/
def isStale (c : Cursor) (k : Candidate) : Bool := k.line < c.line || k.index + 1024 < c.index

def dropStale (l : Lexer) : Option Lexer := do
  let candidates ← l.candidates.mapM fun k? =>
    match k? with
    | none => some none
    | some k =>
      if !isStale l.cursor k then some (some k)
      else if k.isRequired then none
      else some none
  return { l with candidates }

/-- To the next token, over blanks, comments and line breaks. A tab may not stand where a key of a
block collection may start. -/
def skipSpace : Nat → Lexer → Lexer
  | 0, l => l
  | fuel + 1, l =>
    let c := l.cursor
    let c := if c.index == 0 && c.head == some '\uFEFF' then c.skip else c
    let c := c.skipWhile fun ch => ch == ' ' || ((l.inFlow || !l.keyAllowed) && ch == '\t')
    let c := if c.head == some '#' then c.skipLine else c
    if c.isAtBreak then
      skipSpace fuel { l with cursor := c.skipBreak, keyAllowed := l.keyAllowed || !l.inFlow }
    else { l with cursor := c }

/-- One token of fixed text is read. -/
def take (l : Lexer) (length : Nat) (t : Token) : Lexer :=
  { l with cursor := l.cursor.skipMany length }.emit t

/-- A mark that ends every block. -/
def takeMark (l : Lexer) (length : Nat) (t : Token) : Option Lexer := do
  let l ← (l.closeBlocks (-1)).dropCandidate
  return { l with keyAllowed := false }.take length t

def takeDirective (l : Lexer) : Option Lexer := do
  let l ← (l.closeBlocks (-1)).dropCandidate
  let (t, c) ← scanDirective l.cursor.skip
  return { l with cursor := c, keyAllowed := false }.emit t

def takeOpening (l : Lexer) (t : Token) : Option Lexer := do
  let l ← l.noteCandidate
  let l := { l with flow := l.flow + 1, candidates := none :: l.candidates }
  return { l with keyAllowed := true }.take 1 t

def takeClosing (l : Lexer) (t : Token) : Option Lexer := do
  let l ← l.dropCandidate
  let l := if l.inFlow then { l with flow := l.flow - 1, candidates := l.candidates.drop 1 } else l
  return { l with keyAllowed := false }.take 1 t

def takeComma (l : Lexer) : Option Lexer := do
  let l ← l.dropCandidate
  return { l with keyAllowed := true }.take 1 .comma

def takeItem (l : Lexer) : Option Lexer := do
  if !l.inFlow && !l.keyAllowed then none
  let l ← (l.openBlock l.cursor.column l.tokens.size .openBlockList).dropCandidate
  return { l with keyAllowed := true }.take 1 .item

def takeKey (l : Lexer) : Option Lexer := do
  if !l.inFlow && !l.keyAllowed then none
  let l ← (l.openBlock l.cursor.column l.tokens.size .openBlockMap).dropCandidate
  return { l with keyAllowed := !l.inFlow }.take 1 .key

/-- A colon: what stands before it is the key, if it is a candidate. -/
def takeValue (l : Lexer) : Option Lexer :=
  match l.candidates with
  | some k :: rest =>
    let l := l.insert k.position .key
    let l := l.openBlock k.column k.position .openBlockMap
    some ({ l with candidates := none :: rest, keyAllowed := false }.take 1 .value)
  | _ =>
    if !l.inFlow && !l.keyAllowed then none
    else
      let l := l.openBlock l.cursor.column l.tokens.size .openBlockMap
      some ({ l with keyAllowed := !l.inFlow }.take 1 .value)

/-- A node or its anchor or tag, which may start a key. -/
def takeNode (l : Lexer) (scan : Cursor → Option (Token × Cursor)) : Option Lexer := do
  let l ← l.noteCandidate
  let (t, c) ← scan l.cursor
  return { l with cursor := c, keyAllowed := false }.emit t

def takeQuoted (l : Lexer) (isDouble : Bool) : Option Lexer :=
  l.takeNode fun c => do
    let (text, after) ← scanQuoted isDouble (c.rest.length + 2) c.skip
    return (.scalar (if isDouble then .doubleQuoted else .singleQuoted) (String.ofList text), after)

def takeBlock (l : Lexer) (isFolded : Bool) : Option Lexer := do
  let l ← l.dropCandidate
  let (text, c) ← scanBlock isFolded l.indent l.cursor.skip
  return { l with cursor := c, keyAllowed := true }.emit
    (.scalar (if isFolded then .folded else .literal) (String.ofList text))

def takePlain (l : Lexer) : Option Lexer := do
  let l ← l.noteCandidate
  let s ← scanPlain l.inFlow (l.indent + 1) (l.cursor.rest.length + 1) {} l.cursor
  return { l with cursor := s.after, keyAllowed := s.endsLine }.emit
    (.scalar .plain (String.ofList s.text))

/-- These characters do not start a plain scalar, unless the next one allows it. -/
def isIndicator (c : Char) : Bool := "-?:,[]\x7b\x7d#&*!|>'\"%@`".toList.contains c

/-- The token that starts with this character. -/
def takeToken (l : Lexer) (ch : Char) : Option Lexer :=
  let next := l.cursor.ahead 1
  if l.cursor.column == 0 && ch == '%' then l.takeDirective
  else if l.cursor.isAtMarker ['-', '-', '-'] then l.takeMark 3 .documentStart
  else if l.cursor.isAtMarker ['.', '.', '.'] then l.takeMark 3 .documentEnd
  else if ch == '[' then l.takeOpening .openFlowList
  else if ch == '\x7b' then l.takeOpening .openFlowMap
  else if ch == ']' then l.takeClosing .closeFlowList
  else if ch == '\x7d' then l.takeClosing .closeFlowMap
  else if ch == ',' then l.takeComma
  else if ch == '-' && endsWord next then l.takeItem
  else if ch == '?' && (l.inFlow || endsWord next) then l.takeKey
  else if ch == ':' && (l.inFlow || endsWord next) then l.takeValue
  else if ch == '*' then
    l.takeNode fun c => (scanName c.skip).map fun r => (.reference r.1, r.2)
  else if ch == '&' then
    l.takeNode fun c => (scanName c.skip).map fun r => (.anchor r.1, r.2)
  else if ch == '!' then l.takeNode (scanTag l.inFlow)
  else if ch == '|' && !l.inFlow then l.takeBlock false
  else if ch == '>' && !l.inFlow then l.takeBlock true
  else if ch == '\'' then l.takeQuoted false
  else if ch == '"' then l.takeQuoted true
  else if !(isBlank ch || isIndicator ch) || ch == '-'
      || (!l.inFlow && (ch == '?' || ch == ':')) then
    l.takePlain
  else none

/-- The tokens from here to the end of the text. -/
def run : Nat → Lexer → Option (Array Token)
  | 0, _ => none
  | fuel + 1, l => do
    let l ← (skipSpace (l.cursor.rest.length + 1) l).dropStale
    match l.cursor.head with
    | none =>
      let l ← (l.closeBlocks (-1)).dropCandidate
      return l.tokens.push .finish
    | some ch => run fuel (← (l.closeBlocks l.cursor.column).takeToken ch)

end Lexer

/-- The tokens of a text, if it has only allowed characters and well-formed tokens. -/
def tokens? (text : String) : Option (List Token) :=
  let cs := text.toList
  if cs.all isAllowed then (Lexer.run (cs.length + 1) { cursor := { rest := cs } }).map (·.toList)
  else none

end UnitLedger.Yaml
