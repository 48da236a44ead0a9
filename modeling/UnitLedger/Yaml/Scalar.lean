import UnitLedger.Yaml.Cursor

/-!
  UnitLedger.Yaml.Scalar — the texts inside a YAML text.

  A scalar is plain, quoted in one of two ways, or a block of lines. Outside literal blocks a line
  break between two words counts as a space, and of several in a row the first is dropped. Each
  scanner gives the text and the cursor behind it, and nothing if the text is malformed.
-/

namespace UnitLedger.Yaml

inductive Style where
  | plain
  | singleQuoted
  | doubleQuoted
  | literal
  | folded
  deriving DecidableEq, Repr

/-! ## Blanks between words -/

/-- Two lines are joined by what stands between them: the first break and the others. -/
def fold (first others : List Char) : List Char :=
  if first.head? = some '\n' then (if others.isEmpty then [' '] else others) else first ++ others

/-- The blanks and breaks between two words. -/
structure Gap where
  /-- The gap has a line break. -/
  isBroken : Bool := false
  /-- The blanks of a gap without a break. -/
  blanks : List Char := []
  first : List Char := []
  others : List Char := []
  deriving Repr

def Gap.text (g : Gap) : List Char := if g.isBroken then fold g.first g.others else g.blanks

/-- The gap that starts here. After a break no tab may stand left of `margin`. -/
def scanGap (margin : Int) : Nat → Gap → Cursor → Option (Gap × Cursor)
  | 0, g, c => some (g, c)
  | fuel + 1, g, c =>
    if c.isAtBlank then
      if !g.isBroken then
        scanGap margin fuel { g with blanks := g.blanks ++ c.head.toList } c.skip
      else if c.head == some '\t' && (c.column : Int) < margin then none
      else scanGap margin fuel g c.skip
    else if c.isAtBreak then
      let g : Gap :=
        if g.isBroken then { g with others := g.others ++ c.breakText }
        else { isBroken := true, first := c.breakText }
      scanGap margin fuel g c.skipBreak
    else some (g, c)

/-! ## Plain scalars -/

def isFlowIndicator (c : Char) : Bool :=
  c == ',' || c == '[' || c == ']' || c == '\x7b' || c == '\x7d'

/-- The word that starts here, with what follows it. In flow collections their indicators end a
word, and a colon may not stand before one. -/
def plainWord (inFlow : Bool) : List Char → Option (List Char × List Char)
  | [] => some ([], [])
  | c :: rest =>
    if endsWord (some c) then some ([], c :: rest)
    else if inFlow && c == ':' && rest.head?.any (fun d => isFlowIndicator d || d == '?') then none
    else if (c == ':' && endsWord rest.head?) || (inFlow && isFlowIndicator c) then
      some ([], c :: rest)
    else (plainWord inFlow rest).map fun r => (c :: r.1, r.2)

structure PlainScalar where
  text : List Char
  /-- A line break follows before anything else does. -/
  endsLine : Bool
  after : Cursor

/-- The words of a plain scalar, of which the next one follows `gap`. A scalar goes on over lines
that are indented at least up to `margin`. -/
def scanPlain (inFlow : Bool) (margin : Int) : Nat → Gap → Cursor → Option PlainScalar
  | 0, _, _ => none
  | fuel + 1, gap, c => do
    if c.isAtDocument || c.head == some '#' then return ⟨[], gap.isBroken, c⟩
    let (word, _) ← plainWord inFlow c.rest
    if word.isEmpty then return ⟨[], gap.isBroken, c⟩
    let text := gap.text ++ word
    let c := c.skipMany word.length
    if !(c.isAtBlank || c.isAtBreak) then return ⟨text, false, c⟩
    let (gap, c) ← scanGap margin (c.rest.length + 1) {} c
    if !inFlow && (c.column : Int) < margin then return ⟨text, gap.isBroken, c⟩
    let more ← scanPlain inFlow margin fuel gap c
    return { more with text := text ++ more.text }

/-! ## Quoted scalars -/

def hexDigit? (c : Char) : Option Nat :=
  if c.isDigit then some (c.toNat - 48)
  else if 'a' ≤ c ∧ c ≤ 'f' then some (c.toNat - 87)
  else if 'A' ≤ c ∧ c ≤ 'F' then some (c.toNat - 55)
  else none

/-- The character with this many hexadecimal digits. -/
def codePoint? (digits : Nat) (cs : List Char) : Option Char := do
  if cs.length < digits then none
  let n ← (cs.take digits).foldlM (fun n c => (hexDigit? c).map (16 * n + ·)) 0
  if n.isValidChar then return Char.ofNat n else none

/-- What an escape stands for, given its letter and what follows, and how many characters of that
belong to it. -/
def escape? (letter : Char) (rest : List Char) : Option (Char × Nat) :=
  match letter with
  | '0' => some ('\x00', 0)
  | 'a' => some ('\x07', 0)
  | 'b' => some ('\x08', 0)
  | 't' | '\t' => some ('\t', 0)
  | 'n' => some ('\n', 0)
  | 'v' => some ('\x0b', 0)
  | 'f' => some ('\x0c', 0)
  | 'r' => some ('\r', 0)
  | 'e' => some ('\x1b', 0)
  | ' ' => some (' ', 0)
  | '"' => some ('"', 0)
  | '/' => some ('/', 0)
  | '\\' => some ('\\', 0)
  | 'N' => some ('\u0085', 0)
  | '_' => some ('\u00a0', 0)
  | 'L' => some ('\u2028', 0)
  | 'P' => some ('\u2029', 0)
  | 'x' => (codePoint? 2 rest).map (·, 2)
  | 'u' => (codePoint? 4 rest).map (·, 4)
  | 'U' => (codePoint? 8 rest).map (·, 8)
  | _ => none

structure QuotedWord where
  text : List Char
  /-- The word ends with a line break that is escaped. -/
  endsEscaped : Bool
  after : Cursor

def QuotedWord.push (c : Char) (w : QuotedWord) : QuotedWord := { w with text := c :: w.text }

/-- The word that starts here, up to a blank, a break or the closing quote. -/
def quotedWord (isDouble : Bool) : Nat → Cursor → Option QuotedWord
  | 0, _ => none
  | fuel + 1, c =>
    match c.rest with
    | [] => some ⟨[], false, c⟩
    | ch :: _ =>
      if endsWord (some ch) then some ⟨[], false, c⟩
      else if !isDouble && ch == '\'' then
        if c.ahead 1 == some '\'' then
          (quotedWord isDouble fuel (c.skipMany 2)).map (·.push '\'')
        else some ⟨[], false, c⟩
      else if isDouble && ch == '"' then some ⟨[], false, c⟩
      else if isDouble && ch == '\\' then do
        let letter ← c.ahead 1
        if isBreak letter then return ⟨[], true, c.skip.skipBreak⟩
        let (x, taken) ← escape? letter (c.rest.drop 2)
        return (← quotedWord isDouble fuel (c.skipMany (2 + taken))).push x
      else (quotedWord isDouble fuel c.skip).map (·.push ch)

/-- The rest of a scalar whose opening quote has been read. -/
def scanQuoted (isDouble : Bool) : Nat → Cursor → Option (List Char × Cursor)
  | 0, _ => none
  | fuel + 1, c => do
    if c.isAtDocument || c.rest.isEmpty then none
    let word ← quotedWord isDouble (c.rest.length + 1) c
    let c := word.after
    if c.head == some (if isDouble then '"' else '\'') then return (word.text, c.skip)
    let (gap, c) ← scanGap 0 (c.rest.length + 1) { isBroken := word.endsEscaped } c
    let (more, c) ← scanQuoted isDouble fuel c
    return (word.text ++ gap.text ++ more, c)

/-! ## Blocks -/

/-- What happens to the line breaks at the end of a block. -/
inductive Chomping where
  /-- All are dropped. -/
  | strip
  /-- One is kept. -/
  | clip
  | keep
  deriving DecidableEq, Repr

/-- The marks behind a block's indicator: chomping and indentation in either order, each at most
once. The indentation is one digit and not zero. -/
def scanBlockMarks (c : Cursor) : Option (Chomping × Nat × Cursor) :=
  let chomping (c : Cursor) : Option (Chomping × Cursor) :=
    match c.head with
    | some '+' => some (.keep, c.skip)
    | some '-' => some (.strip, c.skip)
    | _ => none
  let indentation (c : Cursor) : Option (Nat × Cursor) :=
    match c.head with
    | some d =>
      if d == '0' then none
      else if d.isDigit then some (d.toNat - 48, c.skip)
      else some (0, c)
    | none => some (0, c)
  match chomping c with
  | some (ch, c) => (indentation c).map fun r => (ch, r.1, r.2)
  | none => do
    let (n, c) ← indentation c
    match if n = 0 then none else chomping c with
    | some (ch, c) => return (ch, n, c)
    | none => return (.clip, n, c)

/-- The empty lines that start here and the indentation of the next line. `indent` is the
indentation of the block, or 0 while it is not known. Gives the breaks and the greatest
indentation seen. -/
def scanEmptyLines (indent : Nat) : Nat → Nat → Cursor → Option (List Char × Nat × Cursor)
  | 0, _, _ => none
  | fuel + 1, widest, c => do
    let room := if indent = 0 then c.rest.length else indent - c.column
    let c := c.skipMany ((c.rest.take room).takeWhile (· == ' ')).length
    let widest := max widest c.column
    if (indent = 0 ∨ c.column < indent) ∧ c.head = some '\t' then none
    if !c.isAtBreak then return ([], widest, c)
    let (breaks, widest, after) ← scanEmptyLines indent fuel widest c.skipBreak
    return (c.breakText ++ breaks, widest, after)

/-- The lines of a block of known indentation. `breaks` stand before the next line, and the line
before them starts with a blank if `afterBlank`. -/
def scanBlockLines (isFolded : Bool) (chomping : Chomping) (indent : Nat) :
    Nat → List Char → List Char → Bool → Cursor → Option (List Char × Cursor)
  | 0, _, _, _, _ => none
  | fuel + 1, first, others, afterBlank, c => do
    if c.column != indent || c.rest.isEmpty then
      return (match chomping with
        | .strip => []
        | .clip => first
        | .keep => first ++ others, c)
    let joint :=
      if isFolded && first.head? == some '\n' && !afterBlank && !c.isAtBlank then fold first others
      else first ++ others
    let line := c.rest.takeWhile (!isBreak ·)
    let c' := c.skipMany line.length
    let (breaks, _, next) ← scanEmptyLines indent (c.rest.length + 1) 0 c'.skipBreak
    let (more, after) ← scanBlockLines isFolded chomping indent fuel c'.breakText breaks c.isAtBlank
      next
    return (joint ++ line ++ more, after)

/-- A block whose indicator has been read, in a collection indented by `outer`. -/
def scanBlock (isFolded : Bool) (outer : Int) (c : Cursor) : Option (List Char × Cursor) := do
  let (chomping, increment, c) ← scanBlockMarks c
  let c := c.skipWhile isBlank
  let c := if c.head == some '#' then c.skipLine else c
  if !endsLine c.head then none
  let given := if increment = 0 then 0 else (max outer 0).toNat + increment
  let (breaks, widest, c) ← scanEmptyLines given (c.rest.length + 1) 0 c.skipBreak
  let indent := if given = 0 then max widest (max (outer + 1) 1).toNat else given
  scanBlockLines isFolded chomping indent (c.rest.length + 1) [] breaks false c

end UnitLedger.Yaml
