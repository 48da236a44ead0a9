import UnitLedger.Http.Percent

/-!
  UnitLedger.Http.MediaType — media types, and which of them announce JSON.

  A media type is a type, a slash, a subtype and parameters after semicolons, each a name, an equals
  sign and a value, which may be quoted. Names and plain values are made of token characters. A plus
  sign divides the subtype: what follows the last one is its suffix. Letter case does not matter.
  JSON is announced by the subtype `json` or the suffix `json` of an `application` type.
-/

namespace UnitLedger.Http

/-- The characters that a token may have. -/
def isTokenChar (c : Char) : Bool :=
  c.isAlphanum || "!#$%&'*+-.^_`|~".toList.contains c

def isQuotedChar (c : Char) : Bool := 31 < c.toNat && c.toNat != 127

/-- What the reader of parameters expects next. -/
inductive ParamState where
  /-- A name; nothing of it has been read yet. -/
  | start
  | name
  /-- A value; nothing of it has been read yet. -/
  | value
  | plain
  /-- Inside quotes, and whether something stands in them. -/
  | quoted (some_ : Bool)
  | afterQuoted
  deriving DecidableEq, Repr

/-- Reads parameters; `none` when one of them is malformed. -/
def ParamState.step : ParamState → Char → Option ParamState
  | start, c => if c = ' ' then some start else if isTokenChar c then some name else none
  | name, c => if c = '=' then some value else if isTokenChar c then some name else none
  | value, c =>
    if c = '"' then some (quoted false) else if isTokenChar c then some plain else none
  | plain, c => if c = ';' then some start else if isTokenChar c then some plain else none
  | quoted some_, c =>
    if c = '"' && some_ then some afterQuoted
    else if isQuotedChar c then some (quoted true) else none
  | afterQuoted, c => if c = ';' then some start else if c = ' ' then some afterQuoted else none

/-- The parameters may end here. -/
def ParamState.mayEnd : ParamState → Bool
  | start | value | plain | afterQuoted => true
  | name | quoted _ => false

/-- The texts after the semicolon are well-formed parameters. -/
def areParams (cs : List Char) : Bool :=
  match cs.foldlM ParamState.step .start with
  | some s => s.mayEnd
  | none => false

structure MediaType where
  type : List Char
  subtype : List Char
  suffix : Option (List Char)
  deriving DecidableEq, Repr

/-- Divides a subtype at its last plus sign, unless it starts there. -/
def divideSubtype (cs : List Char) : List Char × Option (List Char) :=
  let suffix := (cs.reverse.takeWhile (· != '+')).reverse
  let before := cs.take (cs.length - suffix.length - 1)
  if suffix.length = cs.length ∨ before.isEmpty then (cs, none) else (before, some suffix)

def MediaType.ofText? (s : String) : Option MediaType :=
  let cs := s.toList.map Char.toLower
  let type := cs.takeWhile isTokenChar
  match cs.drop type.length with
  | '/' :: rest =>
    let subtype := rest.takeWhile isTokenChar
    let params := rest.drop subtype.length
    let wellFormed := match params with
      | [] => true
      | ';' :: params => !subtype.isEmpty && areParams params
      | _ => false
    if type.isEmpty || !wellFormed then none
    else
      let (subtype, suffix) := divideSubtype subtype
      some { type, subtype, suffix }
  | _ => none

def MediaType.isJson (m : MediaType) : Bool :=
  m.type == "application".toList
    && (m.subtype == "json".toList || m.suffix == some "json".toList)

end UnitLedger.Http
