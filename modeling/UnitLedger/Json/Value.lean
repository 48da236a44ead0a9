import UnitLedger.Decimal.Shortest

/-!
  UnitLedger.Json.Value — JSON values and their text.

  Objects keep their fields in the order in which they were given. `render` writes a value without
  spaces, `renderPretty` with one field or item a line and two spaces of indentation. In texts,
  quotes, backslashes and control characters are escaped, all else stands as it is.
-/

namespace UnitLedger

inductive Json where
  | null
  | bool (b : Bool)
  | int (n : Int)
  | real (d : Decimal)
  | str (s : String)
  | arr (items : List Json)
  | obj (fields : List (String × Json))
  deriving Repr, Inhabited

namespace Json

def ofFloat (x : Float) : Json := real (Decimal.shortest x)

def ofOption {α : Type} (f : α → Json) : Option α → Json
  | none => null
  | some a => f a

/-! ## Texts -/

def hexDigit (n : Nat) : Char := Char.ofNat (if n < 10 then 48 + n else 87 + n)

def escapeChar (c : Char) : List Char :=
  match c with
  | '"' => ['\\', '"']
  | '\\' => ['\\', '\\']
  | '\n' => ['\\', 'n']
  | '\r' => ['\\', 'r']
  | '\t' => ['\\', 't']
  | '\x08' => ['\\', 'b']
  | '\x0c' => ['\\', 'f']
  | c =>
    if c.toNat < 32 then ['\\', 'u', '0', '0', hexDigit (c.toNat / 16), hexDigit (c.toNat % 16)]
    else [c]

def renderText (s : String) : String :=
  String.ofList ('"' :: s.toList.flatMap escapeChar ++ ['"'])

/-! ## Numbers -/

def zeros (n : Nat) : String := String.ofList (List.replicate n '0')

/-- A decimal with a point for magnitudes from `10^-5` to below `10^16`, else with an exponent; a
number with a point has a digit on both sides of it. -/
def renderDecimal (d : Decimal) : String :=
  let ds := toString d.digits
  let point : Int := ds.length + d.exponent
  let sign := if d.negative then "-" else ""
  let text :=
    if d.digits = 0 then "0.0"
    else if 0 ≤ d.exponent ∧ point ≤ 16 then ds ++ zeros d.exponent.toNat ++ ".0"
    else if 0 < point ∧ point ≤ 16 then
      String.ofList (ds.toList.take point.toNat) ++ "."
        ++ String.ofList (ds.toList.drop point.toNat)
    else if -5 < point ∧ point ≤ 0 then "0." ++ zeros point.natAbs ++ ds
    else
      let tail := String.ofList (ds.toList.drop 1)
      String.ofList (ds.toList.take 1) ++ (if tail.isEmpty then "" else "." ++ tail)
        ++ "e" ++ toString (point - 1)
  sign ++ text

/-! ## Values -/

mutual

def render : Json → String
  | null => "null"
  | bool b => if b then "true" else "false"
  | int n => toString n
  | real d => renderDecimal d
  | str s => renderText s
  | arr items => "[" ++ renderItems items ++ "]"
  | obj fields => "\x7b" ++ renderFields fields ++ "\x7d"

def renderItems : List Json → String
  | [] => ""
  | [v] => render v
  | v :: rest => render v ++ "," ++ renderItems rest

def renderFields : List (String × Json) → String
  | [] => ""
  | [(k, v)] => renderText k ++ ":" ++ render v
  | (k, v) :: rest => renderText k ++ ":" ++ render v ++ "," ++ renderFields rest

end

/-- A line break and the indentation of the given depth. -/
def newline (depth : Nat) : String := "\n" ++ String.ofList (List.replicate (2 * depth) ' ')

mutual

def renderAt (depth : Nat) : Json → String
  | arr (v :: rest) => "[" ++ renderItemsAt (depth + 1) (v :: rest) ++ newline depth ++ "]"
  | obj (f :: rest) =>
    "\x7b" ++ renderFieldsAt (depth + 1) (f :: rest) ++ newline depth ++ "\x7d"
  | v => render v

def renderItemsAt (depth : Nat) : List Json → String
  | [] => ""
  | [v] => newline depth ++ renderAt depth v
  | v :: rest => newline depth ++ renderAt depth v ++ "," ++ renderItemsAt depth rest

def renderFieldsAt (depth : Nat) : List (String × Json) → String
  | [] => ""
  | [(k, v)] => newline depth ++ renderText k ++ ": " ++ renderAt depth v
  | (k, v) :: rest =>
    newline depth ++ renderText k ++ ": " ++ renderAt depth v ++ "," ++ renderFieldsAt depth rest

end

def renderPretty (v : Json) : String := renderAt 0 v

/-! ## Looking into values -/

/-- The value of the first field of this name. -/
def field? (name : String) : Json → Option Json
  | obj fields => (fields.find? fun f => f.1 == name).map (·.2)
  | _ => none

end Json

end UnitLedger
