import UnitLedger.Word
import UnitLedger.Yaml.Node

/-!
  UnitLedger.Yaml.Record — reading a YAML document as values of known types.

  A text is any scalar, however it is written. Truth values and whole numbers are plain scalars, or
  literal blocks that carry the tag of their type. A record is a map; it may also be left out, which
  counts as a map without fields. A known field may not come twice, and other fields do not matter.
-/

namespace UnitLedger.Yaml

/-- A document whose aliases can be looked up. -/
structure Document where
  root : Node
  deriving Repr

namespace Document

/-- The document of a text. A text without a document counts as one that is left empty. -/
def ofText? (text : String) : Option Document :=
  (read? text).map fun root => ⟨root.getD Node.empty⟩

/-- The node itself, or what it is an alias for. -/
def resolve? (d : Document) : Node → Option Node
  | .reference anchor => d.root.lastAnchored? anchor
  | n => some n

end Document

/-! ## Scalars -/

def text? : Node → Option String
  | .scalar _ _ text => some text
  | _ => none

/-- A scalar that may stand for a value of the type with this tag. -/
def bareText? (tag : String) : Node → Option String
  | .scalar _ .plain text => some text
  | .scalar p .literal text => if p.tag = some tag then some text else none
  | _ => none

def bool? (n : Node) : Option Bool := do
  match ← bareText? "tag:yaml.org,2002:bool" n with
  | "true" | "True" | "TRUE" => return true
  | "false" | "False" | "FALSE" => return false
  | _ => none

/-- Digits of a base, of which there must be one. -/
def digits? (base : Nat) (cs : List Char) : Option Nat :=
  if cs.isEmpty then none
  else
    cs.foldlM (fun n c => do
      let d ← hexDigit? c
      if d < base then return base * n + d else none) 0

/-- A whole number below `2^64`: an optional plus sign, then decimal digits without needless zeros,
or digits of base 16, 8 or 2 behind `0x`, `0o` or `0b`. -/
def natOfText? (s : String) : Option Nat := do
  let cs := match s.toList with
    | '+' :: rest => rest
    | cs => cs
  let n ← match cs with
    | '0' :: 'x' :: ds => digits? 16 ds
    | '0' :: 'o' :: ds => digits? 8 ds
    | '0' :: 'b' :: ds => digits? 2 ds
    | '0' :: _ :: _ => none
    | ds => digits? 10 ds
  if n ≤ Word.max64 then return n else none

/-- A whole number up to `max`. -/
def nat? (max : Nat) (n : Node) : Option Nat := do
  let value ← natOfText? (← bareText? "tag:yaml.org,2002:int" n)
  if value ≤ max then return value else none

def isNull (text : String) : Bool :=
  text.isEmpty || text == "null" || text == "Null" || text == "NULL" || text == "~"

/-- The name of a choice: a scalar's text, or the local tag of a scalar that is null. -/
def choice? : Node → Option String
  | .scalar p style text =>
    match p.tag.map (·.toList) with
    | some ('!' :: name) =>
      if style == .plain && isNull text then
        some (if name.isEmpty then "!" else String.ofList name)
      else none
    | _ => some text
  | _ => none

/-! ## Records -/

/-- The fields of a record with these names; nothing if one comes twice or a field has no name. -/
def fields? (d : Document) (names : List String) (n : Node) : Option (List (String × Node)) := do
  let pairs ← match n with
    | .map _ fields => fields.mapM fun f => do
      return (← text? (← d.resolve? f.1), f.2)
    | .scalar _ .plain "" => some []
    | _ => none
  let known := pairs.filter fun f => names.contains f.1
  if (known.map (·.1)).Nodup then known.mapM fun f => do return (f.1, ← d.resolve? f.2) else none

/-- A field that must be given. -/
def required? {α : Type} (read : Node → Option α) (fields : List (String × Node)) (name : String) :
    Option α :=
  (fields.lookup name).bind read

/-- A field that may be left out. -/
def optional? {α : Type} (read : Node → Option α) (default_ : α) (fields : List (String × Node))
    (name : String) : Option α :=
  match fields.lookup name with
  | none => some default_
  | some n => read n

end UnitLedger.Yaml
