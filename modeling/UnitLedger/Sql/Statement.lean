import UnitLedger.Instant
import UnitLedger.Sql.Failure

/-!
  UnitLedger.Sql.Statement — statements for the database and their results.

  A statement is a text with numbered places and the values for them. Its result has rows, or only
  the number of rows that it changed. A row gives its values by the names of its columns; a value
  that must be there and is null is a failure.
-/

namespace UnitLedger.Sql

inductive Value where
  | null
  | uuid (id : Uuid)
  | text (s : String)
  | integer (n : Int)
  | bool (b : Bool)
  | time (t : Instant)
  | texts (items : List String)
  deriving DecidableEq, Repr

structure Statement where
  text : String
  params : List Value := []
  deriving DecidableEq, Repr

structure Result where
  rows : List (List Value) := []
  /-- How many rows the statement changed. -/
  affected : Nat := 0
  deriving DecidableEq, Repr

/-! ## Values of a row -/

def unexpectedNull : String := "unexpected null; try decoding as an `Option`"

def unexpectedType : String := "mismatched types"

/-- A row with the names of its columns. -/
abbrev Row := List (String × Value)

namespace Row

def ofValues (columns : List String) (values : List Value) : Row := columns.zip values

def value (row : Row) (column : String) : Except Failure Value :=
  match row.lookup column with
  | some v => .ok v
  | none => .error (.columnMissing column)

/-- A value that is not null. -/
def required {α : Type} (read : Value → Option α) (row : Row) (column : String) :
    Except Failure α := do
  match ← row.value column with
  | .null => throw (.badColumn column unexpectedNull)
  | v =>
    match read v with
    | some a => return a
    | none => throw (.badColumn column unexpectedType)

def optional {α : Type} (read : Value → Option α) (row : Row) (column : String) :
    Except Failure (Option α) := do
  match ← row.value column with
  | .null => return none
  | v =>
    match read v with
    | some a => return some a
    | none => throw (.badColumn column unexpectedType)

end Row

namespace Value

def uuid? : Value → Option Uuid
  | uuid id => some id
  | _ => none

def text? : Value → Option String
  | text s => some s
  | _ => none

def integer? : Value → Option Int
  | integer n => some n
  | _ => none

def bool? : Value → Option Bool
  | bool b => some b
  | _ => none

def time? : Value → Option Instant
  | time t => some t
  | _ => none

end Value

end UnitLedger.Sql
