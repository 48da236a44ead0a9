import UnitLedger.Log.Event
import UnitLedger.Sql.Statement

/-!
  UnitLedger.Sql.Script — work on a database, one statement at a time.

  A script is finished, or reports an event, or asks for an unused id, or sends a statement and goes
  on from its result. Statements that are sent in vain are failures; `Query` is a script that ends
  with the first of them.
-/

namespace UnitLedger.Sql

inductive Script (α : Type) : Type where
  | done (a : α)
  | note (event : Log.Event) (rest : Script α)
  | newId (next : Uuid → Script α)
  | send (s : Statement) (next : Except Failure Result → Script α)

namespace Script

def bind {α β : Type} : Script α → (α → Script β) → Script β
  | done a, f => f a
  | note event rest, f => note event (rest.bind f)
  | newId next, f => newId fun id => (next id).bind f
  | send s next, f => send s fun r => (next r).bind f

instance : Monad Script where
  pure := done
  bind := bind

def report (event : Log.Event) : Script Unit := note event (done ())

def fresh : Script Uuid := newId done

/-- Sends a statement, whatever comes of it. -/
def attempt (text : String) (params : List Value) : Script (Except Failure Result) :=
  send { text, params } done

end Script

/-- A script that may end with a failure. -/
abbrev Query (α : Type) : Type := ExceptT Failure Script α

namespace Query

def send (text : String) (params : List Value) : Query Result :=
  ExceptT.mk (Script.attempt text params)

/-- How many rows a statement changed. -/
def affected (text : String) (params : List Value) : Query Nat := do
  return (← send text params).affected

def read {α : Type} (e : Except Failure α) : Query α := ExceptT.mk (return e)

/-- All rows of a result. -/
def rows {α : Type} (columns : List String) (ofRow : Row → Except Failure α) (text : String)
    (params : List Value) : Query (List α) := do
  read ((← send text params).rows.mapM fun values => ofRow (.ofValues columns values))

/-- The first row of a result, if there is one. -/
def firstRow {α : Type} (columns : List String) (ofRow : Row → Except Failure α) (text : String)
    (params : List Value) : Query (Option α) := do
  match (← send text params).rows with
  | [] => return none
  | values :: _ => return some (← read (ofRow (.ofValues columns values)))

/-- The only value of the only row. -/
def scalar {α : Type} (ofValue : Value → Option α) (text : String) (params : List Value) :
    Query α := do
  match (← send text params).rows with
  | [] => throw .rowMissing
  | values :: _ =>
    match values.head? with
    | none => throw (.columnMissing "0")
    | some .null => throw (.badScalar unexpectedNull)
    | some v =>
      match ofValue v with
      | some a => return a
      | none => throw (.badScalar unexpectedType)

/-- Sends a statement after whose failure the transaction is given up. -/
def orRollback {α : Type} (q : Query α) : Query α :=
  ExceptT.mk do
    match ← q.run with
    | .ok a => return .ok a
    | .error e =>
      let _ ← Script.attempt "ROLLBACK" []
      return .error e

end Query

end UnitLedger.Sql
