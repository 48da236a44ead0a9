import UnitLedger.Error

/-!
  UnitLedger.Sql.Failure — how a conversation with the database fails.

  The server answers a statement with an error that carries a five-character state, or the client
  fails on its own side. `Failure.storeError` says what the store makes of it: the states for unique
  violations, lock waits, cancelled statements, serialization failures and deadlocks have a meaning
  of their own, everything else makes the store unavailable.
-/

namespace UnitLedger.Sql

/-- An error that the server answered. -/
structure ServerError where
  state : Option String
  constraint : Option String
  message : String
  deriving DecidableEq, Repr

inductive Failure where
  | server (e : ServerError)
  /-- A row was expected and none came. -/
  | rowMissing
  | poolTimedOut
  | poolClosed
  | workerCrashed
  | protocol (text : String)
  | columnMissing (name : String)
  /-- The named column held no value of the expected type. -/
  | badColumn (name reason : String)
  /-- The only column of a result held no value of the expected type. -/
  | badScalar (reason : String)
  | io (text : String)
  deriving DecidableEq, Repr

namespace Failure

def message : Failure → String
  | server e => "error returned from database: " ++ e.message
  | rowMissing => "no rows returned by a query that expected to return at least one row"
  | poolTimedOut => "pool timed out while waiting for an open connection"
  | poolClosed => "attempted to acquire a connection on a closed pool"
  | workerCrashed => "attempted to communicate with a crashed background worker"
  | protocol text => "encountered unexpected or invalid data: " ++ text
  | columnMissing name => "no column found for name: " ++ name
  | badColumn name reason =>
    "error occurred while decoding column " ++ Text.quote name ++ ": " ++ reason
  | badScalar reason => "error occurred while decoding column 0: " ++ reason
  | io text => "error communicating with database: " ++ text

/-- The states of a server error that mean more to the ledger than that the store is unavailable. -/
def ofState (e : ServerError) : Option StoreError :=
  match e.state with
  | some "23505" => some (.uniqueViolation (e.constraint.getD ""))
  | some "55P03" | some "57014" => some .lockTimeout
  | some "40001" | some "40P01" => some (.aborted e.message)
  | _ => none

def storeError (f : Failure) : StoreError :=
  match f with
  | server e => (ofState e).getD (.unavailable f.message)
  | _ => .unavailable f.message

end Failure

end UnitLedger.Sql
