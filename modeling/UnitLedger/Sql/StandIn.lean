import UnitLedger.Sql.Tables

/-!
  UnitLedger.Sql.StandIn — a database that answers from a list.

  It understands no statement. Some statements fail on purpose, found by a part of their text, each
  once. The statements around a transaction, and those that create tables, always succeed. The
  others take the replies in order; when these have run out, nothing is found and one row is
  changed. A reply writes ids as texts and times as milliseconds; the columns of the statement say
  which is which. Every statement that is received is kept.
-/

namespace UnitLedger.Sql

structure StandIn where
  /-- A part of a statement's text and what the statement fails with. -/
  failures : List (String × ServerError) := []
  replies : List (Except Failure Result) := []
  received : List Statement := []
  /-- The supply of new ids, and how many of it are used. -/
  fresh : Nat → Uuid
  used : Nat := 0

namespace StandIn

/-- Statements that always succeed and take no reply. -/
def isRoutine (text : String) : Bool :=
  text == "SELECT 1" || ["BEGIN", "COMMIT", "ROLLBACK", "CREATE", "SELECT set_config",
    "SELECT pg_advisory"].any fun start => text.startsWith start

/-- The answer when no reply is left. -/
def lastAnswer (text : String) : Result :=
  if text.startsWith "SELECT EXISTS" then { rows := [[.bool false]] }
  else if text.startsWith "SELECT COUNT" then { rows := [[.integer 0]] }
  else { affected := 1 }

/-- The columns of a statement that gives rows of the ledger's tables. -/
def resultColumns (text : String) : List String :=
  ([fundColumns, entryColumns, transferColumns].find? fun columns =>
    text.startsWith ("SELECT " ++ columnList columns)
      || text.endsWith ("RETURNING " ++ columnList columns)).getD []

/-- A value as its column holds it. -/
def typed (column : String) : Value → Value
  | .text s =>
    if ["id", "fund_id", "idempotency_key"].contains column then
      (Uuid.ofText? s).elim (.text s) .uuid
    else .text s
  | .integer n => if column.endsWith "_at" then .time (.ofMillis n) else .integer n
  | v => v

/-- A reply as the result of this statement. -/
def typedResult (text : String) (r : Result) : Result :=
  match resultColumns text with
  | [] => r
  | columns => { r with rows := r.rows.map fun row => (columns.zip row).map fun c => typed c.1 c.2 }

def answer (x : StandIn) (text : String) : StandIn × Except Failure Result :=
  match x.failures.find? fun f => (text.splitOn f.1).length > 1 with
  | some (part, e) =>
    ({ x with failures := x.failures.filter (·.1 != part) }, .error (.server e))
  | none =>
    if isRoutine text then (x, .ok {})
    else
      match x.replies with
      | [] => (x, .ok (lastAnswer text))
      | reply :: rest => ({ x with replies := rest }, reply.map (typedResult text))

/-- Runs a script. Without a free connection nothing is sent, and every statement fails. -/
def run {α : Type} (hasConnection : Bool) : Script α → StandIn → StandIn × α
  | .done a, x => (x, a)
  | .note _ rest, x => run hasConnection rest x
  | .newId next, x => run hasConnection (next (x.fresh x.used)) { x with used := x.used + 1 }
  | .send s next, x =>
    if hasConnection then
      let (x, r) := { x with received := x.received ++ [s] }.answer s.text
      run hasConnection (next r) x
    else run hasConnection (next (.error .poolTimedOut)) x

end StandIn

end UnitLedger.Sql
