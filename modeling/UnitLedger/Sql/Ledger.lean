import UnitLedger.Sql.Tables
import UnitLedger.Store.Program

/-!
  UnitLedger.Sql.Ledger — the ledger store on a database.

  Each operation is a short script of statements. A transaction begins by limiting its waits for row
  locks; one that ends without a commit is rolled back before its connection is used again. The
  database checks what it stores: a violated constraint comes back as a failure.
-/

namespace UnitLedger.Sql

open Store (Op Program ResetCounts)

/-! ## Reading -/

def findFund (fund : Uuid) : Query (Option Fund) :=
  Query.firstRow fundColumns fundOfRow
    ("SELECT " ++ columnList fundColumns ++ " FROM funds WHERE id = $1") [.uuid fund]

/-- One page of a list and the length of the list. -/
def page {α : Type} (w : Window) (items : Query (List α)) (total : Query Int) : Query (Page α) := do
  let items ← items
  return { items, total := (← total).toNat, window := w }

def listFunds (w : Window) : Query (Page Fund) :=
  page w
    (Query.rows fundColumns fundOfRow
      ("SELECT " ++ columnList fundColumns
        ++ " FROM funds ORDER BY created_at DESC, id DESC LIMIT $1 OFFSET $2")
      [.integer w.limit, .integer w.offset])
    (Query.scalar Value.integer? "SELECT COUNT(*) FROM funds" [])

def findEntry (fund : Uuid) (owner : String) : Query (Option Entry) :=
  Query.firstRow entryColumns entryOfRow
    ("SELECT " ++ columnList entryColumns
      ++ " FROM cap_table_entries WHERE fund_id = $1 AND owner_name = $2 AND deleted_at IS NULL")
    [.uuid fund, .text owner]

def listEntries (fund : Uuid) (w : Window) : Query (Page Entry) :=
  page w
    (Query.rows entryColumns entryOfRow
      ("SELECT " ++ columnList entryColumns
        ++ " FROM cap_table_entries WHERE fund_id = $1 AND deleted_at IS NULL"
        ++ " ORDER BY units DESC, owner_name ASC LIMIT $2 OFFSET $3")
      [.uuid fund, .integer w.limit, .integer w.offset])
    (Query.scalar Value.integer?
      "SELECT COUNT(*) FROM cap_table_entries WHERE fund_id = $1 AND deleted_at IS NULL"
      [.uuid fund])

def listTransfers (fund : Uuid) (w : Window) : Query (Page Transfer) :=
  page w
    (Query.rows transferColumns transferOfRow
      ("SELECT " ++ columnList transferColumns
        ++ " FROM transfers WHERE fund_id = $1 ORDER BY transferred_at ASC, id ASC"
        ++ " LIMIT $2 OFFSET $3")
      [.uuid fund, .integer w.limit, .integer w.offset])
    (Query.scalar Value.integer? "SELECT COUNT(*) FROM transfers WHERE fund_id = $1" [.uuid fund])

/-! ## Transactions -/

/-- Opens a transaction that waits this many milliseconds for a row lock. -/
def openTx (patience : Nat) : Query Unit := do
  let _ ← Query.send "BEGIN" []
  let _ ← Query.orRollback
    (Query.send "SELECT set_config('lock_timeout', $1, true)" [.text (toString patience ++ "ms")])

def commit : Query Unit := do
  let _ ← Query.orRollback (Query.send "COMMIT" [])

def rollback : Query Unit := do
  let _ ← Query.orRollback (Query.send "ROLLBACK" [])

def fundExists (fund : Uuid) : Query Bool :=
  Query.scalar Value.bool? "SELECT EXISTS(SELECT 1 FROM funds WHERE id = $1)" [.uuid fund]

def createFund (f : Fund) : Query Unit := do
  let _ ← Query.affected
    "INSERT INTO funds (id, name, total_units, created_at) VALUES ($1, $2, $3, $4)"
    [.uuid f.id, .text f.name, .integer f.totalUnits, .time f.createdAt]

def optionalTime : Option Instant → Value
  | none => .null
  | some t => .time t

def optionalId : Option Uuid → Value
  | none => .null
  | some id => .uuid id

def createEntry (e : Entry) : Query Unit := do
  let _ ← Query.affected
    ("INSERT INTO cap_table_entries (" ++ columnList entryColumns
      ++ ") VALUES ($1, $2, $3, $4, $5, $6, $7)")
    [.uuid e.id, .uuid e.fund, .text e.owner, .integer e.units, .time e.acquiredAt,
      .time e.updatedAt, optionalTime e.state.deletedAt]

def lockEntries (fund : Uuid) (owners : List String) : Query (List Entry) :=
  Query.rows entryColumns entryOfRow
    ("SELECT " ++ columnList entryColumns
      ++ " FROM cap_table_entries WHERE fund_id = $1 AND owner_name = ANY($2)"
      ++ " AND deleted_at IS NULL ORDER BY owner_name FOR UPDATE")
    [.uuid fund, .texts owners]

def credit (fund : Uuid) (owner : String) (units : Int) : Query Unit := do
  let id ← ExceptT.lift Script.fresh
  let _ ← Query.affected
    ("INSERT INTO cap_table_entries (id, fund_id, owner_name, units, acquired_at, updated_at)"
      ++ " VALUES ($1, $2, $3, $4, NOW(), NOW())"
      ++ " ON CONFLICT (fund_id, owner_name) WHERE deleted_at IS NULL"
      ++ " DO UPDATE SET units = cap_table_entries.units + EXCLUDED.units, updated_at = NOW()")
    [.uuid id, .uuid fund, .text owner, .integer units]

def findByKey (key : Uuid) : Query (Option Transfer) :=
  Query.firstRow transferColumns transferOfRow
    ("SELECT " ++ columnList transferColumns ++ " FROM transfers WHERE idempotency_key = $1")
    [.uuid key]

def append (o : TransferOrder) : Query Transfer := do
  let id ← ExceptT.lift Script.fresh
  let row ← Query.firstRow transferColumns transferOfRow
    ("INSERT INTO transfers (" ++ columnList transferColumns
      ++ ") VALUES ($1, $2, $3, $4, $5, $6, NOW()) RETURNING " ++ columnList transferColumns)
    [.uuid id, .uuid o.fund, .text o.source, .text o.target, .integer o.units, optionalId o.key]
  match row with
  | some t => return t
  | none => throw .rowMissing

def reset : Query ResetCounts := do
  let _ ← Query.send "BEGIN" []
  let delete (table : String) := Query.orRollback (Query.affected ("DELETE FROM " ++ table) [])
  let transfers ← delete "transfers"
  let entries ← delete "cap_table_entries"
  let funds ← delete "funds"
  commit
  return { funds, entries, transfers }

/-! ## All operations -/

/-- What the store makes of a query. -/
def answered {α : Type} (q : Query α) : Script (Except StoreError α) := do
  return (← q.run).mapError Failure.storeError

/-- A debit that changes no row is an error of its own. -/
def debit (entry : Uuid) (units : Int) : Script (Except StoreError Unit) := do
  match ← answered (Query.affected
    ("UPDATE cap_table_entries SET units = units - $1, updated_at = NOW()"
      ++ " WHERE id = $2 AND deleted_at IS NULL")
    [.integer units, .uuid entry]) with
  | .error e => return .error e
  | .ok 0 => return .error (.unavailable ("cap table entry " ++ entry.toText ++ " vanished"))
  | .ok _ => return .ok ()

/-- The script of an operation, on a store that waits so many milliseconds for a row lock. -/
def script (patience : Nat) : (op : Op) → Script op.Answer
  | .health => answered (do let _ ← Query.send "SELECT 1" [])
  | .findFund fund => answered (findFund fund)
  | .listFunds w => answered (listFunds w)
  | .findEntry fund owner => answered (findEntry fund owner)
  | .listEntries fund w => answered (listEntries fund w)
  | .listTransfers fund w => answered (listTransfers fund w)
  | .reset => answered reset
  | .openTx => answered (openTx patience)
  | .fundExists fund => answered (fundExists fund)
  | .createFund f => answered (createFund f)
  | .createEntry e => answered (createEntry e)
  | .lockEntries fund owners => answered (lockEntries fund owners)
  | .debit entry units => debit entry units
  | .credit fund owner units => answered (credit fund owner units)
  | .findByKey key => answered (findByKey key)
  | .append order => answered (append order)
  | .commit => answered commit
  | .rollback => answered rollback

/-- A program on the store as a script on the database. -/
def ofProgram {α : Type} (patience : Nat) : Program α → Script α
  | .done a => .done a
  | .note event rest => .note event (ofProgram patience rest)
  | .call op next => (script patience op).bind fun answer => ofProgram patience (next answer)

end UnitLedger.Sql
