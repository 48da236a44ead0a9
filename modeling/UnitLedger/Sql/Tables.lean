import UnitLedger.Entry
import UnitLedger.Fund
import UnitLedger.Sql.Script
import UnitLedger.Transfer

/-!
  UnitLedger.Sql.Tables — the tables of the ledger and how their rows are read.

  Three tables hold funds, entries and transfers. Their constraints are those of the ledger: unique
  fund names, one active entry for each owner of a fund, unique keys, and balances that are never
  negative. The set-up creates what is missing and leaves the rest alone; a lock makes instances
  that start at the same time take turns.
-/

namespace UnitLedger.Sql

/-! ## Rows -/

def fundColumns : List String := ["id", "name", "total_units", "created_at"]

def entryColumns : List String :=
  ["id", "fund_id", "owner_name", "units", "acquired_at", "updated_at", "deleted_at"]

def transferColumns : List String :=
  ["id", "fund_id", "from_owner", "to_owner", "units", "idempotency_key", "transferred_at"]

/-- The columns of a statement's list. -/
def columnList (columns : List String) : String := ", ".intercalate columns

def fundOfRow (row : Row) : Except Failure Fund := do
  let id ← row.required Value.uuid? "id"
  let name ← row.required Value.text? "name"
  let totalUnits ← row.required Value.integer? "total_units"
  let createdAt ← row.required Value.time? "created_at"
  return { id, name, totalUnits, createdAt }

def entryOfRow (row : Row) : Except Failure Entry := do
  let id ← row.required Value.uuid? "id"
  let fund ← row.required Value.uuid? "fund_id"
  let owner ← row.required Value.text? "owner_name"
  let units ← row.required Value.integer? "units"
  let acquiredAt ← row.required Value.time? "acquired_at"
  let updatedAt ← row.required Value.time? "updated_at"
  let deletedAt ← row.optional Value.time? "deleted_at"
  return { id, fund, owner, units, acquiredAt, updatedAt, state := .ofDeletedAt deletedAt }

def transferOfRow (row : Row) : Except Failure Transfer := do
  let id ← row.required Value.uuid? "id"
  let fund ← row.required Value.uuid? "fund_id"
  let source ← row.required Value.text? "from_owner"
  let target ← row.required Value.text? "to_owner"
  let units ← row.required Value.integer? "units"
  let key ← row.optional Value.uuid? "idempotency_key"
  let transferredAt ← row.required Value.time? "transferred_at"
  return { id, fund, source, target, units, key, transferredAt }

/-! ## Set-up -/

/-- The number of the lock that serializes the set-up. -/
def setupLock : Int := 0x6361707461626c65

def createFunds : String :=
  "CREATE TABLE IF NOT EXISTS funds ( id UUID PRIMARY KEY, name VARCHAR(255) NOT NULL, "
    ++ "total_units INTEGER NOT NULL CHECK (total_units > 0), "
    ++ "created_at TIMESTAMPTZ NOT NULL DEFAULT NOW(), CONSTRAINT funds_name_unique UNIQUE (name) )"

def createEntries : String :=
  "CREATE TABLE IF NOT EXISTS cap_table_entries ( id UUID PRIMARY KEY, "
    ++ "fund_id UUID NOT NULL REFERENCES funds(id) ON DELETE CASCADE, "
    ++ "owner_name VARCHAR(255) NOT NULL, units INTEGER NOT NULL CHECK (units >= 0), "
    ++ "acquired_at TIMESTAMPTZ NOT NULL DEFAULT NOW(), "
    ++ "updated_at TIMESTAMPTZ NOT NULL DEFAULT NOW(), deleted_at TIMESTAMPTZ )"

def createActiveOwnerIndex : String :=
  "CREATE UNIQUE INDEX IF NOT EXISTS cap_table_entries_active_owner "
    ++ "ON cap_table_entries (fund_id, owner_name) WHERE deleted_at IS NULL"

def createOrderIndex : String :=
  "CREATE INDEX IF NOT EXISTS cap_table_entries_fund_units "
    ++ "ON cap_table_entries (fund_id, units DESC, owner_name) WHERE deleted_at IS NULL"

def createTransfers : String :=
  "CREATE TABLE IF NOT EXISTS transfers ( id UUID PRIMARY KEY, "
    ++ "fund_id UUID NOT NULL REFERENCES funds(id) ON DELETE CASCADE, "
    ++ "from_owner VARCHAR(255) NOT NULL, to_owner VARCHAR(255) NOT NULL, "
    ++ "units INTEGER NOT NULL CHECK (units > 0), idempotency_key UUID, "
    ++ "transferred_at TIMESTAMPTZ NOT NULL DEFAULT NOW(), "
    ++ "CONSTRAINT transfers_owners_differ CHECK (from_owner <> to_owner) )"

def createKeyIndex : String :=
  "CREATE UNIQUE INDEX IF NOT EXISTS transfers_idempotency_key_unique "
    ++ "ON transfers (idempotency_key) WHERE idempotency_key IS NOT NULL"

def createHistoryIndex : String :=
  "CREATE INDEX IF NOT EXISTS transfers_fund_history ON transfers (fund_id, transferred_at, id)"

/-- One half of the check that both owners of a transfer hold an active entry of its fund. -/
def ownerCheck (role column : String) : String :=
  "IF NOT EXISTS ( SELECT 1 FROM cap_table_entries WHERE fund_id = NEW.fund_id "
    ++ "AND owner_name = NEW." ++ column ++ " AND deleted_at IS NULL ) THEN RAISE EXCEPTION 'transfer " ++ role
    ++ " % has no active entry in fund %', NEW." ++ column
    ++ ", NEW.fund_id USING ERRCODE = 'foreign_key_violation'; END IF; "

def createOwnerCheck : String :=
  "CREATE OR REPLACE FUNCTION transfers_check_owners() RETURNS trigger AS $$ BEGIN "
    ++ ownerCheck "source" "from_owner" ++ ownerCheck "target" "to_owner"
    ++ "RETURN NEW; END; $$ LANGUAGE plpgsql"

def ownerTriggerExists : String :=
  "SELECT EXISTS ( SELECT 1 FROM pg_trigger WHERE tgname = 'transfers_owners_active' "
    ++ "AND tgrelid = 'transfers'::regclass )"

def createOwnerTrigger : String :=
  "CREATE TRIGGER transfers_owners_active BEFORE INSERT ON transfers "
    ++ "FOR EACH ROW EXECUTE FUNCTION transfers_check_owners()"

/-- Where the set-up failed. -/
inductive SetupError where
  | opening
  | locking
  | step (what : String)
  | committing
  deriving DecidableEq, Repr

def SetupError.message : SetupError → String
  | opening => "Failed to open schema transaction"
  | locking => "Failed to take schema lock"
  | step what => "Schema step failed: " ++ what
  | committing => "Failed to commit schema"

def setupSteps : List (String × String) :=
  [("funds table", createFunds), ("cap_table_entries table", createEntries),
    ("active owner index", createActiveOwnerIndex), ("cap table order index", createOrderIndex),
    ("transfers table", createTransfers), ("idempotency key index", createKeyIndex),
    ("transfer history index", createHistoryIndex), ("owner check function", createOwnerCheck)]

/-- Runs a query whose failure is reported as this. -/
def setupPart {α : Type} (e : SetupError) (q : Query α) : ExceptT SetupError Script α :=
  ExceptT.mk (do return (← q.run).mapError fun _ => e)

def setupArea : String := "captable::db::schema"

def setUp : Script (Except SetupError Unit) := ExceptT.run do
  ExceptT.lift (Script.report
    { level := .info, area := setupArea, message := "Initializing ledger schema..." })
  let statement (e : SetupError) (text : String) (params : List Value) :=
    setupPart e (Query.orRollback (Query.affected text params))
  let _ ← setupPart .opening (Query.send "BEGIN" [])
  let _ ← statement .locking "SELECT pg_advisory_xact_lock($1)" [.integer setupLock]
  for (what, text) in setupSteps do
    let _ ← statement (.step what) text []
  let exists_ ← setupPart (.step "owner check trigger lookup")
    (Query.orRollback (Query.scalar Value.bool? ownerTriggerExists []))
  if !exists_ then
    let _ ← statement (.step "owner check trigger") createOwnerTrigger []
  let _ ← statement .committing "COMMIT" []
  ExceptT.lift (Script.report
    { level := .info, area := setupArea, message := "Ledger schema initialized successfully" })

end UnitLedger.Sql
