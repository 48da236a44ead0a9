import UnitLedger.Service.CapTables

/-!
  UnitLedger.Service.Transfers — moving units between owners.

  A transfer is validated, then carried out in one transaction: the debit, the credit and the record
  are committed together or not at all. An idempotency key makes a request repeatable: a request
  whose key belongs to the record of the same transfer is answered with that record and writes
  nothing, and a key that belongs to another transfer is refused. Two requests with one key may run
  at the same time; the one whose record is refused then looks for the record of the other.
-/

namespace UnitLedger.Service

open Store (Program Service)

/-! ## Reports -/

def transferArea : String := "captable::transfer::service"

def keyConflict (key : Uuid) (existing : Transfer) : Log.Event where
  level := .warn
  area := transferArea
  message := "Idempotency key reused with different transfer data"
  fields := [("idempotency_key", .shown key.toText),
    ("existing_transfer_id", .shown existing.id.toText)]

def recordAppended (record : Transfer) : Log.Event where
  level := .debug
  area := transferArea
  message := "Transfer record appended"
  fields := [("transfer_id", .shown record.id.toText)]

def transferCommitted (record : Transfer) : Log.Event where
  level := .info
  area := transferArea
  message := "Transfer committed"
  fields := [("transfer_id", .shown record.id.toText), ("fund_id", .shown record.fund.toText),
    ("from_owner", .shown record.source), ("to_owner", .shown record.target),
    ("units", .number record.units)]

/-- The key of a record as reports show it. -/
def keyText : Option Uuid → String
  | none => "None"
  | some key => "Some(" ++ key.toText ++ ")"

def transferReplayed (existing : Transfer) : Log.Event where
  level := .info
  area := transferArea
  message := "Transfer already committed - returning existing record (idempotent)"
  fields := [("transfer_id", .shown existing.id.toText),
    ("idempotency_key", .shown (keyText existing.key))]

def raceLost (key : Uuid) (existing : Transfer) : Log.Event where
  level := .info
  area := transferArea
  message := "Concurrent identical transfer won the race - returning its record"
  fields := [("transfer_id", .shown existing.id.toText), ("idempotency_key", .shown key.toText)]

def transferFailed (order : TransferOrder) (e : LedgerError) : Log.Event :=
  let parties := [("fund_id", .shown order.fund.toText), ("from_owner", .shown order.source)]
  let details := parties ++ [("to_owner", .shown order.target), ("units", .number order.units)]
  match e with
  | .store .lockTimeout =>
    { level := .warn, area := transferArea
      message := "Transfer aborted: source entry lock wait timed out", fields := parties }
  | .store e =>
    { level := .warn, area := transferArea, message := "Transfer aborted by store failure"
      fields := details ++ [("error", .shown e.message)] }
  | e =>
    { level := .debug, area := transferArea, message := "Transfer rejected"
      fields := details ++ [("code", .quoted e.code)] }

/-! ## Inside the transaction -/

/-- The record of the same transfer, if the order's key already has one. -/
def findReplay (order : TransferOrder) : Service (Option Transfer) := do
  match order.key with
  | none => return none
  | some key =>
    match order.replay (← Service.ask (.findByKey key)) with
    | .fresh => return none
    | .same existing => return some existing
    | .conflict existing =>
      Service.report (keyConflict key existing)
      throw .duplicateIdempotencyKey

/-- Locks the entries of both owners and gives the source's. Taking both locks at once, in the order
of the names, is what keeps two transfers from waiting for each other. -/
def lockSource (order : TransferOrder) : Service Entry := do
  let locked ← Service.ask (.lockEntries order.fund [order.source, order.target])
  match locked.find? fun e => e.owner == order.source with
  | some source => return source
  | none =>
    if ← Service.ask (.fundExists order.fund) then
      throw (.ownerNotFound order.fund order.source)
    else
      throw (.fundNotFound order.fund)

/-- Debits the source, credits the target and appends the record, if the source holds enough. -/
def moveUnits (order : TransferOrder) (source : Entry) : Service Transfer := do
  if source.units < order.units then
    throw (.insufficientUnits source.units order.units)
  Service.ask (.debit source.id order.units)
  Service.ask (.credit order.fund order.target order.units)
  let record ← Service.ask (.append order)
  Service.report (recordAppended record)
  return record

/-- What a transaction came to before its commit. -/
inductive Applied where
  /-- The units were moved; the record has to be committed. -/
  | moved (record : Transfer)
  /-- The same transfer was committed earlier; nothing was written. -/
  | replayed (existing : Transfer)
  deriving DecidableEq, Repr

def applyTransfer (order : TransferOrder) : Service Applied := do
  match ← findReplay order with
  | some existing => return .replayed existing
  | none => return .moved (← moveUnits order (← lockSource order))

/-! ## Around the transaction -/

/-- The key under which another request may have won, if the error says that one has. -/
def raceKey? (order : TransferOrder) (e : LedgerError) : Option Uuid :=
  match e with
  | .store e => if e.violates Constraint.idempotencyKey then order.key else none
  | _ => none

/-- Answers a failed transaction. If another request with the same key committed first, its record
answers this request too when it is the same transfer. -/
def settleFailure (order : TransferOrder) (e : LedgerError) : Service Transfer := do
  match raceKey? order e with
  | none =>
    Service.report (transferFailed order e)
    throw e
  | some key =>
    Service.ask .openTx
    let found ← Service.attempt (.findByKey key)
    ExceptT.lift rollback
    match found with
    | .error e => throw (.store e)
    | .ok found =>
      match order.replay found with
      | .same existing =>
        Service.report (raceLost key existing)
        return existing
      | .fresh | .conflict _ =>
        Service.report (transferFailed order .duplicateIdempotencyKey)
        throw .duplicateIdempotencyKey

def executeTransfer (request : TransferRequest) : Service Transfer := do
  let order ← request.validate
  Service.ask .openTx
  match ← ExceptT.lift (applyTransfer order).run with
  | .ok (.moved record) =>
    match ← Service.attempt .commit with
    | .ok () =>
      Service.report (transferCommitted record)
      return record
    | .error e => settleFailure order (.store e)
  | .ok (.replayed existing) =>
    ExceptT.lift rollback
    Service.report (transferReplayed existing)
    return existing
  | .error e =>
    ExceptT.lift rollback
    settleFailure order e

/-- Transfers of a fund, oldest first. -/
def listTransfers (fund : Uuid) (params : ListParams) : Service (Page Transfer) := do
  let _ ← getFund fund
  Service.ask (.listTransfers fund params.window)

/-! ## The store as a whole -/

def resetDone (counts : Store.ResetCounts) : Log.Event where
  level := .warn
  area := "captable::ledger"
  message := "Ledger reset: all data deleted"
  fields := [("funds", .number counts.funds), ("entries", .number counts.entries),
    ("transfers", .number counts.transfers)]

def checkHealth : Program (Except StoreError Unit) := Program.ask .health

/-- Deletes every fund, entry and transfer. -/
def reset : Program (Except StoreError Store.ResetCounts) := do
  match ← Program.ask .reset with
  | .ok counts =>
    Program.report (resetDone counts)
    return .ok counts
  | .error e => return .error e

end UnitLedger.Service
