import UnitLedger.Service.Rollback

/-!
  UnitLedger.Service.Funds — creating and reading funds.

  A fund is created together with the entry of its first owner, who receives all of its units. Both
  are checked before a transaction is opened and written in one transaction. A name that is already
  taken is an error of its own, whether the store notices it on the write or on the commit.
-/

namespace UnitLedger.Service

open Store (Program Service)

/-! ## Reports -/

def fundArea : String := "captable::fund::service"

def fundCreated (fund : Fund) (entry : Entry) : Log.Event where
  level := .info
  area := fundArea
  message := "Fund created"
  fields := [("fund_id", .shown fund.id.toText), ("name", .shown fund.name),
    ("total_units", .number fund.totalUnits), ("initial_owner", .shown entry.owner)]

def fundNameTaken (fund : Fund) : Log.Event where
  level := .warn
  area := fundArea
  message := "Fund name already exists"
  fields := [("name", .shown fund.name)]

def fundFailed (fund : Fund) (e : StoreError) : Log.Event where
  level := .warn
  area := fundArea
  message := "Fund creation failed"
  fields := [("name", .shown fund.name), ("error", .shown e.message)]

/-! ## Creation -/

/-- The writes of a creation, up to the commit. A failed write is answered by a rollback. -/
def writeFund (fund : Fund) (entry : Entry) : Program (Except StoreError Unit) := do
  match ← Program.ask (.createFund fund) with
  | .error e => rollback; return .error e
  | .ok () =>
    match ← Program.ask (.createEntry entry) with
    | .error e => rollback; return .error e
    | .ok () => Program.ask .commit

/-- Creates a fund and gives all its units to the first owner. The caller supplies the ids of the
two new rows and the time. -/
def createFund (fundId entryId : Uuid) (now : Instant) (name : String) (totalUnits : Int)
    (owner : String) : Service Fund := do
  let fund ← Fund.create fundId now name totalUnits
  let entry ← Entry.create entryId now fund.id owner totalUnits
  Service.ask .openTx
  match ← ExceptT.lift (writeFund fund entry) with
  | .ok () =>
    Service.report (fundCreated fund entry)
    return fund
  | .error e =>
    if e.violates Constraint.fundName then
      Service.report (fundNameTaken fund)
      throw (.duplicateFundName fund.name)
    else
      Service.report (fundFailed fund e)
      throw (.store e)

/-! ## Reading -/

/-- The fund with this id; a fund that does not exist is an error. -/
def getFund (fund : Uuid) : Service Fund := do
  match ← Service.ask (.findFund fund) with
  | some f => return f
  | none => throw (.fundNotFound fund)

/-- Funds, newest first. -/
def listFunds (params : ListParams) : Service (Page Fund) :=
  Service.ask (.listFunds params.window)

end UnitLedger.Service
