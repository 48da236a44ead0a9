import UnitLedger.Service.Funds

/-!
  UnitLedger.Service.CapTables — reading who holds a fund.

  A cap table lists the active entries of a fund, largest holders first. One owner's entry is found
  by name: the name is trimmed and then compared exactly.
-/

namespace UnitLedger.Service

open Store (Service)

def getCapTable (fund : Uuid) (params : ListParams) : Service CapTable := do
  let f ← getFund fund
  let entries ← Service.ask (.listEntries fund params.window)
  return { fund := f.id, fundName := f.name, totalUnits := f.totalUnits, entries }

/-- A name that no entry can carry is refused before the store is asked. -/
def getOwnership (fund : Uuid) (owner : String) : Service Entry := do
  match Name.normalize? owner with
  | none => throw .invalidOwner
  | some owner =>
    let _ ← getFund fund
    match ← Service.ask (.findEntry fund owner) with
    | some e => return e
    | none => throw (.ownerNotFound fund owner)

end UnitLedger.Service
