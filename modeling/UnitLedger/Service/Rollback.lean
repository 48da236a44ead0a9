import UnitLedger.Store.Program

/-!
  UnitLedger.Service.Rollback — giving up a transaction whose outcome is decided.

  A rollback that fails is only reported: the caller's result stands, and the store discards the
  transaction anyway.
-/

namespace UnitLedger.Service

open Store (Program)

def rollback : Program Unit := do
  match ← Program.ask .rollback with
  | .ok () => return
  | .error e =>
    Program.report
      { level := .warn, area := "captable::store", message := "Transaction rollback failed"
        fields := [("error", .shown e.message)] }

end UnitLedger.Service
