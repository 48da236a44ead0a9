import UnitLedger.Error
import UnitLedger.Instant

/-!
  UnitLedger.Fund — funds.

  A fund has a fixed number of units from its creation on; its entries divide them among owners.
-/

namespace UnitLedger

structure Fund where
  id : Uuid
  name : String
  totalUnits : Int
  createdAt : Instant
  deriving DecidableEq, Repr

/-- A new fund: the name is stored trimmed, and the fund has at least one unit. -/
def Fund.create (id : Uuid) (now : Instant) (name : String) (totalUnits : Int) :
    Except LedgerError Fund :=
  match Name.normalize? name, Units.checked? totalUnits 1 with
  | some name, some totalUnits => .ok { id, name, totalUnits, createdAt := now }
  | _, _ => .error .invalidFund

end UnitLedger
