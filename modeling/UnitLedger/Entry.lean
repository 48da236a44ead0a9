import UnitLedger.Error
import UnitLedger.Instant
import UnitLedger.Page

/-!
  UnitLedger.Entry — what one owner holds of one fund.

  An entry is active or was deleted at some time; only active entries count. A sold-out owner
  keeps an active entry of zero units. `Entry.percentage` is an owner's share of the fund in
  percent, and a `CapTable` is one page of a fund's active entries.
-/

namespace UnitLedger

inductive EntryState where
  | active
  | deleted (at_ : Instant)
  deriving DecidableEq, Repr

namespace EntryState

def ofDeletedAt : Option Instant → EntryState
  | none => active
  | some t => deleted t

def deletedAt : EntryState → Option Instant
  | active => none
  | deleted t => some t

theorem deletedAt_ofDeletedAt (t : Option Instant) : (ofDeletedAt t).deletedAt = t := by
  cases t <;> rfl

theorem ofDeletedAt_deletedAt (s : EntryState) : ofDeletedAt s.deletedAt = s := by
  cases s <;> rfl

end EntryState

structure Entry where
  id : Uuid
  fund : Uuid
  owner : String
  units : Int
  /-- Set once, when the entry is created. -/
  acquiredAt : Instant
  updatedAt : Instant
  state : EntryState
  deriving DecidableEq, Repr

namespace Entry

/-- A new active entry: the owner's name is stored trimmed, and no units are allowed. -/
def create (id : Uuid) (now : Instant) (fund : Uuid) (owner : String) (units : Int) :
    Except LedgerError Entry :=
  match Name.normalize? owner with
  | none => .error .invalidOwner
  | some owner =>
    match Units.checked? units 0 with
    | none => .error (.invalidUnits 0)
    | some units =>
      .ok { id, fund, owner, units, acquiredAt := now, updatedAt := now, state := .active }

def isActive (e : Entry) : Bool :=
  match e.state with
  | .active => true
  | .deleted _ => false

/-- The entry is the active one of this owner in this fund. -/
def isActiveOf (e : Entry) (fund : Uuid) (owner : String) : Bool :=
  e.fund == fund && e.owner == owner && e.isActive

/-- Share of `total` that `units` make, in percent; zero when there is no total. The product is
exact, so the quotient is the only rounding. -/
def percentage (units total : Int) : Float :=
  if total ≤ 0 then 0.0 else Float.ofInt units * 100.0 / Float.ofInt total

end Entry

structure CapTable where
  fund : Uuid
  fundName : String
  totalUnits : Int
  entries : Page Entry
  deriving DecidableEq, Repr

/-- The entries of the page with their percentages. -/
def CapTable.rows (t : CapTable) : List (Entry × Float) :=
  t.entries.items.map fun e => (e, Entry.percentage e.units t.totalUnits)

end UnitLedger
