import UnitLedger.Store.Op

/-!
  UnitLedger.Memory.Tables — the committed state of the in-memory store.

  Funds and entries are stored under their ids, transfers in the order of their commits. The order
  of funds and entries in the tables means nothing: a listing sorts them by keys of their own.
-/

namespace UnitLedger.Memory

structure Tables where
  funds : List Fund := []
  entries : List Entry := []
  /-- In the order of their commits. -/
  transfers : List Transfer := []
  deriving DecidableEq, Repr

namespace Tables

def empty : Tables := {}

/-! ## Looking up -/

def findFund (t : Tables) (id : Uuid) : Option Fund := t.funds.find? fun f => f.id == id

def hasFund (t : Tables) (id : Uuid) : Bool := t.funds.any fun f => f.id == id

def hasFundName (t : Tables) (name : String) : Bool := t.funds.any fun f => f.name == name

def entryById (t : Tables) (id : Uuid) : Option Entry := t.entries.find? fun e => e.id == id

/-- The active entry of an owner in a fund. -/
def activeOf (t : Tables) (fund : Uuid) (owner : String) : Option Entry :=
  t.entries.find? fun e => e.isActiveOf fund owner

def hasActive (t : Tables) (fund : Uuid) (owner : String) : Bool := (t.activeOf fund owner).isSome

def findByKey (t : Tables) (key : Uuid) : Option Transfer :=
  t.transfers.find? fun r => r.key == some key

/-! ## Changing -/

/-- Stores an entry under its id, in place of an earlier one with that id. -/
def putEntry (t : Tables) (e : Entry) : Tables :=
  { t with entries := t.entries.filter (fun old => old.id != e.id) ++ [e] }

def removeEntry (t : Tables) (id : Uuid) : Tables :=
  { t with entries := t.entries.filter fun e => e.id != id }

/-- Gives the entry with this id a new balance and a new time of change. -/
def setUnits (t : Tables) (id : Uuid) (units : Int) (updatedAt : Instant) : Tables :=
  { t with entries := t.entries.map fun e => if e.id == id then { e with units, updatedAt } else e }

/-! ## Listing -/

/-- Newer funds come first, of equally new ones the one with the greater id. -/
def newerFirst (a b : Fund) : Bool :=
  b.createdAt < a.createdAt || (a.createdAt == b.createdAt && b.id ≤ a.id)

/-- Larger holdings come first, equal ones in the order of the owners' names. -/
def largerFirst (a b : Entry) : Bool :=
  b.units < a.units || (a.units == b.units && a.owner ≤ b.owner)

/-- Every fund, in listing order. -/
def fundListing (t : Tables) : List Fund := t.funds.mergeSort newerFirst

/-- Every active entry of a fund, in listing order. -/
def entryListing (t : Tables) (fund : Uuid) : List Entry :=
  (t.entries.filter fun e => e.fund == fund && e.isActive).mergeSort largerFirst

/-- Every transfer of a fund, in listing order. -/
def transferListing (t : Tables) (fund : Uuid) : List Transfer :=
  t.transfers.filter fun r => r.fund == fund

def counts (t : Tables) : Store.ResetCounts :=
  ⟨t.funds.length, t.entries.length, t.transfers.length⟩

end Tables

end UnitLedger.Memory
