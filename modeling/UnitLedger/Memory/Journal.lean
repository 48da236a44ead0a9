import UnitLedger.Memory.Write

/-!
  UnitLedger.Memory.Journal — what an open transaction sees of its own writes.

  A journal holds the writes of a transaction that is still open. Until the commit they exist for
  this transaction alone: its reads lay them over the committed tables, and some writes are refused
  at once when the tables or the journal already hold what they would repeat.
-/

namespace UnitLedger.Memory

abbrev Journal := List Write

namespace Journal

/-! ## Pending rows -/

def createsFund (j : Journal) (id : Uuid) : Bool :=
  j.any fun
    | .fund f => f.id == id
    | _ => false

def createsFundName (j : Journal) (name : String) : Bool :=
  j.any fun
    | .fund f => f.name == name
    | _ => false

/-- The first active entry of this owner that the journal creates. -/
def createdEntry (j : Journal) (fund : Uuid) (owner : String) : Option Entry :=
  j.findSome? fun
    | .entry e => if e.isActiveOf fund owner then some e else none
    | _ => none

def credits (j : Journal) (fund : Uuid) (owner : String) : Bool :=
  j.any fun
    | .credit f o _ => f == fund && o == owner
    | _ => false

def recordOf (j : Journal) (key : Uuid) : Option Transfer :=
  j.findSome? fun
    | .transfer r => if r.key == some key then some r else none
    | _ => none

/-- The entry with one pending write laid over it. -/
def overlayWrite (e : Entry) : Write → Entry
  | .debit entry units =>
    if entry == e.id then { e with units := Units.subClamped e.units units } else e
  | .credit fund owner units =>
    if fund == e.fund && owner == e.owner then { e with units := Units.addClamped e.units units }
    else e
  | _ => e

/-- The entry as this transaction sees it. -/
def overlay (j : Journal) (e : Entry) : Entry := j.foldl overlayWrite e

/-! ## Writes that are checked when they are made -/

def addFund (j : Journal) (t : Tables) (f : Fund) : Except Violation Journal :=
  if t.hasFundName f.name || j.createsFundName f.name then .error (.unique Constraint.fundName)
  else .ok (j ++ [.fund f])

def knowsFund (j : Journal) (t : Tables) (fund : Uuid) : Bool :=
  t.hasFund fund || j.createsFund fund

def addEntry (j : Journal) (t : Tables) (e : Entry) : Except Violation Journal :=
  if !j.knowsFund t e.fund then .error (.fundMissing "cap_table_entries" e.fund)
  else if e.isActive && (t.hasActive e.fund e.owner || (j.createdEntry e.fund e.owner).isSome) then
    .error (.unique Constraint.activeOwner)
  else .ok (j ++ [.entry e])

/-- The owner has an active entry, or will have one after the commit. -/
def knowsOwner (j : Journal) (t : Tables) (fund : Uuid) (owner : String) : Bool :=
  t.hasActive fund owner || (j.createdEntry fund owner).isSome || j.credits fund owner

def keyUsed (j : Journal) (t : Tables) (key : Uuid) : Bool :=
  (t.findByKey key).isSome || (j.recordOf key).isSome

def addTransfer (j : Journal) (t : Tables) (r : Transfer) : Except Violation Journal :=
  if r.source = r.target then .error .ownersDiffer
  else if r.units ≤ 0 then .error .transferUnits
  else if !j.knowsFund t r.fund then .error (.fundMissing "transfers" r.fund)
  else if !j.knowsOwner t r.fund r.source then .error (.ownerMissing r.fund r.source)
  else if !j.knowsOwner t r.fund r.target then .error (.ownerMissing r.fund r.target)
  else if r.key.any (j.keyUsed t) then .error (.unique Constraint.idempotencyKey)
  else .ok (j ++ [.transfer r])

/-- The record with this key, a committed one before a pending one. -/
def findByKey (j : Journal) (t : Tables) (key : Uuid) : Option Transfer :=
  (t.findByKey key).or (j.recordOf key)

end Journal

end UnitLedger.Memory
