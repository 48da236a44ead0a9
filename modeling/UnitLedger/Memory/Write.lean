import UnitLedger.Memory.Tables

/-!
  UnitLedger.Memory.Write — the writes of a transaction and their commit.

  A transaction collects its writes. The commit carries them out one after the other on the
  committed tables, and each is checked when its turn comes. A write that is refused ends the
  commit: the writes before it are undone, latest first, by what they recorded about the state that
  they changed.
-/

namespace UnitLedger.Memory

inductive Write where
  | fund (f : Fund)
  | entry (e : Entry)
  | debit (entry : Uuid) (units : Int)
  | credit (fund : Uuid) (owner : String) (units : Int)
  | transfer (r : Transfer)
  deriving DecidableEq, Repr

/-- Why the store refuses a write. -/
inductive Violation where
  | unique (constraint : String)
  | check (name : String)
  /-- A row of `table` would belong to a fund that does not exist. -/
  | fundMissing (table : String) (fund : Uuid)
  /-- A transfer names an owner without an active entry. -/
  | ownerMissing (fund : Uuid) (owner : String)
  /-- A debit names an entry that is not there or not active. -/
  | entryMissing (entry : Uuid)
  deriving DecidableEq, Repr

namespace Violation

def entryUnits : Violation := check "cap_table_entries_units_check"
def transferUnits : Violation := check "transfers_units_check"
def ownersDiffer : Violation := check "transfers_owners_differ"

def storeError : Violation → StoreError
  | unique constraint => .uniqueViolation constraint
  | check name => .unavailable ("check constraint violated: " ++ name)
  | fundMissing table fund =>
    .unavailable ("foreign key violation on " ++ table ++ ": fund " ++ fund.toText
      ++ " does not exist")
  | ownerMissing fund owner =>
    .unavailable ("owner " ++ Text.quote owner ++ " has no active entry in fund " ++ fund.toText)
  | entryMissing entry => .unavailable ("cap table entry " ++ entry.toText ++ " vanished")

end Violation

/-- What has to be done to take back one write. -/
inductive Undo where
  | fund (id : Uuid)
  | entry (id : Uuid)
  /-- The balance and time of change that an entry had before. -/
  | units (entry : Uuid) (units : Int) (updatedAt : Instant)
  | transfer
  deriving DecidableEq, Repr

namespace Tables

def applyFund (t : Tables) (f : Fund) : Except Violation (Tables × Undo) :=
  if t.hasFund f.id then .error (.unique Constraint.fundId)
  else if t.hasFundName f.name then .error (.unique Constraint.fundName)
  else .ok ({ t with funds := t.funds ++ [f] }, .fund f.id)

def applyEntry (t : Tables) (e : Entry) : Except Violation (Tables × Undo) :=
  if !t.hasFund e.fund then .error (.fundMissing "cap_table_entries" e.fund)
  else if e.units < 0 then .error .entryUnits
  else if e.isActive && t.hasActive e.fund e.owner then .error (.unique Constraint.activeOwner)
  else .ok (t.putEntry e, .entry e.id)

/-- The balance must cover the debit. -/
def applyDebit (now : Instant) (t : Tables) (entry : Uuid) (units : Int) :
    Except Violation (Tables × Undo) :=
  match (t.entryById entry).filter (·.isActive) with
  | none => .error (.entryMissing entry)
  | some e =>
    match (Units.sub? e.units units).filter (0 ≤ ·) with
    | none => .error .entryUnits
    | some rest => .ok (t.setUnits entry rest now, .units entry e.units e.updatedAt)

/-- Credits the active entry of the owner; without one, creates it with this balance. -/
def applyCredit (freshId : Uuid) (now : Instant) (t : Tables) (fund : Uuid) (owner : String)
    (units : Int) : Except Violation (Tables × Undo) :=
  match t.activeOf fund owner with
  | some e =>
    match Units.add? e.units units with
    | none => .error .entryUnits
    | some sum => .ok (t.setUnits e.id sum now, .units e.id e.units e.updatedAt)
  | none =>
    if !t.hasFund fund then .error (.fundMissing "cap_table_entries" fund)
    else
      .ok (t.putEntry { id := freshId, fund, owner, units, acquiredAt := now, updatedAt := now,
                        state := .active }, .entry freshId)

def applyTransfer (t : Tables) (r : Transfer) : Except Violation (Tables × Undo) :=
  if r.source = r.target then .error .ownersDiffer
  else if r.units ≤ 0 then .error .transferUnits
  else if !t.hasFund r.fund then .error (.fundMissing "transfers" r.fund)
  else if !t.hasActive r.fund r.source then .error (.ownerMissing r.fund r.source)
  else if !t.hasActive r.fund r.target then .error (.ownerMissing r.fund r.target)
  else if r.key.any fun key => (t.findByKey key).isSome then
    .error (.unique Constraint.idempotencyKey)
  else .ok ({ t with transfers := t.transfers ++ [r] }, .transfer)

/-- Carries out one write. A credit that creates an entry gives it `freshId`. -/
def apply (freshId : Uuid) (now : Instant) (t : Tables) : Write → Except Violation (Tables × Undo)
  | .fund f => t.applyFund f
  | .entry e => t.applyEntry e
  | .debit entry units => t.applyDebit now entry units
  | .credit fund owner units => t.applyCredit freshId now fund owner units
  | .transfer r => t.applyTransfer r

def revert (t : Tables) : Undo → Tables
  | .fund id => { t with funds := t.funds.filter fun f => f.id != id }
  | .entry id => t.removeEntry id
  | .units entry units updatedAt => t.setUnits entry units updatedAt
  | .transfer => { t with transfers := t.transfers.dropLast }

/-- Carries out the writes in order; `undos` takes back those already done, latest first. The `n`-th
write may use the id `fresh n`. -/
def applyAll (fresh : Nat → Uuid) (now : Instant) :
    Tables → List Undo → List Write → Tables × Except Violation Unit
  | t, _, [] => (t, .ok ())
  | t, undos, w :: rest =>
    match t.apply (fresh 0) now w with
    | .ok (t, undo) => applyAll (fun n => fresh (n + 1)) now t (undo :: undos) rest
    | .error v => (undos.foldl revert t, .error v)

/-- Commits the writes of a transaction. -/
def commit (fresh : Nat → Uuid) (now : Instant) (t : Tables) (journal : List Write) :
    Tables × Except Violation Unit :=
  applyAll fresh now t [] journal

end Tables

end UnitLedger.Memory
