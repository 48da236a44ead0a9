import UnitLedger.Error
import UnitLedger.Instant

/-!
  UnitLedger.Transfer — moving units between two owners of a fund.

  A `TransferRequest` is what a caller wrote. `TransferRequest.validate` turns it into a
  `TransferOrder` whose names are trimmed, whose units are in range and whose owners differ, or
  names the first fault in this order: source name, destination name, units, equal owners. A
  `Transfer` is the record of an order that was carried out. The same idempotency key may come
  again: `TransferOrder.replay` says whether the earlier record is the same transfer.
-/

namespace UnitLedger

structure TransferRequest where
  fund : Uuid
  source : String
  target : String
  units : Int
  key : Option Uuid
  deriving DecidableEq, Repr

structure TransferOrder where
  fund : Uuid
  source : String
  target : String
  units : Int
  key : Option Uuid
  deriving DecidableEq, Repr

structure Transfer where
  id : Uuid
  fund : Uuid
  source : String
  target : String
  units : Int
  key : Option Uuid
  /-- When the record was appended. -/
  transferredAt : Instant
  deriving DecidableEq, Repr

def TransferRequest.validate (r : TransferRequest) : Except LedgerError TransferOrder :=
  match Name.normalize? r.source, Name.normalize? r.target with
  | some source, some target =>
    match Units.checked? r.units 1 with
    | none => .error (.invalidUnits 1)
    | some units =>
      if source = target then .error .selfTransfer
      else .ok { fund := r.fund, source, target, units, key := r.key }
  | _, _ => .error .invalidOwner

/-- What an earlier record says about an order with the same key. -/
inductive Replay where
  /-- The key was not used. -/
  | fresh
  | same (existing : Transfer)
  | conflict (existing : Transfer)
  deriving DecidableEq, Repr

namespace TransferOrder

/-- The record moved the same units between the same owners of the same fund. -/
def describes (o : TransferOrder) (t : Transfer) : Bool :=
  o.fund == t.fund && o.source == t.source && o.target == t.target && o.units == t.units

def replay (o : TransferOrder) : Option Transfer → Replay
  | none => .fresh
  | some t => if o.describes t then .same t else .conflict t

/-- The record of this order. -/
def record (o : TransferOrder) (id : Uuid) (now : Instant) : Transfer :=
  { id, fund := o.fund, source := o.source, target := o.target, units := o.units, key := o.key,
    transferredAt := now }

end TransferOrder

end UnitLedger
