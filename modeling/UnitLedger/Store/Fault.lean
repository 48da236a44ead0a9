import UnitLedger.Store.Op

/-!
  UnitLedger.Store.Fault — operations that fail on purpose.

  A fault is set on one method of the store. It lets some calls of that method pass, then answers
  the next one in the store's place, once, and is gone. It answers an error, or, on a method that
  looks something up, that there is nothing.
-/

namespace UnitLedger.Store

/-- An operation without its arguments. -/
inductive Method where
  | health
  | findFund
  | listFunds
  | findEntry
  | listEntries
  | listTransfers
  | reset
  | openTx
  | fundExists
  | createFund
  | createEntry
  | lockEntries
  | debit
  | credit
  | findByKey
  | append
  | commit
  | rollback
  deriving DecidableEq, Repr

namespace Op

def method : Op → Method
  | health => .health
  | findFund _ => .findFund
  | listFunds _ => .listFunds
  | findEntry _ _ => .findEntry
  | listEntries _ _ => .listEntries
  | listTransfers _ _ => .listTransfers
  | reset => .reset
  | openTx => .openTx
  | fundExists _ => .fundExists
  | createFund _ => .createFund
  | createEntry _ => .createEntry
  | lockEntries _ _ => .lockEntries
  | debit _ _ => .debit
  | credit _ _ _ => .credit
  | findByKey _ => .findByKey
  | append _ => .append
  | commit => .commit
  | rollback => .rollback

/-- The answer that nothing was found, of the operations that have one. -/
def nothing : (op : Op) → op.Answer
  | findFund _ => .ok none
  | findEntry _ _ => .ok none
  | findByKey _ => .ok none
  | _ => .error (.unavailable "")

end Op

structure Fault where
  on : Method
  /-- How many calls still pass. -/
  skip : Nat
  /-- What the call fails with, or that it finds nothing. -/
  error : Option StoreError
  deriving DecidableEq, Repr

namespace Fault

/-- Sets a fault, in place of an earlier one on the same method. -/
def arm (faults : List Fault) (f : Fault) : List Fault :=
  f :: faults.filter fun g => g.on != f.on

/-- A call reaches the faults: what is left of them, and the answer if one of them gives it. -/
def intercept (op : Op) : List Fault → List Fault × Option op.Answer
  | [] => ([], none)
  | f :: rest =>
    if f.on = op.method then
      match f.skip with
      | 0 => (rest, some (match f.error with | some e => .error e | none => op.nothing))
      | n + 1 => ({ f with skip := n } :: rest, none)
    else
      let (rest, answer) := intercept op rest
      (f :: rest, answer)

end Fault

end UnitLedger.Store
