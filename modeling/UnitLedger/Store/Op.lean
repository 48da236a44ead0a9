import UnitLedger.Entry
import UnitLedger.Fund
import UnitLedger.Transfer

/-!
  UnitLedger.Store.Op — the operations that every ledger store offers.

  Reads look at the committed state. Writes belong to a transaction: nothing that it does is seen
  by others before its commit, and a transaction that ends in any other way leaves nothing behind.
  Each operation names the type of its reply; a store answers with such a reply or an error.
-/

namespace UnitLedger.Store

/-- How many rows a reset removed. -/
structure ResetCounts where
  funds : Nat
  entries : Nat
  transfers : Nat
  deriving DecidableEq, Repr

inductive Op where
  | health
  | findFund (fund : Uuid)
  /-- Funds, newest first. -/
  | listFunds (window : Window)
  /-- The active entry of an owner. -/
  | findEntry (fund : Uuid) (owner : String)
  /-- Active entries of a fund: largest balance first, equal ones by owner name. -/
  | listEntries (fund : Uuid) (window : Window)
  /-- Transfers of a fund in the order of their commits. -/
  | listTransfers (fund : Uuid) (window : Window)
  /-- Deletes everything. -/
  | reset
  /-- Opens the caller's transaction. -/
  | openTx
  | fundExists (fund : Uuid)
  | createFund (fund : Fund)
  | createEntry (entry : Entry)
  /-- Locks the active entries of the owners until the transaction ends, one after the other in
  ascending order of the names. Owners without an active entry are skipped. -/
  | lockEntries (fund : Uuid) (owners : List String)
  | debit (entry : Uuid) (units : Int)
  /-- Adds units to the active entry of an owner, or creates one. An entry that exists is locked. -/
  | credit (fund : Uuid) (owner : String) (units : Int)
  | findByKey (key : Uuid)
  /-- Appends the record of a transfer; the store chooses its id and its time. -/
  | append (order : TransferOrder)
  | commit
  | rollback
  deriving DecidableEq, Repr

namespace Op

/-- What the store answers to the operation. -/
abbrev Reply : Op → Type
  | health => Unit
  | findFund _ => Option Fund
  | listFunds _ => Page Fund
  | findEntry _ _ => Option Entry
  | listEntries _ _ => Page Entry
  | listTransfers _ _ => Page Transfer
  | reset => ResetCounts
  | openTx => Unit
  | fundExists _ => Bool
  | createFund _ => Unit
  | createEntry _ => Unit
  | lockEntries _ _ => List Entry
  | debit _ _ => Unit
  | credit _ _ _ => Unit
  | findByKey _ => Option Transfer
  | append _ => Transfer
  | commit => Unit
  | rollback => Unit

/-- What a store gives back: the reply, or why there is none. -/
abbrev Answer (op : Op) : Type := Except StoreError op.Reply

end Op

end UnitLedger.Store
