import UnitLedger.Memory.Journal
import UnitLedger.Memory.RowLocks

/-!
  UnitLedger.Memory.World — the in-memory store with all its open transactions.

  A party's operation is one indivisible step, unless it needs a row lock that another party holds:
  then it pauses, other parties' operations come in between, and it goes on from where it stood when
  the lock has become its own, or fails when the wait is given up. A commit carries out the journal
  and only then gives the locks back, so that whoever waited sees the new balances.
-/

namespace UnitLedger.Memory

open Store (Op ResetCounts)

structure World where
  tables : Tables := {}
  locks : RowLocks := {}
  /-- The open transactions. -/
  journals : List (Party × Journal) := []
  /-- The supply of new ids, and how many of it are used. -/
  fresh : Nat → Uuid
  used : Nat := 0

/-- Where a paused operation stands. -/
abbrev Pause : Op → Type
  /- The row it waits for, the owners still to come, and the entries locked so far. -/
  | .lockEntries _ _ => Uuid × List String × List Entry
  | .credit _ _ _ => Unit
  | _ => Empty

/-- What came of starting or resuming an operation. -/
inductive Progress (op : Op) where
  | answered (answer : op.Answer)
  | paused (at_ : Pause op)

namespace World

def journal (w : World) (p : Party) : Journal := (w.journals.lookup p).getD []

def setJournal (w : World) (p : Party) (j : Journal) : World :=
  { w with journals := (p, j) :: w.journals.filter (fun x => x.1 != p) }

/-- Ends the party's transaction: its journal is dropped, its locks are given back. -/
def closeTx (w : World) (p : Party) : World :=
  { w with
    journals := w.journals.filter (fun x => x.1 != p)
    locks := (w.locks.leave p).release p }

/-- Takes an id from the supply. -/
def draw (w : World) : World × Uuid := ({ w with used := w.used + 1 }, w.fresh w.used)

/-! ## Operations that may pause -/

/-- The entry with this id as the party sees it, if it is active now. -/
def reread (w : World) (p : Party) (entry : Uuid) : List Entry :=
  match (w.tables.entryById entry).filter (·.isActive) with
  | some e => [(w.journal p).overlay e]
  | none => []

/-- Locks the rows of the owners in the given order. An owner whose row only this transaction has
created needs no lock. -/
def lockRows (p : Party) (fund : Uuid) :
    World → List String → List Entry →
    World × (Except StoreError (List Entry) ⊕ (Uuid × List String × List Entry))
  | w, [], locked => (w, .inl (.ok locked))
  | w, owner :: rest, locked =>
    match w.tables.activeOf fund owner with
    | none =>
      let own := ((w.journal p).createdEntry fund owner).toList.map (w.journal p).overlay
      lockRows p fund w rest (locked ++ own)
    | some e =>
      match w.locks.acquire p e.id with
      | (locks, true) =>
        lockRows p fund { w with locks } rest (locked ++ reread w p e.id)
      | (locks, false) => ({ w with locks }, .inr (e.id, rest, locked))

/-- Puts an owner in its place among owners in ascending order, if it is not there yet. -/
def insertOwner (owner : String) : List String → List String
  | [] => [owner]
  | first :: rest =>
    if owner = first then first :: rest
    else if owner < first then owner :: first :: rest
    else first :: insertOwner owner rest

/-- The owners in ascending order, each once. -/
def lockOrder (owners : List String) : List String := owners.foldr insertOwner []

def lockProgress {fund : Uuid} {owners : List String} :
    World × (Except StoreError (List Entry) ⊕ (Uuid × List String × List Entry)) →
    World × Progress (.lockEntries fund owners)
  | (w, .inl answer) => (w, .answered answer)
  | (w, .inr at_) => (w, .paused at_)

/-- Adds a credit to the journal; its row is locked by now if it exists. -/
def journalCredit (w : World) (p : Party) (fund : Uuid) (owner : String) (units : Int) : World :=
  w.setJournal p (w.journal p ++ [.credit fund owner units])

/-! ## Ending a transaction -/

def commitTx (w : World) (p : Party) (now : Instant) : World × Except StoreError Unit :=
  let journal := w.journal p
  let (tables, result) := w.tables.commit (fun n => w.fresh (w.used + n)) now journal
  (({ w with tables, used := w.used + journal.length }).closeTx p,
    result.mapError Violation.storeError)

/-! ## Reset, in its two steps -/

def dropRows (w : World) : World := { w with tables := .empty }

def dropLocks (w : World) : World := { w with locks := w.locks.clear }

/-! ## All operations -/

/-- Keeps a changed journal, or answers why it was refused. -/
def journaled (w : World) (p : Party) {α : Type} (a : α) :
    Except Violation Journal → World × Except StoreError α
  | .ok j => (w.setJournal p j, .ok a)
  | .error v => (w, .error v.storeError)

/-- Starts an operation of the party at the given time. -/
def start (w : World) (p : Party) (now : Instant) : (op : Op) → World × Progress op
  | .health => (w, .answered (.ok ()))
  | .findFund id => (w, .answered (.ok (w.tables.findFund id)))
  | .listFunds window => (w, .answered (.ok (.ofList w.tables.fundListing window)))
  | .findEntry fund owner => (w, .answered (.ok (w.tables.activeOf fund owner)))
  | .listEntries fund window => (w, .answered (.ok (.ofList (w.tables.entryListing fund) window)))
  | .listTransfers fund window =>
    (w, .answered (.ok (.ofList (w.tables.transferListing fund) window)))
  | .reset => (w.dropRows.dropLocks, .answered (.ok w.tables.counts))
  | .openTx => (w.setJournal p [], .answered (.ok ()))
  | .fundExists id => (w, .answered (.ok ((w.journal p).knowsFund w.tables id)))
  | .createFund f =>
    let (w, answer) := w.journaled p () ((w.journal p).addFund w.tables f)
    (w, .answered answer)
  | .createEntry e =>
    let (w, answer) := w.journaled p () ((w.journal p).addEntry w.tables e)
    (w, .answered answer)
  | .lockEntries fund owners => lockProgress (lockRows p fund w (lockOrder owners) [])
  | .debit entry units =>
    (w.setJournal p (w.journal p ++ [.debit entry units]), .answered (.ok ()))
  | .credit fund owner units =>
    match w.tables.activeOf fund owner with
    | none => (w.journalCredit p fund owner units, .answered (.ok ()))
    | some e =>
      match w.locks.acquire p e.id with
      | (locks, true) =>
        ({ w with locks }.journalCredit p fund owner units, .answered (.ok ()))
      | (locks, false) => ({ w with locks }, .paused ())
  | .findByKey key => (w, .answered (.ok ((w.journal p).findByKey w.tables key)))
  | .append order =>
    let (w', id) := w.draw
    let record := order.record id now
    match (w.journal p).addTransfer w.tables record with
    | .ok j => (w'.setJournal p j, .answered (.ok record))
    | .error v => (w, .answered (.error v.storeError))
  | .commit =>
    let (w, answer) := w.commitTx p now
    (w, .answered answer)
  | .rollback => (w.closeTx p, .answered (.ok ()))

/-- Goes on with a paused operation whose lock the party now holds. -/
def resume (w : World) (p : Party) : (op : Op) → Pause op → World × Progress op
  | .lockEntries fund _, (entry, rest, locked) =>
    lockProgress (lockRows p fund w rest (locked ++ reread w p entry))
  | .credit fund owner units, () => (w.journalCredit p fund owner units, .answered (.ok ()))

/-- Gives up the wait of a paused operation. -/
def giveUp (w : World) (p : Party) : World := { w with locks := w.locks.leave p }

end World

end UnitLedger.Memory
