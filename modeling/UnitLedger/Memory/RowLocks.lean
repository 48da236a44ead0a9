import UnitLedger.Uuid

/-!
  UnitLedger.Memory.RowLocks — locks on rows, first come, first served.

  A lock belongs to a row and to an era of the lock table: emptying the table starts a new era, in
  which every row has a new, free lock, while locks of older eras stay with those who hold or await
  them. Only locks that are held are kept. A party that asks for a lock which another one holds
  queues up; when a party gives its locks back, each of them passes at once to the first in its
  queue.
-/

namespace UnitLedger.Memory

/-- Someone with a transaction of their own. -/
abbrev Party := Nat

structure RowLock where
  row : Uuid
  era : Nat
  holder : Party
  /-- Those who wait, the longest waiting first. -/
  queue : List Party
  deriving DecidableEq, Repr

structure RowLocks where
  era : Nat := 0
  held : List RowLock := []
  deriving DecidableEq, Repr

namespace RowLocks

/-- The party holds a lock of this row, of whatever era. -/
def holds (ls : RowLocks) (p : Party) (row : Uuid) : Bool :=
  ls.held.any fun l => l.row == row && l.holder == p

/-- The row's lock of the present era, if somebody holds it. -/
def current (ls : RowLocks) (row : Uuid) : Option RowLock :=
  ls.held.find? fun l => l.row == row && l.era == ls.era

/-- Asks for a row's lock. The party has it afterwards, or has queued up for it (`false`). -/
def acquire (ls : RowLocks) (p : Party) (row : Uuid) : RowLocks × Bool :=
  if ls.holds p row then (ls, true)
  else
    match ls.current row with
    | none => ({ ls with held := ls.held ++ [⟨row, ls.era, p, []⟩] }, true)
    | some _ =>
      ({ ls with held := ls.held.map fun l =>
          if l.row == row && l.era == ls.era then { l with queue := l.queue ++ [p] } else l },
        false)

/-- The lock after `p` gave it back, if `p` held it: it passes to the first in its queue. -/
def RowLock.pass (p : Party) (l : RowLock) : Option RowLock :=
  if l.holder = p then
    match l.queue with
    | [] => none
    | next :: rest => some { l with holder := next, queue := rest }
  else some l

/-- Gives back every lock of the party. -/
def release (ls : RowLocks) (p : Party) : RowLocks :=
  { ls with held := ls.held.filterMap (RowLock.pass p) }

/-- Takes the party out of every queue. -/
def leave (ls : RowLocks) (p : Party) : RowLocks :=
  { ls with held := ls.held.map fun l => { l with queue := l.queue.filter (· != p) } }

/-- The party stands in a queue. -/
def waits (ls : RowLocks) (p : Party) : Bool := ls.held.any fun l => l.queue.contains p

/-- Empties the lock table. -/
def clear (ls : RowLocks) : RowLocks := { ls with era := ls.era + 1 }

end RowLocks

end UnitLedger.Memory
