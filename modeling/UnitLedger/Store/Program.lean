import UnitLedger.Log.Event
import UnitLedger.Store.Op

/-!
  UnitLedger.Store.Program — work on a store, one operation at a time.

  A program is finished, or reports an event and goes on, or asks the store for one operation and
  goes on from its answer. It holds at most one open transaction. A program says nothing about how
  the store answers, so the same program runs on every store, and other callers' operations may
  come between any two of its own.
-/

namespace UnitLedger.Store

inductive Program (α : Type) : Type where
  | done (a : α)
  | note (event : Log.Event) (rest : Program α)
  | call (op : Op) (next : op.Answer → Program α)

namespace Program

def bind {α β : Type} : Program α → (α → Program β) → Program β
  | done a, f => f a
  | note event rest, f => note event (rest.bind f)
  | call op next, f => call op fun answer => (next answer).bind f

instance : Monad Program where
  pure := done
  bind := bind

/-- Reports one event. -/
def report (event : Log.Event) : Program Unit := note event (done ())

/-- Asks for one operation and gives the store's answer. -/
def ask (op : Op) : Program op.Answer := call op done

end Program

/-- A program that may stop with a ledger error. -/
abbrev Service (α : Type) : Type := ExceptT LedgerError Program α

namespace Service

def report (event : Log.Event) : Service Unit := ExceptT.lift (Program.report event)

/-- Asks for one operation; a store error ends the service. -/
def ask (op : Op) : Service op.Reply :=
  ExceptT.mk (do return (← Program.ask op).mapError .store)

/-- Asks for one operation and goes on whatever the store answers. -/
def attempt (op : Op) : Service op.Answer := ExceptT.lift (Program.ask op)

end Service

end UnitLedger.Store
