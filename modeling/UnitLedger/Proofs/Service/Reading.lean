import UnitLedger.Memory.World
import UnitLedger.Proofs.Service.Exchange
import UnitLedger.Service.Transfers

/-!
  UnitLedger.Proofs.Service.Reading — what a caller reads from the in-memory store.

  `World.serve` runs a service of one party on the in-memory store while no other party acts. The
  services that read leave the store as it is and answer from its committed rows, whatever transactions
  are open in it.
-/

namespace UnitLedger.Memory

open Store (Backend Service)

/-- The store as one party meets it at a time when no other acts. Nobody gives a lock back meanwhile, so
that the wait for one ends without it. -/
def backend (p : Party) (now : Instant) : Backend where
  State := World
  answer w op :=
    match w.start p now op with
    | (w, .answered answer) => (w, answer)
    | (w, .paused _) => (w.giveUp p, .error .lockTimeout)

def World.answer (w : World) (p : Party) (now : Instant) (op : Store.Op) : op.Answer :=
  ((backend p now).answer w op).2

def World.serve {α : Type} (w : World) (p : Party) (now : Instant) (service : Service α) :
    World × Except LedgerError α :=
  service.run.outcome (backend p now) w

namespace World

variable {α β : Type} {w w' : World} {p : Party} {now : Instant}

theorem serve_bind {x : Service α} {a : α} (h : w.serve p now x = (w', .ok a)) (f : α → Service β) :
    w.serve p now (x >>= f) = w'.serve p now (f a) := Service.outcome_bind h f

theorem serve_bind_error {x : Service α} {e : LedgerError} (h : w.serve p now x = (w', .error e))
    (f : α → Service β) : w.serve p now (x >>= f) = (w', .error e) := Service.outcome_bind_error h f

variable (w p now)

theorem answer_listFunds (window : Window) :
    w.answer p now (.listFunds window) = .ok (.ofList w.tables.fundListing window) := rfl

theorem answer_listEntries (fund : Uuid) (window : Window) :
    w.answer p now (.listEntries fund window) =
      .ok (.ofList (w.tables.entryListing fund) window) := rfl

theorem answer_listTransfers (fund : Uuid) (window : Window) :
    w.answer p now (.listTransfers fund window) =
      .ok (.ofList (w.tables.transferListing fund) window) := rfl

theorem serve_listFunds (params : ListParams) :
    w.serve p now (Service.listFunds params) =
      (w, .ok (.ofList w.tables.fundListing params.window)) := rfl

section Fund

variable {fund : Uuid}

theorem serve_getFund {f : Fund} (h : w.tables.findFund fund = some f) :
    w.serve p now (Service.getFund fund) = (w, .ok f) := by
  have hask : w.serve p now (Service.ask (.findFund fund)) = (w, .ok (some f)) :=
    congrArg (fun found => (w, Except.ok found)) h
  exact serve_bind hask _

theorem serve_getFund_missing (h : w.tables.findFund fund = none) :
    w.serve p now (Service.getFund fund) = (w, .error (.fundNotFound fund)) := by
  have hask : w.serve p now (Service.ask (.findFund fund)) = (w, .ok none) :=
    congrArg (fun found => (w, Except.ok found)) h
  exact serve_bind hask _

theorem serve_getCapTable {f : Fund} (h : w.tables.findFund fund = some f) (params : ListParams) :
    w.serve p now (Service.getCapTable fund params) =
      (w, .ok ⟨f.id, f.name, f.totalUnits, .ofList (w.tables.entryListing fund) params.window⟩) :=
  serve_bind (serve_getFund w p now h) _

theorem serve_getCapTable_missing (h : w.tables.findFund fund = none) (params : ListParams) :
    w.serve p now (Service.getCapTable fund params) = (w, .error (.fundNotFound fund)) :=
  serve_bind_error (serve_getFund_missing w p now h) _

theorem serve_listTransfers {f : Fund} (h : w.tables.findFund fund = some f) (params : ListParams) :
    w.serve p now (Service.listTransfers fund params) =
      (w, .ok (.ofList (w.tables.transferListing fund) params.window)) :=
  serve_bind (serve_getFund w p now h) _

theorem serve_listTransfers_missing (h : w.tables.findFund fund = none) (params : ListParams) :
    w.serve p now (Service.listTransfers fund params) = (w, .error (.fundNotFound fund)) :=
  serve_bind_error (serve_getFund_missing w p now h) _

theorem serve_getOwnership_unnamed {owner : String} (h : Name.normalize? owner = none) :
    w.serve p now (Service.getOwnership fund owner) = (w, .error .invalidOwner) := by
  unfold Service.getOwnership
  rw [h]
  rfl

theorem serve_getOwnership_missing {owner stored : String} (hname : Name.normalize? owner = some stored)
    (h : w.tables.findFund fund = none) :
    w.serve p now (Service.getOwnership fund owner) = (w, .error (.fundNotFound fund)) := by
  unfold Service.getOwnership
  rw [hname]
  exact serve_bind_error (serve_getFund_missing w p now h) _

theorem serve_getOwnership {owner stored : String} (hname : Name.normalize? owner = some stored)
    {f : Fund} (h : w.tables.findFund fund = some f) :
    w.serve p now (Service.getOwnership fund owner) =
      (w, (w.tables.activeOf fund stored).elim (.error (.ownerNotFound fund stored)) .ok) := by
  have hask : w.serve p now (Service.ask (.findEntry fund stored)) =
      (w, .ok (w.tables.activeOf fund stored)) := rfl
  unfold Service.getOwnership
  rw [hname]
  refine (serve_bind (serve_getFund w p now h) _).trans ((serve_bind hask _).trans ?_)
  cases w.tables.activeOf fund stored with
  | none => rfl
  | some e => rfl

end Fund

end World

end UnitLedger.Memory
