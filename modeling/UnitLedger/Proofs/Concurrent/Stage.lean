import UnitLedger.Proofs.Concurrent.System

/-!
  UnitLedger.Proofs.Concurrent.Stage — the stages of a call.

  Between two turns a call of a service stands at one of finitely many kinds of places. A `Stage` is
  such a place with the data that the call carries there, and `Stage.turn` is what the in-memory store
  and the service together do in the call's next turn: no operation, answer or program is left in it,
  only rows, journals and locks. `stages` is the behaviour in which calls progress by stages.

  `ledger_eq_stages`: a run of the services' programs is the run of the stages, read through
  `Stage.status`, which gives the rest of the program at each stage. Statements about the programs are
  proved on the stages.
-/

namespace UnitLedger.Concurrent

open Memory (Party World Pause Progress Tables Violation)
open Store (Op Program Service)
open Service

inductive Reading where
  | fund
  | entry (owner : String)
  | capTable (params : ListParams)
  | transfers (params : ListParams)

inductive Stage where
  | finished (a : Answer)
  /- A transfer, inside its transaction. -/
  | opening (o : TransferOrder)
  | looking (o : TransferOrder) (key : Uuid)
  | locking (o : TransferOrder)
  | lockWaiting (o : TransferOrder) (row : Uuid) (rest : List String) (locked : List Entry)
  | checking (o : TransferOrder)
  | debiting (o : TransferOrder) (source : Entry)
  | crediting (o : TransferOrder) (source : Entry)
  | creditWaiting (o : TransferOrder) (source : Entry)
  | appending (o : TransferOrder) (source : Entry)
  | committing (o : TransferOrder) (source : Entry) (record : Transfer)
  /- A transfer that rolls its transaction back. -/
  | repeating (o : TransferOrder) (existing : Transfer)
  | withdrawing (o : TransferOrder) (e : LedgerError)
  /- A transfer that looks for the record of another with its key. -/
  | reopening (o : TransferOrder) (key : Uuid)
  | relooking (o : TransferOrder) (key : Uuid)
  | judging (o : TransferOrder) (key : Uuid) (found : Option Transfer)
  /- The creation of a fund. -/
  | openingFund (f : Fund) (e : Entry)
  | insertingFund (f : Fund) (e : Entry)
  | insertingEntry (f : Fund) (e : Entry)
  | committingFund (f : Fund) (e : Entry)
  | undoingFund (f : Fund) (e : Entry) (err : StoreError)
  /- Reads. -/
  | findingFund (fund : Uuid) (reading : Reading)
  | findingEntry (fund : Uuid) (owner : String)
  | listingEntries (f : Fund) (fund : Uuid) (params : ListParams)
  | listingTransfers (fund : Uuid) (params : ListParams)
  | listingFunds (params : ListParams)
  | checkingHealth
  | resetting

namespace Stage

/-! ## Turns -/

def lockOp (o : TransferOrder) : Op := .lockEntries o.fund [o.source, o.target]

def creditOp (o : TransferOrder) : Op := .credit o.fund o.target o.units

def afterOpening (o : TransferOrder) : Stage :=
  match o.key with
  | none => locking o
  | some key => looking o key

def afterLookup (o : TransferOrder) (found : Option Transfer) : Stage :=
  match o.replay found with
  | .fresh => locking o
  | .same existing => repeating o existing
  | .conflict _ => withdrawing o .duplicateIdempotencyKey

def afterLocked (o : TransferOrder) (locked : List Entry) : Stage :=
  match locked.find? fun e => e.owner == o.source with
  | none => checking o
  | some source =>
    if source.units < o.units then withdrawing o (.insufficientUnits source.units o.units)
    else debiting o source

def afterLocks (o : TransferOrder) :
    World × (Except StoreError (List Entry) ⊕ (Uuid × List String × List Entry)) → Turn Stage
  | (w, .inl (.ok locked)) => ⟨w, afterLocked o locked, some (lockOp o)⟩
  | (w, .inl (.error e)) => ⟨w, withdrawing o (.store e), some (lockOp o)⟩
  | (w, .inr (row, rest, locked)) => ⟨w, lockWaiting o row rest locked, none⟩

def afterFailure (o : TransferOrder) (e : LedgerError) : Stage :=
  match raceKey? o e with
  | none => finished (.transfer (.error e))
  | some key => reopening o key

def verdict (o : TransferOrder) (found : Option Transfer) : Except LedgerError Transfer :=
  match o.replay found with
  | .same existing => .ok existing
  | .fresh | .conflict _ => .error .duplicateIdempotencyKey

def fundError (f : Fund) (err : StoreError) : LedgerError :=
  if err.violates Constraint.fundName then .duplicateFundName f.name else .store err

def afterFund (fund : Uuid) (found : Option Fund) : Reading → Stage
  | .fund => finished (.fund (found.elim (.error (.fundNotFound fund)) .ok))
  | .entry owner =>
    found.elim (finished (.entry (.error (.fundNotFound fund)))) fun _ => findingEntry fund owner
  | .capTable params =>
    found.elim (finished (.capTable (.error (.fundNotFound fund))))
      fun f => listingEntries f fund params
  | .transfers params =>
    found.elim (finished (.transfers (.error (.fundNotFound fund))))
      fun _ => listingTransfers fund params

def capTable (t : Tables) (f : Fund) (fund : Uuid) (params : ListParams) : CapTable where
  fund := f.id
  fundName := f.name
  totalUnits := f.totalUnits
  entries := .ofList (t.entryListing fund) params.window

def turn (w : World) (p : Party) (now : Instant) : Stage → Turn Stage
  | finished a => ⟨w, finished a, none⟩
  | opening o => ⟨w.setJournal p [], afterOpening o, some .openTx⟩
  | looking o key =>
    ⟨w, afterLookup o ((w.journal p).findByKey w.tables key), some (.findByKey key)⟩
  | locking o =>
    afterLocks o (World.lockRows p o.fund w (World.lockOrder [o.source, o.target]) [])
  | lockWaiting o row rest locked =>
    if w.locks.waits p then ⟨w.giveUp p, withdrawing o (.store .lockTimeout), some (lockOp o)⟩
    else afterLocks o (World.lockRows p o.fund w rest (locked ++ w.reread p row))
  | checking o =>
    ⟨w, withdrawing o (if (w.journal p).knowsFund w.tables o.fund
        then .ownerNotFound o.fund o.source else .fundNotFound o.fund),
      some (.fundExists o.fund)⟩
  | debiting o source =>
    ⟨w.setJournal p (w.journal p ++ [.debit source.id o.units]), crediting o source,
      some (.debit source.id o.units)⟩
  | crediting o source =>
    match w.tables.activeOf o.fund o.target with
    | none =>
      ⟨w.journalCredit p o.fund o.target o.units, appending o source, some (creditOp o)⟩
    | some e =>
      match w.locks.acquire p e.id with
      | (locks, true) =>
        ⟨{ w with locks }.journalCredit p o.fund o.target o.units, appending o source,
          some (creditOp o)⟩
      | (locks, false) => ⟨{ w with locks }, creditWaiting o source, none⟩
  | creditWaiting o source =>
    if w.locks.waits p then ⟨w.giveUp p, withdrawing o (.store .lockTimeout), some (creditOp o)⟩
    else ⟨w.journalCredit p o.fund o.target o.units, appending o source, some (creditOp o)⟩
  | appending o source =>
    match (w.journal p).addTransfer w.tables (o.record w.draw.2 now) with
    | .ok j =>
      ⟨w.draw.1.setJournal p j, committing o source (o.record w.draw.2 now), some (.append o)⟩
    | .error v => ⟨w, withdrawing o (.store v.storeError), some (.append o)⟩
  | committing o _ record =>
    match w.commitTx p now with
    | (w, .ok ()) => ⟨w, finished (.transfer (.ok record)), some .commit⟩
    | (w, .error e) => ⟨w, afterFailure o (.store e), some .commit⟩
  | repeating _ existing =>
    ⟨w.closeTx p, finished (.transfer (.ok existing)), some .rollback⟩
  | withdrawing o e => ⟨w.closeTx p, afterFailure o e, some .rollback⟩
  | reopening o key => ⟨w.setJournal p [], relooking o key, some .openTx⟩
  | relooking o key =>
    ⟨w, judging o key ((w.journal p).findByKey w.tables key), some (.findByKey key)⟩
  | judging o _ found =>
    ⟨w.closeTx p, finished (.transfer (verdict o found)), some .rollback⟩
  | openingFund f e => ⟨w.setJournal p [], insertingFund f e, some .openTx⟩
  | insertingFund f e =>
    match (w.journal p).addFund w.tables f with
    | .ok j => ⟨w.setJournal p j, insertingEntry f e, some (.createFund f)⟩
    | .error v => ⟨w, undoingFund f e v.storeError, some (.createFund f)⟩
  | insertingEntry f e =>
    match (w.journal p).addEntry w.tables e with
    | .ok j => ⟨w.setJournal p j, committingFund f e, some (.createEntry e)⟩
    | .error v => ⟨w, undoingFund f e v.storeError, some (.createEntry e)⟩
  | committingFund f _ =>
    match w.commitTx p now with
    | (w, .ok ()) => ⟨w, finished (.fund (.ok f)), some .commit⟩
    | (w, .error e) => ⟨w, finished (.fund (.error (fundError f e))), some .commit⟩
  | undoingFund f _ err =>
    ⟨w.closeTx p, finished (.fund (.error (fundError f err))), some .rollback⟩
  | findingFund fund reading =>
    ⟨w, afterFund fund (w.tables.findFund fund) reading, some (.findFund fund)⟩
  | findingEntry fund owner =>
    ⟨w, finished (.entry ((w.tables.activeOf fund owner).elim
        (.error (.ownerNotFound fund owner)) .ok)),
      some (.findEntry fund owner)⟩
  | listingEntries f fund params =>
    ⟨w, finished (.capTable (.ok (capTable w.tables f fund params))),
      some (.listEntries fund params.window)⟩
  | listingTransfers fund params =>
    ⟨w, finished (.transfers (.ok (.ofList (w.tables.transferListing fund) params.window))),
      some (.listTransfers fund params.window)⟩
  | listingFunds params =>
    ⟨w, finished (.funds (.ok (.ofList w.tables.fundListing params.window))),
      some (.listFunds params.window)⟩
  | checkingHealth => ⟨w, finished (.health (.ok ())), some .health⟩
  | resetting => ⟨w.dropRows.dropLocks, finished (.reset (.ok w.tables.counts)), some .reset⟩

/-- Where a call begins. A call whose input is refused is finished at once. -/
def start (fundId entryId : Uuid) (now : Instant) : Call → Stage
  | .createFund name totalUnits owner =>
    match Fund.create fundId now name totalUnits with
    | .error e => finished (.fund (.error e))
    | .ok f =>
      match Entry.create entryId now f.id owner totalUnits with
      | .error e => finished (.fund (.error e))
      | .ok e => openingFund f e
  | .transfer request =>
    match request.validate with
    | .error e => finished (.transfer (.error e))
    | .ok o => opening o
  | .getFund fund => findingFund fund .fund
  | .listFunds params => listingFunds params
  | .getOwnership fund owner =>
    match Name.normalize? owner with
    | none => finished (.entry (.error .invalidOwner))
    | some owner => findingFund fund (.entry owner)
  | .getCapTable fund params => findingFund fund (.capTable params)
  | .listTransfers fund params => findingFund fund (.transfers params)
  | .health => checkingHealth
  | .reset => resetting

def answer? : Stage → Option Answer
  | finished a => some a
  | _ => none

end Stage

def stages : Behaviour Stage where
  start c fundId entryId now := Stage.start fundId entryId now c
  turn := Stage.turn
  answer? := Stage.answer?

end UnitLedger.Concurrent
