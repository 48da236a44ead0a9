import UnitLedger.Proofs.Concurrent.Stage

/-!
  UnitLedger.Proofs.Concurrent.Unfolding — the stages of a call are its program, unfolded.

  `Stage.status` gives what is left of the service's program at a stage. `start_status`: a call begins
  at the stage of its whole program. `turn_status`: one turn of what is left is one turn of the stage.
  So a run of the programs is the run of the stages, seen through `Stage.status`
  (`ledger_eq_stages`).
-/

namespace UnitLedger.Concurrent

open Memory (Party World Pause Progress Tables)
open Store (Op Program Service)
open Service

/-! ## What is left of a program -/

namespace Stage

/-- A transfer from the end of the work in its transaction on. -/
def conclude (o : TransferOrder) : Except LedgerError Applied → Service Transfer
  | .ok (.moved record) => do
    match ← Service.attempt .commit with
    | .ok () =>
      Service.report (transferCommitted record)
      return record
    | .error e => settleFailure o (.store e)
  | .ok (.replayed existing) => do
    ExceptT.lift rollback
    Service.report (transferReplayed existing)
    return existing
  | .error e => do
    ExceptT.lift rollback
    settleFailure o e

def inside (o : TransferOrder) (work : Service Applied) : Service Transfer := do
  conclude o (← ExceptT.lift work.run)

def lookUp (o : TransferOrder) (key : Uuid) : Service (Option Transfer) := do
  match o.replay (← Service.ask (.findByKey key)) with
  | .fresh => return none
  | .same existing => return some existing
  | .conflict existing =>
    Service.report (keyConflict key existing)
    throw .duplicateIdempotencyKey

def unlessReplayed (o : TransferOrder) (found : Service (Option Transfer)) : Service Applied := do
  match ← found with
  | some existing => return .replayed existing
  | none => return .moved (← moveUnits o (← lockSource o))

def missing (o : TransferOrder) : Service Entry := do
  if ← Service.ask (.fundExists o.fund) then
    throw (.ownerNotFound o.fund o.source)
  else
    throw (.fundNotFound o.fund)

def lockedSource (o : TransferOrder) (answer : (lockOp o).Answer) : Service Entry := do
  let locked ← (ExceptT.mk (pure (answer.mapError .store)) : Service (List Entry))
  match locked.find? fun e => e.owner == o.source with
  | some source => return source
  | none => missing o

def appendRecord (o : TransferOrder) : Service Transfer := do
  let record ← Service.ask (.append o)
  Service.report (recordAppended record)
  return record

def credit (o : TransferOrder) : Service Transfer := do
  Service.ask (creditOp o)
  appendRecord o

def debit (o : TransferOrder) (source : Entry) : Service Transfer := do
  Service.ask (.debit source.id o.units)
  credit o

def afterCredit (o : TransferOrder) (answer : (creditOp o).Answer) : Service Transfer := do
  let _ ← (ExceptT.mk (pure (answer.mapError .store)) : Service Unit)
  appendRecord o

def moved (work : Service Transfer) : Service Applied := do return .moved (← work)

def movedFrom (o : TransferOrder) (source : Service Entry) : Service Applied := do
  return .moved (← moveUnits o (← source))

def judge (o : TransferOrder) (key : Uuid) (found : Except StoreError (Option Transfer)) :
    Service Transfer := do
  match found with
  | .error e => throw (.store e)
  | .ok found =>
    match o.replay found with
    | .same existing =>
      Service.report (raceLost key existing)
      return existing
    | .fresh | .conflict _ =>
      Service.report (transferFailed o .duplicateIdempotencyKey)
      throw .duplicateIdempotencyKey

def lookAgain (o : TransferOrder) (key : Uuid) : Service Transfer := do
  let found ← Service.attempt (.findByKey key)
  ExceptT.lift rollback
  judge o key found

def concludeFund (f : Fund) (e : Entry) : Except StoreError Unit → Service Fund
  | .ok () => do
    Service.report (fundCreated f e)
    return f
  | .error err =>
    if err.violates Constraint.fundName then do
      Service.report (fundNameTaken f)
      throw (.duplicateFundName f.name)
    else do
      Service.report (fundFailed f err)
      throw (.store err)

def createEntry (e : Entry) : Program (Except StoreError Unit) := do
  match ← Program.ask (.createEntry e) with
  | .error err => rollback; return .error err
  | .ok () => Program.ask .commit

def undo (err : StoreError) : Program (Except StoreError Unit) := do
  rollback
  return .error err

def findEntry (fund : Uuid) (owner : String) : Service Entry := do
  match ← Service.ask (.findEntry fund owner) with
  | some e => return e
  | none => throw (.ownerNotFound fund owner)

def listEntries (f : Fund) (fund : Uuid) (params : ListParams) : Service CapTable := do
  let entries ← Service.ask (.listEntries fund params.window)
  return { fund := f.id, fundName := f.name, totalUnits := f.totalUnits, entries }

def transferProgram (work : Service Transfer) : Program Answer := do
  return .transfer (← work.run)

def fundProgram (work : Service Fund) : Program Answer := do return .fund (← work.run)

/-- The rest of the service's program at a stage. -/
def status : Stage → Status Answer
  | finished a => .finished a
  | opening o =>
    .ofProgram (transferProgram do Service.ask .openTx; inside o (applyTransfer o))
  | looking o key => .ofProgram (transferProgram (inside o (unlessReplayed o (lookUp o key))))
  | locking o => .ofProgram (transferProgram (inside o (movedFrom o (lockSource o))))
  | lockWaiting o row rest locked =>
    .waiting (lockOp o) (row, rest, locked)
      fun answer => transferProgram (inside o (movedFrom o (lockedSource o answer)))
  | checking o => .ofProgram (transferProgram (inside o (movedFrom o (missing o))))
  | debiting o source => .ofProgram (transferProgram (inside o (moved (debit o source))))
  | crediting o _ => .ofProgram (transferProgram (inside o (moved (credit o))))
  | creditWaiting o _ =>
    .waiting (creditOp o) ()
      fun answer => transferProgram (inside o (moved (afterCredit o answer)))
  | appending o _ => .ofProgram (transferProgram (inside o (moved (appendRecord o))))
  | committing o _ record => .ofProgram (transferProgram (conclude o (.ok (.moved record))))
  | repeating o existing => .ofProgram (transferProgram (conclude o (.ok (.replayed existing))))
  | withdrawing o e => .ofProgram (transferProgram (conclude o (.error e)))
  | reopening o key => .ofProgram (transferProgram do Service.ask .openTx; lookAgain o key)
  | relooking o key => .ofProgram (transferProgram (lookAgain o key))
  | judging o key found =>
    .ofProgram (transferProgram do ExceptT.lift rollback; judge o key (.ok found))
  | openingFund f e =>
    .ofProgram (fundProgram do
      Service.ask .openTx
      concludeFund f e (← ExceptT.lift (writeFund f e)))
  | insertingFund f e =>
    .ofProgram (fundProgram do concludeFund f e (← ExceptT.lift (writeFund f e)))
  | insertingEntry f e =>
    .ofProgram (fundProgram do concludeFund f e (← ExceptT.lift (createEntry e)))
  | committingFund f e =>
    .ofProgram (fundProgram do concludeFund f e (← ExceptT.lift (Program.ask .commit)))
  | undoingFund f e err =>
    .ofProgram (fundProgram do concludeFund f e (← ExceptT.lift (undo err)))
  | findingFund fund .fund => .ofProgram (fundProgram (getFund fund))
  | findingFund fund (.entry owner) =>
    .ofProgram do
      return .entry (← (do let _ ← getFund fund; findEntry fund owner : Service Entry).run)
  | findingFund fund (.capTable params) =>
    .ofProgram do return .capTable (← (getCapTable fund params).run)
  | findingFund fund (.transfers params) =>
    .ofProgram do return .transfers (← (Service.listTransfers fund params).run)
  | findingEntry fund owner => .ofProgram do return .entry (← (findEntry fund owner).run)
  | listingEntries f fund params =>
    .ofProgram do return .capTable (← (listEntries f fund params).run)
  | listingTransfers fund params =>
    .ofProgram do
      return .transfers (← (Service.ask (.listTransfers fund params.window)).run)
  | listingFunds params => .ofProgram do return .funds (← (Service.listFunds params).run)
  | checkingHealth => .ofProgram do return .health (← Service.checkHealth)
  | resetting => .ofProgram do return .reset (← Service.reset)

theorem answer?_status (σ : Stage) : σ.status.answer? = σ.answer? := by
  cases σ with
  | findingFund fund reading => cases reading <;> rfl
  | _ => rfl

/-! ## Beginnings -/

theorem start_status (fundId entryId : Uuid) (now : Instant) (c : Call) :
    Status.ofProgram (c.program fundId entryId now) = (start fundId entryId now c).status := by
  cases c with
  | createFund name totalUnits owner =>
    simp only [Call.program, Service.createFund, start]
    cases Fund.create fundId now name totalUnits with
    | error e => rfl
    | ok f =>
      change Status.ofProgram (fundProgram (do
        let entry ← (liftM (Entry.create entryId now f.id owner totalUnits) : Service Entry)
        Service.ask .openTx
        concludeFund f entry (← ExceptT.lift (writeFund f entry)))) = _
      dsimp only
      cases Entry.create entryId now f.id owner totalUnits with
      | error e => rfl
      | ok e => rfl
  | transfer request =>
    simp only [Call.program, Service.executeTransfer, start]
    cases request.validate with
    | error e => rfl
    | ok o => rfl
  | getOwnership fund owner =>
    simp only [Call.program, Service.getOwnership, start]
    cases Name.normalize? owner <;> rfl
  | _ => rfl

/-! ## Turns -/

section Turns

variable {w : World} {p : Party} {now : Instant}

theorem turn_ready {σ : Stage} (op : Op) {next : op.Answer → Program Answer}
    (h : σ.status = .ready op next) :
    σ.status.turn w p now = Status.follow next (w.start p now op) := by
  rw [h]
  rfl

/-- What follows the answer about an earlier record. -/
theorem afterLookup_status (o : TransferOrder) (key : Uuid) (found : Option Transfer) :
    Status.ofProgram (transferProgram (inside o (unlessReplayed o
        (match o.replay found with
        | .fresh => pure none
        | .same existing => pure (some existing)
        | .conflict existing => do
          Service.report (keyConflict key existing)
          throw .duplicateIdempotencyKey)))) =
      (afterLookup o found).status := by
  unfold afterLookup
  cases o.replay found with
  | fresh => rfl
  | same existing => rfl
  | conflict existing => rfl

theorem debiting_status (o : TransferOrder) (source : Entry) (h : ¬ source.units < o.units) :
    Status.ofProgram (transferProgram (inside o (moved (moveUnits o source)))) =
      (debiting o source).status := by
  simp only [moveUnits, if_neg h]
  rfl

theorem withdrawing_status (o : TransferOrder) (source : Entry) (h : source.units < o.units) :
    Status.ofProgram (transferProgram (inside o (moved (moveUnits o source)))) =
      (withdrawing o (.insufficientUnits source.units o.units)).status := by
  simp only [moveUnits, if_pos h]
  rfl

/-- What follows the answer of the locking operation. -/
theorem afterLocked_status (o : TransferOrder) (locked : List Entry) :
    Status.ofProgram (transferProgram (inside o (movedFrom o (lockedSource o (.ok locked))))) =
      (afterLocked o locked).status := by
  change Status.ofProgram (transferProgram (inside o (movedFrom o
    (match locked.find? fun e => e.owner == o.source with
      | some source => pure source
      | none => missing o)))) = _
  unfold afterLocked
  cases locked.find? fun e => e.owner == o.source with
  | none => rfl
  | some source =>
    dsimp only
    by_cases h : source.units < o.units
    · simp only [if_pos h]
      exact withdrawing_status o source h
    · simp only [if_neg h]
      exact debiting_status o source h

theorem afterLocks_status (o : TransferOrder)
    (r : World × (Except StoreError (List Entry) ⊕ (Uuid × List String × List Entry))) :
    Status.follow (fun answer => transferProgram (inside o (movedFrom o (lockedSource o answer))))
      (World.lockProgress r) = (afterLocks o r).map status := by
  obtain ⟨w, (e | locked) | ⟨row, rest, locked⟩⟩ := r
  · rfl
  · exact congrArg (Turn.mk w · _) (afterLocked_status o locked)
  · rfl

theorem settleFailure_eq (o : TransferOrder) (e : LedgerError) :
    settleFailure o e =
      (match raceKey? o e with
      | none => do
        Service.report (transferFailed o e)
        throw e
      | some key => do
        Service.ask .openTx
        lookAgain o key) := by
  unfold settleFailure
  cases raceKey? o e with
  | none => rfl
  | some key =>
    refine congrArg (Service.ask .openTx >>= ·) (funext fun _ => ?_)
    refine congrArg (Service.attempt (.findByKey key) >>= ·) (funext fun found => ?_)
    refine congrArg (ExceptT.lift rollback >>= ·) (funext fun _ => ?_)
    cases found with
    | error e => rfl
    | ok found =>
      unfold judge
      cases o.replay found <;> rfl

theorem afterFailure_status (o : TransferOrder) (e : LedgerError) :
    Status.ofProgram (transferProgram (settleFailure o e)) = (afterFailure o e).status := by
  rw [settleFailure_eq]
  unfold afterFailure
  cases raceKey? o e with
  | none => rfl
  | some key => rfl

theorem judge_status (o : TransferOrder) (key : Uuid) (found : Option Transfer) :
    Status.ofProgram (transferProgram (judge o key (.ok found))) =
      .finished (.transfer (verdict o found)) := by
  simp only [judge, verdict]
  cases o.replay found <;> rfl

theorem fundError_status (f : Fund) (e : Entry) (err : StoreError) :
    Status.ofProgram (fundProgram (concludeFund f e (.error err))) =
      .finished (.fund (.error (fundError f err))) := by
  unfold concludeFund fundError
  dsimp only
  split <;> rfl

theorem turn_status_findingFund (fund : Uuid) (reading : Reading) :
    (findingFund fund reading).status.turn w p now =
      ((findingFund fund reading).turn w p now).map status := by
  cases reading with
  | fund =>
    refine (turn_ready (.findFund fund) rfl).trans ?_
    simp only [turn, afterFund, World.start]
    cases w.tables.findFund fund <;> rfl
  | entry owner =>
    refine (turn_ready (.findFund fund) rfl).trans ?_
    simp only [turn, afterFund, World.start]
    cases w.tables.findFund fund <;> rfl
  | capTable params =>
    refine (turn_ready (.findFund fund) rfl).trans ?_
    simp only [turn, afterFund, World.start]
    cases w.tables.findFund fund <;> rfl
  | transfers params =>
    refine (turn_ready (.findFund fund) rfl).trans ?_
    simp only [turn, afterFund, World.start]
    cases w.tables.findFund fund <;> rfl

/-- One turn of what is left of the program is one turn of the stage. -/
theorem turn_status (σ : Stage) : σ.status.turn w p now = (σ.turn w p now).map status := by
  cases σ with
  | opening o =>
    obtain ⟨fund, source, target, units, key⟩ := o
    cases key <;> rfl
  | looking o key =>
    exact congrArg (Turn.mk w · _) (afterLookup_status o key _)
  | locking o => exact afterLocks_status o _
  | lockWaiting o row rest locked =>
    simp only [status, Status.turn, turn]
    split
    · rfl
    · exact afterLocks_status o _
  | checking o =>
    refine (turn_ready (.fundExists o.fund) rfl).trans ?_
    simp only [turn, World.start]
    cases (w.journal p).knowsFund w.tables o.fund <;> rfl
  | crediting o source =>
    refine (turn_ready (creditOp o) rfl).trans ?_
    simp only [turn, World.start, creditOp]
    cases w.tables.activeOf o.fund o.target with
    | none => rfl
    | some e =>
      dsimp only
      obtain ⟨locks, _ | _⟩ := w.locks.acquire p e.id <;> rfl
  | creditWaiting o source =>
    simp only [status, Status.turn, turn]
    split <;> rfl
  | appending o source =>
    refine (turn_ready (.append o) rfl).trans ?_
    simp only [turn, World.start]
    cases (w.journal p).addTransfer w.tables (o.record w.draw.2 now) <;> rfl
  | committing o source record =>
    refine (turn_ready .commit rfl).trans ?_
    simp only [turn, World.start]
    obtain ⟨w', e | u⟩ := w.commitTx p now
    · exact congrArg (Turn.mk w' · _) (afterFailure_status o _)
    · rfl
  | withdrawing o e =>
    exact congrArg (Turn.mk (w.closeTx p) · _) (afterFailure_status o e)
  | judging o key found =>
    exact congrArg (Turn.mk (w.closeTx p) · _) (judge_status o key found)
  | insertingFund f e =>
    refine (turn_ready (.createFund f) rfl).trans ?_
    simp only [turn, World.start]
    cases (w.journal p).addFund w.tables f <;> rfl
  | insertingEntry f e =>
    refine (turn_ready (.createEntry e) rfl).trans ?_
    simp only [turn, World.start]
    cases (w.journal p).addEntry w.tables e <;> rfl
  | committingFund f e =>
    refine (turn_ready .commit rfl).trans ?_
    simp only [turn, World.start]
    obtain ⟨w', err | u⟩ := w.commitTx p now
    · exact congrArg (Turn.mk w' · _) (fundError_status f e err)
    · rfl
  | undoingFund f e err =>
    exact congrArg (Turn.mk (w.closeTx p) · _) (fundError_status f e err)
  | findingFund fund reading => exact turn_status_findingFund fund reading
  | findingEntry fund owner =>
    refine (turn_ready (.findEntry fund owner) rfl).trans ?_
    simp only [turn, World.start]
    cases w.tables.activeOf fund owner <;> rfl
  | _ => rfl

end Turns

end Stage

/-! ## Runs -/

def Caller.map {σ τ : Type} (f : σ → τ) (c : Caller σ) : Caller τ :=
  { c with progress := f c.progress }

def System.map {σ τ : Type} (f : σ → τ) (s : System σ) : System τ where
  world := s.world
  caller p := (s.caller p).map (Caller.map f)

namespace System

theorem map_update (w : World) {σ τ : Type} (f : σ → τ) (caller : Party → Option (Caller σ))
    (p : Party) (c : Caller σ) :
    map f ⟨w, Function.update caller p (some c)⟩ =
      ⟨w, Function.update (map f ⟨w, caller⟩).caller p (some (c.map f))⟩ := by
  simp only [map, mk.injEq, true_and]
  exact Function.comp_update (Option.map (Caller.map f)) caller p (some c)

theorem arrive_status (s : System Stage) (p : Party) (c : Call) (now : Instant) :
    (s.map Stage.status).arrive programs p c now = (s.arrive stages p c now).map Stage.status := by
  simp only [arrive, map_update, Caller.map, programs, Stage.start_status]
  rfl

theorem keep_status (s : System Stage) (p : Party) (c : Caller Stage) (t : Turn Stage) :
    (s.map Stage.status).keep programs p (c.map Stage.status) (t.map Stage.status) =
      (s.keep stages p c t).map Stage.status := by
  simp only [keep, map_update, Caller.map, Turn.map, programs, Stage.answer?_status]
  rfl

/-- The stages are the programs, told in another way: in every event of any state. -/
theorem step_status (s : System Stage) (e : Event) :
    (s.map Stage.status).step programs e = (s.step stages e).map Stage.status := by
  cases e with
  | call p c now =>
    simp only [step]
    cases h : s.caller p with
    | some c' => simp [map, h]
    | none => simpa [map, h] using arrive_status s p c now
  | turn p now =>
    simp only [step]
    cases h : s.caller p with
    | none => simp [map, h]
    | some c =>
      have hans : programs.answer? c.progress.status = stages.answer? c.progress :=
        Stage.answer?_status c.progress
      have hturn : programs.turn s.world p now c.progress.status =
          (stages.turn s.world p now c.progress).map Stage.status := Stage.turn_status c.progress
      have hcaller : (s.map Stage.status).caller p = some (c.map Stage.status) := by
        simp [map, h]
      simp only [hcaller]
      simp only [Caller.map, hans]
      split
      · rfl
      · exact (congrArg _ hturn).trans (keep_status s p c _)

theorem run_status (s : System Stage) (es : List Event) :
    (s.map Stage.status).run programs es = (s.run stages es).map Stage.status := by
  induction es generalizing s with
  | nil => rfl
  | cons e es ih =>
    simp only [run, List.foldl_cons] at ih ⊢
    rw [step_status]
    exact ih _

theorem answer?_map (s : System Stage) (p : Party) :
    (s.map Stage.status).answer? programs p = s.answer? stages p := by
  simp only [answer?, map]
  cases s.caller p with
  | none => rfl
  | some c => exact Stage.answer?_status c.progress

theorem asked_map {σ τ : Type} (f : σ → τ) (s : System σ) (p : Party) :
    (s.map f).asked p = s.asked p := by
  simp only [asked, map]
  cases s.caller p <;> rfl

end System

/-- The ledger goes through the stages. -/
theorem ledger_eq_stages (fresh : Nat → Uuid) (es : List Event) :
    ledger fresh es = ((System.opened fresh {}).run stages es).map Stage.status :=
  System.run_status (System.opened fresh {}) es

end UnitLedger.Concurrent
