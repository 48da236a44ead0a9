import UnitLedger.Proofs.Concurrent.Stage

/-!
  UnitLedger.Proofs.Concurrent.Move — the turns of a call, one by one.

  `Move` lists every way in which a stage can turn into another, with what was found in the store and
  what it does to the world. `turn_move`: a turn is one of these moves. Whatever is to be shown of all
  turns is shown by cases on the move.
-/

namespace UnitLedger.Concurrent

open Memory (Party World Journal Pause Tables Violation)
open Store (Op)
open Service

namespace Reading

def missing (fund : Uuid) : Reading → Answer
  | .fund => .fund (.error (.fundNotFound fund))
  | .entry _ => .entry (.error (.fundNotFound fund))
  | .capTable _ => .capTable (.error (.fundNotFound fund))
  | .transfers _ => .transfers (.error (.fundNotFound fund))

end Reading

namespace Stage

abbrev LockResult := Except StoreError (List Entry) ⊕ (Uuid × List String × List Entry)

/-- The run of the locking operation in the next turn, if there is one: its beginning, or the rest
after a wait. -/
def lockRun (w : World) (p : Party) : Stage → Option (TransferOrder × World × LockResult)
  | locking o =>
    some (o, World.lockRows p o.fund w (World.lockOrder [o.source, o.target]) [])
  | lockWaiting o row rest locked =>
    if w.locks.waits p then none
    else some (o, World.lockRows p o.fund w rest (locked ++ w.reread p row))
  | _ => none

inductive LockRuns (w : World) (p : Party) (o : TransferOrder) (r : World × LockResult) :
    Stage → Prop where
  | begins (run : World.lockRows p o.fund w (World.lockOrder [o.source, o.target]) [] = r) :
      LockRuns w p o r (locking o)
  | goesOn {row rest locked} (arrived : w.locks.waits p = false)
      (run : World.lockRows p o.fund w rest (locked ++ w.reread p row) = r) :
      LockRuns w p o r (lockWaiting o row rest locked)

theorem lockRun_cases {w : World} {p : Party} {o : TransferOrder} {r : World × LockResult} {σ : Stage}
    (h : σ.lockRun w p = some (o, r)) : LockRuns w p o r σ := by
  cases σ with
  | locking =>
    cases h
    exact .begins rfl
  | lockWaiting =>
    simp only [lockRun] at h
    split at h
    · cases h
    · rename_i arrived
      cases h
      exact .goesOn (by simpa using arrived) rfl
  | _ => cases h

/-- Either way it locks rows of the fund. -/
theorem lockRun_rows {w : World} {p : Party} {o : TransferOrder} {r : World × LockResult} {σ : Stage}
    (h : σ.lockRun w p = some (o, r)) :
    ∃ owners first, World.lockRows p o.fund w owners first = r := by
  cases lockRun_cases h with
  | begins run | goesOn arrived run => exact ⟨_, _, run⟩

inductive Move (w : World) (p : Party) (now : Instant) :
    Stage → World → Stage → Option Op → Prop where
  | idle {a} : Move w p now (finished a) w (finished a) none
  /- A transfer up to its locks. -/
  | openKeyless {o} (key : o.key = none) :
      Move w p now (opening o) (w.setJournal p []) (locking o) (some .openTx)
  | openKeyed {o k} (key : o.key = some k) :
      Move w p now (opening o) (w.setJournal p []) (looking o k) (some .openTx)
  | lookFresh {o k} (found : (w.journal p).findByKey w.tables k = none) :
      Move w p now (looking o k) w (locking o) (some (.findByKey k))
  | lookSame {o k r} (found : (w.journal p).findByKey w.tables k = some r)
      (same : o.describes r = true) :
      Move w p now (looking o k) w (repeating o r) (some (.findByKey k))
  | lookConflict {o k r} (found : (w.journal p).findByKey w.tables k = some r)
      (differs : o.describes r = false) :
      Move w p now (looking o k) w (withdrawing o .duplicateIdempotencyKey) (some (.findByKey k))
  | lockNone {σ w' o locked} (run : σ.lockRun w p = some (o, w', .inl (.ok locked)))
      (source : locked.find? (fun e => e.owner == o.source) = none) :
      Move w p now σ w' (checking o) (some (lockOp o))
  | lockShort {σ w' o locked e} (run : σ.lockRun w p = some (o, w', .inl (.ok locked)))
      (source : locked.find? (fun e => e.owner == o.source) = some e) (short : e.units < o.units) :
      Move w p now σ w' (withdrawing o (.insufficientUnits e.units o.units)) (some (lockOp o))
  | lockEnough {σ w' o locked e} (run : σ.lockRun w p = some (o, w', .inl (.ok locked)))
      (source : locked.find? (fun e => e.owner == o.source) = some e) (enough : o.units ≤ e.units) :
      Move w p now σ w' (debiting o e) (some (lockOp o))
  | lockError {σ w' o e} (run : σ.lockRun w p = some (o, w', .inl (.error e))) :
      Move w p now σ w' (withdrawing o (.store e)) (some (lockOp o))
  | lockPause {σ w' o row rest locked} (run : σ.lockRun w p = some (o, w', .inr (row, rest, locked))) :
      Move w p now σ w' (lockWaiting o row rest locked) none
  | lockGiveUp {o row rest locked} (waits : w.locks.waits p = true) :
      Move w p now (lockWaiting o row rest locked) (w.giveUp p) (withdrawing o (.store .lockTimeout))
        (some (lockOp o))
  /- A transfer with its locks. -/
  | check {o} :
      Move w p now (checking o) w
        (withdrawing o (if (w.journal p).knowsFund w.tables o.fund
          then .ownerNotFound o.fund o.source else .fundNotFound o.fund)) (some (.fundExists o.fund))
  | debit {o e} :
      Move w p now (debiting o e) (w.setJournal p (w.journal p ++ [.debit e.id o.units]))
        (crediting o e) (some (.debit e.id o.units))
  | creditNew {o e} (target : w.tables.activeOf o.fund o.target = none) :
      Move w p now (crediting o e) (w.journalCredit p o.fund o.target o.units) (appending o e)
        (some (creditOp o))
  | creditLocked {o e d locks} (target : w.tables.activeOf o.fund o.target = some d)
      (granted : w.locks.acquire p d.id = (locks, true)) :
      Move w p now (crediting o e) ({ w with locks }.journalCredit p o.fund o.target o.units)
        (appending o e) (some (creditOp o))
  | creditPause {o e d locks} (target : w.tables.activeOf o.fund o.target = some d)
      (busy : w.locks.acquire p d.id = (locks, false)) :
      Move w p now (crediting o e) { w with locks } (creditWaiting o e) none
  | creditGiveUp {o e} (waits : w.locks.waits p = true) :
      Move w p now (creditWaiting o e) (w.giveUp p) (withdrawing o (.store .lockTimeout))
        (some (creditOp o))
  | creditGo {o e} (granted : w.locks.waits p = false) :
      Move w p now (creditWaiting o e) (w.journalCredit p o.fund o.target o.units) (appending o e)
        (some (creditOp o))
  | append {o e j} (accepted : (w.journal p).addTransfer w.tables (o.record w.draw.2 now) = .ok j) :
      Move w p now (appending o e) (w.draw.1.setJournal p j)
        (committing o e (o.record w.draw.2 now)) (some (.append o))
  | refuse {o e v} (refused : (w.journal p).addTransfer w.tables (o.record w.draw.2 now) = .error v) :
      Move w p now (appending o e) w (withdrawing o (.store v.storeError)) (some (.append o))
  | commit {o e r} (done : (w.commitTx p now).2 = .ok ()) :
      Move w p now (committing o e r) (w.commitTx p now).1 (finished (.transfer (.ok r)))
        (some .commit)
  | commitRefused {o e r err} (failed : (w.commitTx p now).2 = .error err)
      (race : raceKey? o (.store err) = none) :
      Move w p now (committing o e r) (w.commitTx p now).1
        (finished (.transfer (.error (.store err)))) (some .commit)
  | commitBeaten {o e r err k} (failed : (w.commitTx p now).2 = .error err)
      (race : raceKey? o (.store err) = some k) :
      Move w p now (committing o e r) (w.commitTx p now).1 (reopening o k) (some .commit)
  /- A transfer after its transaction. -/
  | repeated {o r} :
      Move w p now (repeating o r) (w.closeTx p) (finished (.transfer (.ok r))) (some .rollback)
  | withdraw {o e} (race : raceKey? o e = none) :
      Move w p now (withdrawing o e) (w.closeTx p) (finished (.transfer (.error e))) (some .rollback)
  | withdrawBeaten {o e k} (race : raceKey? o e = some k) :
      Move w p now (withdrawing o e) (w.closeTx p) (reopening o k) (some .rollback)
  | reopen {o k} :
      Move w p now (reopening o k) (w.setJournal p []) (relooking o k) (some .openTx)
  | relook {o k} :
      Move w p now (relooking o k) w (judging o k ((w.journal p).findByKey w.tables k))
        (some (.findByKey k))
  | judge {o k found} :
      Move w p now (judging o k found) (w.closeTx p) (finished (.transfer (verdict o found)))
        (some .rollback)
  /- The creation of a fund. -/
  | openFund {f e} :
      Move w p now (openingFund f e) (w.setJournal p []) (insertingFund f e) (some .openTx)
  | insertFund {f e j} (accepted : (w.journal p).addFund w.tables f = .ok j) :
      Move w p now (insertingFund f e) (w.setJournal p j) (insertingEntry f e) (some (.createFund f))
  | refuseFund {f e v} (refused : (w.journal p).addFund w.tables f = .error v) :
      Move w p now (insertingFund f e) w (undoingFund f e v.storeError) (some (.createFund f))
  | insertEntry {f e j} (accepted : (w.journal p).addEntry w.tables e = .ok j) :
      Move w p now (insertingEntry f e) (w.setJournal p j) (committingFund f e)
        (some (.createEntry e))
  | refuseEntry {f e v} (refused : (w.journal p).addEntry w.tables e = .error v) :
      Move w p now (insertingEntry f e) w (undoingFund f e v.storeError) (some (.createEntry e))
  | commitFund {f e} (done : (w.commitTx p now).2 = .ok ()) :
      Move w p now (committingFund f e) (w.commitTx p now).1 (finished (.fund (.ok f))) (some .commit)
  | commitFundRefused {f e err} (failed : (w.commitTx p now).2 = .error err) :
      Move w p now (committingFund f e) (w.commitTx p now).1
        (finished (.fund (.error (fundError f err)))) (some .commit)
  | undoFund {f e err} :
      Move w p now (undoingFund f e err) (w.closeTx p) (finished (.fund (.error (fundError f err))))
        (some .rollback)
  /- Reads and the reset. -/
  | noFund {fund reading} (found : w.tables.findFund fund = none) :
      Move w p now (findingFund fund reading) w (finished (reading.missing fund))
        (some (.findFund fund))
  | readFund {fund f} (found : w.tables.findFund fund = some f) :
      Move w p now (findingFund fund .fund) w (finished (.fund (.ok f))) (some (.findFund fund))
  | goEntry {fund owner f} (found : w.tables.findFund fund = some f) :
      Move w p now (findingFund fund (.entry owner)) w (findingEntry fund owner)
        (some (.findFund fund))
  | goEntries {fund params f} (found : w.tables.findFund fund = some f) :
      Move w p now (findingFund fund (.capTable params)) w (listingEntries f fund params)
        (some (.findFund fund))
  | goTransfers {fund params f} (found : w.tables.findFund fund = some f) :
      Move w p now (findingFund fund (.transfers params)) w (listingTransfers fund params)
        (some (.findFund fund))
  | readEntry {fund owner} :
      Move w p now (findingEntry fund owner) w
        (finished (.entry ((w.tables.activeOf fund owner).elim
          (.error (.ownerNotFound fund owner)) .ok))) (some (.findEntry fund owner))
  | readEntries {f fund params} :
      Move w p now (listingEntries f fund params) w
        (finished (.capTable (.ok (capTable w.tables f fund params))))
        (some (.listEntries fund params.window))
  | readTransfers {fund params} :
      Move w p now (listingTransfers fund params) w
        (finished (.transfers (.ok (.ofList (w.tables.transferListing fund) params.window))))
        (some (.listTransfers fund params.window))
  | readFunds {params} :
      Move w p now (listingFunds params) w
        (finished (.funds (.ok (.ofList w.tables.fundListing params.window))))
        (some (.listFunds params.window))
  | readHealth : Move w p now checkingHealth w (finished (.health (.ok ()))) (some .health)
  | reset :
      Move w p now resetting w.dropRows.dropLocks (finished (.reset (.ok w.tables.counts)))
        (some .reset)

variable {w : World} {p : Party} {now : Instant}

/-- A transfer that is about to commit does so, and is answered its record if that is not refused. -/
theorem Move.of_committing {w' : World} {σ : Stage} {answered : Option Op} {o : TransferOrder}
    {e : Entry} {r : Transfer} (h : Move w p now (committing o e r) w' σ answered) :
    w' = (w.commitTx p now).1 ∧
      ((w.commitTx p now).2 = .ok () → σ = finished (.transfer (.ok r))) := by
  cases h with
  | commit => exact ⟨rfl, fun _ => rfl⟩
  | commitRefused failed | commitBeaten failed =>
    refine ⟨rfl, fun done => ?_⟩
    rw [done] at failed
    cases failed
  | lockNone run | lockShort run | lockEnough run | lockError run | lockPause run => cases run

theorem Move.of_committingFund {w' : World} {σ : Stage} {answered : Option Op} {f : Fund} {e : Entry}
    (h : Move w p now (committingFund f e) w' σ answered) :
    w' = (w.commitTx p now).1 ∧
      ((w.commitTx p now).2 = .ok () → σ = finished (.fund (.ok f))) := by
  cases h with
  | commitFund => exact ⟨rfl, fun _ => rfl⟩
  | commitFundRefused failed =>
    refine ⟨rfl, fun done => ?_⟩
    rw [done] at failed
    cases failed
  | lockNone run | lockShort run | lockEnough run | lockError run | lockPause run => cases run

def Moves (w : World) (p : Party) (now : Instant) (σ : Stage) (t : Turn Stage) : Prop :=
  Move w p now σ t.world t.progress t.answered

theorem moves_afterLocks {σ : Stage} {o : TransferOrder} {r : World × LockResult}
    (run : σ.lockRun w p = some (o, r)) : Moves w p now σ (afterLocks o r) := by
  obtain ⟨w', (e | locked) | ⟨row, rest, locked⟩⟩ := r
  · exact .lockError run
  · simp only [afterLocks, afterLocked, Moves]
    cases hsource : locked.find? fun e => e.owner == o.source with
    | none => exact .lockNone run hsource
    | some e =>
      dsimp only
      by_cases hshort : e.units < o.units
      · rw [if_pos hshort]
        exact .lockShort run hsource hshort
      · rw [if_neg hshort]
        exact .lockEnough run hsource (Int.not_lt.mp hshort)
  · exact .lockPause run

theorem moves_afterFund (fund : Uuid) (reading : Reading) :
    Moves w p now (findingFund fund reading)
      ⟨w, afterFund fund (w.tables.findFund fund) reading, some (.findFund fund)⟩ := by
  cases h : w.tables.findFund fund with
  | none => cases reading <;> exact .noFund h
  | some f =>
    cases reading with
    | fund => exact .readFund h
    | entry owner => exact .goEntry h
    | capTable params => exact .goEntries h
    | transfers params => exact .goTransfers h

theorem turn_move (σ : Stage) : Moves w p now σ (σ.turn w p now) := by
  cases σ with
  | finished a => exact .idle
  | opening o =>
    simp only [turn, afterOpening, Moves]
    cases h : o.key with
    | none => exact .openKeyless h
    | some k => exact .openKeyed h
  | looking o k =>
    simp only [turn, afterLookup, TransferOrder.replay, Moves]
    cases h : (w.journal p).findByKey w.tables k with
    | none => exact .lookFresh h
    | some r =>
      cases hsame : o.describes r with
      | true => simpa [hsame] using Move.lookSame h hsame
      | false => simpa [hsame] using Move.lookConflict h hsame
  | locking o => exact moves_afterLocks rfl
  | lockWaiting o row rest locked =>
    cases h : w.locks.waits p with
    | true => simpa [turn, h, Moves] using Move.lockGiveUp h
    | false =>
      have hrun : (lockWaiting o row rest locked).lockRun w p =
          some (o, World.lockRows p o.fund w rest (locked ++ w.reread p row)) := by
        simp [lockRun, h]
      have hmoves : Moves w p now _ _ := moves_afterLocks hrun
      simpa [turn, h] using hmoves
  | checking o => exact .check
  | debiting o e => exact .debit
  | crediting o e =>
    simp only [turn]
    cases h : w.tables.activeOf o.fund o.target with
    | none => exact .creditNew h
    | some d =>
      dsimp only
      rcases hd : w.locks.acquire p d.id with ⟨locks, _ | _⟩
      · exact .creditPause h hd
      · exact .creditLocked h hd
  | creditWaiting o e =>
    cases h : w.locks.waits p with
    | true => simpa [turn, h, Moves] using Move.creditGiveUp h
    | false => simpa [turn, h, Moves] using Move.creditGo h
  | appending o e =>
    simp only [turn]
    cases h : (w.journal p).addTransfer w.tables (o.record w.draw.2 now) with
    | ok j => exact .append h
    | error v => exact .refuse h
  | committing o e r =>
    simp only [turn]
    rcases h : w.commitTx p now with ⟨w', err | u⟩
    · simp only [afterFailure, Moves]
      have hw : w' = (w.commitTx p now).1 := by rw [h]
      have hfailed : (w.commitTx p now).2 = .error err := by rw [h]
      subst hw
      cases hrace : raceKey? o (.store err) with
      | none => exact .commitRefused hfailed hrace
      | some k => exact .commitBeaten hfailed hrace
    · have hw : w' = (w.commitTx p now).1 := by rw [h]
      subst hw
      exact .commit (by rw [h])
  | repeating o r => exact .repeated
  | withdrawing o e =>
    simp only [turn, afterFailure, Moves]
    cases hrace : raceKey? o e with
    | none => exact .withdraw hrace
    | some k => exact .withdrawBeaten hrace
  | reopening o k => exact .reopen
  | relooking o k => exact .relook
  | judging o k found => exact .judge
  | openingFund f e => exact .openFund
  | insertingFund f e =>
    simp only [turn]
    cases h : (w.journal p).addFund w.tables f with
    | ok j => exact .insertFund h
    | error v => exact .refuseFund h
  | insertingEntry f e =>
    simp only [turn]
    cases h : (w.journal p).addEntry w.tables e with
    | ok j => exact .insertEntry h
    | error v => exact .refuseEntry h
  | committingFund f e =>
    simp only [turn]
    rcases h : w.commitTx p now with ⟨w', err | u⟩
    · have hw : w' = (w.commitTx p now).1 := by rw [h]
      subst hw
      exact .commitFundRefused (by rw [h])
    · have hw : w' = (w.commitTx p now).1 := by rw [h]
      subst hw
      exact .commitFund (by rw [h])
  | undoingFund f e err => exact .undoFund
  | findingFund fund reading => exact moves_afterFund fund reading
  | findingEntry fund owner => exact .readEntry
  | listingEntries f fund params => exact .readEntries
  | listingTransfers fund params => exact .readTransfers
  | listingFunds params => exact .readFunds
  | checkingHealth => exact .readHealth
  | resetting => exact .reset

end Stage

end UnitLedger.Concurrent
