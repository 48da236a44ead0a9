import UnitLedger.Proofs.Concurrent.Alone
import UnitLedger.Proofs.Concurrent.Locking

/-!
  UnitLedger.Proofs.Ledger.Outcomes — what calls come to when nobody disturbs them.

  One lemma for each outcome, from the stage at which the call begins: what the rows have to be, what
  the call is answered then and what rows it leaves. A party that is alone holds every lock that is
  held, so it never waits (`acquire_mine`, `lockRows_mine`).
-/

namespace UnitLedger.Memory

def RowLocks.Mine (ls : RowLocks) (p : Party) : Prop := ∀ l ∈ ls.held, l.holder = p

theorem RowLocks.acquire_mine {ls : RowLocks} {p : Party} (h : ls.Mine p) (row : Uuid) :
    ∃ ls', ls.acquire p row = (ls', true) ∧ ls'.Mine p := by
  unfold acquire
  split
  · exact ⟨ls, rfl, h⟩
  · rename_i hnot
    cases hcurrent : ls.current row with
    | none =>
      refine ⟨_, rfl, fun l hl => ?_⟩
      rcases List.mem_append.mp hl with hl | hl
      · exact h l hl
      · obtain rfl := List.mem_singleton.mp hl
        rfl
    | some l =>
      -- Whoever holds the row's lock is the party itself.
      refine absurd ?_ hnot
      have hl := List.mem_of_find?_eq_some hcurrent
      have hrow := List.find?_some hcurrent
      simp only [Bool.and_eq_true, beq_iff_eq] at hrow
      exact List.any_eq_true.mpr ⟨l, hl, by simp [hrow.1, h l hl]⟩

theorem World.lockRows_mine {p : Party} (fund : Uuid) (owners : List String) {w : World}
    (locked : List Entry) (wf : w.tables.WellFormed) (hj : w.journal p = []) (h : w.locks.Mine p) :
    ∃ locks, lockRows p fund w owners locked =
      ({ w with locks }, .inl (.ok (locked ++ found w.tables fund owners))) ∧ locks.Mine p := by
  suffices hgranted : ∃ locks r, lockRows p fund w owners locked = ({ w with locks }, .inl r) ∧
      locks.Mine p by
    obtain ⟨locks, r, hrun, hmine⟩ := hgranted
    have hfound := lockRows_found fund owners locked wf hj
    rw [hrun] at hfound
    exact ⟨locks, by rw [hrun, show r = _ from hfound], hmine⟩
  clear wf hj
  induction owners generalizing w locked with
  | nil => exact ⟨w.locks, _, rfl, h⟩
  | cons owner rest ih =>
    unfold lockRows
    cases w.tables.activeOf fund owner with
    | none => exact ih _ h
    | some e =>
      obtain ⟨locks, hacq, hmine⟩ := RowLocks.acquire_mine h e.id
      dsimp only
      rw [hacq]
      exact ih (w := { w with locks }) _ hmine

theorem World.journal_journalCredit {w : World} {p : Party} {j : Journal} {fund : Uuid}
    {owner : String} {units : Int} (hj : w.journal p = j) :
    (w.journalCredit p fund owner units).journal p = j ++ [.credit fund owner units] := by
  rw [World.journalCredit, World.journal_setJournal_self, hj]

end UnitLedger.Memory

namespace UnitLedger.Ledger

open Concurrent Memory
open Concurrent.Stage
open Store (Op)
open Service

/-! ## Turns

What a turn of a party does that all locks belong to. -/

section Turns

variable {p : Party} {w : World} {now : Instant} {o : TransferOrder} {e : Entry} {r : Transfer}
  {f : Fund} {k : Uuid}

theorem turn_looking (hj : w.journal p = []) :
    (looking o k).turn w p now =
      ⟨w, afterLookup o (w.tables.findByKey k), some (.findByKey k)⟩ := by
  simp [Stage.turn, hj, Journal.findByKey, Journal.recordOf]

/-- Once its locks are asked for, a transfer has them. -/
theorem turn_locking (wf : w.tables.WellFormed) (hmine : w.locks.Mine p) (hj : w.journal p = [])
    (differ : o.source ≠ o.target) :
    ∃ locks : RowLocks, locks.Mine p ∧ ∃ locked : List Entry,
      locked.find? (fun e => e.owner == o.source) = w.tables.activeOf o.fund o.source ∧
      ∀ now, (locking o).turn w p now =
        ⟨{ w with locks }, afterLocked o locked, some (lockOp o)⟩ := by
  obtain ⟨locks, hrun, hmine'⟩ := World.lockRows_mine o.fund
    (World.lockOrder [o.source, o.target]) [] wf hj hmine
  refine ⟨locks, hmine', World.found w.tables o.fund (World.lockOrder [o.source, o.target]), ?_,
    fun now => ?_⟩
  · rw [World.find_found, if_pos ((World.mem_lockOrder differ).mpr (Or.inl rfl))]
  · simp only [Stage.turn, hrun, afterLocks, List.nil_append]

theorem turn_checking (hj : w.journal p = []) :
    (checking o).turn w p now =
      ⟨w, withdrawing o (if w.tables.hasFund o.fund
        then .ownerNotFound o.fund o.source else .fundNotFound o.fund),
        some (.fundExists o.fund)⟩ := by
  have hknows : (w.journal p).knowsFund w.tables o.fund = w.tables.hasFund o.fund := by
    rw [hj]
    simp [Journal.knowsFund, Journal.createsFund]
  simp only [Stage.turn, hknows]

/-- The credit is written into the journal without a wait. -/
theorem turn_crediting (hmine : w.locks.Mine p) :
    ∃ locks : RowLocks, ∀ now, (crediting o e).turn w p now =
      ⟨{ w with locks }.journalCredit p o.fund o.target o.units, appending o e,
        some (creditOp o)⟩ := by
  simp only [Stage.turn]
  cases w.tables.activeOf o.fund o.target with
  | none => exact ⟨w.locks, fun _ => rfl⟩
  | some d =>
    obtain ⟨locks, hacq, -⟩ := RowLocks.acquire_mine hmine d.id
    refine ⟨locks, fun _ => ?_⟩
    dsimp only
    rw [hacq]

/-- The record of a transfer that is admitted is appended. -/
theorem turn_appending (wf : w.tables.WellFormed)
    (hj : w.journal p = [.debit e.id o.units, .credit o.fund o.target o.units])
    (admits : w.tables.Admits e (o.record (w.fresh w.used) now)) :
    (appending o e).turn w p now =
      ⟨w.draw.1.setJournal p (Journal.move e.id (o.record (w.fresh w.used) now)),
        committing o e (o.record (w.fresh w.used) now), some (.append o)⟩ := by
  have hsource : w.tables.hasActive o.fund o.source = true :=
    wf.hasActive_iff.mpr ⟨e, admits.mem, admits.fund, admits.owner⟩
  have hfree : ((o.record (w.fresh w.used) now).key.any fun k => (w.tables.findByKey k).isSome) =
      false := by
    cases hk : (o.record (w.fresh w.used) now).key with
    | none => rfl
    | some k => simp [admits.key k hk]
  have hjournal : (w.journal p).addTransfer w.tables (o.record w.draw.2 now) =
      .ok (Journal.move e.id (o.record (w.fresh w.used) now)) := by
    have hmove := Tables.addTransfer_move (r := o.record (w.fresh w.used) now) wf e.id admits.differ
      admits.positive hsource
    rw [hfree] at hmove
    rw [hj]
    exact hmove
  simp only [Stage.turn, hjournal]
  rfl

/-- And it is committed. -/
theorem turn_committing (wf : w.tables.WellFormed) (hj : w.journal p = Journal.move e.id r)
    (admits : w.tables.Admits e r) (hid : w.fresh (w.used + 1) ∉ w.tables.entryIds) :
    (committing o e r).turn w p now =
      ⟨({ w with
          tables := w.tables.settled (w.fresh (w.used + 1)) now e r
          used := w.used + 3 }).closeTx p,
        finished (.transfer (.ok r)), some .commit⟩ := by
  have hcommit : w.tables.commit (fun n => w.fresh (w.used + n)) now (Journal.move e.id r) =
      (w.tables.settled (w.fresh (w.used + 1)) now e r, .ok ()) :=
    Tables.commit_move_of_admits wf admits hid
  simp only [Stage.turn, World.commitTx, hj, hcommit]
  rfl

theorem turn_insertingFund (hj : w.journal p = []) :
    (insertingFund f e).turn w p now =
      if w.tables.hasFundName f.name
      then ⟨w, undoingFund f e (.uniqueViolation Constraint.fundName), some (.createFund f)⟩
      else ⟨w.setJournal p [.fund f], insertingEntry f e, some (.createFund f)⟩ := by
  cases hname : w.tables.hasFundName f.name with
  | true =>
    simp only [Stage.turn, hj, Journal.addFund, hname, Bool.true_or, if_true]
    rfl
  | false => simp [Stage.turn, hj, Journal.addFund, hname, Journal.createsFundName]

theorem turn_insertingEntry (wf : w.tables.WellFormed) (hj : w.journal p = [.fund f])
    (hfund : e.fund = f.id) (hid : w.tables.hasFund f.id = false) :
    (insertingEntry f e).turn w p now =
      ⟨w.setJournal p (Journal.founding f e), committingFund f e, some (.createEntry e)⟩ := by
  have hadded : (w.journal p).addEntry w.tables e = .ok (Journal.founding f e) := by
    have hnone : w.tables.hasActive f.id e.owner = false :=
      Tables.hasActive_of_no_fund wf hid e.owner
    rw [hj]
    simp [Journal.addEntry, Journal.knowsFund, Journal.createsFund, hnone, hfund,
      Journal.createdEntry, Journal.founding]
  simp only [Stage.turn, hadded]

theorem turn_committingFund (wf : w.tables.WellFormed) (hj : w.journal p = Journal.founding f e)
    (hfund : e.fund = f.id) (hunits : 0 ≤ e.units) (hid : w.tables.hasFund f.id = false)
    (hname : w.tables.hasFundName f.name = false) :
    (committingFund f e).turn w p now =
      ⟨({ w with tables := w.tables.founded f e, used := w.used + 2 }).closeTx p,
        finished (.fund (.ok f)), some .commit⟩ := by
  have hcommit := Tables.commit_founding (fun n => w.fresh (w.used + n)) now wf hfund hunits
  simp only [hid, hname, Bool.false_eq_true, if_false] at hcommit
  simp only [Stage.turn, World.commitTx, hj, hcommit]
  rfl

end Turns

/-! ## Stages -/

section Transfer

variable {p : Party} {w : World} {o : TransferOrder} {e : Entry} {r : Transfer} {a : Answer}
  {t : Tables} {n : Nat} {k : Uuid}

theorem solo_withdrawing {err : LedgerError} (race : raceKey? o err = none) :
    Solo p w (withdrawing o err) (.transfer (.error err)) w.tables w.used := by
  refine .turn ⟨0⟩ ?_
  simp only [Stage.turn, afterFailure, race]
  exact .finished

theorem solo_repeating : Solo p w (repeating o r) (.transfer (.ok r)) w.tables w.used :=
  .turn ⟨0⟩ .finished

theorem solo_committing (now : Instant) (wf : w.tables.WellFormed)
    (hj : w.journal p = Journal.move e.id r) (admits : w.tables.Admits e r)
    (hid : w.fresh (w.used + 1) ∉ w.tables.entryIds) :
    Solo p w (committing o e r) (.transfer (.ok r))
      (w.tables.settled (w.fresh (w.used + 1)) now e r) (w.used + 3) := by
  refine .turn now ?_
  rw [turn_committing wf hj admits hid]
  exact .finished

theorem solo_appending (at_ now : Instant) (wf : w.tables.WellFormed)
    (hj : w.journal p = [.debit e.id o.units, .credit o.fund o.target o.units])
    (admits : w.tables.Admits e (o.record (w.fresh w.used) at_))
    (hid : w.fresh (w.used + 2) ∉ w.tables.entryIds) :
    Solo p w (appending o e) (.transfer (.ok (o.record (w.fresh w.used) at_)))
      (w.tables.settled (w.fresh (w.used + 2)) now e (o.record (w.fresh w.used) at_))
      (w.used + 4) := by
  refine .turn at_ ?_
  rw [turn_appending wf hj admits]
  exact solo_committing (w := w.draw.1.setJournal p _) now wf (World.journal_setJournal_self _)
    admits hid

theorem solo_crediting (at_ now : Instant) (wf : w.tables.WellFormed)
    (hmine : w.locks.Mine p) (hj : w.journal p = [.debit e.id o.units])
    (admits : w.tables.Admits e (o.record (w.fresh w.used) at_))
    (hid : w.fresh (w.used + 2) ∉ w.tables.entryIds) :
    Solo p w (crediting o e) (.transfer (.ok (o.record (w.fresh w.used) at_)))
      (w.tables.settled (w.fresh (w.used + 2)) now e (o.record (w.fresh w.used) at_))
      (w.used + 4) := by
  refine .turn ⟨0⟩ ?_
  obtain ⟨locks, hturn⟩ := turn_crediting (o := o) (e := e) hmine
  rw [hturn]
  refine solo_appending (w := { w with locks }.journalCredit p o.fund o.target o.units) at_ now wf ?_
    admits hid
  exact World.journal_journalCredit hj

theorem solo_debiting (at_ now : Instant) (wf : w.tables.WellFormed)
    (hmine : w.locks.Mine p) (hj : w.journal p = [])
    (admits : w.tables.Admits e (o.record (w.fresh w.used) at_))
    (hid : w.fresh (w.used + 2) ∉ w.tables.entryIds) :
    Solo p w (debiting o e) (.transfer (.ok (o.record (w.fresh w.used) at_)))
      (w.tables.settled (w.fresh (w.used + 2)) now e (o.record (w.fresh w.used) at_))
      (w.used + 4) := by
  refine .turn ⟨0⟩ ?_
  refine solo_crediting (w := w.setJournal p _) at_ now wf hmine ?_ admits hid
  rw [World.journal_setJournal_self, hj]
  rfl

theorem solo_checking (hj : w.journal p = []) :
    Solo p w (checking o) (.transfer (.error (if w.tables.hasFund o.fund
      then .ownerNotFound o.fund o.source else .fundNotFound o.fund))) w.tables w.used := by
  refine .turn ⟨0⟩ ?_
  rw [turn_checking hj]
  refine solo_withdrawing ?_
  split <;> rfl

/-- Once its locks are asked for, a transfer that is alone has them. -/
theorem solo_locking (wf : w.tables.WellFormed) (hmine : w.locks.Mine p) (hj : w.journal p = [])
    (differ : o.source ≠ o.target)
    (rest : ∀ locks : RowLocks, locks.Mine p → ∀ locked : List Entry,
      locked.find? (fun e => e.owner == o.source) = w.tables.activeOf o.fund o.source →
        Solo p { w with locks } (afterLocked o locked) a t n) :
    Solo p w (locking o) a t n := by
  obtain ⟨locks, hmine', locked, hlocked, hturn⟩ := turn_locking wf hmine hj differ
  refine .turn ⟨0⟩ ?_
  rw [hturn]
  exact rest locks hmine' locked hlocked

/-- A transfer whose key is free goes on to its locks. -/
theorem solo_opening (hfree : ∀ k, o.key = some k → w.tables.findByKey k = none)
    (rest : Solo p (w.setJournal p []) (locking o) a t n) : Solo p w (opening o) a t n := by
  refine .turn ⟨0⟩ ?_
  simp only [Stage.turn, afterOpening]
  cases hk : o.key with
  | none => exact rest
  | some k =>
    refine .turn ⟨0⟩ ?_
    have hnone : (w.setJournal p []).tables.findByKey k = none := hfree k hk
    rw [turn_looking (World.journal_setJournal_self _), hnone]
    exact rest

/-- A transfer whose key has a record is answered by it. -/
theorem solo_found (hkey : o.key = some k) (hfound : w.tables.findByKey k = some r) :
    Solo p w (opening o)
      (.transfer (if o.describes r then .ok r else .error .duplicateIdempotencyKey))
      w.tables w.used := by
  refine .turn ⟨0⟩ ?_
  simp only [Stage.turn, afterOpening, hkey]
  refine .turn ⟨0⟩ ?_
  have hsome : (w.setJournal p []).tables.findByKey k = some r := hfound
  rw [turn_looking (World.journal_setJournal_self _), hsome]
  simp only [afterLookup, TransferOrder.replay]
  cases o.describes r with
  | true => exact solo_repeating
  | false => exact solo_withdrawing rfl

end Transfer

section Fund

variable {p : Party} {w : World} {f : Fund} {e : Entry}

theorem solo_committingFund (wf : w.tables.WellFormed) (hj : w.journal p = Journal.founding f e)
    (hfund : e.fund = f.id) (hunits : 0 ≤ e.units) (hid : w.tables.hasFund f.id = false)
    (hname : w.tables.hasFundName f.name = false) :
    Solo p w (committingFund f e) (.fund (.ok f)) (w.tables.founded f e) (w.used + 2) := by
  refine .turn ⟨0⟩ ?_
  rw [turn_committingFund wf hj hfund hunits hid hname]
  exact .finished

theorem solo_insertingEntry (wf : w.tables.WellFormed) (hj : w.journal p = [.fund f])
    (hfund : e.fund = f.id) (hunits : 0 ≤ e.units) (hid : w.tables.hasFund f.id = false)
    (hname : w.tables.hasFundName f.name = false) :
    Solo p w (insertingEntry f e) (.fund (.ok f)) (w.tables.founded f e) (w.used + 2) := by
  refine .turn ⟨0⟩ ?_
  rw [turn_insertingEntry wf hj hfund hid]
  exact solo_committingFund (w := w.setJournal p _) wf (World.journal_setJournal_self _) hfund hunits
    hid hname

/-- A fund whose id and name are free is created. -/
theorem solo_openingFund (wf : w.tables.WellFormed) (hfund : e.fund = f.id) (hunits : 0 ≤ e.units)
    (hid : w.tables.hasFund f.id = false) (hname : w.tables.hasFundName f.name = false) :
    Solo p w (openingFund f e) (.fund (.ok f)) (w.tables.founded f e) (w.used + 2) := by
  refine .turn ⟨0⟩ ?_
  show Solo p (w.setJournal p []) (insertingFund f e) _ _ _
  refine .turn ⟨0⟩ ?_
  have hfree : (w.setJournal p []).tables.hasFundName f.name = false := hname
  rw [turn_insertingFund (World.journal_setJournal_self _), hfree, if_neg Bool.false_ne_true]
  exact solo_insertingEntry (w := (w.setJournal p []).setJournal p _) wf
    (World.journal_setJournal_self _) hfund hunits hid hname

/-- A fund whose name is taken is not. -/
theorem solo_taken (hname : w.tables.hasFundName f.name = true) :
    Solo p w (openingFund f e) (.fund (.error (.duplicateFundName f.name))) w.tables w.used := by
  refine .turn ⟨0⟩ ?_
  show Solo p (w.setJournal p []) (insertingFund f e) _ _ _
  refine .turn ⟨0⟩ ?_
  have htaken : (w.setJournal p []).tables.hasFundName f.name = true := hname
  rw [turn_insertingFund (World.journal_setJournal_self _), if_pos htaken]
  exact .turn ⟨0⟩ .finished

end Fund

/-! ## Reads -/

def readAnswer (t : Tables) (fund : Uuid) (f : Fund) : Reading → Answer
  | .fund => .fund (.ok f)
  | .entry owner => .entry ((t.activeOf fund owner).elim (.error (.ownerNotFound fund owner)) .ok)
  | .capTable params => .capTable (.ok (capTable t f fund params))
  | .transfers params => .transfers (.ok (.ofList (t.transferListing fund) params.window))

theorem solo_reading {p : Party} {w : World} {fund : Uuid} (reading : Reading) :
    Solo p w (findingFund fund reading)
      ((w.tables.findFund fund).elim (reading.missing fund) fun f => readAnswer w.tables fund f reading)
      w.tables w.used := by
  refine .turn ⟨0⟩ ?_
  simp only [Stage.turn]
  cases hfund : w.tables.findFund fund with
  | none => cases reading <;> exact .finished
  | some f =>
    cases reading with
    | fund => exact .finished
    | entry owner => exact .turn ⟨0⟩ .finished
    | capTable params => exact .turn ⟨0⟩ .finished
    | transfers params => exact .turn ⟨0⟩ .finished

/-! ## Calls -/

def supply (ids : List Uuid) (n : Nat) : Uuid := ids.getD n (Uuid.ofNat 0)

theorem supply_eq {ids : List Uuid} {n : Nat} (h : n < ids.length) : supply ids n = ids[n] :=
  (List.getElem_eq_getD _).symm

theorem supply_distinct {ids : List Uuid} (h : ids.Nodup) : DistinctIds (supply ids) ids.length := by
  intro i hi j hj heq
  rw [supply_eq hi, supply_eq hj] at heq
  exact h.getElem_inj_iff.mp heq

theorem supply_mem {ids : List Uuid} {n : Nat} (h : n < ids.length) : supply ids n ∈ ids := by
  rw [supply_eq h]
  exact List.getElem_mem h

/-- New ids, in the order in which a call that runs alone draws them. -/
structure NewIds (t : Tables) (ids : List Uuid) : Prop where
  nodup : ids.Nodup
  absent : ∀ id ∈ ids, id ∉ t.ids

theorem NewIds.sublist {t : Tables} {ids ids' : List Uuid} (h : NewIds t ids)
    (hsub : ids'.Sublist ids) : NewIds t ids' :=
  ⟨h.nodup.sublist hsub, fun id hid => h.absent id (hsub.subset hid)⟩

section Calls

variable {t t' : Tables} {call : Call} {fundId entryId : Uuid} {now at_ : Instant} {σ : Stage}
  {a : Answer} {more : List Uuid} {o : TransferOrder} {k : Uuid} {r : Transfer} {e : Entry} {f : Fund}

theorem NewIds.alone (h : NewIds t (fundId :: entryId :: more))
    (hstart : Stage.start fundId entryId now call = σ)
    (solo : Solo 0 { tables := t, fresh := supply (fundId :: entryId :: more), used := 2 } σ a t'
      (fundId :: entryId :: more).length) : Alone t call a t' :=
  alone_of_solo hstart solo (supply_distinct h.nodup)
    fun _ hi => h.absent _ (supply_mem hi)

section Transfer

variable (wf : t.WellFormed) (hstart : Stage.start fundId entryId now call = opening o)

include hstart

theorem alone_found (h : NewIds t [fundId, entryId]) (hkey : o.key = some k)
    (hfound : t.findByKey k = some r) :
    Alone t call (.transfer (if o.describes r then .ok r else .error .duplicateIdempotencyKey)) t :=
  h.alone hstart (solo_found (w := { tables := t, fresh := _, used := 2 }) hkey hfound)

include wf

/-- A transfer with a free key comes to its locks, and what its source has decides. -/
theorem alone_locked (h : NewIds t (fundId :: entryId :: more)) (differ : o.source ≠ o.target)
    (hfree : ∀ k, o.key = some k → t.findByKey k = none)
    (rest : ∀ w : World, w.tables = t → w.fresh = supply (fundId :: entryId :: more) → w.used = 2 →
      w.locks.Mine 0 → w.journal 0 = [] → ∀ locked : List Entry,
      locked.find? (fun e => e.owner == o.source) = t.activeOf o.fund o.source →
        Solo 0 w (afterLocked o locked) a t' (fundId :: entryId :: more).length) :
    Alone t call a t' := by
  refine h.alone hstart (solo_opening hfree ?_)
  refine solo_locking (w := World.setJournal _ 0 []) wf ?_ (World.journal_setJournal_self _) differ ?_
  · intro l hl
    cases hl
  · intro locks hmine locked hlocked
    refine rest { World.setJournal _ 0 [] with locks } rfl rfl rfl hmine ?_ locked hlocked
    exact World.journal_setJournal_self []

theorem alone_missing (h : NewIds t [fundId, entryId]) (differ : o.source ≠ o.target)
    (hfree : ∀ k, o.key = some k → t.findByKey k = none)
    (hsource : t.activeOf o.fund o.source = none) :
    Alone t call (.transfer (.error (if t.hasFund o.fund
      then .ownerNotFound o.fund o.source else .fundNotFound o.fund))) t := by
  refine alone_locked wf hstart h differ hfree ?_
  intro w htables _ hused _ hj locked hlocked
  rw [hsource] at hlocked
  have hsolo : Solo 0 w (checking o) _ w.tables w.used := solo_checking hj
  rw [htables, hused] at hsolo
  simp only [afterLocked, hlocked]
  exact hsolo

theorem alone_short (h : NewIds t [fundId, entryId]) (differ : o.source ≠ o.target)
    (hfree : ∀ k, o.key = some k → t.findByKey k = none)
    (hsource : t.activeOf o.fund o.source = some e) (hshort : e.units < o.units) :
    Alone t call (.transfer (.error (.insufficientUnits e.units o.units))) t := by
  refine alone_locked wf hstart h differ hfree ?_
  intro w htables _ hused _ _ locked hlocked
  rw [hsource] at hlocked
  have hsolo : Solo 0 w (withdrawing o (.insufficientUnits e.units o.units)) _ w.tables w.used :=
    solo_withdrawing rfl
  rw [htables, hused] at hsolo
  simp only [afterLocked, hlocked, if_pos hshort]
  exact hsolo

theorem alone_settled {id entry x y : Uuid} (committed : Instant)
    (h : NewIds t [fundId, entryId, id, x, entry, y]) (admits : t.Admits e (o.record id at_)) :
    Alone t call (.transfer (.ok (o.record id at_)))
      (t.settled entry committed e (o.record id at_)) := by
  refine alone_locked wf hstart h admits.differ admits.key ?_
  intro w htables hfresh hused hmine hj locked hlocked
  have hsource : t.activeOf o.fund o.source = some e :=
    wf.activeOf_eq_some.mpr ⟨admits.mem, admits.fund, admits.owner⟩
  rw [hsource] at hlocked
  have hid : w.fresh w.used = id := by rw [hfresh, hused]; rfl
  have hentry : w.fresh (w.used + 2) = entry := by rw [hfresh, hused]; rfl
  have hnew : entry ∉ t.entryIds := fun hmem =>
    h.absent entry (by simp) (List.mem_append_left _ (List.mem_append_right _ hmem))
  have hsolo : Solo 0 w (debiting o e) _ _ (w.used + 4) :=
    solo_debiting at_ committed (htables ▸ wf) hmine hj (by rw [htables, hid]; exact admits)
      (by rw [htables, hentry]; exact hnew)
  rw [htables, hentry, hid, hused] at hsolo
  have hcovered : ¬ e.units < o.units := Int.not_lt.mpr admits.covered
  simp only [afterLocked, hlocked, if_neg hcovered]
  exact hsolo

end Transfer

theorem alone_founded {x y : Uuid} (wf : t.WellFormed)
    (hstart : Stage.start fundId entryId now call = openingFund f e)
    (h : NewIds t [fundId, entryId, x, y]) (hfund : e.fund = f.id) (hunits : 0 ≤ e.units)
    (hid : t.hasFund f.id = false) (hname : t.hasFundName f.name = false) :
    Alone t call (.fund (.ok f)) (t.founded f e) :=
  h.alone hstart
    (solo_openingFund (w := { tables := t, fresh := _, used := 2 }) wf hfund hunits hid hname)

theorem alone_taken (hstart : Stage.start fundId entryId now call = openingFund f e)
    (h : NewIds t [fundId, entryId]) (hname : t.hasFundName f.name = true) :
    Alone t call (.fund (.error (.duplicateFundName f.name))) t :=
  h.alone hstart (solo_taken (w := { tables := t, fresh := _, used := 2 }) hname)

theorem alone_read {fund : Uuid} {reading : Reading}
    (hstart : Stage.start fundId entryId now call = findingFund fund reading)
    (h : NewIds t [fundId, entryId]) :
    Alone t call ((t.findFund fund).elim (reading.missing fund) fun f => readAnswer t fund f reading)
      t :=
  h.alone hstart (solo_reading (w := { tables := t, fresh := _, used := 2 }) reading)

/-- A call whose input is refused asks the store nothing. -/
theorem alone_refused (hstart : Stage.start fundId entryId now call = finished a)
    (h : NewIds t [fundId, entryId]) : Alone t call a t :=
  h.alone hstart (Solo.finished (w := { tables := t, fresh := _, used := 2 }))

theorem alone_funds {params : ListParams}
    (hstart : Stage.start fundId entryId now call = listingFunds params)
    (h : NewIds t [fundId, entryId]) :
    Alone t call (.funds (.ok (.ofList t.fundListing params.window))) t :=
  h.alone hstart (.turn ⟨0⟩ (Solo.finished (w := { tables := t, fresh := _, used := 2 })))

theorem alone_health (hstart : Stage.start fundId entryId now call = checkingHealth)
    (h : NewIds t [fundId, entryId]) : Alone t call (.health (.ok ())) t :=
  h.alone hstart (.turn ⟨0⟩ (Solo.finished (w := { tables := t, fresh := _, used := 2 })))

end Calls

end UnitLedger.Ledger
