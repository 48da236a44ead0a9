import UnitLedger.Proofs.Concurrent.Enclosed
import UnitLedger.Proofs.Concurrent.Undisturbed
import UnitLedger.Proofs.Concurrent.Unshared
import UnitLedger.Proofs.Ledger.Conservation
import UnitLedger.Proofs.Ledger.Outcomes
import UnitLedger.Proofs.Naming

/-!
  UnitLedger.Proofs.Ledger.Reference — what a call does that nobody disturbs.

  `outcome` computes it from the rows alone: the answer, and the rows afterwards. It knows nothing of
  locks, journals and checks at the commit; only what is drawn from the supply and read from the clock
  is given to it. `reaches_call`: whatever state others have left behind, a call that has the next seven
  turns to itself comes to its outcome, as long as no lock is held. In that state every check of the
  store passes that the outcome does not make, which is seen from the accounts of the funds.
-/

namespace UnitLedger.Ledger

open Concurrent Memory
open Concurrent.Stage
open Service

/-! ## The reference -/

/-- What is drawn from the supply and read from the clock for a call. -/
structure Generated where
  fund : Uuid
  entry : Uuid
  record : Uuid
  /-- When a fund is created or a record is appended. -/
  began : Instant
  /-- When units are moved. -/
  ended : Instant

def trimmed (name : String) : String := String.ofList (Text.trim name.toList)

def Unnameable (name : String) : Prop := name.length = 0 ∨ 255 < name.length

instance (name : String) : Decidable (Unnameable name) := inferInstanceAs (Decidable (_ ∨ _))

def movedEntry (now : Instant) (r : Transfer) (d : Entry) : Entry :=
  if d.isActiveOf r.fund r.source then Tables.repriced (d.units - r.units) now d
  else if d.isActiveOf r.fund r.target then Tables.repriced (d.units + r.units) now d
  else d

@[simp] theorem movedEntry_fund (now : Instant) (r : Transfer) (d : Entry) :
    (movedEntry now r d).fund = d.fund := by
  unfold movedEntry
  repeat' split
  all_goals rfl

/-- The rows after a record was carried out: the source and the target have new balances, a target
without an entry gets one, and the record is the last one. -/
def carriedOut (g : Generated) (t : Tables) (r : Transfer) : Tables where
  funds := t.funds
  entries := t.entries.map (movedEntry g.ended r) ++
    if t.hasActive r.fund r.target then [] else [Tables.newcomer g.entry g.ended r]
  transfers := t.transfers ++ [r]

/-- What comes of an order that has no record under its key. -/
def freshOutcome (g : Generated) (t : Tables) (o : TransferOrder) :
    Except LedgerError Transfer × Tables :=
  if t.hasFund o.fund then
    match t.activeOf o.fund o.source with
    | none => (.error (.ownerNotFound o.fund o.source), t)
    | some e =>
      if e.units < o.units then (.error (.insufficientUnits e.units o.units), t)
      else (.ok (o.record g.record g.began), carriedOut g t (o.record g.record g.began))
  else (.error (.fundNotFound o.fund), t)

/-- A committed record with the order's key answers the order: as a repetition if it moved the same units
between the same owners of the same fund, else as a conflict. -/
def orderOutcome (g : Generated) (t : Tables) (o : TransferOrder) :
    Except LedgerError Transfer × Tables :=
  match o.key.bind fun k => t.transfers.find? fun r => r.key = some k with
  | some r =>
    (if r.fund = o.fund ∧ r.source = o.source ∧ r.target = o.target ∧ r.units = o.units then .ok r
      else .error .duplicateIdempotencyKey, t)
  | none => freshOutcome g t o

def transferOutcome (g : Generated) (t : Tables) (q : TransferRequest) :
    Except LedgerError Transfer × Tables :=
  if Unnameable (trimmed q.source) ∨ Unnameable (trimmed q.target) then (.error .invalidOwner, t)
  else if q.units < 1 ∨ 2147483647 < q.units then (.error (.invalidUnits 1), t)
  else if trimmed q.source = trimmed q.target then (.error .selfTransfer, t)
  else orderOutcome g t ⟨q.fund, trimmed q.source, trimmed q.target, q.units, q.key⟩

def creationOutcome (g : Generated) (t : Tables) (name : String) (totalUnits : Int)
    (owner : String) : Except LedgerError Fund × Tables :=
  match Fund.create g.fund g.began name totalUnits with
  | .error e => (.error e, t)
  | .ok f =>
    match Entry.create g.entry g.began f.id owner totalUnits with
    | .error e => (.error e, t)
    | .ok e =>
      if t.hasFundName f.name then (.error (.duplicateFundName f.name), t)
      else (.ok f, { t with funds := t.funds ++ [f], entries := t.entries ++ [e] })

def readOutcome (t : Tables) (fund : Uuid) (reading : Reading) : Answer :=
  (t.findFund fund).elim (reading.missing fund) fun f => readAnswer t fund f reading

def outcome (g : Generated) (t : Tables) : Call → Answer × Tables
  | .createFund name totalUnits owner =>
    Prod.map .fund id (creationOutcome g t name totalUnits owner)
  | .transfer q => Prod.map .transfer id (transferOutcome g t q)
  | .getFund fund => (readOutcome t fund .fund, t)
  | .listFunds params => (.funds (.ok (.ofList t.fundListing params.window)), t)
  | .getOwnership fund owner =>
    match Name.normalize? owner with
    | none => (.entry (.error .invalidOwner), t)
    | some owner => (readOutcome t fund (.entry owner), t)
  | .getCapTable fund params => (readOutcome t fund (.capTable params), t)
  | .listTransfers fund params => (readOutcome t fund (.transfers params), t)
  | .health => (.health (.ok ()), t)
  | .reset => (.reset (.ok t.counts), {})

/-! ## Validation -/

theorem normalize?_eq (name : String) :
    Name.normalize? name = if Unnameable (trimmed name) then none else some (trimmed name) := by
  have hrefused : Text.trim name.toList = [] ∨ Name.maxLength < (Text.trim name.toList).length ↔
      Unnameable (trimmed name) := by
    simp [Unnameable, trimmed, Name.maxLength]
  rw [Name.normalize?_eq_ite]
  exact if_congr hrefused rfl rfl

theorem validate_eq (q : TransferRequest) :
    q.validate =
      if Unnameable (trimmed q.source) ∨ Unnameable (trimmed q.target) then .error .invalidOwner
      else if q.units < 1 ∨ 2147483647 < q.units then .error (.invalidUnits 1)
      else if trimmed q.source = trimmed q.target then .error .selfTransfer
      else .ok ⟨q.fund, trimmed q.source, trimmed q.target, q.units, q.key⟩ := by
  have hunits : Units.checked? q.units 1 =
      if q.units < 1 ∨ 2147483647 < q.units then none else some q.units := by
    have hgreatest : Units.greatest = 2147483647 := rfl
    have hleast : Units.least = -2147483648 := rfl
    unfold Units.checked?
    by_cases h : q.units < 1 ∨ 2147483647 < q.units
    · rw [if_pos h, if_pos (by omega)]
    · rw [if_neg h, if_neg (by omega)]
  unfold TransferRequest.validate
  rw [normalize?_eq, normalize?_eq, hunits]
  by_cases hsource : Unnameable (trimmed q.source)
  · simp [hsource]
  · by_cases htarget : Unnameable (trimmed q.target)
    · simp [hsource, htarget]
    · by_cases h : q.units < 1 ∨ 2147483647 < q.units
      · simp [hsource, htarget, h]
      · simp [hsource, htarget, h]

/-- A request that is refused changes nothing, any other comes to what its order comes to. -/
theorem transferOutcome_eq (g : Generated) (t : Tables) (q : TransferRequest) :
    transferOutcome g t q =
      match q.validate with
      | .error e => (.error e, t)
      | .ok o => orderOutcome g t o := by
  rw [validate_eq, transferOutcome]
  split
  · rfl
  · split
    · rfl
    · split <;> rfl

/-- The reference looks a key up as the store does, and compares a record as the services do. -/
theorem orderOutcome_eq (g : Generated) (t : Tables) (o : TransferOrder) :
    orderOutcome g t o =
      match o.key.bind t.findByKey with
      | some r => (if o.describes r then .ok r else .error .duplicateIdempotencyKey, t)
      | none => freshOutcome g t o := by
  have hfind : (fun k => t.transfers.find? fun r => r.key = some k) = t.findByKey := by
    funext k
    unfold Tables.findByKey
    congr 1
    funext r
    exact (beq_eq_decide ..).symm
  have hsame : ∀ r : Transfer, o.describes r = true ↔
      r.fund = o.fund ∧ r.source = o.source ∧ r.target = o.target ∧ r.units = o.units := by
    intro r
    simp only [TransferOrder.describes, Bool.and_eq_true, beq_iff_eq]
    constructor
    · intro h
      obtain ⟨⟨⟨hfund, hsource⟩, htarget⟩, hunits⟩ := h
      exact ⟨hfund.symm, hsource.symm, htarget.symm, hunits.symm⟩
    · intro h
      obtain ⟨hfund, hsource, htarget, hunits⟩ := h
      exact ⟨⟨⟨hfund.symm, hsource.symm⟩, htarget.symm⟩, hunits.symm⟩
  unfold orderOutcome
  rw [hfind]
  cases o.key.bind t.findByKey with
  | none => rfl
  | some r => simp only [hsame]

/-! ## Carrying out a record -/

theorem movedEntry_eq_adjusted {t : Tables} (wf : t.WellFormed) {e d : Entry} {r : Transfer}
    {now : Instant} (admits : t.Admits e r) (hd : d ∈ t.entries) :
    movedEntry now r d = Tables.adjusted now e r d := by
  have hof : ∀ owner, d.isActiveOf r.fund owner = true ↔ d.fund = r.fund ∧ d.owner = owner := by
    intro owner
    rw [Tables.isActiveOf_iff]
    simp [wf.active d hd]
  have hsource : d.isActiveOf r.fund r.source = true ↔ d.id = e.id := by
    rw [hof]
    constructor
    · rintro ⟨hf, ho⟩
      rw [wf.eq_of_holder hd admits.mem (hf.trans admits.fund.symm) (ho.trans admits.owner.symm)]
    · intro hid
      rw [wf.eq_of_id hd admits.mem hid]
      exact ⟨admits.fund, admits.owner⟩
  simp only [movedEntry, Tables.adjusted, hsource, hof]

theorem carriedOut_eq_settled {t : Tables} (wf : t.WellFormed) {e : Entry} {r : Transfer}
    (g : Generated) (admits : t.Admits e r) (hid : g.entry ∉ t.entryIds) :
    carriedOut g t r = t.settled g.entry g.ended e r := by
  have hmap : t.entries.map (movedEntry g.ended r) = t.entries.map (Tables.adjusted g.ended e r) :=
    List.map_congr_left fun d hd => movedEntry_eq_adjusted wf admits hd
  have hfunds : (t.settled g.entry g.ended e r).funds = t.funds := Tables.settled_funds e r
  have hentries : (t.settled g.entry g.ended e r).entries = t.entries.map (movedEntry g.ended r) ++
      if t.hasActive r.fund r.target then [] else [Tables.newcomer g.entry g.ended r] := by
    rw [Tables.settled_entries wf admits hid, hmap]
  have htransfers : (t.settled g.entry g.ended e r).transfers = t.transfers ++ [r] :=
    Tables.settled_transfers e r
  exact ((Tables.mk.injEq _ _ _ _ _ _).mpr ⟨hfunds, hentries, htransfers⟩).symm

/-! ## Stages -/

section Transfer

variable {p : Party} {w : World} {o : TransferOrder} {e : Entry} {r : Transfer}
  {Q : Answer → Tables → Nat → Prop} {n : Nat}

theorem reaches_withdrawing {err : LedgerError} (race : raceKey? o err = none)
    (done : Q (.transfer (.error err)) w.tables w.used) :
    Reaches p Q (n + 1) w (withdrawing o err) := by
  refine .turn fun now => ?_
  simp only [Stage.turn, afterFailure, race]
  exact .finished done

theorem reaches_committing (wf : w.tables.WellFormed) (hj : w.journal p = Journal.move e.id r)
    (admits : w.tables.Admits e r) (hid : w.fresh (w.used + 1) ∉ w.tables.entryIds)
    (done : ∀ now, Q (.transfer (.ok r)) (w.tables.settled (w.fresh (w.used + 1)) now e r)
      (w.used + 3)) : Reaches p Q (n + 1) w (committing o e r) := by
  refine .turn fun now => ?_
  rw [turn_committing wf hj admits hid]
  exact .finished (done now)

theorem reaches_appending (wf : w.tables.WellFormed)
    (hj : w.journal p = [.debit e.id o.units, .credit o.fund o.target o.units])
    (admits : ∀ at_, w.tables.Admits e (o.record (w.fresh w.used) at_))
    (hid : w.fresh (w.used + 2) ∉ w.tables.entryIds)
    (done : ∀ at_ now, Q (.transfer (.ok (o.record (w.fresh w.used) at_)))
      (w.tables.settled (w.fresh (w.used + 2)) now e (o.record (w.fresh w.used) at_))
      (w.used + 4)) : Reaches p Q (n + 2) w (appending o e) := by
  refine .turn fun at_ => ?_
  rw [turn_appending wf hj (admits at_)]
  exact reaches_committing (w := w.draw.1.setJournal p _) wf (World.journal_setJournal_self _)
    (admits at_) hid (done at_)

theorem reaches_debiting (wf : w.tables.WellFormed) (hmine : w.locks.Mine p) (hj : w.journal p = [])
    (admits : ∀ at_, w.tables.Admits e (o.record (w.fresh w.used) at_))
    (hid : w.fresh (w.used + 2) ∉ w.tables.entryIds)
    (done : ∀ at_ now, Q (.transfer (.ok (o.record (w.fresh w.used) at_)))
      (w.tables.settled (w.fresh (w.used + 2)) now e (o.record (w.fresh w.used) at_))
      (w.used + 4)) : Reaches p Q (n + 4) w (debiting o e) := by
  refine .turn fun _ => ?_
  rw [show (debiting o e).turn w p _ = ⟨w.setJournal p _, crediting o e, _⟩ from rfl, hj]
  refine .turn fun _ => ?_
  obtain ⟨locks, hturn⟩ :=
    turn_crediting (w := w.setJournal p ([] ++ [.debit e.id o.units])) (o := o) (e := e) hmine
  rw [hturn]
  refine reaches_appending (w := World.journalCredit { w.setJournal p _ with locks } p _ _ _) wf ?_
    admits hid done
  exact World.journal_journalCredit (World.journal_setJournal_self _)

theorem reaches_checking (hj : w.journal p = [])
    (done : Q (.transfer (.error (if w.tables.hasFund o.fund
      then .ownerNotFound o.fund o.source else .fundNotFound o.fund))) w.tables w.used) :
    Reaches p Q (n + 2) w (checking o) := by
  refine .turn fun _ => ?_
  rw [turn_checking hj]
  refine reaches_withdrawing ?_ done
  split <;> rfl

def OrderDone (w : World) (fund : Uuid) (o : TransferOrder) (a : Answer) (t : Tables) (n : Nat) :
    Prop :=
  ∃ began ended, (a, t) = Prod.map .transfer id
      (orderOutcome ⟨fund, w.fresh (w.used + 2), w.fresh w.used, began, ended⟩ w.tables o) ∧
    n ≤ w.used + 4

variable (fund : Uuid) (wf : w.tables.WellFormed) (hmine : w.locks.Mine p)

include wf hmine

theorem reaches_locking {request : TransferRequest} (accepted : o.Accepted request)
    (accounts : ∀ f ∈ w.tables.funds, ∃ first, Accounts w.tables f first) (hj : w.journal p = [])
    (hid : w.fresh (w.used + 2) ∉ w.tables.entryIds)
    (hfree : o.key.bind w.tables.findByKey = none) :
    Reaches p (OrderDone w fund o) 5 w (locking o) := by
  obtain ⟨locks, hmine', locked, hlocked, hturn⟩ := turn_locking wf hmine hj accepted.differ
  refine .turn fun now => ?_
  rw [hturn]
  cases hsource : w.tables.activeOf o.fund o.source with
  | none =>
    simp only [afterLocked, hlocked, hsource]
    refine reaches_checking (w := { w with locks }) hj ⟨⟨0⟩, ⟨0⟩, ?_, Nat.le_add_right _ _⟩
    simp only [orderOutcome_eq, hfree, freshOutcome, hsource]
    split <;> rfl
  | some e =>
    obtain ⟨hmem, hfund, howner, -⟩ := Tables.mem_of_activeOf hsource
    have hhas : w.tables.hasFund o.fund = true := hfund ▸ wf.funds e hmem
    by_cases hshort : e.units < o.units
    · simp only [afterLocked, hlocked, hsource, if_pos hshort]
      refine reaches_withdrawing (w := { w with locks }) rfl ⟨⟨0⟩, ⟨0⟩, ?_, Nat.le_add_right _ _⟩
      simp only [orderOutcome_eq, hfree, freshOutcome, hhas, hsource, if_pos hshort]
      rfl
    · simp only [afterLocked, hlocked, hsource, if_neg hshort]
      have hpositive : 0 < o.units := accepted.positive
      obtain ⟨f, hf, hfid⟩ := Tables.hasFund_iff.mp hhas
      obtain ⟨first, acc⟩ := accounts f hf
      have hunused : ∀ k, o.key = some k → w.tables.findByKey k = none := by
        intro k hk
        rwa [hk] at hfree
      have admits : ∀ id at_, w.tables.Admits e (o.record id at_) := fun id at_ =>
        acc.admits wf hmem (hfund.trans hfid.symm) hfid.symm howner accepted.differ hpositive
          (Int.not_lt.mp hshort) hunused
      refine reaches_debiting (w := { w with locks }) wf hmine' hj (admits _) hid fun at_ now =>
        ⟨at_, now, ?_, Nat.le_refl _⟩
      simp only [orderOutcome_eq, hfree, freshOutcome, hhas, hsource, if_neg hshort, if_true]
      rw [carriedOut_eq_settled wf _ (admits _ at_) hid]
      rfl

/-- An accepted order comes to its outcome. -/
theorem reaches_opening {request : TransferRequest} (accepted : o.Accepted request)
    (accounts : ∀ f ∈ w.tables.funds, ∃ first, Accounts w.tables f first)
    (hid : w.fresh (w.used + 2) ∉ w.tables.entryIds) :
    Reaches p (OrderDone w fund o) 7 w (opening o) := by
  have hj : (w.setJournal p []).journal p = [] := World.journal_setJournal_self _
  have hlocking : o.key.bind w.tables.findByKey = none →
      Reaches p (OrderDone w fund o) 5 (w.setJournal p []) (locking o) := fun hfree =>
    reaches_locking (w := w.setJournal p []) fund wf hmine accepted accounts hj hid hfree
  refine .turn fun _ => ?_
  simp only [Stage.turn, afterOpening]
  cases hkey : o.key with
  | none => exact (hlocking (by rw [hkey]; rfl)).mono (by omega)
  | some k =>
    refine .turn fun _ => ?_
    rw [turn_looking hj]
    show Reaches p _ 5 _ (afterLookup o (w.tables.findByKey k))
    cases hfound : w.tables.findByKey k with
    | none => exact hlocking (by rw [hkey]; exact hfound)
    | some r =>
      have hbind : o.key.bind w.tables.findByKey = some r := by rw [hkey]; exact hfound
      simp only [afterLookup, TransferOrder.replay]
      cases hsame : o.describes r with
      | true =>
        refine .turn fun _ => .finished ⟨⟨0⟩, ⟨0⟩, ?_, Nat.le_add_right _ _⟩
        simp only [orderOutcome_eq, hbind, hsame]
        rfl
      | false =>
        refine reaches_withdrawing rfl ⟨⟨0⟩, ⟨0⟩, ?_, Nat.le_add_right _ _⟩
        simp only [orderOutcome_eq, hbind, hsame]
        rfl

end Transfer

section Creation

variable {p : Party} {w : World} {f : Fund} {e : Entry} {Q : Answer → Tables → Nat → Prop} {n : Nat}

/-- The creation of a fund comes to its outcome. -/
theorem reaches_openingFund (wf : w.tables.WellFormed) (hfund : e.fund = f.id) (hunits : 0 ≤ e.units)
    (hid : w.tables.hasFund f.id = false)
    (taken : w.tables.hasFundName f.name = true →
      Q (.fund (.error (.duplicateFundName f.name))) w.tables w.used)
    (done : w.tables.hasFundName f.name = false →
      Q (.fund (.ok f)) (w.tables.founded f e) (w.used + 2)) :
    Reaches p Q (n + 4) w (openingFund f e) := by
  have hj : ∀ j, (w.setJournal p j).journal p = j := World.journal_setJournal_self
  refine .turn fun _ => ?_
  show Reaches p Q _ (w.setJournal p []) (insertingFund f e)
  refine .turn fun _ => ?_
  rw [turn_insertingFund (hj [])]
  cases hname : w.tables.hasFundName f.name with
  | true =>
    rw [if_pos (show (w.setJournal p []).tables.hasFundName f.name = true from hname)]
    refine .turn fun _ => ?_
    exact .finished (taken hname)
  | false =>
    have hfree : (w.setJournal p []).tables.hasFundName f.name = false := hname
    rw [hfree, if_neg Bool.false_ne_true]
    refine .turn fun _ => ?_
    rw [turn_insertingEntry (w := (w.setJournal p []).setJournal p _) wf
      (World.journal_setJournal_self _) hfund hid]
    refine .turn fun _ => ?_
    rw [turn_committingFund (w := ((w.setJournal p []).setJournal p _).setJournal p _) wf
      (World.journal_setJournal_self _) hfund hunits hid hname]
    exact .finished (done hname)

end Creation

/-! ## Calls -/

theorem reaches_reading {p : Party} {w : World} {fund : Uuid} (reading : Reading)
    {Q : Answer → Tables → Nat → Prop} {n : Nat}
    (done : Q (readOutcome w.tables fund reading) w.tables w.used) :
    Reaches p Q (n + 2) w (findingFund fund reading) := by
  refine .turn fun _ => ?_
  simp only [Stage.turn]
  revert done
  unfold readOutcome
  cases w.tables.findFund fund with
  | none =>
    intro done
    cases reading <;> exact .finished done
  | some f =>
    intro done
    cases reading with
    | fund => exact .finished done
    | entry owner => exact .turn fun _ => .finished done
    | capTable params => exact .turn fun _ => .finished done
    | transfers params => exact .turn fun _ => .finished done

/-- The call has come to its outcome, with ids that no row had before, and with at most this many ids
drawn. -/
def CallDone (t : Tables) (limit : Nat) (fund : Uuid) (call : Call) (a : Answer) (t' : Tables)
    (n : Nat) : Prop :=
  ∃ g : Generated, g.fund = fund ∧ (∀ id ∈ [g.fund, g.entry, g.record], id ∉ t.ids) ∧
    (a, t') = outcome g t call ∧ n ≤ limit

section Call

variable {p : Party} {w : World} {fund entry : Uuid}

structure NextNew (w : World) (fund entry : Uuid) : Prop where
  fund : fund ∉ w.tables.ids
  entry : entry ∉ w.tables.ids
  record : w.fresh w.used ∉ w.tables.ids
  newcomer : w.fresh (w.used + 2) ∉ w.tables.ids

theorem entryIds_subset_ids {t : Tables} {id : Uuid} (h : id ∉ t.ids) : id ∉ t.entryIds :=
  fun hmem => h (List.mem_append_left _ (List.mem_append_right _ hmem))

theorem hasFund_of_not_mem_ids {t : Tables} {id : Uuid} (h : id ∉ t.ids) : t.hasFund id = false := by
  rw [← Bool.not_eq_true, Tables.hasFund_iff]
  intro hmem
  exact h (Tables.mem_ids.mpr (Or.inl hmem))

/-- A call that changes no row has come to its outcome whatever was drawn for it. -/
theorem callDone_of_unchanged (new : NextNew w fund entry) {call : Call} {a : Answer}
    (h : ∀ g : Generated, g.fund = fund → outcome g w.tables call = (a, w.tables)) :
    CallDone w.tables (w.used + 4) fund call a w.tables w.used := by
  refine ⟨⟨fund, entry, w.fresh w.used, ⟨0⟩, ⟨0⟩⟩, rfl, ?_, (h _ rfl).symm, Nat.le_add_right _ _⟩
  simp [new.fund, new.entry, new.record]

theorem reaches_transfer (wf : w.tables.WellFormed) (hmine : w.locks.Mine p)
    (accounts : ∀ f ∈ w.tables.funds, ∃ first, Accounts w.tables f first)
    (new : NextNew w fund entry) (now : Instant) (q : TransferRequest) :
    Reaches p (CallDone w.tables (w.used + 4) fund (.transfer q)) 7 w
      (Stage.start fund entry now (.transfer q)) := by
  simp only [Stage.start]
  cases hvalid : q.validate with
  | error e =>
    refine .finished (callDone_of_unchanged new fun g _ => ?_)
    simp only [outcome, transferOutcome_eq, hvalid]
    rfl
  | ok o =>
    refine (reaches_opening fund wf hmine (TransferOrder.accepted hvalid) accounts
      (entryIds_subset_ids new.newcomer)).imp ?_
    rintro a t n ⟨began, ended, hdone, hused⟩
    refine ⟨⟨fund, w.fresh (w.used + 2), w.fresh w.used, began, ended⟩, rfl, ?_, hdone.trans ?_,
      hused⟩
    · simp [new.fund, new.newcomer, new.record]
    · simp only [outcome, transferOutcome_eq, hvalid]

theorem reaches_createFund (wf : w.tables.WellFormed) (new : NextNew w fund entry) (now : Instant)
    (name : String) (totalUnits : Int) (owner : String) :
    Reaches p (CallDone w.tables (w.used + 4) fund (.createFund name totalUnits owner)) 7 w
      (Stage.start fund entry now (.createFund name totalUnits owner)) := by
  have hids : ∀ id ∈ [fund, entry, w.fresh w.used], id ∉ w.tables.ids := by
    simp [new.fund, new.entry, new.record]
  have hdone : ∀ {a t n}, n ≤ w.used + 4 →
      (a, t) = outcome ⟨fund, entry, w.fresh w.used, now, now⟩ w.tables
        (.createFund name totalUnits owner) →
      CallDone w.tables (w.used + 4) fund (.createFund name totalUnits owner) a t n :=
    fun hn heq => ⟨_, rfl, hids, heq, hn⟩
  simp only [Stage.start]
  cases hf : Fund.create fund now name totalUnits with
  | error e =>
    refine .finished (hdone (Nat.le_add_right _ _) ?_)
    simp only [outcome, creationOutcome, hf]
    rfl
  | ok f =>
    have facc := Fund.accepted hf
    dsimp only
    cases he : Entry.create entry now f.id owner totalUnits with
    | error e =>
      refine .finished (hdone (Nat.le_add_right _ _) ?_)
      simp only [outcome, creationOutcome, hf, he]
      rfl
    | ok e =>
      have eacc := Entry.accepted he
      have hnone : w.tables.hasFund f.id = false := facc.id ▸ hasFund_of_not_mem_ids new.fund
      have hentry : e.id ∉ w.tables.entryIds := eacc.id ▸ entryIds_subset_ids new.entry
      refine reaches_openingFund wf eacc.fund eacc.nonneg hnone (fun hname => ?_) fun hname => ?_
      · refine hdone (Nat.le_add_right _ _) ?_
        simp only [outcome, creationOutcome, hf, he, hname]
        rfl
      · refine hdone (by omega) ?_
        have hrows : w.tables.founded f e =
            { w.tables with funds := w.tables.funds ++ [f], entries := w.tables.entries ++ [e] } := by
          rw [← Tables.founded_entries (f := f) hentry]
          rfl
        simp only [outcome, creationOutcome, hf, he, hname, hrows]
        rfl

theorem reaches_call (wf : w.tables.WellFormed) (hmine : w.locks.Mine p)
    (accounts : ∀ f ∈ w.tables.funds, ∃ first, Accounts w.tables f first)
    (new : NextNew w fund entry) (now : Instant) (call : Call) :
    Reaches p (CallDone w.tables (w.used + 4) fund call) 7 w (Stage.start fund entry now call) := by
  cases call with
  | createFund name totalUnits owner => exact reaches_createFund wf new now name totalUnits owner
  | transfer q => exact reaches_transfer wf hmine accounts new now q
  | getFund f | getCapTable f params | listTransfers f params =>
    exact reaches_reading _ (callDone_of_unchanged new fun _ _ => rfl)
  | getOwnership f owner =>
    simp only [Stage.start]
    cases hname : Name.normalize? owner with
    | none =>
      refine .finished (callDone_of_unchanged new fun _ _ => ?_)
      simp only [outcome, hname]
    | some stored =>
      refine reaches_reading _ (callDone_of_unchanged new fun _ _ => ?_)
      simp only [outcome, hname]
  | listFunds params | health =>
    exact .turn fun _ => .finished (callDone_of_unchanged new fun _ _ => rfl)
  | reset =>
    refine .turn fun _ => .finished ⟨⟨fund, entry, w.fresh w.used, ⟨0⟩, ⟨0⟩⟩, rfl, ?_, rfl, ?_⟩
    · simp [new.fund, new.entry, new.record]
    · exact Nat.le_add_right _ _

end Call

/-! ## Runs -/

/-- What a call comes to that arrives where no lock is held and has the next turns to itself. -/
theorem undisturbed_call {fresh : Nat → Uuid} {es : List Event} {p : Party} {call : Call}
    {now : Instant} {s s' : System Stage} (hs : s = (System.opened fresh {}).run stages es)
    (hids : DistinctIds fresh (s.world.used + 6)) (unlocked : s.world.locks.held = [])
    (hnew : s.caller p = none) (turns : List Instant)
    (hs' : s' = (System.opened fresh {}).run stages
      (es ++ .call p call now :: turns.map (Event.turn p))) :
    (∃ a, s'.answer? stages p = some a ∧
      CallDone s.world.tables (s.world.used + 6) (fresh s.world.used) call a s'.world.tables
        s'.world.used) ∨
    (s'.answer? stages p = none ∧ turns.length < 7) := by
  have hused : DistinctIds fresh ((System.opened fresh {}).run stages es).world.used :=
    hs ▸ hids.mono (Nat.le_add_right _ 6)
  obtain ⟨sound, conserved⟩ : Sound s ∧ Conserved s := hs ▸ conserved_run es hused
  have unshared : Unshared s := hs ▸ unshared_run es hused
  have hfresh : s.world.fresh = fresh := by
    rw [hs, System.run_fresh]
    rfl
  have hnext : ∀ i < 6, s.world.fresh (s.world.used + i) ∉ s.world.tables.ids := by
    intro i hi hmem
    rw [← hfresh] at hids
    exact hids.not_drawn (Nat.le_add_right _ _) (by omega) (unshared.rows _ hmem)
  have hmine : s.world.locks.Mine p := by
    intro l hl
    rw [unlocked] at hl
    cases hl
  have accounts : ∀ f ∈ s.world.tables.funds, ∃ first, Accounts s.world.tables f first := by
    intro f hf
    obtain ⟨first, -, acc⟩ := conserved.accounts f hf
    exact ⟨first, acc⟩
  have new : NextNew (System.arrived s.world) (fresh s.world.used) (fresh (s.world.used + 1)) :=
    ⟨hfresh ▸ hnext 0 (by omega), hfresh ▸ hnext 1 (by omega), hnext 2 (by omega),
      hnext 4 (by omega)⟩
  exact Reaches.answers hs hnew
    (reaches_call (w := System.arrived s.world) sound.tables hmine accounts new now call) turns hs'

/-- The store fails no transfer that comes to its outcome. -/
theorem transferOutcome_ne_store (g : Generated) (t : Tables) (q : TransferRequest) (err : StoreError) :
    (transferOutcome g t q).1 ≠ .error (.store err) := by
  have horder : ∀ o, (orderOutcome g t o).1 ≠ .error (.store err) := by
    intro o
    unfold orderOutcome freshOutcome
    repeat' split
    all_goals simp
  unfold transferOutcome
  split
  · simp
  · split
    · simp
    · split
      · simp
      · exact horder _

theorem CallDone.transfer {t t' : Tables} {limit n : Nat} {fund : Uuid} {q : TransferRequest}
    {a : Answer} (h : CallDone t limit fund (.transfer q) a t' n) :
    ∃ g r, a = .transfer r ∧ (r, t') = transferOutcome g t q ∧
      (∀ id ∈ [g.entry, g.record], id ∉ t.ids) ∧ ∀ err, r ≠ .error (.store err) := by
  obtain ⟨g, -, hids, hdone, -⟩ := h
  have hstore := transferOutcome_ne_store g t q
  rcases hout : transferOutcome g t q with ⟨r, rows⟩
  rw [hout] at hstore
  simp only [outcome, hout, Prod.map_apply, id, Prod.mk.injEq] at hdone
  obtain ⟨rfl, rfl⟩ := hdone
  exact ⟨g, r, rfl, hout.symm, fun id hid => hids id (List.mem_cons_of_mem _ hid), hstore⟩

/-- Whatever calls and resets have come before, in any order and however far each of them got: a transfer
that arrives while no transaction is open, and has the next seven turns to itself, comes to its
outcome. -/
theorem transfer_meets_reference {fresh : Nat → Uuid} {es : List Event} {p : Party}
    {q : TransferRequest} {now : Instant} {turns : List Instant}
    (hids : DistinctIds fresh ((ledger fresh es).world.used + 6))
    (hidle : (ledger fresh es).world.journals = []) (hnew : (ledger fresh es).caller p = none)
    (hturns : 7 ≤ turns.length) :
    ∃ g r, (ledger fresh (es ++ .call p (.transfer q) now :: turns.map (Event.turn p))).answer?
        programs p = some (.transfer r) ∧
      (r, (ledger fresh (es ++ .call p (.transfer q) now :: turns.map (Event.turn p))).world.tables) =
        transferOutcome g (ledger fresh es).world.tables q ∧
      (∀ id ∈ [g.entry, g.record], id ∉ (ledger fresh es).world.tables.ids) ∧
      ∀ err, r ≠ .error (.store err) := by
  obtain ⟨s, hs⟩ : ∃ s, s = (System.opened fresh {}).run stages es := ⟨_, rfl⟩
  obtain ⟨s', hs'⟩ : ∃ s', s' = (System.opened fresh {}).run stages
    (es ++ .call p (.transfer q) now :: turns.map (Event.turn p)) := ⟨_, rfl⟩
  have hbefore : ledger fresh es = s.map Stage.status := by rw [hs, ledger_eq_stages]
  have hafter : ledger fresh (es ++ .call p (.transfer q) now :: turns.map (Event.turn p)) =
      s'.map Stage.status := by rw [hs', ledger_eq_stages]
  rw [hbefore] at hids hidle hnew
  rw [hbefore, hafter, System.answer?_map]
  have enclosed : Enclosed s := hs ▸ enclosed_run fresh {} es
  have hnew' : s.caller p = none := by simpa [System.map] using hnew
  rcases undisturbed_call hs hids (enclosed.unlocked hidle) hnew' turns hs' with
    ⟨a, hans, hdone⟩ | ⟨-, hshort⟩
  · obtain ⟨g, r, rfl, hrest⟩ := hdone.transfer
    exact ⟨g, r, hans, hrest⟩
  · omega

/-- Ada, who has all ten units of a fund, gives Ben four. The same request once more is answered the same
record; another one under its key is refused. -/
theorem gift_meets_reference :
    let founded : List Event :=
      .call 0 (.createFund "Hull" 10 "Ada") ⟨0⟩ :: List.replicate 4 (.turn 0 ⟨1⟩)
    let gift : TransferRequest := ⟨Uuid.ofNat 0, " Ada ", "Ben", 4, some (Uuid.ofNat 77)⟩
    let larger : TransferRequest := { gift with units := 5 }
    let record : Transfer :=
      ⟨Uuid.ofNat 6, Uuid.ofNat 0, "Ada", "Ben", 4, some (Uuid.ofNat 77), ⟨3⟩⟩
    let turns : List Instant := List.replicate 7 ⟨3⟩
    let given := founded ++ .call 1 (.transfer gift) ⟨2⟩ :: turns.map (Event.turn 1)
    let s := ledger Uuid.ofNat founded
    let s' := ledger Uuid.ofNat given
    let again := ledger Uuid.ofNat (given ++ .call 2 (.transfer gift) ⟨2⟩ :: turns.map (Event.turn 2))
    let other := ledger Uuid.ofNat (given ++ .call 2 (.transfer larger) ⟨2⟩ :: turns.map (Event.turn 2))
    (DistinctIds Uuid.ofNat (s.world.used + 6) ∧ s.world.journals = [] ∧ (s.caller 1).isNone ∧
      7 ≤ turns.length) ∧
    (DistinctIds Uuid.ofNat (s'.world.used + 6) ∧ s'.world.journals = [] ∧ (s'.caller 2).isNone) ∧
    (s'.answer? programs 1 = some (.transfer (.ok record)) ∧
      ∃ g a, s'.answer? programs 1 = some (.transfer a) ∧
        (a, s'.world.tables) = transferOutcome g s.world.tables gift ∧
        (∀ id ∈ [g.entry, g.record], id ∉ s.world.tables.ids) ∧ ∀ err, a ≠ .error (.store err)) ∧
    (again.answer? programs 2 = some (.transfer (.ok record)) ∧
      ∃ g a, again.answer? programs 2 = some (.transfer a) ∧
        (a, again.world.tables) = transferOutcome g s'.world.tables gift ∧
        (∀ id ∈ [g.entry, g.record], id ∉ s'.world.tables.ids) ∧ ∀ err, a ≠ .error (.store err)) ∧
    other.answer? programs 2 = some (.transfer (.error .duplicateIdempotencyKey)) ∧
      ∃ g a, other.answer? programs 2 = some (.transfer a) ∧
        (a, other.world.tables) = transferOutcome g s'.world.tables larger ∧
        (∀ id ∈ [g.entry, g.record], id ∉ s'.world.tables.ids) ∧ ∀ err, a ≠ .error (.store err) := by
  intro founded gift larger record turns given s s' again other
  have hids : DistinctIds Uuid.ofNat (s.world.used + 6) := by decide +kernel
  have hidle : s.world.journals = [] := by decide +kernel
  have hnew : (s.caller 1).isNone := by decide +kernel
  have hids' : DistinctIds Uuid.ofNat (s'.world.used + 6) := by decide +kernel
  have hidle' : s'.world.journals = [] := by decide +kernel
  have hnew' : (s'.caller 2).isNone := by decide +kernel
  refine ⟨⟨hids, hidle, hnew, by decide⟩, ⟨hids', hidle', hnew'⟩, ⟨by decide +kernel, ?_⟩,
    ⟨by decide +kernel, ?_⟩, by decide +kernel, ?_⟩
  · exact transfer_meets_reference hids hidle (Option.isNone_iff_eq_none.mp hnew) (by decide)
  · exact transfer_meets_reference hids' hidle' (Option.isNone_iff_eq_none.mp hnew') (by decide)
  · exact transfer_meets_reference hids' hidle' (Option.isNone_iff_eq_none.mp hnew') (by decide)

end UnitLedger.Ledger
