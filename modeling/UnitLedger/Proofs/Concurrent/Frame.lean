import UnitLedger.Proofs.Concurrent.Move
import UnitLedger.Proofs.Memory.Settlement

/-!
  UnitLedger.Proofs.Concurrent.Frame — what a move leaves alone.

  A move of one party leaves the journals of all others alone, never changes the supply of ids and
  never gives an id back (`Frame`). The tables change in three kinds of moves only: when a transfer
  commits, when a creation commits, and in a reset (`Move.tables`). What a stage knows of its call,
  the order of a transfer or the rows of a creation, it keeps, and the journal of a party in its
  transaction is the one that its stage tells (`Move.journal?`).
-/

namespace UnitLedger.Memory.World

variable {w w' : World} {p q : Party}

/-! ## Journals -/

theorem lookup_filter_ne {α : Type} (l : List (Party × α)) (h : q ≠ p) :
    (l.filter fun x => x.1 != p).lookup q = l.lookup q := by
  induction l with
  | nil => rfl
  | cons x l ih =>
    obtain ⟨r, a⟩ := x
    by_cases hr : r = p
    · subst hr
      have hqr : (q == r) = false := by simpa using h
      simp [List.lookup_cons, hqr, ih]
    · simp [List.lookup_cons, hr, ih]

theorem lookup_setJournal_self (w : World) (p : Party) (j : Journal) :
    (w.setJournal p j).journals.lookup p = some j := by
  simp [setJournal]

theorem lookup_setJournal_ne (j : Journal) (h : q ≠ p) :
    (w.setJournal p j).journals.lookup q = w.journals.lookup q := by
  have hqp : (q == p) = false := by simpa using h
  simp [setJournal, List.lookup_cons, hqp, lookup_filter_ne _ h]

theorem lookup_closeTx_self (w : World) (p : Party) : (w.closeTx p).journals.lookup p = none := by
  rw [List.lookup_eq_none_iff]
  intro x hx
  have hne : x.1 ≠ p := by simpa using (List.mem_filter.mp hx).2
  simpa using Ne.symm hne

theorem lookup_closeTx_ne (h : q ≠ p) : (w.closeTx p).journals.lookup q = w.journals.lookup q :=
  lookup_filter_ne _ h

@[simp] theorem journal_setJournal_self (j : Journal) : (w.setJournal p j).journal p = j := by
  rw [journal, lookup_setJournal_self]
  rfl

theorem journal_setJournal_ne (j : Journal) (h : q ≠ p) :
    (w.setJournal p j).journal q = w.journal q := by
  rw [journal, lookup_setJournal_ne j h]
  rfl

theorem journal_closeTx_self (w : World) (p : Party) : (w.closeTx p).journal p = [] := by
  rw [journal, lookup_closeTx_self]
  rfl

theorem journal_closeTx_ne (h : q ≠ p) : (w.closeTx p).journal q = w.journal q := by
  rw [journal, lookup_closeTx_ne h]
  rfl

structure Frame (p : Party) (w w' : World) : Prop where
  fresh : w'.fresh = w.fresh
  used : w.used ≤ w'.used
  journals : ∀ q, q ≠ p → w'.journal q = w.journal q

theorem Frame.refl (p : Party) (w : World) : Frame p w w := ⟨rfl, Nat.le_refl _, fun _ _ => rfl⟩

theorem Frame.trans {w₁ w₂ w₃ : World} (h : Frame p w₁ w₂) (h' : Frame p w₂ w₃) :
    Frame p w₁ w₃ :=
  ⟨h'.fresh.trans h.fresh, Nat.le_trans h.used h'.used,
    fun q hq => (h'.journals q hq).trans (h.journals q hq)⟩

theorem Frame.setJournal (j : Journal) : Frame p w (w.setJournal p j) :=
  ⟨rfl, Nat.le_refl _, fun _ hq => journal_setJournal_ne j hq⟩

theorem Frame.closeTx : Frame p w (w.closeTx p) :=
  ⟨rfl, Nat.le_refl _, fun _ hq => journal_closeTx_ne hq⟩

theorem Frame.locks (locks : RowLocks) : Frame p w { w with locks } :=
  ⟨rfl, Nat.le_refl _, fun _ _ => rfl⟩

theorem Frame.commitTx (now : Instant) : Frame p w (w.commitTx p now).1 := by
  have hdone : Frame p w { w with
      tables := (w.tables.commit (fun n => w.fresh (w.used + n)) now (w.journal p)).1
      used := w.used + (w.journal p).length } := ⟨rfl, Nat.le_add_right _ _, fun _ _ => rfl⟩
  exact hdone.trans .closeTx

/-- Locking rows changes nothing but locks. -/
theorem lockRows_locks (fund : Uuid) (owners : List String) (w : World) (locked : List Entry) :
    ∃ locks, (lockRows p fund w owners locked).1 = { w with locks } := by
  induction owners generalizing w locked with
  | nil => exact ⟨w.locks, rfl⟩
  | cons owner rest ih =>
    unfold lockRows
    cases w.tables.activeOf fund owner with
    | none => exact ih w _
    | some e =>
      dsimp only
      obtain ⟨locks, _ | _⟩ := w.locks.acquire p e.id
      · exact ⟨locks, rfl⟩
      · exact ih { w with locks } _

end UnitLedger.Memory.World

namespace UnitLedger.Concurrent.Stage

open Memory (Party World Journal Tables Violation)
open Store (Op)

variable {w w' : World} {p : Party} {now : Instant} {σ σ' : Stage} {answered : Option Op}

/-! ## The world -/

theorem lockRun_locks {o : TransferOrder} {r : LockResult} (h : σ.lockRun w p = some (o, w', r)) :
    ∃ locks, w' = { w with locks } := by
  obtain ⟨owners, first, run⟩ := lockRun_rows h
  have hlocks := World.lockRows_locks (p := p) o.fund owners w first
  rwa [run] at hlocks

theorem Move.frame (h : Move w p now σ w' σ' answered) : World.Frame p w w' := by
  cases h with
  | openKeyless | openKeyed | debit | creditNew | creditGo | reopen | openFund | insertFund
  | insertEntry => exact .setJournal _
  | lockNone run | lockShort run | lockEnough run | lockError run | lockPause run =>
    obtain ⟨locks, rfl⟩ := lockRun_locks run
    exact .locks locks
  | lockGiveUp | creditGiveUp | creditPause => exact .locks _
  | creditLocked => exact (World.Frame.locks _).trans (.setJournal _)
  | append =>
    have hdraw : World.Frame p w w.draw.1 := ⟨rfl, Nat.le_succ _, fun _ _ => rfl⟩
    exact hdraw.trans (.setJournal _)
  | commit | commitRefused | commitBeaten | commitFund | commitFundRefused => exact .commitTx now
  | repeated | withdraw | withdrawBeaten | judge | undoFund => exact .closeTx
  | reset => exact ⟨rfl, Nat.le_refl _, fun _ _ => rfl⟩
  | _ => exact .refl _ _

def tablesAfter (w : World) (p : Party) (now : Instant) : Stage → Tables
  | committing _ _ _ | committingFund _ _ =>
    (w.tables.commit (fun n => w.fresh (w.used + n)) now (w.journal p)).1
  | resetting => {}
  | _ => w.tables

theorem tablesAfter_lockRun {o : TransferOrder} {r : World × LockResult}
    (h : σ.lockRun w p = some (o, r)) : σ.tablesAfter w p now = w.tables := by
  cases lockRun_cases h <;> rfl

theorem Move.tables (h : Move w p now σ w' σ' answered) : w'.tables = σ.tablesAfter w p now := by
  cases h with
  | lockNone run | lockShort run | lockEnough run | lockError run | lockPause run =>
    obtain ⟨locks, rfl⟩ := lockRun_locks run
    exact (tablesAfter_lockRun run).symm
  | _ => rfl

/-! ## What a stage knows of its call -/

def order? : Stage → Option TransferOrder
  | opening o | looking o _ | locking o | lockWaiting o _ _ _ | checking o | debiting o _
  | crediting o _ | creditWaiting o _ | appending o _ | committing o _ _ | repeating o _
  | withdrawing o _ | reopening o _ | relooking o _ | judging o _ _ => some o
  | _ => none

def founding? : Stage → Option (Fund × Entry)
  | openingFund f e | insertingFund f e | insertingEntry f e | committingFund f e
  | undoingFund f e _ => some (f, e)
  | _ => none

def source? : Stage → Option (TransferOrder × Entry)
  | debiting o source | crediting o source | creditWaiting o source | appending o source
  | committing o source _ => some (o, source)
  | _ => none

def journal? : Stage → Option Journal
  | looking _ _ | locking _ | lockWaiting _ _ _ _ | checking _ | debiting _ _ | relooking _ _
  | insertingFund _ _ => some []
  | crediting o source | creditWaiting o source => some [.debit source.id o.units]
  | appending o source => some [.debit source.id o.units, .credit o.fund o.target o.units]
  | committing _ source record => some (Journal.move source.id record)
  | insertingEntry f _ => some [.fund f]
  | committingFund f e => some (Journal.founding f e)
  | _ => none

theorem lockRun_order? {o : TransferOrder} {r : World × LockResult}
    (h : σ.lockRun w p = some (o, r)) : σ.order? = some o := by
  cases lockRun_cases h <;> rfl

theorem lockRun_journal? {o : TransferOrder} {r : World × LockResult}
    (h : σ.lockRun w p = some (o, r)) : σ.journal? = some [] := by
  cases lockRun_cases h <;> rfl

/-- A transfer keeps its order. -/
theorem Move.order? (h : Move w p now σ w' σ' answered) {o : TransferOrder}
    (ho : σ'.order? = some o) : σ.order? = some o := by
  cases h with
  | lockNone run | lockShort run | lockEnough run | lockError run | lockPause run =>
    cases ho
    exact lockRun_order? run
  | _ => first | exact ho | cases ho

/-- A creation keeps its rows. -/
theorem Move.founding? (h : Move w p now σ w' σ' answered) {rows : Fund × Entry}
    (hr : σ'.founding? = some rows) : σ.founding? = some rows := by
  cases h <;> first | exact hr | cases hr

theorem start_order? {fundId entryId : Uuid} {c : Call} {o : TransferOrder}
    (h : (start fundId entryId now c).order? = some o) :
    ∃ request, c = .transfer request ∧ request.validate = .ok o := by
  cases c with
  | transfer request =>
    simp only [start] at h
    split at h
    · cases h
    · rename_i o' hvalid
      cases h
      exact ⟨request, rfl, hvalid⟩
  | createFund name totalUnits owner =>
    simp only [start] at h
    repeat' split at h
    all_goals cases h
  | getOwnership fund owner =>
    simp only [start] at h
    split at h <;> cases h
  | _ => cases h

theorem start_founding? {fundId entryId : Uuid} {c : Call} {f : Fund} {e : Entry}
    (h : (start fundId entryId now c).founding? = some (f, e)) :
    ∃ name totalUnits owner, c = .createFund name totalUnits owner ∧
      Fund.create fundId now name totalUnits = .ok f ∧
      Entry.create entryId now f.id owner totalUnits = .ok e := by
  cases c with
  | transfer request =>
    simp only [start] at h
    split at h <;> cases h
  | createFund name totalUnits owner =>
    simp only [start] at h
    split at h
    · cases h
    · rename_i f' hf
      split at h
      · cases h
      · rename_i e' he
        cases h
        exact ⟨name, totalUnits, owner, rfl, hf, he⟩
  | getOwnership fund owner =>
    simp only [start] at h
    split at h <;> cases h
  | _ => cases h

/-- No call begins inside a transaction. -/
theorem start_journal? {fundId entryId : Uuid} (c : Call) :
    (start fundId entryId now c).journal? = none := by
  cases c with
  | transfer request =>
    simp only [start]
    split <;> rfl
  | createFund name totalUnits owner =>
    simp only [start]
    repeat' split
    all_goals rfl
  | getOwnership fund owner =>
    simp only [start]
    split <;> rfl
  | _ => rfl

/-! ## Journals -/

theorem addFund_ok {j j' : Journal} {t : Tables} {f : Fund} (h : j.addFund t f = .ok j') :
    j' = j ++ [.fund f] := by
  unfold Journal.addFund at h
  split at h
  · cases h
  · cases h
    rfl

theorem addEntry_ok {j j' : Journal} {t : Tables} {e : Entry} (h : j.addEntry t e = .ok j') :
    j' = j ++ [.entry e] := by
  unfold Journal.addEntry at h
  repeat (split at h; · cases h)
  cases h
  rfl

theorem addTransfer_ok {j j' : Journal} {t : Tables} {r : Transfer}
    (h : j.addTransfer t r = .ok j') : j' = j ++ [.transfer r] := by
  unfold Journal.addTransfer at h
  repeat (split at h; · cases h)
  cases h
  rfl

/-- The journal of a party in its transaction is the one that its stage tells. -/
theorem Move.journal? (h : Move w p now σ w' σ' answered)
    (hj : ∀ j, σ.journal? = some j → w.journal p = j) {j : Journal} (hj' : σ'.journal? = some j) :
    w'.journal p = j := by
  cases h with
  | openKeyless | openKeyed | reopen | openFund =>
    rw [World.journal_setJournal_self]
    exact Option.some.inj hj'
  | lookFresh => exact (hj _ rfl).trans (Option.some.inj hj')
  | lockNone run | lockEnough run | lockPause run =>
    obtain ⟨locks, rfl⟩ := lockRun_locks run
    exact (hj _ (lockRun_journal? run)).trans (Option.some.inj hj')
  | debit =>
    rw [World.journal_setJournal_self, hj _ rfl]
    exact Option.some.inj hj'
  | creditNew | creditGo =>
    rw [World.journalCredit, World.journal_setJournal_self, hj _ rfl]
    exact Option.some.inj hj'
  | @creditLocked _ _ _ locks =>
    have hsame : ({ w with locks } : World).journal p = w.journal p := rfl
    rw [World.journalCredit, World.journal_setJournal_self, hsame, hj _ rfl]
    exact Option.some.inj hj'
  | creditPause => exact (hj _ rfl).trans (Option.some.inj hj')
  | append accepted =>
    rw [World.journal_setJournal_self, addTransfer_ok accepted, hj _ rfl]
    exact Option.some.inj hj'
  | insertFund accepted =>
    rw [World.journal_setJournal_self, addFund_ok accepted, hj _ rfl]
    exact Option.some.inj hj'
  | insertEntry accepted =>
    rw [World.journal_setJournal_self, addEntry_ok accepted, hj _ rfl]
    exact Option.some.inj hj'
  | _ => cases hj'

/-- Who goes on to debit a source took it from the rows that were just locked. -/
theorem Move.source? (h : Move w p now σ w' σ' answered) {o : TransferOrder} {e : Entry}
    (hs : σ'.source? = some (o, e)) :
    σ.source? = some (o, e) ∨ ∃ locked, σ.lockRun w p = some (o, w', .inl (.ok locked)) ∧
      e ∈ locked ∧ e.owner = o.source ∧ o.units ≤ e.units := by
  cases h with
  | lockEnough run source enough =>
    cases hs
    have howner := List.find?_some source
    exact Or.inr ⟨_, run, List.mem_of_find?_eq_some source, by simpa using howner, enough⟩
  | _ => first | exact Or.inl hs | cases hs

/-- The record that a transfer commits is its order's. -/
theorem Move.record {o : TransferOrder} {e : Entry} {r : Transfer}
    (h : Move w p now σ w' (committing o e r) answered) : ∃ id now, r = o.record id now := by
  cases h with
  | append => exact ⟨_, _, rfl⟩

/-- A transfer waits for a row only after running the locking operation. -/
theorem Move.paused {o : TransferOrder} {row : Uuid} {rest : List String} {locked : List Entry}
    (h : Move w p now σ w' (lockWaiting o row rest locked) answered) :
    σ.lockRun w p = some (o, w', .inr (row, rest, locked)) := by
  cases h with
  | lockPause run => exact run

/-- Only a call of its own leads to a reset. -/
theorem Move.not_resetting (h : Move w p now σ w' σ' answered) : σ' ≠ resetting := by
  rintro rfl
  cases h

end UnitLedger.Concurrent.Stage
