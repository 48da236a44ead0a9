import UnitLedger.Proofs.Concurrent.Queueing
import UnitLedger.Proofs.Memory.Eras
import UnitLedger.Proofs.Transactions.System

/-!
  UnitLedger.Proofs.Transactions.Frame — what an act changes and what it leaves alone.

  The committed tables change in commits and in the first step of a reset (`Step.tables`). The lock
  table changes in five ways (`LockStep`): a party asks for locks of committed rows, gives up a wait,
  ends its transaction, a reset begins a new era, or nothing happens to it. A transaction that is open
  stays so until its own party ends it.
-/

namespace UnitLedger.Transactions

open Memory (Party World Journal Write RowLocks Tables)
open Memory.RowLocks (Acquires)
open Store (Op)

variable {s s' : State} {a : Act} {p q : Party} {now : Instant}

/-! ## The locking operation -/

section LockRun

variable {fund : Uuid} {owners : List String} {w : World} {out : LockResult}

theorem LockRun.party (h : LockRun s p fund owners (w, out) a) : a.party? = some p := by
  cases h <;> rfl

/-- The party has its transaction open, or waits in it. -/
theorem LockRun.inTx (h : LockRun s p fund owners (w, out) a) :
    s.isOpen p = true ∨ s.waiting p ≠ none := by
  cases h with
  | begins _ isOpen => exact Or.inl isOpen
  | goesOn waited => exact Or.inr (by simp [waited])

/-- Whether it begins or goes on, it locks rows. -/
theorem LockRun.run (h : LockRun s p fund owners (w, out) a) :
    ∃ owners' first, World.lockRows p fund s.world owners' first = (w, out) := by
  cases h with
  | begins _ _ run | goesOn _ _ run => exact ⟨_, _, run⟩

theorem LockRun.world (h : LockRun s p fund owners (w, out) a) :
    ∃ locks, w = { s.world with locks } := by
  obtain ⟨owners', first, run⟩ := h.run
  have hlocks := World.lockRows_locks (p := p) fund owners' s.world first
  rwa [run] at hlocks

theorem LockRun.tables (h : LockRun s p fund owners (w, out) a) : w.tables = s.world.tables := by
  obtain ⟨locks, rfl⟩ := h.world
  rfl

theorem LockRun.journals (h : LockRun s p fund owners (w, out) a) :
    w.journals = s.world.journals := by
  obtain ⟨locks, rfl⟩ := h.world
  rfl

theorem LockRun.acquires (h : LockRun s p fund owners (w, out) a) :
    Acquires p s.world.tables.entryIds s.world.locks w.locks := by
  obtain ⟨owners', first, run⟩ := h.run
  have hacquires := World.lockRows_acquires (p := p) fund owners' s.world first
  rwa [run] at hacquires

end LockRun

/-! ## The committed rows -/

def State.committed (s : State) (p : Party) (now : Instant) : Tables :=
  (s.world.tables.commit (fun n => s.world.fresh (s.world.used + n)) now (s.world.journal p)).1

def State.commits (s : State) (p : Party) (now : Instant) : Bool :=
  s.allows p .commit && (s.world.commitTx p now).2.isOk

theorem isOk_iff {r : Except StoreError Unit} : r.isOk = true ↔ r = .ok () := by
  cases r with
  | error e => simp [Except.isOk, Except.toBool]
  | ok u => exact ⟨fun _ => rfl, fun _ => rfl⟩

theorem State.commits_iff : s.commits p now = true ↔
    s.allows p .commit = true ∧ (s.world.commitTx p now).2 = .ok () := by
  rw [commits, Bool.and_eq_true, isOk_iff]

/-- The commit is answered what came of the writes. -/
theorem State.commitTx_ok : (s.world.commitTx p now).2 = .ok () ↔
    (s.world.tables.commit (fun n => s.world.fresh (s.world.used + n)) now
      (s.world.journal p)).2 = .ok () := by
  simp only [World.commitTx]
  rcases s.world.tables.commit (fun n => s.world.fresh (s.world.used + n)) now
    (s.world.journal p) with ⟨t, v | u⟩
  · simp [Except.mapError]
  · simp [Except.mapError]

/-- The tables change in commits and in the first step of a reset. -/
theorem Step.tables (h : Step s a s') :
    s'.world.tables = s.world.tables ∨
      (∃ p now, a = .ask p .commit now ∧ s'.world.tables = s.committed p now ∧
        s'.world.used = s.world.used + (s.world.journal p).length) ∨
      (a = .dropRows ∧ s'.world.tables = {}) := by
  cases h with
  | locks run | pauses run => exact Or.inl run.tables
  | commits => exact Or.inr (Or.inl ⟨_, _, rfl, rfl, rfl⟩)
  | dropsRows => exact Or.inr (Or.inr ⟨rfl, rfl⟩)
  | _ => exact Or.inl rfl

theorem State.tables_step (s : State) (a : Act) :
    (s.step a).world.tables = s.world.tables ∨
      (∃ p now, a = .ask p .commit now ∧ s.allows p .commit = true ∧
        (s.step a).world.tables = s.committed p now) ∨
      (a = .dropRows ∧ (s.step a).world.tables = {}) := by
  rcases (step_step s a).tables with h | ⟨p, now, rfl, h, -⟩ | h
  · exact Or.inl h
  · by_cases allowed : s.allows p .commit = true
    · exact Or.inr (Or.inl ⟨p, now, rfl, allowed, h⟩)
    · exact Or.inl (by rw [step, if_neg allowed])
  · exact Or.inr (Or.inr h)

/-! ## Transactions -/

theorem State.isOpen_put (w : World) (q : Party) :
    (s.put p w).isOpen q = (w.journals.lookup q).isSome := rfl

theorem State.waiting_put_self (w : World) : (s.put p w).waiting p = none := by
  simp [put]

theorem State.waiting_put_ne (w : World) (h : q ≠ p) : (s.put p w).waiting q = s.waiting q := by
  simp [put, h]

theorem State.waiting_hold_self (w : World) (at_ : Waiting) :
    (s.hold p w at_).waiting p = some at_ := by
  simp [hold]

theorem State.waiting_hold_ne (w : World) (at_ : Waiting) (h : q ≠ p) :
    (s.hold p w at_).waiting q = s.waiting q := by
  simp [hold, h]

/-- Who waits after an operation was answered waited before, and is another one. -/
theorem State.waits_put {w : World} (h : (s.put p w).waiting q ≠ none) :
    q ≠ p ∧ s.waiting q ≠ none := by
  by_cases hq : q = p
  · subst hq
    exact absurd (waiting_put_self w) h
  · rw [waiting_put_ne w hq] at h
    exact ⟨hq, h⟩

theorem State.waits_hold {w : World} {at_ : Waiting} (h : (s.hold p w at_).waiting q ≠ none) :
    q = p ∨ s.waiting q ≠ none := by
  by_cases hq : q = p
  · exact Or.inl hq
  · rw [waiting_hold_ne w at_ hq] at h
    exact Or.inr h

def Stays (s s' : State) : Prop := ∀ q, s.isOpen q = true → s'.isOpen q = true

theorem Stays.put {w : World} (h : w.journals = s.world.journals) : Stays s (s.put p w) := by
  intro q hq
  rw [State.isOpen_put, h]
  exact hq

theorem Stays.hold {w : World} (at_ : Waiting) (h : w.journals = s.world.journals) :
    Stays s (s.hold p w at_) := by
  intro q hq
  simp only [State.hold, State.isOpen, h]
  exact hq

theorem Stays.setJournal {w : World} (j : Journal) (h : w.journals = s.world.journals) :
    Stays s (s.put p (w.setJournal p j)) := by
  intro q hq
  rw [State.isOpen_put]
  by_cases hqp : q = p
  · rw [hqp, World.lookup_setJournal_self]
    rfl
  · rw [World.lookup_setJournal_ne j hqp, h]
    exact hq

/-! ## The lock table -/

/-- What an act does to the lock table, and who may be in a transaction or wait after it. -/
inductive LockStep (s : State) (a : Act) (s' : State) : Prop where
  | keeps (locks : s'.world.locks = s.world.locks) (stays : Stays s s')
      (waiting : ∀ q, s'.waiting q ≠ none → s.waiting q ≠ none)
  | asks (p : Party) (mine : a.party? = some p) (inTx : s.isOpen p = true ∨ s.waiting p ≠ none)
      (acquires : Acquires p s.world.tables.entryIds s.world.locks s'.world.locks)
      (stays : Stays s s') (waiting : ∀ q, s'.waiting q ≠ none → q = p ∨ s.waiting q ≠ none)
  | leaves (p : Party) (locks : s'.world.locks = s.world.locks.leave p) (stays : Stays s s')
      (waiting : ∀ q, s'.waiting q ≠ none → q ≠ p ∧ s.waiting q ≠ none)
  | closes (p : Party) (ends : Ends p a)
      (locks : s'.world.locks = (s.world.locks.leave p).release p)
      (journal : s'.world.journal p = [])
      (stays : ∀ q, q ≠ p → s.isOpen q = true → s'.isOpen q = true)
      (waiting : ∀ q, s'.waiting q ≠ none → q ≠ p ∧ s.waiting q ≠ none)
  | clears (act : a = .dropLocks) (begun : s.resetting ≠ 0)
      (world : s'.world = s.world.dropLocks) (waiting : s'.waiting = s.waiting)

theorem LockStep.closing {w : World} (ends : Ends p a) (hlocks : w.locks = s.world.locks)
    (hjournals : w.journals = s.world.journals) : LockStep s a (s.put p (w.closeTx p)) := by
  have hclosed : (w.closeTx p).locks = (s.world.locks.leave p).release p := by
    rw [← hlocks]
    rfl
  refine .closes p ends hclosed (World.journal_closeTx_self w p) (fun q hq hopen => ?_) fun q hq =>
    State.waits_put hq
  rw [State.isOpen_put, World.lookup_closeTx_ne hq, hjournals]
  exact hopen

theorem Step.lockStep (h : Step s a s') : LockStep s a s' := by
  have hput : ∀ {p w q}, (s.put p w).waiting q ≠ none → s.waiting q ≠ none :=
    fun hq => (State.waits_put hq).2
  cases h with
  | nothing | dropsRows => exact .keeps rfl (fun _ hq => hq) fun _ hq => hq
  | reads => exact .keeps rfl (.put rfl) fun _ => hput
  | opens | adds | records | creditGoes => exact .keeps rfl (.setJournal _ rfl) fun _ => hput
  | locks run =>
    exact .asks _ run.party run.inTx run.acquires (.put run.journals) fun _ hq => Or.inr (hput hq)
  | pauses run =>
    exact .asks _ run.party run.inTx run.acquires (.hold _ run.journals) fun _ => State.waits_hold
  | @credits p fund owner units now e locks idle isOpen target granted =>
    have hacquires := Acquires.single s.world.locks p (World.mem_entryIds_of_activeOf target)
    rw [granted] at hacquires
    exact .asks p rfl (Or.inl isOpen) hacquires (.setJournal _ rfl) fun _ hq => Or.inr (hput hq)
  | @creditPauses p fund owner units now e locks idle isOpen target busy =>
    have hacquires := Acquires.single s.world.locks p (World.mem_entryIds_of_activeOf target)
    rw [busy] at hacquires
    exact .asks p rfl (Or.inl isOpen) hacquires (.hold _ rfl) fun _ => State.waits_hold
  | @givesUp p waits => exact .leaves p rfl (.put rfl) fun _ hq => State.waits_put hq
  | @commits p now idle isOpen =>
    exact .closing (w := { s.world with
      tables := s.committed p now
      used := s.world.used + (s.world.journal p).length }) .commit rfl rfl
  | closes ends => exact .closing (.closes ends) rfl rfl
  | @dropsLocks n begun => exact .clears rfl (by omega) rfl rfl

/-! ## The journals -/

inductive Writes (s : State) (p : Party) (s' : State) : Act → Write → Prop where
  | fund {f now} : Writes s p s' (.ask p (.createFund f) now) (.fund f)
  | entry {e now} : Writes s p s' (.ask p (.createEntry e) now) (.entry e)
  | debit {id units now} : Writes s p s' (.ask p (.debit id units) now) (.debit id units)
  | unlocked {fund owner units now} (target : s.world.tables.activeOf fund owner = none) :
      Writes s p s' (.ask p (.credit fund owner units) now) (.credit fund owner units)
  | locked {fund owner units now e} (target : s.world.tables.activeOf fund owner = some e)
      (granted : s.world.locks.acquire p e.id = (s'.world.locks, true)) :
      Writes s p s' (.ask p (.credit fund owner units) now) (.credit fund owner units)
  | goesOn {fund owner units} (waited : s.waiting p = some ⟨.credit fund owner units, ()⟩)
      (arrived : s.world.locks.waits p = false) :
      Writes s p s' (.goOn p) (.credit fund owner units)
  | record {order now} : Writes s p s' (.ask p (.append order) now)
      (.transfer (order.record s.world.draw.2 now))

inductive JournalStep (s : State) (q : Party) (a : Act) (s' : State) : Prop where
  | keeps (same : s'.world.journal q = s.world.journal q)
  | writes (w : Write) (write : Writes s q s' a w)
      (own : s'.world.journal q = s.world.journal q ++ [w])
  | drops (empty : s'.world.journal q = [])

theorem JournalStep.adding {w : World} {x : Write} (hjournals : ∀ q, w.journal q = s.world.journal q)
    (write : Writes s p (s.put p (w.setJournal p (s.world.journal p ++ [x]))) a x) :
    JournalStep s q a (s.put p (w.setJournal p (s.world.journal p ++ [x]))) := by
  by_cases hq : q = p
  · subst hq
    exact .writes x write (World.journal_setJournal_self _)
  · exact .keeps ((World.journal_setJournal_ne _ hq).trans (hjournals q))

theorem JournalStep.closing {w : World} (hjournals : ∀ q, w.journal q = s.world.journal q) :
    JournalStep s q a (s.put p (w.closeTx p)) := by
  by_cases hq : q = p
  · subst hq
    exact .drops (World.journal_closeTx_self w q)
  · exact .keeps ((World.journal_closeTx_ne hq).trans (hjournals q))

theorem Step.journalStep (h : Step s a s') (q : Party) : JournalStep s q a s' := by
  cases h with
  | nothing | reads | creditPauses | givesUp | dropsRows | dropsLocks => exact .keeps rfl
  | @opens p now idle closed =>
    by_cases hq : q = p
    · subst hq
      exact .drops (World.journal_setJournal_self _)
    · exact .keeps (World.journal_setJournal_ne _ hq)
  | adds idle isOpen write =>
    refine .adding (fun _ => rfl) ?_
    cases write with
    | fund => exact .fund
    | entry => exact .entry
    | debit => exact .debit
    | credit target => exact .unlocked target
  | records => exact .adding (fun _ => rfl) .record
  | locks run | pauses run =>
    exact .keeps (congrArg (fun journals => (journals.lookup q).getD []) run.journals)
  | credits idle isOpen target granted =>
    exact .adding (w := { s.world with locks := _ }) (fun _ => rfl) (.locked target granted)
  | creditGoes waited arrived => exact .adding (fun _ => rfl) (.goesOn waited arrived)
  | @commits p now idle isOpen =>
    exact .closing (w := { s.world with
      tables := s.committed p now
      used := s.world.used + (s.world.journal p).length }) fun _ => rfl
  | closes => exact .closing fun _ => rfl

/-- A credit that waits has waited before, or begins to wait for the row of its owner. -/
theorem Step.creditWaits {fund : Uuid} {owner : String} {units : Int} (h : Step s a s')
    (hq : s'.waiting q = some ⟨.credit fund owner units, ()⟩) :
    s.waiting q = some ⟨.credit fund owner units, ()⟩ ∨
      ∃ e, s.world.tables.activeOf fund owner = some e ∧ s'.world.tables = s.world.tables ∧
        s.world.locks.acquire q e.id = (s'.world.locks, false) ∧
        ∃ now, a = .ask q (.credit fund owner units) now := by
  have hput : ∀ {p w}, (s.put p w).waiting q = some ⟨.credit fund owner units, ()⟩ →
      s.waiting q = some ⟨.credit fund owner units, ()⟩ := by
    intro p w hw
    have hne := (State.waits_put (by rw [hw]; simp)).1
    rwa [State.waiting_put_ne w hne] at hw
  cases h with
  | nothing | dropsRows | dropsLocks => exact Or.inl hq
  | @pauses a p fund' owners w at_ run =>
    by_cases hqp : q = p
    · rw [hqp, State.waiting_hold_self] at hq
      cases hq
    · rw [State.waiting_hold_ne _ _ hqp] at hq
      exact Or.inl hq
  | @creditPauses p fund' owner' units' now e locks idle isOpen target busy =>
    by_cases hqp : q = p
    · rw [hqp, State.waiting_hold_self] at hq
      cases hq
      exact Or.inr ⟨e, target, rfl, hqp ▸ busy, now, hqp ▸ rfl⟩
    · rw [State.waiting_hold_ne _ _ hqp] at hq
      exact Or.inl hq
  | _ => exact Or.inl (hput hq)

/-! ## The supply of ids -/

theorem Step.fresh (h : Step s a s') : s'.world.fresh = s.world.fresh := by
  cases h with
  | locks run | pauses run =>
    obtain ⟨locks, rfl⟩ := run.world
    rfl
  | _ => rfl

theorem Step.used (h : Step s a s') : s.world.used ≤ s'.world.used := by
  cases h with
  | locks run | pauses run =>
    obtain ⟨locks, rfl⟩ := run.world
    exact Nat.le_refl _
  | records => exact Nat.le_succ _
  | commits => exact Nat.le_add_right _ _
  | _ => exact Nat.le_refl _

theorem State.fresh_run (s : State) (acts : List Act) : (s.run acts).world.fresh = s.world.fresh := by
  induction acts generalizing s with
  | nil => rfl
  | cons a acts ih => exact (ih (s.step a)).trans (step_step s a).fresh

theorem State.used_le_run (s : State) (acts : List Act) : s.world.used ≤ (s.run acts).world.used := by
  induction acts generalizing s with
  | nil => exact Nat.le_refl _
  | cons a acts ih => exact Nat.le_trans (step_step s a).used (ih (s.step a))

end UnitLedger.Transactions
