import Mathlib.Data.List.Induction
import Mathlib.Logic.Function.Basic
import UnitLedger.Proofs.Concurrent.Locking

/-!
  UnitLedger.Proofs.Transactions.System — any transactions on one in-memory store.

  Below the services a transaction is whatever its owner does with it: any operations with any
  arguments, in any order, up to a commit, a rollback, or until it is dropped. Here a party has one
  transaction at a time, and an `Act` is what it does next: it asks for an operation, goes on with one
  whose row lock has arrived, gives the wait up, or drops the transaction. A reset is no operation of
  a transaction. It takes two acts, between which others may act: it empties the tables, and then the
  lock table.

  A run is any list of acts, so every interleaving of any number of transactions and resets is one.
  An act that cannot happen (an operation inside a transaction that is not open or still waits, a
  second step of a reset that had no first) changes nothing.

  `Step` lists what an act can do, with what was found in the store, and `step_step` says that every
  act is such a step; `run_history` carries what steps keep through a run.
-/

namespace UnitLedger.Transactions

open Memory (Party World Journal Write Pause Progress Tables Violation)
open Store (Op)

structure Waiting where
  op : Op
  at_ : Pause op

structure State where
  world : World
  /-- The operation in which the party's transaction waits. -/
  waiting : Party → Option Waiting
  /-- How many resets have emptied the tables and not yet the lock table. -/
  resetting : Nat := 0

inductive Act where
  | ask (p : Party) (op : Op) (now : Instant)
  | goOn (p : Party)
  | giveUp (p : Party)
  | drop (p : Party)
  | dropRows
  | dropLocks
  deriving DecidableEq, Repr

def Act.party? : Act → Option Party
  | ask p _ _ | goOn p | giveUp p | drop p => some p
  | dropRows | dropLocks => none

namespace State

def opened (fresh : Nat → Uuid) (tables : Tables) : State where
  world := { tables, fresh }
  waiting _ := none

def isOpen (s : State) (p : Party) : Bool := (s.world.journals.lookup p).isSome

def allows (s : State) (p : Party) (op : Op) : Bool :=
  (s.waiting p).isNone &&
    match op with
    | .openTx => !s.isOpen p
    | .reset => false
    | .fundExists _ | .createFund _ | .createEntry _ | .lockEntries _ _ | .debit _ _ | .credit _ _ _
    | .findByKey _ | .append _ | .commit | .rollback => s.isOpen p
    | .health | .findFund _ | .listFunds _ | .findEntry _ _ | .listEntries _ _
    | .listTransfers _ _ => true

/-- The party's operation has been answered and has left this world. -/
def put (s : State) (p : Party) (w : World) : State :=
  { s with world := w, waiting := Function.update s.waiting p none }

def hold (s : State) (p : Party) (w : World) (at_ : Waiting) : State :=
  { s with world := w, waiting := Function.update s.waiting p (some at_) }

def proceed (s : State) (p : Party) {op : Op} : World × Progress op → State
  | (w, .answered _) => s.put p w
  | (w, .paused at_) => s.hold p w ⟨op, at_⟩

def step (s : State) : Act → State
  | .ask p op now => if s.allows p op then s.proceed p (s.world.start p now op) else s
  | .goOn p =>
    match s.waiting p with
    | none => s
    | some ⟨op, at_⟩ =>
      if s.world.locks.waits p then s else s.proceed p (s.world.resume p op at_)
  | .giveUp p => if s.world.locks.waits p then s.put p (s.world.giveUp p) else s
  | .drop p => s.put p (s.world.closeTx p)
  | .dropRows => { s with world := s.world.dropRows, resetting := s.resetting + 1 }
  | .dropLocks =>
    match s.resetting with
    | 0 => s
    | n + 1 => { s with world := s.world.dropLocks, resetting := n }

def run (s : State) (acts : List Act) : State := acts.foldl step s

end State

/-! ## The steps, one by one -/

abbrev LockResult := Except StoreError (List Entry) ⊕ (Uuid × List String × List Entry)

inductive Adds (w : World) (p : Party) : Op → Write → Prop where
  | fund {f} (accepted : (w.journal p).addFund w.tables f = .ok (w.journal p ++ [.fund f])) :
      Adds w p (.createFund f) (.fund f)
  | entry {e} (accepted : (w.journal p).addEntry w.tables e = .ok (w.journal p ++ [.entry e])) :
      Adds w p (.createEntry e) (.entry e)
  | debit {id units} : Adds w p (.debit id units) (.debit id units)
  | credit {fund owner units} (target : w.tables.activeOf fund owner = none) :
      Adds w p (.credit fund owner units) (.credit fund owner units)

/-- The party's locking operation runs in this act: it begins, or it goes on once the lock has
arrived. -/
inductive LockRun (s : State) (p : Party) (fund : Uuid) (owners : List String)
    (r : World × LockResult) : Act → Prop where
  | begins {now} (idle : s.waiting p = none) (isOpen : s.isOpen p = true)
      (run : World.lockRows p fund s.world (World.lockOrder owners) [] = r) :
      LockRun s p fund owners r (.ask p (.lockEntries fund owners) now)
  | goesOn {row rest locked}
      (waited : s.waiting p = some ⟨.lockEntries fund owners, (row, rest, locked)⟩)
      (arrived : s.world.locks.waits p = false)
      (run : World.lockRows p fund s.world rest (locked ++ s.world.reread p row) = r) :
      LockRun s p fund owners r (.goOn p)

inductive Closes (p : Party) : Act → Prop where
  | rollback {now} : Closes p (.ask p .rollback now)
  | drop : Closes p (.drop p)

/-- The party's transaction ends in this act, if the party is not waiting. -/
inductive Ends (p : Party) : Act → Prop where
  | closes {a} (closes : Closes p a) : Ends p a
  | commit {now} : Ends p (.ask p .commit now)

inductive Step (s : State) : Act → State → Prop where
  | nothing {a} : Step s a s
  /-- The operation has read something, or was refused. -/
  | reads {p op now} (idle : s.waiting p = none) : Step s (.ask p op now) (s.put p s.world)
  | opens {p now} (idle : s.waiting p = none) (closed : s.isOpen p = false) :
      Step s (.ask p .openTx now) (s.put p (s.world.setJournal p []))
  | adds {p op now x} (idle : s.waiting p = none) (isOpen : s.isOpen p = true)
      (write : Adds s.world p op x) :
      Step s (.ask p op now) (s.put p (s.world.setJournal p (s.world.journal p ++ [x])))
  | records {p order now} (idle : s.waiting p = none) (isOpen : s.isOpen p = true)
      (accepted : (s.world.journal p).addTransfer s.world.tables (order.record s.world.draw.2 now) =
        .ok (s.world.journal p ++ [.transfer (order.record s.world.draw.2 now)])) :
      Step s (.ask p (.append order) now) (s.put p (s.world.draw.1.setJournal p
        (s.world.journal p ++ [.transfer (order.record s.world.draw.2 now)])))
  | locks {a p fund owners w locked} (run : LockRun s p fund owners (w, .inl (.ok locked)) a) :
      Step s a (s.put p w)
  | pauses {a p fund owners w at_} (run : LockRun s p fund owners (w, .inr at_) a) :
      Step s a (s.hold p w ⟨.lockEntries fund owners, at_⟩)
  | credits {p fund owner units now e locks} (idle : s.waiting p = none) (isOpen : s.isOpen p = true)
      (target : s.world.tables.activeOf fund owner = some e)
      (granted : s.world.locks.acquire p e.id = (locks, true)) :
      Step s (.ask p (.credit fund owner units) now)
        (s.put p ({ s.world with locks }.journalCredit p fund owner units))
  | creditPauses {p fund owner units now e locks} (idle : s.waiting p = none)
      (isOpen : s.isOpen p = true) (target : s.world.tables.activeOf fund owner = some e)
      (busy : s.world.locks.acquire p e.id = (locks, false)) :
      Step s (.ask p (.credit fund owner units) now)
        (s.hold p { s.world with locks } ⟨.credit fund owner units, ()⟩)
  | creditGoes {p fund owner units} (waited : s.waiting p = some ⟨.credit fund owner units, ()⟩)
      (arrived : s.world.locks.waits p = false) :
      Step s (.goOn p) (s.put p (s.world.journalCredit p fund owner units))
  | givesUp {p} (waits : s.world.locks.waits p = true) :
      Step s (.giveUp p) (s.put p (s.world.giveUp p))
  | commits {p now} (idle : s.waiting p = none) (isOpen : s.isOpen p = true) :
      Step s (.ask p .commit now) (s.put p (s.world.commitTx p now).1)
  | closes {a p} (ends : Closes p a) : Step s a (s.put p (s.world.closeTx p))
  | dropsRows :
      Step s .dropRows { s with world := s.world.dropRows, resetting := s.resetting + 1 }
  | dropsLocks {n} (begun : s.resetting = n + 1) :
      Step s .dropLocks { s with world := s.world.dropLocks, resetting := n }

namespace State

variable {s s' : State} {p : Party} {a : Act} {now : Instant}

theorem step_journaled {op : Op} {x : Write} {r : Except Violation Journal}
    (idle : s.waiting p = none) (isOpen : s.isOpen p = true)
    (hr : ∀ j, r = .ok j → j = s.world.journal p ++ [x] ∧ Adds s.world p op x)
    (done : s' = s.put p (s.world.journaled p () r).1) : Step s (.ask p op now) s' := by
  subst done
  cases r with
  | error v => exact .reads idle
  | ok j =>
    obtain ⟨rfl, hadds⟩ := hr j rfl
    exact .adds idle isOpen hadds

/-- Every operation that is asked for is a step. -/
theorem step_ask (op : Op) (h : s.allows p op = true) :
    Step s (.ask p op now) (s.proceed p (s.world.start p now op)) := by
  simp only [allows, Bool.and_eq_true, Option.isNone_iff_eq_none] at h
  obtain ⟨idle, hopen⟩ := h
  cases op with
  | reset => cases hopen
  | openTx => exact .opens idle (by simpa using hopen)
  | createFund f =>
    refine step_journaled (x := .fund f) idle hopen (fun j hj => ?_) rfl
    obtain rfl := Concurrent.Stage.addFund_ok hj
    exact ⟨rfl, .fund hj⟩
  | createEntry e =>
    refine step_journaled (x := .entry e) idle hopen (fun j hj => ?_) rfl
    obtain rfl := Concurrent.Stage.addEntry_ok hj
    exact ⟨rfl, .entry hj⟩
  | lockEntries fund owners =>
    rcases hrun : World.lockRows p fund s.world (World.lockOrder owners) [] with ⟨w, r | at_⟩
    · obtain ⟨locked, rfl⟩ := World.lockRows_ok (congrArg Prod.snd hrun)
      simp only [World.start, hrun]
      exact .locks (.begins idle hopen hrun)
    · simp only [World.start, hrun]
      exact .pauses (.begins idle hopen hrun)
  | debit id units => exact .adds idle hopen .debit
  | credit fund owner units =>
    simp only [World.start]
    cases htarget : s.world.tables.activeOf fund owner with
    | none => exact .adds idle hopen (.credit htarget)
    | some e =>
      dsimp only
      rcases hacq : s.world.locks.acquire p e.id with ⟨locks, _ | _⟩
      · exact .creditPauses idle hopen htarget hacq
      · exact .credits idle hopen htarget hacq
  | append order =>
    simp only [World.start]
    cases hadd : (s.world.journal p).addTransfer s.world.tables
        (order.record s.world.draw.2 now) with
    | error v => exact .reads idle
    | ok j =>
      obtain rfl := Concurrent.Stage.addTransfer_ok hadd
      exact .records idle hopen hadd
  | commit => exact .commits idle hopen
  | rollback => exact .closes .rollback
  | _ => exact .reads idle

theorem step_step (s : State) (a : Act) : Step s a (s.step a) := by
  cases a with
  | ask p op now =>
    simp only [step]
    split
    · rename_i h
      exact step_ask op h
    · exact .nothing
  | goOn p =>
    simp only [step]
    split
    · exact .nothing
    · rename_i op at_ waited
      split
      · exact .nothing
      · rename_i h
        have arrived : s.world.locks.waits p = false := by simpa using h
        cases op with
        | lockEntries fund owners =>
          obtain ⟨row, rest, locked⟩ := at_
          simp only [World.resume]
          rcases hrun : World.lockRows p fund s.world rest (locked ++ s.world.reread p row) with
            ⟨w, r | at_⟩
          · obtain ⟨locked', rfl⟩ := World.lockRows_ok (congrArg Prod.snd hrun)
            exact .locks (.goesOn waited arrived hrun)
          · exact .pauses (.goesOn waited arrived hrun)
        | credit fund owner units => exact .creditGoes waited arrived
        | _ => exact Empty.elim at_
  | giveUp p =>
    simp only [step]
    split
    · rename_i h
      exact .givesUp h
    · exact .nothing
  | drop p => exact .closes .drop
  | dropRows => exact .dropsRows
  | dropLocks =>
    simp only [step]
    split
    · exact .nothing
    · rename_i n h
      exact .dropsLocks h

/-! ## Runs -/

theorem run_cons (s : State) (a : Act) (acts : List Act) :
    s.run (a :: acts) = (s.step a).run acts := rfl

theorem run_append (s : State) (acts acts' : List Act) :
    s.run (acts ++ acts') = (s.run acts).run acts' := List.foldl_append

theorem run_concat (s : State) (acts : List Act) (a : Act) :
    s.run (acts ++ [a]) = (s.run acts).step a := run_append s acts [a]

/-- What holds at the start and is kept by every step holds of every run, of its acts and the state
that they lead to. -/
theorem run_history {s₀ : State} {P : List Act → State → Prop} (hopen : P [] s₀)
    (hstep : ∀ acts a s', P acts (s₀.run acts) → Step (s₀.run acts) a s' → P (acts ++ [a]) s')
    (acts : List Act) : P acts (s₀.run acts) := by
  induction acts using List.reverseRecOn with
  | nil => exact hopen
  | append_singleton acts a ih =>
    rw [run_concat]
    exact hstep acts a _ ih (step_step _ a)

end State

/-! ## A fund to try things on -/

def founding (p : Party) (f : Fund) (e : Entry) : List Act :=
  [.ask p .openTx ⟨0⟩, .ask p (.createFund f) ⟨0⟩, .ask p (.createEntry e) ⟨0⟩, .ask p .commit ⟨0⟩]

def hull : Fund := { id := Uuid.ofNat 1, name := "Hull", totalUnits := 10, createdAt := ⟨0⟩ }

def adas : Entry :=
  { id := Uuid.ofNat 2, fund := Uuid.ofNat 1, owner := "Ada", units := 10, acquiredAt := ⟨0⟩,
    updatedAt := ⟨0⟩, state := .active }

end UnitLedger.Transactions
