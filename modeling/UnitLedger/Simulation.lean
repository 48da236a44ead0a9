import UnitLedger.Memory.World
import UnitLedger.Store.Fault
import UnitLedger.Store.Program

/-!
  UnitLedger.Simulation — many callers of the in-memory store, in virtual time.

  A task is a program with a party of its own. It runs until it is finished or has to wait for a row
  lock. Time for lock waits is virtual: it stands still while anything can run. A task whose lock
  was handed to it, or whose wait has lasted as long as the store allows, is due; due tasks run in
  the order in which they became so, and a wait whose lock arrived before its turn goes on rather
  than failing. One task may be in the foreground: when time jumps to the end of its own wait it runs
  before the others, and when its lock arrives it runs after those that are due.
-/

namespace UnitLedger.Simulation

open Memory (Party World Pause Progress RowLocks)
open Store (Op Program Fault)

inductive Status (α : Type) where
  | finished (a : α)
  /-- Waits for a row lock, at most until the deadline. -/
  | waiting (op : Op) (at_ : Pause op) (next : op.Answer → Program α) (deadline : Nat)

structure Task (α : Type) where
  party : Party
  /-- The party is the task's own, so its transaction ends with the task. -/
  alone : Bool
  /-- Faults apply to the task's calls. -/
  faulty : Bool
  status : Status α

structure State (α : Type) where
  world : World
  /-- Virtual time, in milliseconds. -/
  clock : Nat := 0
  /-- What a look at the calendar shows; it moves with every operation. -/
  now : Instant
  /-- How long a wait for a row lock may last. -/
  patience : Nat
  faults : List Fault := []
  /-- The tasks, those whose waits began later at the end. -/
  tasks : List (Task α) := []
  /-- Parties that can go on, in the order in which they became able to. -/
  due : List Party := []
  events : List Log.Event := []

variable {α : Type}

namespace Task

def deadline? (t : Task α) : Option Nat :=
  match t.status with
  | .waiting _ _ _ d => some d
  | .finished _ => none

def answer? (t : Task α) : Option α :=
  match t.status with
  | .finished a => some a
  | .waiting _ _ _ _ => none

end Task

namespace State

def task? (s : State α) (p : Party) : Option (Task α) := s.tasks.find? fun t => t.party == p

/-- Keeps a task in place of the party's earlier one, as the latest. -/
def putTask (s : State α) (t : Task α) : State α :=
  { s with tasks := s.tasks.filter (fun u => u.party != t.party) ++ [t] }

def dropTask (s : State α) (p : Party) : State α :=
  { s with tasks := s.tasks.filter (fun t => t.party != p), due := s.due.filter (· != p) }

/-- Parties that hold in `after` a lock for which they queued in `before`. -/
def granted (before after : RowLocks) : List Party :=
  before.held.flatMap fun l => l.queue.filter fun p =>
    after.held.any fun m => m.row == l.row && m.era == l.era && m.holder == p

/-- Puts the world in place of the old one; whoever received a lock is due. -/
def setWorld (s : State α) (w : World) : State α :=
  let fresh := (granted s.world.locks w.locks).filter fun p => !s.due.contains p
  { s with world := w, due := s.due ++ fresh }

/-- Time for one operation passes on the calendar. -/
def tick (s : State α) : State α := { s with now := s.now.after 1000 }

/-- The next id of the supply. -/
def draw (s : State α) : State α × Uuid :=
  let (w, id) := s.world.draw
  ({ s with world := w }, id)

/-! ## Running one task -/

/-- A fault that answers in place of a commit or a rollback ends the transaction all the same. -/
def afterFault (s : State α) (p : Party) : Op → State α
  | .commit | .rollback => s.setWorld (s.world.closeTx p)
  | _ => s

/-- Runs a program until it is finished or waits. -/
def run (party : Party) (faulty : Bool) : Program α → State α → State α × Status α
  | .done a, s => (s, .finished a)
  | .note event rest, s => run party faulty rest { s with events := s.events ++ [event] }
  | .call op next, s =>
    let s := s.tick
    match if faulty then Fault.intercept op s.faults else (s.faults, none) with
    | (faults, some answer) =>
      run party faulty (next answer) (({ s with faults }).afterFault party op)
    | (faults, none) =>
      let s := { s with faults }
      match s.world.start party s.now op with
      | (w, .answered answer) => run party faulty (next answer) (s.setWorld w)
      | (w, .paused at_) => (s.setWorld w, .waiting op at_ next (s.clock + s.patience))

/-- Ends a finished task's transaction, if the party is its own. -/
def finish (s : State α) (t : Task α) : State α :=
  match t.status with
  | .finished _ => if t.alone then s.setWorld (s.world.closeTx t.party) else s
  | .waiting _ _ _ _ => s

/-- Runs the program as the party's task. -/
def proceed (s : State α) (party : Party) (alone faulty : Bool) (program : Program α) : State α :=
  let (s, status) := run party faulty program s
  let t : Task α := { party, alone, faulty, status }
  (s.finish t).putTask t

/-- A waiting party's turn: it goes on with its lock, or fails if it has none yet. -/
def turn (s : State α) (p : Party) : State α :=
  match s.task? p with
  | none => s
  | some t =>
    match t.status with
    | .finished _ => s
    | .waiting op at_ next _ =>
      let s := s.tick
      if s.world.locks.waits p then
        (s.setWorld (s.world.giveUp p)).proceed p t.alone t.faulty (next (.error .lockTimeout))
      else
        match s.world.resume p op at_ with
        | (w, .answered answer) =>
          (s.setWorld w).proceed p t.alone t.faulty (next answer)
        | (w, .paused at_) =>
          (s.setWorld w).putTask { t with status := .waiting op at_ next (s.clock + s.patience) }

/-! ## Running all that can run -/

/-- How often a task can still pause: once for each row that it has yet to lock, and once more for
the credit that may follow. -/
def pauses (t : Task α) : Nat :=
  match t.status with
  | .finished _ => 0
  | .waiting (.lockEntries _ _) (_, rest, _) _ _ => rest.length + 2
  | .waiting _ _ _ _ => 1

def totalPauses (s : State α) : Nat := s.tasks.foldl (fun n t => n + pauses t) 0

/-- Gives turns to due parties other than the one in the foreground. -/
def settleFor (foreground : Option Party) : Nat → State α → State α
  | 0, s => s
  | n + 1, s =>
    match s.due.find? fun p => some p != foreground with
    | none => s
    | some p => settleFor foreground n ({ s with due := s.due.filter (· != p) }.turn p)

/-- Runs until nothing but the foreground is due. -/
def settle (s : State α) (foreground : Option Party := none) : State α :=
  settleFor foreground (s.totalPauses + s.due.length) s

/-! ## Time -/

/-- Tasks whose deadline has come are due, the earliest deadline first. -/
def expire (s : State α) : State α :=
  let expired := s.tasks.filterMap fun t =>
    match t.deadline? with
    | some d => if d ≤ s.clock && !s.due.contains t.party then some (d, t.party) else none
    | none => none
  { s with due := s.due ++ (expired.mergeSort fun a b => a.1 ≤ b.1).map (·.2) }

def advance (s : State α) (ms : Nat) : State α := ({ s with clock := s.clock + ms }).expire.settle

/-- Moves the clock to the next deadline, if there is one. -/
def jump (s : State α) : State α :=
  match (s.tasks.filterMap (·.deadline?)).min? with
  | none => s
  | some d => ({ s with clock := max s.clock d }).expire

/-- Lets time pass until the party's task is finished. -/
def waitFor (foreground : Option Party) (p : Party) : Nat → State α → State α
  | 0, s => s
  | n + 1, s =>
    let s := s.settle foreground
    match s.task? p with
    | none => s
    | some t =>
      match t.status with
      | .finished _ => s
      | .waiting _ _ _ _ =>
        if foreground = some p then
          if s.due.contains p then
            waitFor foreground p n ({ s with due := s.due.filter (· != p) }.turn p)
          else
            let s := s.jump
            if s.due.contains p then
              waitFor foreground p n ({ s with due := s.due.filter (· != p) }.turn p)
            else waitFor foreground p n s
        else waitFor foreground p n s.jump

/-! ## What a script of calls may do -/

/-- Runs a program to its end as the foreground task, letting time pass where it waits. -/
def perform (s : State α) (party : Party) (alone faulty : Bool) (program : Program α) :
    State α × Option α :=
  let s := s.proceed party alone faulty program
  let s := waitFor (some party) party (2 * (s.totalPauses + s.due.length) + 2) s
  let answer := (s.task? party).bind (·.answer?)
  ((s.dropTask party).settle, answer)

/-- Starts a program as a task in the background. -/
def spawn (s : State α) (party : Party) (alone faulty : Bool) (program : Program α) : State α :=
  (s.proceed party alone faulty program).settle

def isFinished (s : State α) (party : Party) : Bool :=
  ((s.task? party).bind (·.answer?)).isSome

/-- Waits for a task's answer and forgets the task. -/
def join (s : State α) (party : Party) : State α × Option α :=
  let s := waitFor none party (2 * (s.totalPauses + s.due.length) + 2) s
  let answer := (s.task? party).bind (·.answer?)
  ((s.dropTask party).settle, answer)

/-- Cancels a task that is not finished; its transaction is dropped. -/
def cancel (s : State α) (party : Party) : State α :=
  ((s.setWorld (s.world.closeTx party)).dropTask party).settle

end State

end UnitLedger.Simulation
