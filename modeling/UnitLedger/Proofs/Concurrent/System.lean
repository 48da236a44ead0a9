import Mathlib.Logic.Function.Basic
import UnitLedger.Memory.World
import UnitLedger.Service.Transfers

/-!
  UnitLedger.Proofs.Concurrent.System — many calls of the services on one in-memory store.

  A call is one use of a service, by a party of its own. It runs as the program that the service is
  (`Call.program`), one operation of the store in each turn: `Status.turn` starts the operation, goes
  on with one that waited for a row lock once the lock has arrived, or gives the wait up. Reports
  between two operations belong to the turn before them. When nothing is left to ask, the call is
  finished in that same turn and what is left of its transaction is dropped.

  A run is any list of events, each the arrival of a call or a turn of a party: every interleaving of
  any number of calls is such a list. An arriving call takes two new ids from the supply; only the
  creation of a fund uses them. An event that cannot happen (a party that called before, a turn of a
  party that did not call or is finished) changes nothing.

  `System` does not depend on how the progress of a call is recorded: a `Behaviour` says how it
  begins, what one turn does to it and when it has an answer. `programs` is the behaviour in which
  the progress is the rest of the service's program.
-/

namespace UnitLedger.Concurrent

open Memory (Party World Pause Progress Tables)
open Store (Op Program ResetCounts)

/-! ## Calls -/

inductive Call where
  | createFund (name : String) (totalUnits : Int) (owner : String)
  | transfer (request : TransferRequest)
  | getFund (fund : Uuid)
  | listFunds (params : ListParams)
  | getOwnership (fund : Uuid) (owner : String)
  | getCapTable (fund : Uuid) (params : ListParams)
  | listTransfers (fund : Uuid) (params : ListParams)
  | health
  | reset
  deriving DecidableEq, Repr

instance decidableEqExcept {ε α : Type} [DecidableEq ε] [DecidableEq α] : DecidableEq (Except ε α)
  | .ok a, .ok b => decidable_of_iff (a = b) ⟨congrArg _, Except.ok.inj⟩
  | .error a, .error b => decidable_of_iff (a = b) ⟨congrArg _, Except.error.inj⟩
  | .ok _, .error _ | .error _, .ok _ => isFalse nofun

inductive Answer where
  | fund (r : Except LedgerError Fund)
  | transfer (r : Except LedgerError Transfer)
  | funds (r : Except LedgerError (Page Fund))
  | entry (r : Except LedgerError Entry)
  | capTable (r : Except LedgerError CapTable)
  | transfers (r : Except LedgerError (Page Transfer))
  | health (r : Except StoreError Unit)
  | reset (r : Except StoreError ResetCounts)
  deriving DecidableEq

namespace Answer

def Fails : Answer → LedgerError → Prop
  | fund r, e => r = .error e
  | transfer r, e => r = .error e
  | funds r, e => r = .error e
  | entry r, e => r = .error e
  | capTable r, e => r = .error e
  | transfers r, e => r = .error e
  | health r, e => ∃ x, r = .error x ∧ e = .store x
  | reset r, e => ∃ x, r = .error x ∧ e = .store x

/-- An answer fails in one way. -/
theorem Fails.unique {a : Answer} {err err' : LedgerError} (h : a.Fails err)
    (h' : a.Fails err') : err = err' := by
  cases a with
  | health r | reset r =>
    obtain ⟨x, hx, rfl⟩ := h
    obtain ⟨y, hy, rfl⟩ := h'
    rw [hx] at hy
    exact congrArg _ (Except.error.inj hy)
  | _ => exact Except.error.inj (h.symm.trans h')

end Answer

namespace Call

def program (fundId entryId : Uuid) (now : Instant) : Call → Program Answer
  | createFund name totalUnits owner => do
    return .fund (← (Service.createFund fundId entryId now name totalUnits owner).run)
  | transfer request => do return .transfer (← (Service.executeTransfer request).run)
  | getFund fund => do return .fund (← (Service.getFund fund).run)
  | listFunds params => do return .funds (← (Service.listFunds params).run)
  | getOwnership fund owner => do return .entry (← (Service.getOwnership fund owner).run)
  | getCapTable fund params => do return .capTable (← (Service.getCapTable fund params).run)
  | listTransfers fund params => do return .transfers (← (Service.listTransfers fund params).run)
  | health => do return .health (← Service.checkHealth)
  | reset => do return .reset (← Service.reset)

def key? : Call → Option Uuid
  | transfer request => request.key
  | _ => none

def fund? : Call → Option Uuid
  | transfer request => some request.fund
  | getFund fund | getOwnership fund _ | getCapTable fund _ | listTransfers fund _ => some fund
  | createFund _ _ _ | listFunds _ | health | reset => none

end Call

/-! ## One turn of a program -/

/-- Where a program stands between two turns. -/
inductive Status (α : Type) where
  /-- It asks for this operation next. -/
  | ready (op : Op) (next : op.Answer → Program α)
  /-- It waits for a row lock inside this operation. -/
  | waiting (op : Op) (at_ : Pause op) (next : op.Answer → Program α)
  | finished (a : α)

structure Turn (σ : Type) where
  world : World
  progress : σ
  /-- The operation that was answered in this turn, if one was. -/
  answered : Option Op

def Turn.map {σ τ : Type} (f : σ → τ) (t : Turn σ) : Turn τ := ⟨t.world, f t.progress, t.answered⟩

namespace Status

variable {α : Type}

/-- Leaves reports out, up to the first operation. -/
def ofProgram : Program α → Status α
  | .done a => .finished a
  | .note _ rest => ofProgram rest
  | .call op next => .ready op next

def follow {op : Op} (next : op.Answer → Program α) : World × Progress op → Turn (Status α)
  | (w, .answered a) => ⟨w, ofProgram (next a), some op⟩
  | (w, .paused at_) => ⟨w, .waiting op at_ next, none⟩

def turn (w : World) (p : Party) (now : Instant) : Status α → Turn (Status α)
  | .ready op next => follow next (w.start p now op)
  | .waiting op at_ next =>
    if w.locks.waits p then ⟨w.giveUp p, ofProgram (next (.error .lockTimeout)), some op⟩
    else follow next (w.resume p op at_)
  | .finished a => ⟨w, .finished a, none⟩

def answer? : Status α → Option α
  | .finished a => some a
  | .ready _ _ | .waiting _ _ _ => none

end Status

/-! ## Runs -/

structure Behaviour (σ : Type) where
  start : Call → (fundId entryId : Uuid) → Instant → σ
  turn : World → Party → Instant → σ → Turn σ
  answer? : σ → Option Answer

def programs : Behaviour (Status Answer) where
  start c fundId entryId now := .ofProgram (c.program fundId entryId now)
  turn := Status.turn
  answer? := Status.answer?

structure Caller (σ : Type) where
  call : Call
  /-- The ids that it took when it arrived. -/
  fundId : Uuid
  entryId : Uuid
  /-- The operations that were answered so far. -/
  asked : List Op := []
  progress : σ

structure System (σ : Type) where
  world : World
  caller : Party → Option (Caller σ)

inductive Event where
  | call (p : Party) (c : Call) (now : Instant)
  | turn (p : Party) (now : Instant)
  deriving DecidableEq, Repr

def Event.party : Event → Party
  | call p _ _ | turn p _ => p

namespace System

variable {σ : Type}

def opened (fresh : Nat → Uuid) (tables : Tables) : System σ where
  world := { tables, fresh }
  caller _ := none

variable (B : Behaviour σ)

/-- A party calls: two ids are drawn for it. -/
def arrive (s : System σ) (p : Party) (c : Call) (now : Instant) : System σ :=
  let (w, fundId) := s.world.draw
  let (w, entryId) := w.draw
  { world := w
    caller := Function.update s.caller p
      (some { call := c, fundId, entryId, progress := B.start c fundId entryId now }) }

/-- Keeps what a turn led to. A finished call's transaction is dropped. -/
def keep (s : System σ) (p : Party) (c : Caller σ) (t : Turn σ) : System σ where
  world := if (B.answer? t.progress).isSome then t.world.closeTx p else t.world
  caller := Function.update s.caller p
    (some { c with asked := c.asked ++ t.answered.toList, progress := t.progress })

def step (s : System σ) : Event → System σ
  | .call p c now => if (s.caller p).isSome then s else s.arrive B p c now
  | .turn p now =>
    match s.caller p with
    | none => s
    | some c =>
      if (B.answer? c.progress).isSome then s
      else s.keep B p c (B.turn s.world p now c.progress)

def run (s : System σ) (es : List Event) : System σ := es.foldl (step B) s

def answer? (s : System σ) (p : Party) : Option Answer :=
  (s.caller p).bind fun c => B.answer? c.progress

def asked (s : System σ) (p : Party) : List Op := ((s.caller p).map (·.asked)).getD []

end System

def ledger (fresh : Nat → Uuid) (es : List Event) : System (Status Answer) :=
  (System.opened fresh {}).run programs es

def NoReset (es : List Event) : Prop := ∀ p now, Event.call p .reset now ∉ es

/-- The supply gives different ids at its first `n` places. -/
def DistinctIds (fresh : Nat → Uuid) (n : Nat) : Prop :=
  ∀ i < n, ∀ j < n, fresh i = fresh j → i = j

instance (fresh : Nat → Uuid) (n : Nat) : Decidable (DistinctIds fresh n) :=
  inferInstanceAs (Decidable (∀ i < n, ∀ j < n, fresh i = fresh j → i = j))

end UnitLedger.Concurrent
