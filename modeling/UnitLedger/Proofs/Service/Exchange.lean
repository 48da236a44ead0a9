import UnitLedger.Sql.Ledger

/-!
  UnitLedger.Proofs.Service.Exchange — what passes between a program and a store.

  A backend is any store: it has a state of its own and may answer each operation with any reply or
  error. `Program.exchanges` lists what a program asks a backend and what it is answered, in order.
  `Program.Runs` tells the same without a backend, for answers of any origin, and has one lemma for
  each way to build a program: what every backend sees is read off these (`runs_exchanges`).

  The database is a backend whose answers come from the replies of a server to the statements of each
  operation (`Sql.ofProgram_outcome`).
-/

namespace UnitLedger.Store

structure Backend where
  State : Type
  answer : State → (op : Op) → State × op.Answer

structure Exchange where
  op : Op
  answer : op.Answer

def Exchange.error? (x : Exchange) : Option StoreError :=
  match x.answer with
  | .ok _ => none
  | .error e => some e

namespace Program

variable {α β : Type}

def exchanges (b : Backend) : Program α → b.State → List Exchange
  | .done _, _ => []
  | .note _ rest, s => rest.exchanges b s
  | .call op next, s =>
    ⟨op, (b.answer s op).2⟩ :: (next (b.answer s op).2).exchanges b (b.answer s op).1

def outcome (b : Backend) : Program α → b.State → b.State × α
  | .done a, s => (s, a)
  | .note _ rest, s => rest.outcome b s
  | .call op next, s => (next (b.answer s op).2).outcome b (b.answer s op).1

theorem outcome_bind {b : Backend} (p : Program α) (f : α → Program β) (s : b.State) :
    (p >>= f).outcome b s = (f (p.outcome b s).2).outcome b (p.outcome b s).1 := by
  show (p.bind f).outcome b s = _
  induction p generalizing s with
  | done a => rfl
  | note event rest ih => exact ih s
  | call op next ih => exact ih _ _

inductive Runs : Program α → List Exchange → α → Prop where
  | done (a : α) : Runs (.done a) [] a
  | note {event rest xs a} (run : Runs rest xs a) : Runs (.note event rest) xs a
  | call {op next xs a} (answer : op.Answer) (run : Runs (next answer) xs a) :
      Runs (.call op next) (⟨op, answer⟩ :: xs) a

theorem runs_exchanges (b : Backend) (p : Program α) (s : b.State) :
    Runs p (p.exchanges b s) (p.outcome b s).2 := by
  induction p generalizing s with
  | done a => exact .done a
  | note event rest ih => exact .note (ih s)
  | call op next ih => exact .call (b.answer s op).2 (ih _ _)

theorem runs_bind {p : Program α} {f : α → Program β} {xs : List Exchange} {r : β} :
    Runs (p >>= f) xs r ↔ ∃ ys a zs, xs = ys ++ zs ∧ Runs p ys a ∧ Runs (f a) zs r := by
  change Runs (p.bind f) xs r ↔ _
  induction p generalizing xs with
  | done a =>
    constructor
    · intro h
      exact ⟨[], a, xs, rfl, .done a, h⟩
    · rintro ⟨ys, a', zs, rfl, hys, hzs⟩
      cases hys
      exact hzs
  | note event rest ih =>
    constructor
    · intro h
      cases h with
      | note run =>
        obtain ⟨ys, a, zs, hxs, hys, hzs⟩ := ih.mp run
        exact ⟨ys, a, zs, hxs, .note hys, hzs⟩
    · rintro ⟨ys, a, zs, hxs, hys, hzs⟩
      cases hys with
      | note run => exact .note (ih.mpr ⟨ys, a, zs, hxs, run, hzs⟩)
  | call op next ih =>
    constructor
    · intro h
      cases h with
      | call answer run =>
        obtain ⟨ys, a, zs, rfl, hys, hzs⟩ := (ih answer).mp run
        exact ⟨_ :: ys, a, zs, rfl, .call answer hys, hzs⟩
    · rintro ⟨ys, a, zs, rfl, hys, hzs⟩
      cases hys with
      | call answer run => exact .call answer ((ih answer).mpr ⟨_, a, zs, rfl, run, hzs⟩)

@[simp] theorem runs_pure {a r : α} {xs : List Exchange} :
    Runs (pure a : Program α) xs r ↔ xs = [] ∧ r = a := by
  constructor
  · intro h
    cases h
    exact ⟨rfl, rfl⟩
  · rintro ⟨rfl, rfl⟩
    exact .done r

@[simp] theorem runs_ask {op : Op} {xs : List Exchange} {r : op.Answer} :
    Runs (ask op) xs r ↔ xs = [⟨op, r⟩] := by
  constructor
  · intro h
    cases h with
    | call answer run =>
      cases run
      rfl
  · rintro rfl
    exact .call r (.done r)

@[simp] theorem runs_report {event : Log.Event} {xs : List Exchange} {r : Unit} :
    Runs (report event) xs r ↔ xs = [] := by
  constructor
  · intro h
    cases h with
    | note run =>
      cases run
      rfl
  · rintro rfl
    exact .note (.done ())

end Program

/-! ## Programs that may stop with an error -/

namespace Service

open Program (Runs)

variable {α β : Type} {xs : List Exchange}

theorem runs_bind {x : Service α} {f : α → Service β} {r : Except LedgerError β} :
    Runs (x >>= f).run xs r ↔
      (∃ e, Runs x.run xs (.error e) ∧ r = .error e) ∨
      ∃ ys a zs, xs = ys ++ zs ∧ Runs x.run ys (.ok a) ∧ Runs (f a).run zs r := by
  rw [ExceptT.run_bind, Program.runs_bind]
  constructor
  · rintro ⟨ys, e | a, zs, rfl, hys, hzs⟩
    · obtain ⟨rfl, rfl⟩ := Program.runs_pure.mp hzs
      exact Or.inl ⟨e, by rwa [List.append_nil], rfl⟩
    · exact Or.inr ⟨ys, a, zs, rfl, hys, hzs⟩
  · rintro (⟨e, hxs, rfl⟩ | ⟨ys, a, zs, rfl, hys, hzs⟩)
    · exact ⟨xs, .error e, [], (List.append_nil _).symm, hxs, Program.runs_pure.mpr ⟨rfl, rfl⟩⟩
    · exact ⟨ys, .ok a, zs, rfl, hys, hzs⟩

@[simp] theorem runs_pure {a : α} {r : Except LedgerError α} :
    Runs (pure a : Service α).run xs r ↔ xs = [] ∧ r = .ok a := Program.runs_pure

@[simp] theorem runs_throw {e : LedgerError} {r : Except LedgerError α} :
    Runs (throw e : Service α).run xs r ↔ xs = [] ∧ r = .error e := Program.runs_pure

/-- A result that is there already. -/
@[simp] theorem runs_lift_except {x r : Except LedgerError α} :
    Runs (liftM x : Service α).run xs r ↔ xs = [] ∧ r = x := by
  cases x <;> exact Program.runs_pure

theorem runs_lift {p : Program α} {r : Except LedgerError α} :
    Runs (ExceptT.lift p : Service α).run xs r ↔ ∃ a, Runs p xs a ∧ r = .ok a := by
  change Runs (p >>= fun a => pure (.ok a)) xs r ↔ _
  rw [Program.runs_bind]
  constructor
  · rintro ⟨ys, a, zs, rfl, hys, hzs⟩
    obtain ⟨rfl, rfl⟩ := Program.runs_pure.mp hzs
    exact ⟨a, by rwa [List.append_nil], rfl⟩
  · rintro ⟨a, hxs, rfl⟩
    exact ⟨xs, a, [], (List.append_nil _).symm, hxs, Program.runs_pure.mpr ⟨rfl, rfl⟩⟩

/-- A program that cannot stop with an error, and what comes after it. -/
theorem runs_lift_bind {p : Program α} {f : α → Service β} {r : Except LedgerError β} :
    Runs (ExceptT.lift p >>= f).run xs r ↔
      ∃ ys a zs, xs = ys ++ zs ∧ Runs p ys a ∧ Runs (f a).run zs r := by
  rw [runs_bind]
  constructor
  · rintro (⟨e, hxs, -⟩ | ⟨ys, a, zs, rfl, hys, hzs⟩)
    · obtain ⟨a, -, hr⟩ := runs_lift.mp hxs
      cases hr
    · obtain ⟨a', hys, ha⟩ := runs_lift.mp hys
      cases ha
      exact ⟨ys, a, zs, rfl, hys, hzs⟩
  · rintro ⟨ys, a, zs, rfl, hys, hzs⟩
    exact Or.inr ⟨ys, a, zs, rfl, runs_lift.mpr ⟨a, hys, rfl⟩, hzs⟩

theorem runs_report_bind {event : Log.Event} {f : Unit → Service β}
    {r : Except LedgerError β} : Runs (report event >>= f).run xs r ↔ Runs (f ()).run xs r := by
  rw [report, runs_lift_bind]
  constructor
  · rintro ⟨ys, a, zs, rfl, hys, hzs⟩
    obtain rfl := Program.runs_report.mp hys
    exact hzs
  · intro h
    exact ⟨[], (), xs, rfl, Program.runs_report.mpr rfl, h⟩

theorem runs_report_pure {event : Log.Event} {a : α} {r : Except LedgerError α} :
    Runs (do report event; return a : Service α).run xs r ↔ xs = [] ∧ r = .ok a :=
  runs_report_bind.trans runs_pure

theorem runs_report_throw {event : Log.Event} {e : LedgerError} {r : Except LedgerError α} :
    Runs (do report event; throw e : Service α).run xs r ↔ xs = [] ∧ r = .error e :=
  runs_report_bind.trans runs_throw

/-- After an operation the program stops with its error, or goes on with its reply. -/
theorem runs_ask_bind {op : Op} {f : op.Reply → Service β} {r : Except LedgerError β} :
    Runs (ask op >>= f).run xs r ↔
      (∃ e, xs = [⟨op, .error e⟩] ∧ r = .error (.store e)) ∨
      ∃ a zs, xs = ⟨op, .ok a⟩ :: zs ∧ Runs (f a).run zs r := by
  have hcall : (ask op >>= f).run = .call op fun answer =>
      ExceptT.bindCont f (answer.mapError .store) := rfl
  rw [hcall]
  constructor
  · intro h
    cases h with
    | call answer run =>
      cases answer with
      | error e =>
        obtain ⟨rfl, rfl⟩ := Program.runs_pure.mp run
        exact Or.inl ⟨e, rfl, rfl⟩
      | ok a => exact Or.inr ⟨a, _, rfl, run⟩
  · rintro (⟨e, rfl, rfl⟩ | ⟨a, zs, rfl, hzs⟩)
    · exact .call (.error e) (Program.runs_pure.mpr ⟨rfl, rfl⟩)
    · exact .call (.ok a) hzs

/-- The program goes on whatever the operation is answered. -/
theorem runs_attempt_bind {op : Op} {f : op.Answer → Service β} {r : Except LedgerError β} :
    Runs (attempt op >>= f).run xs r ↔
      ∃ answer zs, xs = ⟨op, answer⟩ :: zs ∧ Runs (f answer).run zs r := by
  rw [attempt, runs_lift_bind]
  constructor
  · rintro ⟨ys, a, zs, rfl, hys, hzs⟩
    obtain rfl := Program.runs_ask.mp hys
    exact ⟨a, zs, rfl, hzs⟩
  · rintro ⟨answer, zs, rfl, hzs⟩
    exact ⟨_, answer, zs, rfl, Program.runs_ask.mpr rfl, hzs⟩

variable {b : Backend} {s s' : b.State}

theorem outcome_bind {x : Service α} {a : α} (h : x.run.outcome b s = (s', .ok a))
    (f : α → Service β) : (x >>= f).run.outcome b s = (f a).run.outcome b s' := by
  rw [ExceptT.run_bind, Program.outcome_bind, h]

theorem outcome_bind_error {x : Service α} {e : LedgerError}
    (h : x.run.outcome b s = (s', .error e)) (f : α → Service β) :
    (x >>= f).run.outcome b s = (s', .error e) := by
  rw [ExceptT.run_bind, Program.outcome_bind, h]
  rfl

end Service

end UnitLedger.Store

namespace UnitLedger.Sql

open Store (Backend Program)

/-- A database server with any behaviour, and the source of new ids. -/
structure Server where
  State : Type
  newId : State → State × Uuid
  reply : State → Statement → State × Except Failure Result

def Script.outcome {α : Type} (server : Server) : Script α → server.State → server.State × α
  | .done a, s => (s, a)
  | .note _ rest, s => rest.outcome server s
  | .newId next, s => (next (server.newId s).2).outcome server (server.newId s).1
  | .send statement next, s =>
    (next (server.reply s statement).2).outcome server (server.reply s statement).1

def Server.backend (server : Server) (patience : Nat) : Backend where
  State := server.State
  answer s op := (script patience op).outcome server s

theorem Script.outcome_bind {α β : Type} (server : Server) (x : Script α) (f : α → Script β)
    (s : server.State) :
    (x.bind f).outcome server s = (f (x.outcome server s).2).outcome server (x.outcome server s).1 := by
  induction x generalizing s with
  | done a => rfl
  | note event rest ih => exact ih s
  | newId next ih => exact ih _ _
  | send statement next ih => exact ih _ _

/-- A program on a database server is that program on the server's ledger store. -/
theorem ofProgram_outcome {α : Type} (server : Server) (patience : Nat) (p : Program α)
    (s : server.State) :
    (ofProgram patience p).outcome server s = p.outcome (server.backend patience) s := by
  induction p generalizing s with
  | done a => rfl
  | note event rest ih => exact ih s
  | call op next ih =>
    rw [ofProgram, Script.outcome_bind]
    exact ih _ _

end UnitLedger.Sql
