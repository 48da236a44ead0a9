import UnitLedger.Proofs.Service.Exchange
import UnitLedger.Service.Transfers

/-!
  UnitLedger.Proofs.Service.Indifference — services look at the kind of a store error only.

  Two store errors are alike if they differ at most in a text, or in the name of a constraint to which no
  service gives a meaning. Two programs are alike if they ask for the same operations, as long as the
  answers are alike, and then come to related results; what they report may differ. So is every service
  to itself: on two stores whose answers are alike at every operation it is answered alike
  (`Program.Alike.outcome`). An error leaves it as it came or not at all.
-/

namespace UnitLedger

/-! ## Errors and answers -/

def Constraint.Meaningless (c : String) : Prop := c ≠ fundName ∧ c ≠ idempotencyKey

/-- The errors differ at most in a text or in the name of a constraint without a meaning. -/
inductive StoreError.Alike : StoreError → StoreError → Prop where
  | lockTimeout : Alike lockTimeout lockTimeout
  | aborted (text text' : String) : Alike (aborted text) (aborted text')
  | unavailable (text text' : String) : Alike (unavailable text) (unavailable text')
  | violation (c : String) : Alike (uniqueViolation c) (uniqueViolation c)
  | violations {c c' : String} (left : Constraint.Meaningless c) (right : Constraint.Meaningless c') :
      Alike (uniqueViolation c) (uniqueViolation c')

theorem StoreError.Alike.refl (e : StoreError) : e.Alike e := by
  cases e with
  | uniqueViolation c => exact .violation c
  | lockTimeout => exact .lockTimeout
  | aborted text => exact .aborted text text
  | unavailable text => exact .unavailable text text

/-- Alike errors are the same to whoever asks for a constraint that has a meaning. -/
theorem StoreError.Alike.violates {e e' : StoreError} (h : e.Alike e') {c : String}
    (meaning : ¬ Constraint.Meaningless c) : e.violates c = e'.violates c := by
  have hother : ∀ {d}, Constraint.Meaningless d → (uniqueViolation d).violates c = false := by
    intro d hd
    have hne : d ≠ c := fun heq => meaning (heq ▸ hd)
    simp [StoreError.violates, hne]
  cases h with
  | violations left right => rw [hother left, hother right]
  | _ => rfl

inductive LedgerError.Alike : LedgerError → LedgerError → Prop where
  | same (e : LedgerError) : Alike e e
  | store {e e' : StoreError} (h : e.Alike e') : Alike (.store e) (.store e')

inductive Likewise {ε α : Type} (E : ε → ε → Prop) : Except ε α → Except ε α → Prop where
  | ok (a : α) : Likewise E (.ok a) (.ok a)
  | error {e e' : ε} (h : E e e') : Likewise E (.error e) (.error e')

theorem Likewise.refl {ε α : Type} {E : ε → ε → Prop} (hE : ∀ e, E e e) (x : Except ε α) :
    Likewise E x x := by
  cases x with
  | ok a => exact .ok a
  | error e => exact .error (hE e)

theorem Likewise.mapError {ε δ α : Type} {E : ε → ε → Prop} {D : δ → δ → Prop} {f : ε → δ}
    (hf : ∀ e e', E e e' → D (f e) (f e')) {x y : Except ε α} (h : Likewise E x y) :
    Likewise D (x.mapError f) (y.mapError f) := by
  cases h with
  | ok a => exact .ok a
  | error h => exact .error (hf _ _ h)

namespace Store

structure Backend.Alike (b b' : Backend) (R : b.State → b'.State → Prop) : Prop where
  answers : ∀ s s' op, R s s' → Likewise StoreError.Alike (b.answer s op).2 (b'.answer s' op).2
  onward : ∀ s s' op, R s s' → R (b.answer s op).1 (b'.answer s' op).1

theorem Backend.alike_refl (b : Backend) : b.Alike b Eq := by
  constructor
  · rintro s _ op rfl
    exact .refl StoreError.Alike.refl _
  · rintro s _ op rfl
    rfl

/-! ## Programs -/

/-- As long as they are answered alike, the programs ask for the same operations, and then `Q` relates
what they come to. -/
inductive Program.Alike {α β : Type} (Q : α → β → Prop) : Program α → Program β → Prop where
  | done {a b} (h : Q a b) : Alike Q (.done a) (.done b)
  | noteLeft {event p q} (h : Alike Q p q) : Alike Q (.note event p) q
  | noteRight {event p q} (h : Alike Q p q) : Alike Q p (.note event q)
  | call {op : Op} {next : op.Answer → Program α} {next' : op.Answer → Program β}
      (h : ∀ a a', Likewise StoreError.Alike a a' → Alike Q (next a) (next' a')) :
      Alike Q (.call op next) (.call op next')

namespace Program

variable {α β γ δ : Type} {Q : α → β → Prop} {T : γ → δ → Prop} {p : Program α} {q : Program β}

theorem Alike.bind {f : α → Program γ} {g : β → Program δ} (h : Alike Q p q)
    (hf : ∀ a b, Q a b → Alike T (f a) (g b)) : Alike T (p >>= f) (q >>= g) := by
  show Alike T (p.bind f) (q.bind g)
  induction h with
  | done h => exact hf _ _ h
  | noteLeft h ih => exact .noteLeft ih
  | noteRight h ih => exact .noteRight ih
  | call h ih => exact .call ih

theorem Alike.imp {Q' : α → β → Prop} (h : Alike Q p q) (hQ : ∀ a b, Q a b → Q' a b) :
    Alike Q' p q := by
  induction h with
  | done h => exact .done (hQ _ _ h)
  | noteLeft h ih => exact .noteLeft ih
  | noteRight h ih => exact .noteRight ih
  | call h ih => exact .call ih

/-- Programs that come to related results, and what may end with an error after them. -/
theorem Alike.lift_bind {ε : Type} {T : Except ε γ → Except ε δ → Prop}
    {f : α → ExceptT ε Program γ} {g : β → ExceptT ε Program δ} (h : Alike Q p q)
    (hf : ∀ a b, Q a b → Alike T (f a).run (g b).run) :
    Alike T (ExceptT.lift p >>= f).run (ExceptT.lift q >>= g).run := by
  rw [ExceptT.run_bind, ExceptT.run_bind]
  have hlift : Alike (fun r r' => ∃ a b, Q a b ∧ r = .ok a ∧ r' = .ok b)
      (ExceptT.lift p : ExceptT ε Program α).run (ExceptT.lift q : ExceptT ε Program β).run :=
    h.bind fun a b hab => .done ⟨a, b, hab, rfl, rfl⟩
  refine hlift.bind fun r r' hr => ?_
  obtain ⟨a, b, hab, rfl, rfl⟩ := hr
  exact hf a b hab

theorem alike_ask (op : Op) : Alike (Likewise StoreError.Alike) (ask op) (ask op) :=
  .call fun _ _ h => .done h

theorem alike_report (event event' : Log.Event) :
    Alike (fun _ _ => True) (report event) (report event') :=
  .noteLeft (.noteRight (.done trivial))

/-- On stores that answer alike, programs that are alike come to related results. -/
theorem Alike.outcome (h : Alike Q p q) {b b' : Backend} {R : b.State → b'.State → Prop}
    (hb : b.Alike b' R) {s : b.State} {s' : b'.State} (hs : R s s') :
    Q (p.outcome b s).2 (q.outcome b' s').2 := by
  induction h generalizing s s' with
  | done h => exact h
  | noteLeft h ih => exact ih hs
  | noteRight h ih => exact ih hs
  | call h ih => exact ih _ _ (hb.answers _ _ _ hs) (hb.onward _ _ _ hs)

end Program

/-! ## Services -/

namespace Service

def Alike {α : Type} (x y : Service α) : Prop :=
  Program.Alike (Likewise LedgerError.Alike) x.run y.run

/-- The service does not tell alike errors apart. -/
def Indifferent {α : Type} (x : Service α) : Prop := Alike x x

variable {α β : Type}

theorem Indifferent.pure (a : α) : Indifferent (pure a : Service α) := .done (.ok a)

theorem alike_throw {e e' : LedgerError} (h : e.Alike e') :
    Alike (throw e : Service α) (throw e') := .done (.error h)

theorem Indifferent.throw (e : LedgerError) : Indifferent (throw e : Service α) :=
  alike_throw (.same e)

theorem Indifferent.lift_except (x : Except LedgerError α) : Indifferent (liftM x : Service α) := by
  cases x with
  | ok a => exact .pure a
  | error e => exact .throw e

theorem Alike.bind {x y : Service α} {f g : α → Service β} (h : Alike x y)
    (hf : ∀ a, Alike (f a) (g a)) : Alike (x >>= f) (y >>= g) := by
  unfold Alike
  rw [ExceptT.run_bind, ExceptT.run_bind]
  refine Program.Alike.bind h fun r r' hr => ?_
  cases hr with
  | ok a => exact hf a
  | error he => exact .done (.error he)

theorem Indifferent.bind {x : Service α} {f : α → Service β} (h : Indifferent x)
    (hf : ∀ a, Indifferent (f a)) : Indifferent (x >>= f) := Alike.bind h hf

theorem Indifferent.ask (op : Op) : Indifferent (ask op) :=
  (Program.alike_ask op).bind fun _ _ h => .done (h.mapError fun _ _ => .store)

theorem alike_lift_bind {Q : α → α → Prop} {p q : Program α} {f g : α → Service β}
    (h : Program.Alike Q p q) (hf : ∀ a b, Q a b → Alike (f a) (g b)) :
    Alike (ExceptT.lift p >>= f) (ExceptT.lift q >>= g) := h.lift_bind hf

theorem alike_attempt_bind {op : Op} {f g : op.Answer → Service β}
    (hf : ∀ a b, Likewise StoreError.Alike a b → Alike (f a) (g b)) :
    Alike (attempt op >>= f) (attempt op >>= g) := alike_lift_bind (Program.alike_ask op) hf

/-- What is reported makes no difference. -/
theorem alike_report_bind {event event' : Log.Event} {f g : Unit → Service β}
    (h : Alike (f ()) (g ())) : Alike (report event >>= f) (report event' >>= g) :=
  alike_lift_bind (Program.alike_report event event') fun _ _ _ => h

end Service

end Store

/-! ## The services of the ledger -/

namespace Service

open Store (Program Service)
open Store.Service

theorem alike_rollback : Program.Alike (fun _ _ => True) rollback rollback := by
  refine (Program.alike_ask _).bind fun r r' h => ?_
  cases h with
  | ok _ => exact .done trivial
  | error he => exact Program.alike_report _ _

theorem indifferent_getFund (fund : Uuid) : Indifferent (getFund fund) := by
  refine .bind (.ask _) fun found => ?_
  cases found with
  | none => exact .throw _
  | some f => exact .pure f

theorem indifferent_listFunds (params : ListParams) : Indifferent (listFunds params) := .ask _

theorem indifferent_getCapTable (fund : Uuid) (params : ListParams) :
    Indifferent (getCapTable fund params) :=
  .bind (indifferent_getFund fund) fun _ => .bind (.ask _) fun _ => .pure _

theorem indifferent_getOwnership (fund : Uuid) (owner : String) :
    Indifferent (getOwnership fund owner) := by
  unfold getOwnership
  cases Name.normalize? owner with
  | none => exact .throw _
  | some stored =>
    refine .bind (indifferent_getFund fund) fun _ => .bind (.ask _) fun found => ?_
    cases found with
    | none => exact .throw _
    | some e => exact .pure e

theorem indifferent_listTransfers (fund : Uuid) (params : ListParams) :
    Indifferent (listTransfers fund params) :=
  .bind (indifferent_getFund fund) fun _ => .ask _

/-! ### The creation of a fund -/

theorem alike_giveUp {e e' : StoreError} (h : e.Alike e') :
    Program.Alike (Likewise StoreError.Alike) (do rollback; return .error e : Program (Except _ Unit))
      (do rollback; return .error e') :=
  alike_rollback.bind fun _ _ _ => .done (.error h)

theorem alike_writeFund (fund : Fund) (entry : Entry) :
    Program.Alike (Likewise StoreError.Alike) (writeFund fund entry) (writeFund fund entry) := by
  refine (Program.alike_ask _).bind fun r r' h => ?_
  cases h with
  | error he => exact alike_giveUp he
  | ok _ =>
    refine (Program.alike_ask _).bind fun r r' h => ?_
    cases h with
    | error he => exact alike_giveUp he
    | ok _ => exact Program.alike_ask .commit

theorem indifferent_createFund (fundId entryId : Uuid) (now : Instant) (name : String)
    (totalUnits : Int) (owner : String) :
    Indifferent (createFund fundId entryId now name totalUnits owner) := by
  refine .bind (.lift_except _) fun fund => .bind (.lift_except _) fun entry =>
    .bind (.ask _) fun _ => alike_lift_bind (alike_writeFund fund entry) fun r r' h => ?_
  cases h with
  | ok _ => exact alike_report_bind (Indifferent.pure fund)
  | @error e e' he =>
    have hname : e.violates Constraint.fundName = e'.violates Constraint.fundName :=
      he.violates fun hmeaningless => hmeaningless.1 rfl
    dsimp only
    rw [hname]
    split
    · exact alike_report_bind (Indifferent.throw _)
    · exact alike_report_bind (alike_throw (.store he))

/-! ### Transfers -/

theorem indifferent_findReplay (order : TransferOrder) : Indifferent (findReplay order) := by
  unfold findReplay
  cases order.key with
  | none => exact .pure none
  | some key =>
    refine .bind (.ask _) fun found => ?_
    cases order.replay found with
    | fresh => exact .pure none
    | same existing => exact .pure (some existing)
    | conflict existing => exact alike_report_bind (Indifferent.throw _)

theorem indifferent_lockSource (order : TransferOrder) : Indifferent (lockSource order) := by
  refine .bind (.ask _) fun locked => ?_
  split
  · exact .pure _
  · refine .bind (.ask _) fun exists_ => ?_
    cases exists_ with
    | true => exact .throw _
    | false => exact .throw _

theorem indifferent_moveUnits (order : TransferOrder) (source : Entry) :
    Indifferent (moveUnits order source) := by
  have hmove : Indifferent (do
      Service.ask (.debit source.id order.units)
      Service.ask (.credit order.fund order.target order.units)
      let record ← Service.ask (.append order)
      Service.report (recordAppended record)
      return record) :=
    .bind (.ask _) fun _ => .bind (.ask _) fun _ => .bind (.ask _) fun record =>
      alike_report_bind (Indifferent.pure record)
  unfold moveUnits
  split
  · exact .bind (.throw _) fun _ => hmove
  · exact hmove

theorem indifferent_applyTransfer (order : TransferOrder) : Indifferent (applyTransfer order) := by
  refine .bind (indifferent_findReplay order) fun found => ?_
  cases found with
  | some existing => exact .pure _
  | none =>
    exact .bind (indifferent_lockSource order) fun source =>
      .bind (indifferent_moveUnits order source) fun _ => .pure _

/-- Alike failures raise the same suspicion that another request with the key has won. -/
theorem raceKey?_alike (order : TransferOrder) {e e' : LedgerError} (h : e.Alike e') :
    raceKey? order e = raceKey? order e' := by
  cases h with
  | same e => rfl
  | store h =>
    simp only [raceKey?]
    rw [h.violates fun hmeaningless => hmeaningless.2 rfl]

theorem alike_settleFailure (order : TransferOrder) {e e' : LedgerError} (h : e.Alike e') :
    Alike (settleFailure order e) (settleFailure order e') := by
  unfold settleFailure
  rw [raceKey?_alike order h]
  cases raceKey? order e' with
  | none => exact alike_report_bind (alike_throw h)
  | some key =>
    refine .bind (Indifferent.ask _) fun _ => alike_attempt_bind fun found found' hfound =>
      alike_lift_bind alike_rollback fun _ _ _ => ?_
    cases hfound with
    | error he => exact alike_throw (.store he)
    | ok found =>
      dsimp only
      cases order.replay found with
      | fresh => exact alike_report_bind (Indifferent.throw _)
      | same existing => exact alike_report_bind (Indifferent.pure existing)
      | conflict _ => exact alike_report_bind (Indifferent.throw _)

theorem indifferent_executeTransfer (request : TransferRequest) :
    Indifferent (executeTransfer request) := by
  refine .bind (.lift_except _) fun order => .bind (.ask _) fun _ =>
    alike_lift_bind (indifferent_applyTransfer order) fun r r' h => ?_
  cases h with
  | error he =>
    exact alike_lift_bind alike_rollback fun _ _ _ => alike_settleFailure order he
  | ok applied =>
    cases applied with
    | replayed existing =>
      exact alike_lift_bind alike_rollback fun _ _ _ => alike_report_bind (Indifferent.pure existing)
    | moved record =>
      refine alike_attempt_bind fun r r' h => ?_
      cases h with
      | ok _ => exact alike_report_bind (Indifferent.pure record)
      | error he => exact alike_settleFailure order (.store he)

/-! ### The store as a whole -/

theorem alike_checkHealth :
    Program.Alike (Likewise StoreError.Alike) checkHealth checkHealth :=
  Program.alike_ask .health

theorem alike_reset : Program.Alike (Likewise StoreError.Alike) reset reset := by
  refine (Program.alike_ask _).bind fun r r' h => ?_
  cases h with
  | ok counts => exact (Program.alike_report _ _).bind fun _ _ _ => .done (.ok counts)
  | error he => exact .done (.error he)

end Service

end UnitLedger
