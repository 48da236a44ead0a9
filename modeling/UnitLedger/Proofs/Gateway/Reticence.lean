import UnitLedger.Gateway.Endpoint
import UnitLedger.Proofs.Service.Indifference

/-!
  UnitLedger.Proofs.Gateway.Reticence — what a caller is told does not depend on the texts of store errors.

  A handler is settled if it ends alike in two runs whose stores answer alike: with the same answer, or
  with the same refusal. Settled handlers compose (`Settles.bind`); a service that does not tell alike
  errors apart is settled once its error is a refusal (`settles_serve`), since all store errors have one
  refusal. The two handlers that look at a store error themselves only report it (`settles_checkHealth`,
  `settles_reset`).

  On the way it is kept that what a handler returns is a success with data and that each refusal denies:
  its status is not one of success and its code is not that of success.
-/

namespace UnitLedger.Gateway

open Store (Backend Program Service)
open Store.Service (Indifferent)

/-! ## Reading an answer -/

namespace Response

def Succeeds (a : Response) : Prop := 200 ≤ a.status ∧ a.status < 300

instance (a : Response) : Decidable a.Succeeds := inferInstanceAs (Decidable (_ ∧ _))

def code? (a : Response) : Option Json := a.body.bind (Json.field? "code")

def data? (a : Response) : Option Json := a.body.bind (Json.field? "data")

/-- The answer has a numeric code; its status, its code and the presence of data say the same. -/
def Agrees (a : Response) : Prop :=
  ∃ code, a.code? = some (.int code) ∧ (a.Succeeds ↔ code = 0) ∧ (code = 0 ↔ a.data?.isSome)

end Response

theorem agrees_ok (data : Json) : (ok data).Agrees := by
  refine ⟨0, rfl, ?_, ?_⟩
  · simp [Response.Succeeds, ok]
  · simp [Response.data?, ok, success, Json.field?]

theorem agrees_created (data : Json) : (created data).Agrees := by
  refine ⟨0, rfl, ?_, ?_⟩
  · simp [Response.Succeeds, created]
  · simp [Response.data?, created, success, Json.field?]

namespace Refusal

structure Denies (r : Refusal) : Prop where
  status : ¬ (200 ≤ r.status ∧ r.status < 300)
  code : r.code ≠ 0

theorem Denies.agrees {r : Refusal} (h : r.Denies) : r.response.Agrees := by
  refine ⟨r.code, rfl, ?_, ?_⟩
  · exact iff_of_false h.status h.code
  · refine iff_of_false h.code ?_
    simp [Response.data?, response, body, Json.field?]

theorem denies_badRequest (msg : String) : (badRequest msg).Denies :=
  ⟨by simp [badRequest], by simp [badRequest, Code.invalidParameter]⟩

theorem denies_serviceUnavailable (msg : String) : (serviceUnavailable msg).Denies :=
  ⟨by simp [serviceUnavailable], by simp [serviceUnavailable, Code.serviceUnavailable]⟩

theorem denies_ofLedger (e : LedgerError) : (ofLedger e).Denies := by
  constructor
  · cases e <;> simp [ofLedger, LedgerError.httpStatus]
  · cases e <;> simp [ofLedger, Code.ofLedger]

/-- A caller is not told more of an error than what alike errors have in common. -/
theorem ofLedger_alike {e e' : LedgerError} (h : e.Alike e') : ofLedger e = ofLedger e' := by
  cases h with
  | same e => rfl
  | store h => rfl

end Refusal

/-! ## Settled handlers -/

inductive Settled {α : Type} (P : α → Prop) : Except Refusal α → Except Refusal α → Prop where
  | returned {a : α} (h : P a) : Settled P (.ok a) (.ok a)
  | refused {refusal : Refusal} (h : refusal.Denies) : Settled P (.error refusal) (.error refusal)

def Settles {α : Type} (P : α → Prop) (x : Handler α) : Prop :=
  Program.Alike (Settled P) x.run x.run

section Rules

variable {α β : Type} {P : β → Prop} {Q : α → Prop}

theorem settles_pure {b : β} (h : P b) : Settles P (pure b) := .done (.returned h)

theorem settles_throw {refusal : Refusal} (h : refusal.Denies) :
    Settles P (throw refusal : Handler β) := .done (.refused h)

theorem Settles.bind {x : Handler α} {f : α → Handler β} (h : Settles Q x)
    (hf : ∀ a, Q a → Settles P (f a)) : Settles P (x >>= f) := by
  unfold Settles
  rw [ExceptT.run_bind]
  refine Program.Alike.bind h fun r r' hr => ?_
  cases hr with
  | returned ha => exact hf _ ha
  | refused hrefusal => exact .done (.refused hrefusal)

/-- A service that does not tell alike errors apart, and what its result is used for. -/
theorem settles_serve {service : Service α} (h : Indifferent service) {f : α → Handler β}
    (hf : ∀ a, Settles P (f a)) : Settles P (serve service >>= f) := by
  have hserve : Settles (fun _ => True) (serve service) := by
    refine Program.Alike.bind h fun r r' hr => ?_
    cases hr with
    | ok a => exact .done (.returned trivial)
    | @error e e' he =>
      have hend : Program.Alike (Settled fun _ : α => True)
          (pure (.error (.ofLedger e))) (pure (.error (.ofLedger e'))) := by
        rw [Refusal.ofLedger_alike he]
        exact .done (.refused (Refusal.denies_ofLedger e'))
      -- Only a store error is reported; the two runs agree on whether there is one.
      cases he with
      | store he => exact (Program.alike_report _ _).bind fun _ _ _ => hend
      | same e =>
        cases e with
        | store error => exact (Program.alike_report _ _).bind fun _ _ _ => hend
        | _ => exact hend
  exact hserve.bind fun a _ => hf a

end Rules

/-! ## Reading requests -/

def Readable {α : Type} (result : Except Refusal α) : Prop :=
  ∀ refusal, result = .error refusal → refusal.Denies

section Reading

variable {α β : Type}

theorem readable_ok (a : α) : Readable (.ok a) := fun _ h => nomatch h

theorem readable_badRequest (msg : String) :
    Readable (.error (.badRequest msg) : Except Refusal α) := by
  intro refusal h
  cases h
  exact Refusal.denies_badRequest msg

theorem readable_pathText (part : String) : Readable (pathText part) := by
  unfold pathText
  split
  · exact readable_ok _
  · exact readable_badRequest _

theorem Readable.bind {result : Except Refusal α} {f : α → Except Refusal β} (h : Readable result)
    (hf : ∀ a, Readable (f a)) : Readable (result >>= f) := by
  cases result with
  | error refusal =>
    intro refusal' hrefusal
    cases hrefusal
    exact h refusal rfl
  | ok a => exact hf a

theorem readable_pathId (part : String) : Readable (pathId part) := by
  refine (readable_pathText part).bind fun text => ?_
  split
  · exact readable_ok _
  · exact readable_badRequest _

theorem readable_queryParams (r : Http.Request) : Readable (queryParams r) := by
  unfold queryParams
  split
  · exact readable_ok _
  · exact readable_badRequest _

theorem readable_jsonBody (read : Json.Bytes → Except Json.Fault α) (r : Http.Request) :
    Readable (jsonBody read r) := by
  unfold jsonBody
  split
  · exact readable_badRequest _
  · split
    · exact readable_badRequest _
    · cases read r.body with
      | ok a => exact readable_ok a
      | error fault =>
        cases fault with
        | notJson => exact readable_badRequest _
        | wrongShape => exact readable_badRequest _

/-- A part of the request, and what it is used for. -/
theorem settles_read {result : Except Refusal α} (h : Readable result) {P : β → Prop}
    {f : α → Handler β} (hf : ∀ a, Settles P (f a)) : Settles P (read result >>= f) := by
  have hread : Settles (fun _ => True) (read result) := by
    cases result with
    | ok a => exact .done (.returned trivial)
    | error refusal => exact .done (.refused (h refusal rfl))
  exact hread.bind fun a _ => hf a

end Reading

/-! ## Endpoints -/

section Endpoints

open UnitLedger.Service

variable (at_ : Surroundings) (r : Http.Request) (fund owner : String)

theorem settles_createFund : Settles Response.Agrees (createFund at_ r) :=
  settles_read (readable_jsonBody _ r) fun _ =>
    settles_serve (indifferent_createFund _ _ _ _ _ _) fun _ => settles_pure (agrees_created _)

theorem settles_listFunds : Settles Response.Agrees (listFunds r) :=
  settles_read (readable_queryParams r) fun params =>
    settles_serve (indifferent_listFunds params) fun _ => settles_pure (agrees_ok _)

theorem settles_getFund : Settles Response.Agrees (getFund fund) :=
  settles_read (readable_pathId fund) fun id =>
    settles_serve (indifferent_getFund id) fun _ => settles_pure (agrees_ok _)

theorem settles_getCapTable : Settles Response.Agrees (getCapTable fund r) :=
  settles_read (readable_pathId fund) fun id =>
    settles_read (readable_queryParams r) fun params =>
      settles_serve (indifferent_getCapTable id params) fun _ => settles_pure (agrees_ok _)

theorem settles_getOwnership : Settles Response.Agrees (getOwnership fund owner) :=
  settles_read (readable_pathId fund) fun id =>
    settles_read (readable_pathText owner) fun name =>
      settles_serve (indifferent_getOwnership id name) fun _ => settles_pure (agrees_ok _)

theorem settles_createTransfer : Settles Response.Agrees (createTransfer fund r) :=
  settles_read (readable_pathId fund) fun _ =>
    settles_read (readable_jsonBody _ r) fun _ =>
      settles_serve (indifferent_executeTransfer _) fun _ => settles_pure (agrees_created _)

theorem settles_listTransfers : Settles Response.Agrees (listTransfers fund r) :=
  settles_read (readable_pathId fund) fun id =>
    settles_read (readable_queryParams r) fun params =>
      settles_serve (indifferent_listTransfers id params) fun _ => settles_pure (agrees_ok _)

theorem settles_checkHealth : Settles Response.Agrees (checkHealth at_) := by
  refine alike_checkHealth.lift_bind fun r r' h => ?_
  cases h with
  | ok _ => exact settles_pure (agrees_ok _)
  | error he =>
    exact (Program.alike_report _ _).lift_bind fun _ _ _ =>
      settles_throw (Refusal.denies_serviceUnavailable _)

theorem settles_reset : Settles Response.Agrees reset := by
  refine alike_reset.lift_bind fun r r' h => ?_
  cases h with
  | ok counts => exact settles_pure (agrees_ok _)
  | error he =>
    exact (Program.alike_report _ _).lift_bind fun _ _ _ =>
      settles_throw (Refusal.denies_serviceUnavailable _)

theorem settles_endpoint {route : Route} {action : Route.Action} {handler : Handler Response}
    (h : endpoint? at_ r route action = some handler) (hledger : route ≠ .document) :
    Settles Response.Agrees handler := by
  unfold endpoint? at h
  split at h
  · cases h
    exact settles_checkHealth at_
  · cases h
    exact settles_listFunds r
  · cases h
    exact settles_createFund at_ r
  · cases h
    exact settles_getFund _
  · cases h
    exact settles_getCapTable r _
  · cases h
    exact settles_getOwnership _ _
  · cases h
    exact settles_listTransfers r _
  · cases h
    exact settles_createTransfer r _
  · cases h
    exact settles_reset
  · exact absurd rfl hledger
  · cases h

end Endpoints

/-! ## Answers -/

/-- The answer of a settled handler is the same in both runs, be it a refusal. -/
theorem alike_answer {handler : Handler Response} (h : Settles Response.Agrees handler) :
    Program.Alike (fun a a' => a = a' ∧ a.Agrees) (answer handler) (answer handler) := by
  refine Program.Alike.bind h fun r r' hr => ?_
  cases hr with
  | returned ha => exact .done ⟨rfl, ha⟩
  | refused hrefusal => exact .done ⟨rfl, hrefusal.agrees⟩

theorem alike_answer_endpoint {at_ : Surroundings} {r : Http.Request} {route : Route}
    {action : Route.Action} {handler : Handler Response}
    (h : endpoint? at_ r route action = some handler) :
    Program.Alike Eq (answer handler) (answer handler) := by
  by_cases hdocument : route = .document
  · subst hdocument
    cases action with
    | write => cases h
    | read =>
      cases h
      exact .done rfl
  · exact (alike_answer (settles_endpoint at_ r h hdocument)).imp fun _ _ hsame => hsame.1

theorem alike_respond (at_ : Surroundings) (r : Http.Request) :
    Program.Alike Eq (respond at_ r) (respond at_ r) := by
  unfold respond
  split
  · exact .done rfl
  · split
    · exact .done rfl
    · rename_i handler hhandler
      obtain ⟨action, -, hendpoint⟩ := Option.bind_eq_some_iff.mp hhandler
      refine (alike_answer_endpoint hendpoint).bind fun a a' hsame => ?_
      subst hsame
      exact .done rfl

/-- Two stores whose answers differ at most in the texts of errors, or in the names of constraints
without a meaning, lead to the same answer to every request, at the same time and with the same ids for
what is new. At every address of the ledger an answer has a numeric code, and its status is one of
success exactly if this code is 0, and exactly if it carries data. -/
theorem texts_stay_inside (at_ : Surroundings) (r : Http.Request) :
    (∀ (b b' : Backend) (R : b.State → b'.State → Prop) (s : b.State) (s' : b'.State),
      b.Alike b' R → R s s' → ((respond at_ r).outcome b s).2 = ((respond at_ r).outcome b' s').2) ∧
    ∀ (route : Route) (action : Route.Action) (handler : Handler Response), route ≠ .document →
      endpoint? at_ r route action = some handler → ∀ (b : Backend) (s : b.State),
        ((answer handler).outcome b s).2.Agrees := by
  constructor
  · intro b b' R s s' hb hs
    exact (alike_respond at_ r).outcome hb hs
  · intro route action handler hledger hendpoint b s
    have halike := alike_answer (settles_endpoint at_ r hendpoint hledger)
    exact (halike.outcome b.alike_refl (rfl : s = s)).2

/-- A store that lets a fund be written but ends every other operation, its commit too, with an error. -/
def closing (e : StoreError) : Backend where
  State := Unit
  answer _ op := ((), match op with
    | .openTx | .createFund _ | .createEntry _ => .ok ()
    | _ => .error e)

theorem closing_alike {e e' : StoreError} (h : e.Alike e') :
    (closing e).Alike (closing e') fun _ _ => True := by
  constructor
  · intro _ _ op _
    cases op with
    | openTx | createFund _ | createEntry _ => exact .ok ()
    | _ => exact .error h
  · intro _ _ _ _
    trivial

def noon : Surroundings := ⟨Uuid.ofNat 1, Uuid.ofNat 2, ⟨0⟩, "v1", .null⟩

def hullRequest : Http.Request where
  method := "POST"
  target := "/api/v1/funds"
  contentType := some "application/json"
  body := "\x7b\"name\":\"Hull\",\"totalUnits\":10,\"initialOwner\":\"Ada\"\x7d".toUTF8.toList

/-- Of a commit that two stores refuse for different reasons the caller learns the same. -/
theorem refused_hull_told :
    let id := closing (.uniqueViolation Constraint.fundId)
    let owner := closing (.uniqueViolation Constraint.activeOwner)
    id.Alike owner (fun _ _ => True) ∧
      ((respond noon hullRequest).outcome id ()).2 = ((respond noon hullRequest).outcome owner ()).2 ∧
      ((respond noon hullRequest).outcome id ()).2.status = 500 ∧
      endpoint? noon hullRequest .funds .write = some (createFund noon hullRequest) ∧
      ((answer (createFund noon hullRequest)).outcome id ()).2.Agrees := by
  intro id owner
  have halike : id.Alike owner fun _ _ => True :=
    closing_alike (.violations ⟨by decide, by decide⟩ ⟨by decide, by decide⟩)
  obtain ⟨hsame, hagrees⟩ := texts_stay_inside noon hullRequest
  refine ⟨halike, hsame _ _ _ _ _ halike trivial, ?_, rfl, ?_⟩
  · decide +kernel
  · exact hagrees .funds .write _ (by decide) rfl _ _

end UnitLedger.Gateway
