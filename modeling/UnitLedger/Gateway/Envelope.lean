import UnitLedger.Error
import UnitLedger.Json.Value

/-!
  UnitLedger.Gateway.Envelope — the form of every answer of the HTTP interface.

  An answer has a status and, unless the router itself gives it, a body with a numeric code, a short
  message and, on success only, the data. Code 0 is success. The texts of store errors stay inside:
  a caller only learns that an internal error occurred.
-/

namespace UnitLedger.Gateway

structure Response where
  status : Nat
  /-- The methods that the address accepts, where the answer lists them. -/
  allow : List String := []
  body : Option Json := none
  deriving Repr

/-! ## Numeric codes -/

namespace Code

def success : Int := 0
def invalidParameter : Int := 1000
def serviceUnavailable : Int := 5001

/-- Each kind of ledger error has a code of its own. -/
def ofLedger : LedgerError → Int
  | .invalidFund => 1001
  | .invalidOwner => 1002
  | .invalidUnits _ => 1003
  | .selfTransfer => 1004
  | .insufficientUnits _ _ => 1005
  | .fundNotFound _ => 4001
  | .ownerNotFound _ _ => 4002
  | .duplicateFundName _ => 4091
  | .duplicateIdempotencyKey => 4092
  | .store _ => 5000

end Code

/-! ## Answers -/

/-- The body of a successful answer. -/
def success (data : Json) : Json :=
  .obj [("code", .int Code.success), ("msg", .str "ok"), ("data", data)]

def ok (data : Json) : Response := { status := 200, body := some (success data) }

def created (data : Json) : Response := { status := 201, body := some (success data) }

/-- A refusal: its HTTP status, its numeric code and its message. -/
structure Refusal where
  status : Nat
  code : Int
  msg : String
  deriving DecidableEq, Repr

namespace Refusal

def badRequest (msg : String) : Refusal := ⟨400, Code.invalidParameter, msg⟩

def serviceUnavailable (msg : String) : Refusal := ⟨503, Code.serviceUnavailable, msg⟩

/-- Store errors are not told apart from each other. -/
def ofLedger (e : LedgerError) : Refusal where
  status := e.httpStatus
  code := Code.ofLedger e
  msg := e.code ++ ": " ++ (match e with
    | .store _ => "internal error"
    | e => e.message)

def body (r : Refusal) : Json := .obj [("code", .int r.code), ("msg", .str r.msg)]

def response (r : Refusal) : Response := { status := r.status, body := some r.body }

end Refusal

end UnitLedger.Gateway
