import UnitLedger.Gateway.Data
import UnitLedger.Gateway.Envelope
import UnitLedger.Gateway.Payload
import UnitLedger.Gateway.Route
import UnitLedger.Http.Request
import UnitLedger.Service.Transfers

/-!
  UnitLedger.Gateway.Endpoint — answering requests.

  A request is read before the ledger is asked: first the parameters in the path, then the query or
  the body. What cannot be read is refused. A ledger error becomes a refusal; the text of a store
  error goes to the log and not to the caller.
-/

namespace UnitLedger.Gateway

open Store (Program Service)

/-- What a request finds beside itself: unused ids for what it creates, the time, and what the
program tells about itself. -/
structure Surroundings where
  firstId : Uuid
  secondId : Uuid
  now : Instant
  version : String
  /-- The description of the interface. -/
  document : Json

/-- Work on a request that may end with a refusal. -/
abbrev Handler (α : Type) : Type := ExceptT Refusal Program α

/-! ## Reading requests -/

def unreadablePath (detail : String) : Refusal := .badRequest ("Invalid URL: " ++ detail)

def pathText (part : String) : Except Refusal String :=
  match Http.percentText? part with
  | some s => .ok s
  | none => .error (unreadablePath "Invalid UTF-8 in path")

def pathId (part : String) : Except Refusal Uuid := do
  match Uuid.ofText? (← pathText part) with
  | some id => return id
  | none => throw (unreadablePath "UUID parsing failed")

def queryParams (r : Http.Request) : Except Refusal ListParams :=
  match Http.listParams? r.query with
  | some params => .ok params
  | none => .error (.badRequest
      "Failed to deserialize query string: limit and offset must be integers, each at most once")

def unreadableBody : Json.Fault → Refusal
  | .notJson => .badRequest "Failed to parse the request body as JSON: malformed text"
  | .wrongShape =>
    .badRequest "Failed to deserialize the JSON body into the target type: unexpected value"

/-- The most bytes that a body may have. -/
def bodyLimit : Nat := 2097152

def jsonBody {α : Type} (read : Json.Bytes → Except Json.Fault α) (r : Http.Request) :
    Except Refusal α :=
  if !r.announcesJson then
    .error (.badRequest "Expected request with `Content-Type: application/json`")
  else if bodyLimit < r.body.length then
    .error (.badRequest "Failed to buffer the request body: length limit exceeded")
  else (read r.body).mapError unreadableBody

/-! ## Asking the ledger -/

def storeFailed (e : StoreError) : Log.Event where
  level := .error
  area := "captable::gateway::types::response"
  message := "Ledger store failure"
  fields := [("error", .shown e.message)]

/-- Runs a service; its error becomes a refusal, and a store error is reported. -/
def serve {α : Type} (service : Service α) : Handler α :=
  ExceptT.mk do
    match ← service.run with
    | .ok a => return .ok a
    | .error e =>
      if let .store error := e then Program.report (storeFailed error)
      return .error (.ofLedger e)

def read {α : Type} (result : Except Refusal α) : Handler α := ExceptT.mk (return result)

/-- The answer of a handler: its own, or its refusal. -/
def answer (handler : Handler Response) : Program Response := do
  match ← handler.run with
  | .ok response => return response
  | .error refusal => return refusal.response

/-! ## Endpoints -/

def createFund (at_ : Surroundings) (r : Http.Request) : Handler Response := do
  let new ← read (jsonBody NewFund.read r)
  let fund ← serve
    (Service.createFund at_.firstId at_.secondId at_.now new.name new.totalUnits new.owner)
  return created (fundData fund)

def listFunds (r : Http.Request) : Handler Response := do
  let params ← read (queryParams r)
  return ok (pageData fundData (← serve (Service.listFunds params)))

def getFund (fund : String) : Handler Response := do
  let fund ← read (pathId fund)
  return ok (fundData (← serve (Service.getFund fund)))

def getCapTable (fund : String) (r : Http.Request) : Handler Response := do
  let fund ← read (pathId fund)
  let params ← read (queryParams r)
  return ok (capTableData (← serve (Service.getCapTable fund params)))

def getOwnership (fund owner : String) : Handler Response := do
  let fund ← read (pathId fund)
  let owner ← read (pathText owner)
  return ok (ownershipData (← serve (Service.getOwnership fund owner)))

def createTransfer (fund : String) (r : Http.Request) : Handler Response := do
  let fund ← read (pathId fund)
  let new ← read (jsonBody NewTransfer.read r)
  let request : TransferRequest :=
    { fund, source := new.source, target := new.target, units := new.units, key := new.key }
  return created (transferData (← serve (Service.executeTransfer request)))

def listTransfers (fund : String) (r : Http.Request) : Handler Response := do
  let fund ← read (pathId fund)
  let params ← read (queryParams r)
  return ok (pageData transferData (← serve (Service.listTransfers fund params)))

def unhealthy (e : StoreError) : Log.Event where
  level := .error
  area := "captable::gateway::handlers::health"
  message := "[HEALTH] Ledger store check failed: " ++ e.message

def checkHealth (at_ : Surroundings) : Handler Response := do
  match ← ExceptT.lift Service.checkHealth with
  | .ok () => return ok (healthData at_.now at_.version)
  | .error e =>
    ExceptT.lift (Program.report (unhealthy e))
    throw (.serviceUnavailable "unavailable")

def resetFailed (e : StoreError) : Log.Event where
  level := .error
  area := "captable::gateway::handlers::admin"
  message := "Ledger reset failed"
  fields := [("error", .shown e.message)]

def reset : Handler Response := do
  match ← ExceptT.lift Service.reset with
  | .ok counts => return ok (resetData counts)
  | .error e =>
    ExceptT.lift (Program.report (resetFailed e))
    throw (.serviceUnavailable "reset failed")

/-- What an action at an address does, if the address offers it. -/
def endpoint? (at_ : Surroundings) (r : Http.Request) :
    Route → Route.Action → Option (Handler Response)
  | .health, .read => some (checkHealth at_)
  | .funds, .read => some (listFunds r)
  | .funds, .write => some (createFund at_ r)
  | .fund fund, .read => some (getFund fund)
  | .capTable fund, .read => some (getCapTable fund r)
  | .ownership fund owner, .read => some (getOwnership fund owner)
  | .transfers fund, .read => some (listTransfers fund r)
  | .transfers fund, .write => some (createTransfer fund r)
  | .reset, .write => some reset
  | .document, .read => some (return { status := 200, body := some at_.document })
  | _, _ => none

/-- An address answers the actions that it lists, and no other. -/
theorem endpoint?_isSome (at_ : Surroundings) (r : Http.Request) (route : Route)
    (a : Route.Action) : (endpoint? at_ r route a).isSome ↔ a ∈ route.actions := by
  cases route <;> cases a <;> simp [endpoint?, Route.actions]

/-- An address that does not exist. -/
def notFound : Response := { status := 404 }

/-- An address that does not answer the method: the answer lists those that it does. -/
def methodNotAllowed (route : Route) : Response := { status := 405, allow := route.methods }

/-- The answer to a request. The answer to HEAD is that to GET without its body. -/
def respond (at_ : Surroundings) (r : Http.Request) : Program Response :=
  match Route.ofPath? r.path with
  | none => return notFound
  | some route =>
    match (Route.Action.ofMethod? r.method).bind (endpoint? at_ r route) with
    | none => return methodNotAllowed route
    | some handler => do
      let response ← answer handler
      return if r.method = "HEAD" then { response with body := none } else response

end UnitLedger.Gateway
