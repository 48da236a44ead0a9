/-!
  UnitLedger.Gateway.Route — the addresses of the HTTP interface.

  An address is compared part by part as it is written, before any decoding; where an address has a
  parameter, any part stands that is not empty. Every address answers some of the methods GET and
  POST, and one that answers GET answers HEAD too.
-/

namespace UnitLedger.Gateway

inductive Route where
  | health
  | funds
  | fund (fund : String)
  | capTable (fund : String)
  | ownership (fund owner : String)
  | transfers (fund : String)
  | reset
  | document
  deriving DecidableEq, Repr

/-- The parts of a path between its slashes. -/
def pathParts : List Char → List String
  | [] => [""]
  | '/' :: rest => "" :: pathParts rest
  | c :: rest =>
    match pathParts rest with
    | [] => [String.singleton c]
    | part :: parts => (String.singleton c ++ part) :: parts

namespace Route

def ofParts? : List String → Option Route
  | ["api", "v1", "health"] => some health
  | ["api", "v1", "funds"] => some funds
  | ["api", "v1", "funds", f] => some (fund f)
  | ["api", "v1", "funds", f, "cap-table"] => some (capTable f)
  | ["api", "v1", "funds", f, "cap-table", owner] => some (ownership f owner)
  | ["api", "v1", "funds", f, "transfers"] => some (transfers f)
  | ["internal", "reset"] => some reset
  | ["api-docs", "openapi.json"] => some document
  | _ => none

/-- The address of a path, which starts with a slash and has no empty part. -/
def ofPath? (path : String) : Option Route :=
  match pathParts path.toList with
  | "" :: parts => if parts.contains "" then none else ofParts? parts
  | _ => none

/-- What a caller may do at an address. -/
inductive Action where
  | read
  | write
  deriving DecidableEq, Repr

def actions : Route → List Action
  | health | fund _ | capTable _ | ownership _ _ | document => [.read]
  | funds | transfers _ => [.read, .write]
  | reset => [.write]

end Route

open Route in
/-- The action that a method asks for. -/
def Route.Action.ofMethod? : String → Option Action
  | "GET" | "HEAD" => some .read
  | "POST" => some .write
  | _ => none

def Route.Action.methods : Route.Action → List String
  | .read => ["GET", "HEAD"]
  | .write => ["POST"]

/-- The methods that an address answers. -/
def Route.methods (r : Route) : List String := r.actions.flatMap Action.methods

end UnitLedger.Gateway
