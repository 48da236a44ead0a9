import UnitLedger.Http.MediaType
import UnitLedger.Http.Query

/-!
  UnitLedger.Http.Request — a request as it reaches the gateway.
-/

namespace UnitLedger.Http

structure Request where
  method : String
  /-- The path and the query, as they stand in the request line. -/
  target : String
  contentType : Option String := none
  body : Bytes := []

namespace Request

/-- The target up to the query or the fragment. -/
def path (r : Request) : String :=
  String.ofList (r.target.toList.takeWhile fun c => c != '?' && c != '#')

/-- What stands between the first question mark and the fragment. -/
def query (r : Request) : String :=
  let cs := r.target.toList.takeWhile (· != '#')
  String.ofList ((cs.dropWhile (· != '?')).drop 1)

/-- The request announces a JSON body. -/
def announcesJson (r : Request) : Bool :=
  ((r.contentType.bind MediaType.ofText?).map (·.isJson)).getD false

end Request

end UnitLedger.Http
