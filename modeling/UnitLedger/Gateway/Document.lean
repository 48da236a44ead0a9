import UnitLedger.Json.Value

/-!
  UnitLedger.Gateway.Document — the description of the HTTP interface in the OpenAPI format.

  The description lists every address with its methods, parameters and answers, and a schema for
  each body.
-/

namespace UnitLedger.Gateway.Document

/-! ## Schemas -/

/-- One property of an object. -/
structure Property where
  name : String
  schema : List (String × Json)
  /-- What the property means, where its name does not say it. -/
  description : Option String := none
  sample : Option Json := none
  isRequired : Bool := true

def kind (name : String) : String × Json := ("type", .str name)

def format (name : String) : String × Json := ("format", .str name)

def text : List (String × Json) := [kind "string"]

def uuid : List (String × Json) := [kind "string", format "uuid"]

def optionalUuid : List (String × Json) :=
  [("type", .arr [.str "string", .str "null"]), format "uuid"]

def time : List (String × Json) := [kind "string", format "date-time"]

def int32 : List (String × Json) := [kind "integer", format "int32"]

def int64 : List (String × Json) := [kind "integer", format "int64"]

/-- A number of rows. -/
def count : List (String × Json) := int64 ++ [("minimum", .int 0)]

def double : List (String × Json) := [kind "number", format "double"]

/-- A reference to the schema of this name. -/
def reference (schema : String) : Json := .obj [("$ref", .str ("#/components/schemas/" ++ schema))]

def listOf (schema : String) : List (String × Json) := [kind "array", ("items", reference schema)]

/-- A field that is left out when it has no value. -/
def optionalField (name : String) (value : Option Json) : List (String × Json) :=
  match value with
  | none => []
  | some v => [(name, v)]

def Property.json (p : Property) : String × Json :=
  (p.name, .obj (p.schema ++ optionalField "description" (p.description.map .str)
    ++ optionalField "example" p.sample))

def object (name : String) (description : Option String) (properties : List Property) :
    String × Json :=
  (name, .obj ([kind "object"] ++ optionalField "description" (description.map .str)
    ++ [("required", .arr ((properties.filter (·.isRequired)).map fun p => .str p.name)),
      ("properties", .obj (properties.map Property.json))]))

/-- One page of a list. -/
def page (name item : String) : String × Json :=
  object name none
    [{ name := "items", schema := listOf item }, { name := "total", schema := int64 },
      { name := "limit", schema := int64 }, { name := "offset", schema := int64 }]

def schemas : List (String × Json) :=
  [object "HealthResponse" (some "Health check response data")
    [{ name := "timestampMs", schema := int64
       description := some "Server timestamp in milliseconds"
       sample := some (.int 1703494800000) },
      { name := "version", schema := text, description := some "Build commit"
        sample := some (.str "a1b2c3d") }],
  object "CreateFundRequest" (some "Create a fund with one initial owner holding every unit")
    [{ name := "name", schema := text, sample := some (.str "Growth Fund I") },
      { name := "totalUnits", schema := int64, sample := some (.int 1000) },
      { name := "initialOwner", schema := text, sample := some (.str "Alice") }],
  object "FundData" none
    [{ name := "id", schema := uuid }, { name := "name", schema := text },
      { name := "totalUnits", schema := int32 }, { name := "createdAt", schema := time }],
  page "FundListData" "FundData",
  object "CapTableData" none
    [{ name := "fundId", schema := uuid }, { name := "fundName", schema := text },
      { name := "totalUnits", schema := int32 },
      { name := "entries", schema := listOf "CapTableRowData" },
      { name := "total", schema := int64
        description := some "Active entries in the fund, independent of the page window" },
      { name := "limit", schema := int64 }, { name := "offset", schema := int64 }],
  object "CapTableRowData" none
    [{ name := "ownerName", schema := text }, { name := "units", schema := int32 },
      { name := "percentage", schema := double
        description := some "Share of the fund's total units, 0-100"
        sample := some (.real ⟨false, 80, 0⟩) },
      { name := "acquiredAt", schema := time }, { name := "updatedAt", schema := time }],
  object "OwnershipData" (some "One owner's stake")
    [{ name := "fundId", schema := uuid }, { name := "ownerName", schema := text },
      { name := "units", schema := int32 }, { name := "acquiredAt", schema := time },
      { name := "updatedAt", schema := time }],
  object "CreateTransferRequest" (some "Move units between two owners of the fund in the path")
    [{ name := "fromOwner", schema := text, sample := some (.str "Alice") },
      { name := "toOwner", schema := text, sample := some (.str "Bob") },
      { name := "units", schema := int64, sample := some (.int 200) },
      { name := "idempotencyKey", schema := optionalUuid, isRequired := false
        description :=
          some "Replaying the same key with the same data returns the original transfer" }],
  object "TransferData" none
    [{ name := "id", schema := uuid }, { name := "fundId", schema := uuid },
      { name := "fromOwner", schema := text }, { name := "toOwner", schema := text },
      { name := "units", schema := int32 },
      { name := "idempotencyKey", schema := optionalUuid, isRequired := false },
      { name := "transferredAt", schema := time }],
  page "TransferListData" "TransferData",
  object "ResetData" (some "Rows removed by a reset")
    [{ name := "fundsDeleted", schema := count }, { name := "entriesDeleted", schema := count },
      { name := "transfersDeleted", schema := count }]]

/-! ## Operations -/

/-- One parameter of an operation. -/
structure Parameter where
  name : String
  /-- Where the parameter stands: in the path, where it is required, or in the query. -/
  isInPath : Bool
  description : String
  schema : List (String × Json)

def Parameter.json (p : Parameter) : Json :=
  .obj [("name", .str p.name), ("in", .str (if p.isInPath then "path" else "query")),
    ("description", .str p.description), ("required", .bool p.isInPath), ("schema", .obj p.schema)]

def fundId : Parameter := ⟨"fund_id", true, "Fund ID", uuid⟩

def owner : Parameter := ⟨"owner", true, "Owner name (case-sensitive)", text⟩

def listParams : List Parameter :=
  [⟨"limit", false, "Page size (default 100, max 1000)", int64⟩,
    ⟨"offset", false, "Rows to skip (negative values clamp to 0)", int64⟩]

/-- One answer of an operation. -/
structure Answer where
  status : String
  description : String
  /-- The schema of its data. -/
  schema : Option String := none

def content (schema : String) : String × Json :=
  ("content", .obj [("application/json", .obj [("schema", reference schema)])])

def Answer.json (a : Answer) : String × Json :=
  (a.status, .obj (("description", .str a.description) :: (a.schema.map content).toList))

structure Operation where
  method : String
  id : String
  tag : String
  summary : String
  description : String
  parameters : List Parameter := []
  /-- The schema of the body. -/
  body : Option String := none
  answers : List Answer

def bodyFields : Option String → List (String × Json)
  | none => []
  | some schema => [("requestBody", .obj [content schema, ("required", .bool true)])]

def parameterFields : List Parameter → List (String × Json)
  | [] => []
  | ps => [("parameters", .arr (ps.map Parameter.json))]

def Operation.json (o : Operation) : String × Json :=
  (o.method, .obj ([("tags", .arr [.str o.tag]), ("summary", .str o.summary),
    ("description", .str o.description), ("operationId", .str o.id)]
    ++ parameterFields o.parameters ++ bodyFields o.body
    ++ [("responses", .obj (o.answers.map Answer.json))]))

/-- The addresses and their operations. -/
def paths : List (String × List Operation) :=
  [("/api/v1/health",
    [{ method := "get", id := "health_check", tag := "System", summary := "Health check endpoint"
       description := "Pings the ledger store. Failure details are logged, not returned.\n\n"
         ++ "- Healthy: 200 OK + \x7bcode: 0, data: \x7btimestampMs, version\x7d\x7d\n"
         ++ "- Unhealthy: 503 Service Unavailable + \x7bcode: 5001, msg: \"unavailable\"\x7d"
       answers := [⟨"200", "Service healthy", "HealthResponse"⟩,
         ⟨"503", "Service unavailable", none⟩] }]),
  ("/api/v1/funds",
    [{ method := "get", id := "list_funds", tag := "Funds", summary := "List funds, newest first"
       description := "GET /api/v1/funds"
       parameters := listParams
       answers := [⟨"200", "Page of funds", "FundListData"⟩, ⟨"500", "Internal error", none⟩] },
     { method := "post", id := "create_fund", tag := "Funds", summary := "Create a fund"
       description := "POST /api/v1/funds\n\nThe initial owner receives every unit of the fund."
       body := "CreateFundRequest"
       answers := [⟨"201", "Fund created", "FundData"⟩,
         ⟨"400", "Invalid fund name, unit count or owner", none⟩,
         ⟨"409", "Fund name already exists", none⟩, ⟨"500", "Internal error", none⟩] }]),
  ("/api/v1/funds/\x7bfund_id\x7d",
    [{ method := "get", id := "get_fund", tag := "Funds", summary := "Get a fund"
       description := "GET /api/v1/funds/\x7bfund_id\x7d"
       parameters := [fundId]
       answers := [⟨"200", "Fund", "FundData"⟩, ⟨"400", "Malformed fund ID", none⟩,
         ⟨"404", "Fund not found", none⟩] }]),
  ("/api/v1/funds/\x7bfund_id\x7d/cap-table",
    [{ method := "get", id := "get_cap_table", tag := "Cap Table"
       summary := "Get a fund's cap table"
       description := "GET /api/v1/funds/\x7bfund_id\x7d/cap-table\n\n"
         ++ "Active entries only, largest holders first, with each holder's percentage."
       parameters := fundId :: listParams
       answers := [⟨"200", "Cap table page", "CapTableData"⟩, ⟨"404", "Fund not found", none⟩] }]),
  ("/api/v1/funds/\x7bfund_id\x7d/cap-table/\x7bowner\x7d",
    [{ method := "get", id := "get_ownership", tag := "Cap Table"
       summary := "Get one owner's stake"
       description := "GET /api/v1/funds/\x7bfund_id\x7d/cap-table/\x7bowner\x7d"
       parameters := [fundId, owner]
       answers := [⟨"200", "Owner's entry", "OwnershipData"⟩, ⟨"400", "Invalid owner name", none⟩,
         ⟨"404", "Fund or owner not found", none⟩] }]),
  ("/api/v1/funds/\x7bfund_id\x7d/transfers",
    [{ method := "get", id := "list_transfers", tag := "Transfers"
       summary := "Transfer history, oldest first"
       description := "GET /api/v1/funds/\x7bfund_id\x7d/transfers"
       parameters := fundId :: listParams
       answers := [⟨"200", "Page of transfers", "TransferListData"⟩,
         ⟨"404", "Fund not found", none⟩] },
     { method := "post", id := "create_transfer", tag := "Transfers"
       summary := "Execute a transfer"
       description := "POST /api/v1/funds/\x7bfund_id\x7d/transfers\n\n"
         ++ "Atomically debits `fromOwner` and credits `toOwner`, creating the target's\n"
         ++ "entry if needed. With an `idempotencyKey`, an identical replay returns the\n"
         ++ "original transfer; a different request under the same key is rejected."
       parameters := [fundId]
       body := "CreateTransferRequest"
       answers := [⟨"201", "Transfer committed (or replayed)", "TransferData"⟩,
         ⟨"400", "Invalid owner or units, self-transfer, or insufficient units", none⟩,
         ⟨"404", "Fund or source owner not found", none⟩,
         ⟨"409", "Idempotency key reused with different data", none⟩,
         ⟨"500", "Internal error", none⟩] }]),
  ("/internal/reset",
    [{ method := "post", id := "reset_ledger", tag := "Internal"
       summary := "Delete every fund, cap table entry and transfer"
       description := "POST /internal/reset"
       answers := [⟨"200", "All ledger data deleted", "ResetData"⟩,
         ⟨"503", "Store unavailable", none⟩] }])]

/-! ## The whole description -/

def tags : List (String × String) :=
  [("Funds", "Fund creation and lookup"), ("Cap Table", "Current ownership of a fund"),
    ("Transfers", "Unit transfers between owners"), ("System", "Health checks and system info"),
    ("Internal", "Development-only administration (admin-api feature)")]

def info : Json :=
  .obj [("title", .str "Cap Table Ledger API"),
    ("description", .str "Fund cap tables with atomic, idempotent unit transfers."),
    ("license", .obj [("name", .str "MIT")]), ("version", .str "1.0.0")]

def json : Json :=
  .obj [("openapi", .str "3.1.0"), ("info", info),
    ("servers", .arr [.obj [("url", .str "http://localhost:8080"),
      ("description", .str "Development")]]),
    ("paths", .obj (paths.map fun p => (p.1, .obj (p.2.map Operation.json)))),
    ("components", .obj [("schemas", .obj schemas)]),
    ("tags", .arr (tags.map fun t => .obj [("name", .str t.1), ("description", .str t.2)]))]

end UnitLedger.Gateway.Document
