import UnitLedger.Json.Value
import UnitLedger.Store.Op

/-!
  UnitLedger.Gateway.Data — the data of successful answers.

  Ids are hyphenated, times are in UTC with as many fraction digits as they need, percentages are
  numbers. A transfer without a key has no key field.
-/

namespace UnitLedger.Gateway

def idData (id : Uuid) : Json := .str id.toText

def timeData (t : Instant) : Json := .str t.toText

/-- The window and the length of a list, as fields. -/
def windowFields {α : Type} (page : Page α) : List (String × Json) :=
  [("total", .int page.total), ("limit", .int page.window.limit),
    ("offset", .int page.window.offset)]

def pageData {α : Type} (item : α → Json) (page : Page α) : Json :=
  .obj (("items", .arr (page.items.map item)) :: windowFields page)

def fundData (f : Fund) : Json :=
  .obj [("id", idData f.id), ("name", .str f.name), ("totalUnits", .int f.totalUnits),
    ("createdAt", timeData f.createdAt)]

def ownershipData (e : Entry) : Json :=
  .obj [("fundId", idData e.fund), ("ownerName", .str e.owner), ("units", .int e.units),
    ("acquiredAt", timeData e.acquiredAt), ("updatedAt", timeData e.updatedAt)]

def capTableRowData (e : Entry) (percentage : Float) : Json :=
  .obj [("ownerName", .str e.owner), ("units", .int e.units), ("percentage", .ofFloat percentage),
    ("acquiredAt", timeData e.acquiredAt), ("updatedAt", timeData e.updatedAt)]

def capTableData (t : CapTable) : Json :=
  .obj ([("fundId", idData t.fund), ("fundName", .str t.fundName),
    ("totalUnits", .int t.totalUnits),
    ("entries", .arr (t.rows.map fun row => capTableRowData row.1 row.2))]
    ++ windowFields t.entries)

def keyFields : Option Uuid → List (String × Json)
  | none => []
  | some key => [("idempotencyKey", idData key)]

def transferData (t : Transfer) : Json :=
  .obj ([("id", idData t.id), ("fundId", idData t.fund), ("fromOwner", .str t.source),
    ("toOwner", .str t.target), ("units", .int t.units)] ++ keyFields t.key
    ++ [("transferredAt", timeData t.transferredAt)])

def resetData (c : Store.ResetCounts) : Json :=
  .obj [("fundsDeleted", .int c.funds), ("entriesDeleted", .int c.entries),
    ("transfersDeleted", .int c.transfers)]

def healthData (now : Instant) (version : String) : Json :=
  .obj [("timestampMs", .int now.millis), ("version", .str version)]

end UnitLedger.Gateway
