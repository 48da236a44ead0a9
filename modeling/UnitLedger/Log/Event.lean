/-!
  UnitLedger.Log.Event — what the ledger reports about its work.

  An event has a level, the area of the program that reports it, a message and named fields in a
  fixed order. Texts that are part of the report itself are `shown` as they are; a text given as a
  value is `quoted` where a line of plain text shows it.
-/

namespace UnitLedger.Log

inductive Level where
  | error
  | warn
  | info
  | debug
  | trace
  deriving DecidableEq, Repr

namespace Level

def name : Level → String
  | error => "ERROR"
  | warn => "WARN"
  | info => "INFO"
  | debug => "DEBUG"
  | trace => "TRACE"

/-- More detail has a higher number. -/
def detail : Level → Nat
  | error => 1
  | warn => 2
  | info => 3
  | debug => 4
  | trace => 5

end Level

inductive FieldValue where
  | number (n : Int)
  | shown (text : String)
  | quoted (text : String)
  deriving DecidableEq, Repr

structure Event where
  level : Level
  area : String
  message : String
  fields : List (String × FieldValue) := []
  deriving DecidableEq, Repr

end UnitLedger.Log
