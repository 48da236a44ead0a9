import UnitLedger.Json.Value
import UnitLedger.Log.Event
import UnitLedger.Text.Quoted

/-!
  UnitLedger.Log.Line — how events are written to the log.

  Each event is one line: a JSON object, or plain text with the level, the message and the fields.
-/

namespace UnitLedger.Log

def FieldValue.json : FieldValue → Json
  | number n => .int n
  | shown text => .str text
  | quoted text => .str text

def FieldValue.text : FieldValue → String
  | number n => toString n
  | shown text => text
  | quoted text => Text.quote text

/-- The time is given by whoever writes the line. -/
def Event.json (e : Event) (timestamp : Option String) : Json :=
  .obj ((match timestamp with
      | none => []
      | some t => [("timestamp", .str t)])
    ++ [("level", .str e.level.name),
      ("fields", .obj (("message", .str e.message) :: e.fields.map fun f => (f.1, f.2.json))),
      ("target", .str e.area)])

/-- The line without its time and without spaces in front of it. -/
def Event.text (e : Event) : String :=
  " ".intercalate ([e.level.name, e.message] ++ e.fields.map fun f => f.1 ++ "=" ++ f.2.text)

end UnitLedger.Log
