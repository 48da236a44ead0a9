import UnitLedger.Instant
import UnitLedger.Log.Filter

/-!
  UnitLedger.Log.Destination — where the log goes.

  The log is a file in a directory. A new file is begun every hour, every day, or never; unless it
  is never, the name of the file ends with the date, or the date and the hour, of its beginning.
  Beside the file the events are shown on the console, unless the lines are JSON.
-/

namespace UnitLedger.Log

inductive Rotation where
  | hourly
  | daily
  | never
  deriving DecidableEq, Repr

namespace Rotation

/-- Every other text means that no new file is begun. -/
def ofText : String → Rotation
  | "hourly" => hourly
  | "daily" => daily
  | _ => never

/-- What the name of a file ends with that is begun at this time. -/
def mark (now : Instant) : Rotation → String
  | hourly => "." ++ String.ofList ((now.secondsText.toList.take 13).map fun c =>
      if c == 'T' then '-' else c)
  | daily => "." ++ String.ofList (now.secondsText.toList.take 10)
  | never => ""

end Rotation

structure Destination where
  directory : String
  file : String
  rotation : Rotation
  useJson : Bool
  filter : Filter

namespace Destination

/-- The file that an event of this time is written to. -/
def path (d : Destination) (now : Instant) : String :=
  d.directory ++ "/" ++ d.file ++ d.rotation.mark now

def showsOnConsole (d : Destination) : Bool := !d.useJson

end Destination

end UnitLedger.Log
