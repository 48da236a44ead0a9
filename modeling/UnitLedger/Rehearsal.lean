import UnitLedger.FileTree
import UnitLedger.Sql.StandIn
import UnitLedger.Startup

/-!
  UnitLedger.Rehearsal — starting a program on an imagined machine.

  The machine has files, an environment and a network of which two things are known: whether a
  database can be reached, and which addresses are free. A program that has come so far as to serve
  goes on for good, so what it would report later is not reported.
-/

namespace UnitLedger.Rehearsal

/-- A number from 0 to 255 without needless zeros. -/
def isOctet (s : String) : Bool :=
  !s.isEmpty && s.length ≤ 3 && s.toList.all Char.isDigit && !(s.length > 1 && s.startsWith "0")
    && (s.toNat?.getD 256) < 256

/-- An address of four numbers, or the machine itself. -/
def isFourNumbers (host : String) : Bool :=
  host == "localhost" || (let parts := host.splitOn "."; parts.length == 4 && parts.all isOctet)

/-- On a machine that knows only addresses of four numbers, and leaves the ports below 1024 to the
system, but for port 0, which stands for any. -/
def isOpenAddress (g : GatewayConfig) : Bool :=
  isFourNumbers g.host && (g.port == 0 || 1024 ≤ g.port)

structure Machine where
  tree : FileTree := {}
  environment : List (String × String) := []
  reachesDatabase : Bool := false
  isFree : GatewayConfig → Bool
  output : String := ""
  complaints : List String := []
  destination : Option Log.Destination := none
  events : List Log.Event := []
  isServing : Bool := false
  database : Sql.StandIn

namespace Machine

/-- Keeps an event that the open log lets through. -/
def note (x : Machine) (event : Log.Event) : Machine :=
  if !x.isServing && x.destination.any (·.filter.admits event) then
    { x with events := x.events ++ [event] }
  else x

/-- The lines of the log, if this is the file to which they go. -/
def logLines (x : Machine) (now : Instant) (path : String) : List Log.Event :=
  match x.destination with
  | none => []
  | some d => if FileTree.names (d.path now) == FileTree.names path then x.events else []

/-- Something was written to the console. -/
def hasConsoleOutput (x : Machine) : Bool :=
  !x.output.isEmpty || (x.destination.any (·.showsOnConsole) && !x.events.isEmpty)

end Machine

def imagined : Startup.Machine (StateM Machine) where
  environmentValue name := modifyGet fun x => (x.environment.lookup name, x)
  fileText? path := modifyGet fun x => (x.tree.text? path, x)
  saveFile path text := modifyGet fun x =>
    match x.tree.write? path text with
    | none => (false, x)
    | some tree => (true, { x with tree })
  complain line := modify fun x => { x with complaints := x.complaints ++ [line] }
  print text := modify fun x => { x with output := x.output ++ text }
  openLog d := modify fun x => { x with destination := some d }
  report event := modify (·.note event)
  connect _ := modifyGet fun x => (x.reachesDatabase, x)
  query script := modifyGet fun x =>
    let (database, a) := Sql.StandIn.run true script x.database
    (a, { x with database })
  bind g := modifyGet fun x => (x.isFree g, x)
  serve _ := modify fun x => { x with isServing := true }

end UnitLedger.Rehearsal
