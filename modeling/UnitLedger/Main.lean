import Std.Async.DNS
import Std.Async.Signal
import Std.Http.Server
import Std.Time
import UnitLedger.Log.Line
import UnitLedger.Serving
import UnitLedger.Sql.StandIn
import UnitLedger.Startup

/-!
  UnitLedger.Main — the programs on a real machine.

  Started under the name `export_openapi` the program writes the description of the gateway; under
  any other name it is the server. There is no client for a database here, so a server whose
  settings ask for one ends with its complaint; the in-memory store is served until the program is
  interrupted.
-/

namespace UnitLedger.Main

open Std.Async

/-- The version that the program tells about itself. -/
def version : String := "0.1.0"

/-- What the running program keeps. -/
structure Running where
  log : IO.Ref (Option Log.Destination)
  store : Std.Mutex Serving.State
  server : IO.Ref (Option Std.Http.Server)

/-! ## Time, chance and files -/

def now : IO Instant := do
  return ⟨(← Std.Time.Timestamp.now).toNanosecondsSinceUnixEpoch.val⟩

/-- A number of 16 random bytes. -/
def randomNumber : IO Nat := do
  return (← IO.getRandomBytes 16).data.foldl (fun n b => 256 * n + b.toNat) 0

/-- Whether the work succeeds. -/
def succeeds (work : IO Unit) : IO Bool := do
  try
    work
    return true
  catch _ => return false

def fileText? (path : String) : IO (Option String) := do
  try return some (← IO.FS.readFile path)
  catch _ => return none

/-! ## The log -/

/-- The time of a log line has six fraction digits. -/
def timestamp (t : Instant) : String :=
  t.secondsText ++ "." ++ Instant.padded 6 (t.subsecond / 1000) ++ "Z"

/-- Levels are set flush on their right. -/
def textLine (t : Instant) (e : Log.Event) : String :=
  timestamp t ++ " " ++ (if e.level.name.length < 5 then " " else "") ++ e.text

def appendLine (path line : String) : IO Unit := do
  let file ← IO.FS.Handle.mk path .append
  file.putStrLn line

def report (x : Running) (e : Log.Event) : IO Unit := do
  let some d ← x.log.get | return
  if !d.filter.admits e then return
  let t ← now
  let line := if d.useJson then (e.json (some (timestamp t))).render else textLine t e
  discard (succeeds (appendLine (d.path t) line))
  if d.showsOnConsole then IO.println line

def openLog (x : Running) (d : Log.Destination) : IO Unit := do
  discard (succeeds (IO.FS.createDirAll d.directory))
  x.log.set (some d)

/-! ## The gateway -/

/-- Answers a request on the store, which no other request uses meanwhile. -/
def answer (x : Running) (r : Http.Request) : IO Gateway.Response := do
  let t ← now
  let (response, events) ← x.store.atomically do
    let (s, response, events) := Serving.answer (← get) version t r
    set s
    return (response.getD { status := 500 }, events)
  events.forM (report x)
  return response

def incoming (head : Std.Http.Request.Head) (body : ByteArray) : Http.Request where
  method := toString head.method
  target := toString head.uri
  contentType := (head.headers.get? .contentType).map (·.value)
  body := body.data.toList

def outgoing (r : Gateway.Response) : Async (Std.Http.Response Std.Http.Body.Any) := do
  let status := (Std.Http.Status.ofCode none r.status.toUInt16).getD .internalServerError
  let head := Std.Http.Response.withStatus status
  let head := if r.allow.isEmpty then head
    else (head.header? "allow" (",".intercalate r.allow)).getD head
  let response ← match r.body with
    | none => head.fromBytes .empty
    | some body => head.json body.render
  return (response : Std.Http.Response Std.Http.Body.Any)

def handler (x : Running) : Std.Http.Server.StatelessHandler :=
  Std.Http.Server.Handler.ofFn fun request => do
    let body : ByteArray ← request.body.readAll
    let response ← answer x (incoming request.line body)
    outgoing response

/-- The address of a port of a machine. -/
def socket (port : UInt16) : Std.Net.IPAddr → Std.Net.SocketAddress
  | .v4 addr => .v4 ⟨addr, port⟩
  | .v6 addr => .v6 ⟨addr, port⟩

/-- Takes the first of the host's addresses that is free. -/
def bind (x : Running) (g : GatewayConfig) : IO Bool := do
  let hosts ← try (DNS.getAddrInfo g.host "").block
    catch _ => pure #[]
  for host in hosts do
    let taken ← succeeds do
      let server ← (Std.Http.Server.serve (socket g.port.toUInt16 host) (handler x)).block
      x.server.set (some server)
    if taken then return true
  return false

/-- Waits for an interruption and lets the requests that are under way come to their end. -/
def serve (x : Running) (backing : Startup.Backing) : IO Unit := do
  x.store.atomically (modify fun s => { s with patience := backing.patienceMs })
  let interrupted ← Signal.Waiter.mk .sigint false
  discard (← interrupted.wait).block
  if let some server ← x.server.get then server.shutdownAndWait.block

/-! ## The programs -/

def machine (x : Running) : Startup.Machine IO where
  environmentValue name := IO.getEnv name
  fileText? := fileText?
  saveFile path text := succeeds (IO.FS.writeFile path text)
  complain line := IO.eprintln line
  print text := IO.println text
  openLog := openLog x
  report := report x
  connect _ := return false
  query script := do
    return (Sql.StandIn.run false script { fresh := Serving.supply (← randomNumber) }).2
  bind := bind x
  serve := serve x

def start : IO Running := do
  let state := Serving.opened (← randomNumber) 0 (← now)
  return { log := ← IO.mkRef none, store := ← Std.Mutex.new state, server := ← IO.mkRef none }

/-- Started under this name the program writes the description of the gateway. -/
def isExporter (name : String) : Bool := name.endsWith "export_openapi"

end UnitLedger.Main

def main (args : List String) : IO UInt32 := do
  let machine := UnitLedger.Main.machine (← UnitLedger.Main.start)
  if UnitLedger.Main.isExporter (← IO.appPath).toString then
    UnitLedger.Startup.exitCode machine (UnitLedger.Startup.exportDocument machine args)
  else
    UnitLedger.Startup.exitCode machine
      (UnitLedger.Startup.runServer machine UnitLedger.Main.version args)
