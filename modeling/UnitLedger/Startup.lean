import UnitLedger.CommandLine
import UnitLedger.Config
import UnitLedger.Gateway.Document
import UnitLedger.Log.Destination
import UnitLedger.Sql.Tables

/-!
  UnitLedger.Startup — how the programs start.

  The server reads its settings, opens its log, opens the store and then serves the gateway at its
  address until it is told to stop. The first step that fails ends it with a text of its own. All
  that a program needs from its surroundings is a `Machine`, so that the same start can be carried
  out on a real machine and on an imagined one.
-/

namespace UnitLedger.Startup

/-- The store that the gateway serves. -/
inductive Backing where
  /-- The in-memory store. -/
  | memory (patienceMs : Nat)
  /-- The database to which the machine is connected. -/
  | database (patienceMs : Nat)
  deriving DecidableEq, Repr

/-- How long a transfer waits for a row lock. -/
def Backing.patienceMs : Backing → Nat
  | memory ms | database ms => ms

/-- What a program may ask of the machine that it runs on. -/
structure Machine (m : Type → Type) where
  /-- A variable of the environment. -/
  environmentValue : String → m (Option String)
  /-- The text of a file. -/
  fileText? : String → m (Option String)
  /-- Writes a file, if that is possible. -/
  saveFile : String → String → m Bool
  /-- Shows a line to whoever started the program. -/
  complain : String → m Unit
  /-- Prints the program's own output. -/
  print : String → m Unit
  openLog : Log.Destination → m Unit
  report : Log.Event → m Unit
  /-- Connects to a database. -/
  connect : StoreConfig → m Bool
  query : {α : Type} → Sql.Script α → m α
  /-- Takes an address for the gateway, if it is free. -/
  bind : GatewayConfig → m Bool
  /-- Serves the gateway until the program is told to stop. -/
  serve : Backing → m Unit

inductive Failure where
  | config (e : Config.LoadError)
  | notConnected
  | setup (e : Sql.SetupError)
  | addressRefused (address : String)
  | notWritten (file : String)
  deriving DecidableEq, Repr

def Failure.message : Failure → String
  | config e => e.message
  | notConnected => "Failed to connect to PostgreSQL"
  | setup e => e.message
  | addressRefused address => "Failed to bind to " ++ address ++ " (port already in use?)"
  | notWritten file => "Failed to write " ++ file

/-! ## Reports -/

def mainArea : String := "captable"

def gatewayArea : String := "captable::gateway"

def starting (environment version : String) (backend : Backend) : Log.Event where
  level := .info
  area := mainArea
  message := "Starting cap table ledger"
  fields := [("env", .shown environment), ("backend", .shown backend.title),
    ("version", .quoted version)]

def inMemory : Log.Event where
  level := .warn
  area := mainArea
  message := "Using in-memory ledger store: data is lost on restart"

def connected (maxConnections : Nat) : Log.Event where
  level := .info
  area := "captable::db"
  message := "PostgreSQL connection pool established"
  fields := [("max_connections", .number maxConnections)]

def listening (address : String) : List Log.Event :=
  [{ level := .info, area := gatewayArea, message := "Gateway listening on http://" ++ address },
    { level := .info, area := gatewayArea, message := "API Docs: http://" ++ address ++ "/docs" },
    { level := .warn, area := gatewayArea
      message := "admin-api enabled: POST /internal/reset deletes all ledger data" }]

def stopped : Log.Event where
  level := .info
  area := gatewayArea
  message := "Gateway stopped"

/-! ## The steps of the server -/

/-- The text of the address, which is also how a reader would open it. -/
def address (g : GatewayConfig) : String := g.host ++ ":" ++ toString g.port

def destination (c : Config) (filter : Log.Filter) : Log.Destination :=
  ⟨c.logDir, c.logFile, .ofText c.rotation, c.useJson, filter⟩

section

variable {m : Type → Type} [Monad m]

/-- The settings of the environment that the arguments name, with the port that they name. -/
def readSettings (x : Machine m) (args : List String) : ExceptT Failure m (String × Config) := do
  let environment := CommandLine.environment args
  let file ← x.fileText? (Config.path environment)
  let url ← x.environmentValue "DATABASE_URL"
  let config ← ExceptT.mk (pure ((Config.load environment file url).mapError Failure.config))
  let port := (CommandLine.portOverride args).getD config.gateway.port
  return (environment, { config with gateway := { config.gateway with port } })

def openLog (x : Machine m) (config : Config) : m Unit := do
  let (filter, complaints) := Log.Filter.choose (← x.environmentValue "RUST_LOG") config.logLevel
  x.openLog (destination config filter)
  complaints.forM x.complain

def openStore (x : Machine m) (c : StoreConfig) : ExceptT Failure m Backing := do
  match c.backend with
  | .memory =>
    x.report inMemory
    return .memory c.lockTimeoutMs
  | .postgres =>
    if !(← x.connect c) then throw .notConnected
    x.report (connected c.maxConnections)
    ExceptT.mk (do return (← x.query Sql.setUp).mapError Failure.setup)
    return .database c.lockTimeoutMs

/-- Serves the gateway at its address. -/
def serveGateway (x : Machine m) (g : GatewayConfig) (backing : Backing) :
    ExceptT Failure m Unit := do
  if !(← x.bind g) then throw (.addressRefused (address g))
  (listening (address g)).forM fun event => x.report event
  x.serve backing
  x.report stopped

/-- The server from its start to its end. -/
def runServer (x : Machine m) (version : String) (args : List String) :
    ExceptT Failure m Unit := do
  let (environment, config) ← readSettings x args
  ExceptT.lift (openLog x config)
  x.report (starting environment version config.store.backend)
  serveGateway x config.gateway (← openStore x config.store)

/-! ## The exporter -/

/-- Writes the description of the gateway to a file or prints it. -/
def exportDocument (x : Machine m) (args : List String) : ExceptT Failure m Unit := do
  let text := Gateway.Document.json.renderPretty
  match CommandLine.outputFile args with
  | none => x.print text
  | some file =>
    if !(← x.saveFile file text) then throw (.notWritten file)
    x.complain ("OpenAPI spec exported to: " ++ file)

/-- Runs a program: what it ends with, zero or, after a complaint, one. -/
def exitCode (x : Machine m) (program : ExceptT Failure m Unit) : m UInt32 := do
  match ← program.run with
  | .ok () => return 0
  | .error e =>
    x.complain ("Error: " ++ e.message)
    return 1

end

end UnitLedger.Startup
