import UnitLedger.CommandLine
import UnitLedger.Config
import UnitLedger.Decimal.Shortest
import UnitLedger.Entry
import UnitLedger.Error
import UnitLedger.FileTree
import UnitLedger.Fund
import UnitLedger.Gateway.Data
import UnitLedger.Gateway.Document
import UnitLedger.Gateway.Endpoint
import UnitLedger.Gateway.Envelope
import UnitLedger.Gateway.Payload
import UnitLedger.Gateway.Route
import UnitLedger.Http.MediaType
import UnitLedger.Http.Percent
import UnitLedger.Http.Query
import UnitLedger.Http.Request
import UnitLedger.Instant
import UnitLedger.Json.Pointer
import UnitLedger.Json.Record
import UnitLedger.Json.Scan
import UnitLedger.Json.Value
import UnitLedger.Log.Destination
import UnitLedger.Log.Event
import UnitLedger.Log.Filter
import UnitLedger.Log.Line
import UnitLedger.Main
import UnitLedger.Memory.Journal
import UnitLedger.Memory.RowLocks
import UnitLedger.Memory.Tables
import UnitLedger.Memory.World
import UnitLedger.Memory.Write
import UnitLedger.Name
import UnitLedger.Page
import UnitLedger.Proofs.Accepted
import UnitLedger.Proofs.Concurrent.Asked
import UnitLedger.Proofs.Concurrent.Frame
import UnitLedger.Proofs.Concurrent.Guarded
import UnitLedger.Proofs.Concurrent.Lasting
import UnitLedger.Proofs.Concurrent.Locking
import UnitLedger.Proofs.Concurrent.Move
import UnitLedger.Proofs.Concurrent.Overtaking
import UnitLedger.Proofs.Concurrent.Queueing
import UnitLedger.Proofs.Concurrent.Sighted
import UnitLedger.Proofs.Concurrent.Sound
import UnitLedger.Proofs.Concurrent.Stage
import UnitLedger.Proofs.Concurrent.Step
import UnitLedger.Proofs.Concurrent.System
import UnitLedger.Proofs.Concurrent.Told
import UnitLedger.Proofs.Concurrent.Unfolding
import UnitLedger.Proofs.Ledger.Accounts
import UnitLedger.Proofs.Ledger.Conservation
import UnitLedger.Proofs.Ledger.ExactlyOnce
import UnitLedger.Proofs.Memory.Line
import UnitLedger.Proofs.Memory.Rows
import UnitLedger.Proofs.Memory.Settlement
import UnitLedger.Proofs.Memory.Undo
import UnitLedger.Rehearsal
import UnitLedger.Service.CapTables
import UnitLedger.Service.Funds
import UnitLedger.Service.Rollback
import UnitLedger.Service.Transfers
import UnitLedger.Serving
import UnitLedger.Simulation
import UnitLedger.Sql.Failure
import UnitLedger.Sql.Ledger
import UnitLedger.Sql.Script
import UnitLedger.Sql.StandIn
import UnitLedger.Sql.Statement
import UnitLedger.Sql.Tables
import UnitLedger.Startup
import UnitLedger.Store.Fault
import UnitLedger.Store.Op
import UnitLedger.Store.Program
import UnitLedger.Text.Blank
import UnitLedger.Text.Extender
import UnitLedger.Text.Hidden
import UnitLedger.Text.Quoted
import UnitLedger.Transfer
import UnitLedger.Units
import UnitLedger.Uuid
import UnitLedger.Word
import UnitLedger.Yaml.Cursor
import UnitLedger.Yaml.Node
import UnitLedger.Yaml.Record
import UnitLedger.Yaml.Scalar
import UnitLedger.Yaml.Token
import UnitLedger.Proofs.Ledger.Replay
import UnitLedger.Proofs.Concurrent.Alone
import UnitLedger.Proofs.Ledger.Outcomes
import UnitLedger.Proofs.Concurrent.Unshared
import UnitLedger.Proofs.Ledger.Calm
import UnitLedger.Proofs.Ledger.Pending
import UnitLedger.Proofs.Ledger.Linear
import UnitLedger.Proofs.Memory.Balances
import UnitLedger.Proofs.Memory.Eras
import UnitLedger.Proofs.Transactions.System
import UnitLedger.Proofs.Transactions.Frame
import UnitLedger.Proofs.Transactions.Refusal
import UnitLedger.Proofs.Transactions.Exclusion
import UnitLedger.Proofs.Transactions.Transferring
import UnitLedger.Proofs.Transactions.Frozen
import UnitLedger.Proofs.Concurrent.Queues
import UnitLedger.Proofs.Concurrent.Missed
import UnitLedger.Proofs.Concurrent.Ascending
import UnitLedger.Proofs.Ledger.Deadlock
import UnitLedger.Proofs.Memory.Applied
import UnitLedger.Proofs.Memory.Constraints
import UnitLedger.Proofs.Memory.Replaced
import UnitLedger.Proofs.Transactions.Origins
import UnitLedger.Proofs.Transactions.Constraints
import UnitLedger.Proofs.Transactions.Replaced
import UnitLedger.Proofs.Concurrent.Released
import UnitLedger.Proofs.Ledger.Failure
import UnitLedger.Proofs.Memory.Records
import UnitLedger.Proofs.Transactions.History
import UnitLedger.Proofs.Service.Exchange
import UnitLedger.Proofs.Service.Protocol
import UnitLedger.Proofs.Concurrent.Enclosed
import UnitLedger.Proofs.Concurrent.Undisturbed
import UnitLedger.Proofs.Ledger.Reference
import UnitLedger.Proofs.Ledger.Serial
import UnitLedger.Proofs.Ledger.Share
import UnitLedger.Proofs.Ledger.Separation
import UnitLedger.Proofs.Memory.Turnover
import UnitLedger.Proofs.Memory.NetEffect
import UnitLedger.Proofs.Transactions.NetEffect
import UnitLedger.Proofs.Transactions.OwnWrites
import UnitLedger.Proofs.Transactions.EagerRefusal
import UnitLedger.Proofs.Concurrent.Creation
import UnitLedger.Proofs.Ledger.Onward
import UnitLedger.Proofs.Ledger.OneWinner
import UnitLedger.Proofs.Naming
import UnitLedger.Proofs.Service.Indifference
import UnitLedger.Proofs.Gateway.Reticence
import UnitLedger.Proofs.Memory.Listings
import UnitLedger.Proofs.Service.Reading
import UnitLedger.Proofs.Transactions.Paging
import UnitLedger.Proofs.Ledger.Readings
