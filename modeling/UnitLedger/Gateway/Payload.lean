import UnitLedger.Json.Record

/-!
  UnitLedger.Gateway.Payload — what callers send as JSON bodies.

  Both bodies are records. The key of a transfer may be null or left out.
-/

namespace UnitLedger.Gateway

/-- A fund to be created, with the owner who receives all of its units. -/
structure NewFund where
  name : String
  totalUnits : Int
  owner : String
  deriving DecidableEq, Repr

namespace NewFund

def fields : List Json.Field :=
  [⟨"name", .text⟩, ⟨"totalUnits", .integer⟩, ⟨"initialOwner", .text⟩]

def read (bytes : Json.Bytes) : Except Json.Fault NewFund := do
  match ← Json.readRecord fields bytes with
  | [.text name, .integer totalUnits, .text owner] => return { name, totalUnits, owner }
  | _ => throw .wrongShape

end NewFund

/-- A transfer within the fund that the address names. -/
structure NewTransfer where
  source : String
  target : String
  units : Int
  key : Option Uuid
  deriving DecidableEq, Repr

namespace NewTransfer

def fields : List Json.Field :=
  [⟨"fromOwner", .text⟩, ⟨"toOwner", .text⟩, ⟨"units", .integer⟩, ⟨"idempotencyKey", .optionalId⟩]

def read (bytes : Json.Bytes) : Except Json.Fault NewTransfer := do
  match ← Json.readRecord fields bytes with
  | [.text source, .text target, .integer units, .optionalId key] =>
    return { source, target, units, key }
  | _ => throw .wrongShape

end NewTransfer

end UnitLedger.Gateway
