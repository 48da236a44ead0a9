import UnitLedger.Name
import UnitLedger.Text.Quoted
import UnitLedger.Units
import UnitLedger.Uuid

/-!
  UnitLedger.Error — how a request to the ledger fails.

  `StoreError` is what a store reports, `LedgerError` is what the caller of a service sees. Each
  has one text, and each ledger error has one code for programs and one HTTP status. A failure is
  worth a retry with the same input only if the store calls it transient.
-/

namespace UnitLedger

inductive StoreError where
  /-- A write that would repeat a value which the named constraint keeps unique. -/
  | uniqueViolation (constraint : String)
  /-- The wait for a row lock took longer than the store allows. -/
  | lockTimeout
  /-- The store gave the transaction up; the same one may succeed later. -/
  | aborted (text : String)
  /-- The store cannot be reached or refuses the write for another reason. -/
  | unavailable (text : String)
  deriving DecidableEq, Repr

namespace StoreError

def message : StoreError → String
  | uniqueViolation constraint => "unique constraint violated: " ++ constraint
  | lockTimeout => "lock wait timed out"
  | aborted text => "transaction aborted: " ++ text
  | unavailable text => "store unavailable: " ++ text

def isTransient : StoreError → Bool
  | lockTimeout | aborted _ => true
  | uniqueViolation _ | unavailable _ => false

/-- The error is a violation of the named unique constraint. -/
def violates (e : StoreError) (constraint : String) : Bool :=
  e == uniqueViolation constraint

end StoreError

/-! The unique constraints whose violation the services give a meaning of its own. -/

namespace Constraint

def fundName : String := "funds_name_unique"
def fundId : String := "funds_pkey"
def activeOwner : String := "cap_table_entries_active_owner"
def idempotencyKey : String := "transfers_idempotency_key_unique"

end Constraint

inductive LedgerError where
  | invalidFund
  | invalidOwner
  /-- Units outside `min` to the greatest count. -/
  | invalidUnits (min : Int)
  | selfTransfer
  | fundNotFound (fund : Uuid)
  | ownerNotFound (fund : Uuid) (owner : String)
  | insufficientUnits (available requested : Int)
  | duplicateFundName (name : String)
  | duplicateIdempotencyKey
  | store (error : StoreError)
  deriving DecidableEq, Repr

namespace LedgerError

/-- The rule on names, as the texts state it. -/
def nameRule : String := "name must be non-empty (max " ++ toString Name.maxLength ++ " chars)"

/-- A range of allowed counts, as the texts state it. -/
def unitsRule (min : Int) : String :=
  "must be between " ++ toString min ++ " and " ++ toString Units.greatest

def message : LedgerError → String
  | invalidFund => "invalid fund: " ++ nameRule ++ " and totalUnits " ++ unitsRule 1
  | invalidOwner => "invalid owner: " ++ nameRule
  | invalidUnits min => "invalid units: " ++ unitsRule min
  | selfTransfer => "cannot transfer to self"
  | fundNotFound fund => "fund " ++ fund.toText ++ " not found"
  | ownerNotFound fund owner =>
    "owner " ++ Text.quote owner ++ " not found in fund " ++ fund.toText
  | insufficientUnits available requested =>
    "insufficient units for transfer: available " ++ toString available
      ++ ", requested " ++ toString requested
  | duplicateFundName name => "fund name already exists: " ++ name
  | duplicateIdempotencyKey => "idempotency key already used with different transfer data"
  | store error => error.message

/-- The name of the kind of error, for programs. -/
def code : LedgerError → String
  | invalidFund => "INVALID_FUND"
  | invalidOwner => "INVALID_OWNER"
  | invalidUnits _ => "INVALID_UNITS"
  | selfTransfer => "SELF_TRANSFER"
  | fundNotFound _ => "FUND_NOT_FOUND"
  | ownerNotFound _ _ => "OWNER_NOT_FOUND"
  | insufficientUnits _ _ => "INSUFFICIENT_UNITS"
  | duplicateFundName _ => "DUPLICATE_FUND_NAME"
  | duplicateIdempotencyKey => "DUPLICATE_TRANSFER"
  | store _ => "INTERNAL_ERROR"

def httpStatus : LedgerError → Nat
  | invalidFund | invalidOwner | invalidUnits _ | selfTransfer | insufficientUnits _ _ => 400
  | fundNotFound _ | ownerNotFound _ _ => 404
  | duplicateFundName _ | duplicateIdempotencyKey => 409
  | store _ => 500

def isRetryable : LedgerError → Bool
  | store error => error.isTransient
  | _ => false

end LedgerError

end UnitLedger
