import UnitLedger.Json.Value

/-!
  UnitLedger.Json.Pointer — naming a place inside a JSON value.

  A pointer is empty, or a sequence of steps each behind a slash. In a step `~1` stands for a slash
  and `~0` for a tilde. A step into an object names a field; a step into a list is an index in
  decimal digits without needless zeros.
-/

namespace UnitLedger.Json

/-- The steps of a pointer that is not empty. -/
def pointerSteps (pointer : List Char) : List (List Char) :=
  match pointer with
  | [] => [[]]
  | '/' :: rest => [] :: pointerSteps rest
  | '~' :: '0' :: rest => extend '~' (pointerSteps rest)
  | '~' :: '1' :: rest => extend '/' (pointerSteps rest)
  | c :: rest => extend c (pointerSteps rest)
where
  /-- Puts a character in front of the first step. -/
  extend (c : Char) : List (List Char) → List (List Char)
    | [] => [[c]]
    | step :: steps => (c :: step) :: steps

def index? (step : List Char) : Option Nat :=
  if step.isEmpty || !step.all Char.isDigit || (step.head? == some '0' && step.length != 1) then
    none
  else some (step.foldl (fun n c => 10 * n + (c.toNat - 48)) 0)

def step? (step : List Char) : Json → Option Json
  | arr items => (index? step).bind (items[·]?)
  | v => v.field? (String.ofList step)

/-- The value that a pointer names, if there is one. -/
def pointer? (pointer : String) (v : Json) : Option Json :=
  match pointer.toList with
  | [] => some v
  | '/' :: rest => (pointerSteps rest).foldlM (fun v step => step? step v) v
  | _ => none

end UnitLedger.Json
