import UnitLedger.Word

/-!
  UnitLedger.CommandLine — what the arguments of the two programs mean.

  The server takes an environment and a port; of several, the first that has a value counts, and a
  port that is none is passed over. The exporter takes the name of a file in front of all others.
-/

namespace UnitLedger.CommandLine

/-- The argument behind the first option that has one. -/
def valueOf? (isOption : String → Bool) : List String → Option String
  | a :: b :: rest => if isOption a then some b else valueOf? isOption (b :: rest)
  | _ => none

def environment (args : List String) : String :=
  (valueOf? (fun a => a == "--env" || a == "-e") args).getD "dev"

/-- Decimal digits below `2^16`, with an optional plus sign. -/
def port? (s : String) : Option Nat :=
  let digits := match s.toList with
    | '+' :: rest => rest
    | cs => cs
  if digits.isEmpty || !digits.all Char.isDigit then none
  else
    let n := digits.foldl (fun n d => 10 * n + (d.toNat - 48)) 0
    if n ≤ Word.max16 then some n else none

def portOverride (args : List String) : Option Nat := (valueOf? (· == "--port") args).bind port?

/-- The file that the description of the interface is written to. -/
def outputFile : List String → Option String
  | "--output" :: file :: _ => some file
  | _ => none

end UnitLedger.CommandLine
