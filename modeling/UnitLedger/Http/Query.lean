import UnitLedger.Http.Percent
import UnitLedger.Page
import UnitLedger.Word

/-!
  UnitLedger.Http.Query — the query part of an address.

  A query is a list of names and values, joined by `&` and separated by the first `=`; a plus sign
  stands for a space, and both sides are percent-encoded. Empty parts are skipped. The limit and the
  offset of a list are integers of 64 bits, each given at most once; other names do not matter.
-/

namespace UnitLedger.Http

/-- Splits at every byte that equals `sep`. -/
def splitAll (sep : UInt8) : Bytes → List Bytes
  | [] => [[]]
  | b :: rest =>
    if b == sep then [] :: splitAll sep rest
    else
      match splitAll sep rest with
      | [] => [[b]]
      | part :: parts => (b :: part) :: parts

/-- One side of a pair; it has no text when its bytes are not UTF-8. -/
def formText? (bs : Bytes) : Option String :=
  textOf? (percentDecode (bs.map fun b => if b == 43 then 32 else b))

def queryPairs (query : String) : List (Option String × Option String) :=
  ((splitAll 38 (bytesOf query)).filter (!·.isEmpty)).map fun part =>
    (formText? (part.takeWhile (· != 61)), formText? ((part.dropWhile (· != 61)).drop 1))

/-- An integer of 64 bits: an optional sign and digits. -/
def int64? (s : String) : Option Int :=
  let signed : Bool × List Char := match s.toList with
    | '-' :: ds => (true, ds)
    | '+' :: ds => (false, ds)
    | ds => (false, ds)
  if signed.2.isEmpty || !signed.2.all Char.isDigit then none
  else
    let n : Int := signed.2.foldl (fun (n : Int) c => 10 * n + (c.toNat - 48 : Nat)) 0
    let n := if signed.1 then -n else n
    if Word.minSigned64 ≤ n ∧ n ≤ Word.maxSigned64 then some n else none

/-- The one value of a name as an integer, or that it is absent; nothing if it is unreadable or
given twice. -/
def integerParam (name : String) (pairs : List (Option String × Option String)) :
    Option (Option Int) :=
  match pairs.filter (·.1 == some name) with
  | [] => some none
  | [(_, value)] => (value.bind int64?).map some
  | _ => none

def listParams? (query : String) : Option ListParams := do
  let pairs := queryPairs query
  return { limit := ← integerParam "limit" pairs, offset := ← integerParam "offset" pairs }

end UnitLedger.Http
