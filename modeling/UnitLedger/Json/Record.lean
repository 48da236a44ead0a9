import UnitLedger.Json.Scan
import UnitLedger.Uuid
import UnitLedger.Word

/-!
  UnitLedger.Json.Record — reading a JSON text as a record with known fields.

  A record is an object with these fields in any order, or a list of their values in the order of
  their declaration. Other fields of an object are skipped; a known field may not come twice. The
  text is read from left to right, and the first fault counts: a value of the wrong kind is a fault
  of shape even when the text is broken further on.
-/

namespace UnitLedger.Json

/-- The kind of value that a field holds. -/
inductive Kind where
  | text
  /-- An integer of 64 bits with a sign. -/
  | integer
  /-- An identifier or null, and null when left out. -/
  | optionalId
  deriving DecidableEq, Repr

inductive Atom where
  | text (s : String)
  | integer (n : Int)
  | optionalId (id : Option Uuid)
  deriving DecidableEq, Repr

structure Field where
  name : String
  kind : Kind
  deriving DecidableEq, Repr

/-- The value of a field that is left out, if it may be. -/
def Kind.default? : Kind → Option Atom
  | .optionalId => some (.optionalId none)
  | .text | .integer => none

/-- A value of another kind stands here: it is read as far as its token goes, so that a broken token
counts as such. -/
def mismatch : Bytes → Fault
  | [] => .notJson
  | b :: rest =>
    let token : Except Fault Unit :=
      if b == 110 then (scanWord "ull" rest).map fun _ => ()
      else if b == 116 then (scanWord "rue" rest).map fun _ => ()
      else if b == 102 then (scanWord "alse" rest).map fun _ => ()
      else if b == 34 then (scanText rest).map fun _ => ()
      else if b == 45 || isDigit b then (scanNumber (b :: rest)).map fun _ => ()
      else if b == 91 || b == 123 then .ok ()
      else .error .notJson
    match token with
    | .ok () => .wrongShape
    | .error e => e

def readText (bs : Bytes) : Except Fault (String × Bytes) :=
  match skipBlank bs with
  | 34 :: rest => scanText rest
  | bs => .error (mismatch bs)

/-- An integer of 64 bits with a sign. -/
def readInteger (bs : Bytes) : Except Fault (Int × Bytes) :=
  let bs := skipBlank bs
  match bs with
  | [] => .error .notJson
  | b :: _ =>
    if b == 45 || isDigit b then do
      match ← scanNumber bs with
      | (.integer n, rest) => if n ≤ Word.maxSigned64 then return (n, rest) else throw .wrongShape
      | (.other, _) => throw .wrongShape
    else .error (mismatch bs)

def readOptionalId (bs : Bytes) : Except Fault (Option Uuid × Bytes) :=
  match skipBlank bs with
  | 110 :: rest => do
    let (_, rest) ← scanWord "ull" rest
    return (none, rest)
  | bs => do
    let (s, rest) ← readText bs
    match Uuid.ofText? s with
    | some id => return (some id, rest)
    | none => throw .wrongShape

def readAtom (k : Kind) (bs : Bytes) : Except Fault (Atom × Bytes) :=
  match k with
  | .text => (readText bs).map fun r => (.text r.1, r.2)
  | .integer => (readInteger bs).map fun r => (.integer r.1, r.2)
  | .optionalId => (readOptionalId bs).map fun r => (.optionalId r.1, r.2)

/-! ## Objects -/

/-- The fields of an object whose brace has been opened. -/
def readFields (fields : List Field) :
    Nat → Bool → List (String × Atom) → Bytes → Except Fault (List (String × Atom) × Bytes)
  | 0, _, _, _ => .error .notJson
  | fuel + 1, first, known, bs =>
    match skipBlank bs with
    | [] => .error .notJson
    | 125 :: rest => .ok (known, rest)
    | b :: rest =>
      let start := if first then b :: rest else skipBlank rest
      if !first && b != 44 then .error .notJson
      else
        match start with
        | 34 :: rest => do
          let (name, rest) ← scanText rest
          match fields.find? (·.name == name) with
          | none =>
            match skipBlank rest with
            | 58 :: rest => do
              let (_, rest) ← skipValue rest
              readFields fields fuel false known rest
            | _ => throw .notJson
          | some f =>
            if known.any (·.1 == name) then throw .wrongShape
            else
              match skipBlank rest with
              | 58 :: rest => do
                let (a, rest) ← readAtom f.kind rest
                readFields fields fuel false (known ++ [(name, a)]) rest
              | _ => throw .notJson
        | _ => .error .notJson

/-- The values of all fields in the order of their declaration. -/
def complete (fields : List Field) (known : List (String × Atom)) : Except Fault (List Atom) :=
  fields.mapM fun f =>
    match (known.lookup f.name).or f.kind.default? with
    | some a => .ok a
    | none => .error .wrongShape

/-! ## Lists -/

/-- The values of a list whose bracket has been opened, one for each field. -/
def readItems : List Field → Bool → Bytes → Except Fault (List Atom × Bytes)
  | [], _, bs => .ok ([], bs)
  | f :: fields, first, bs =>
    match skipBlank bs with
    | [] => .error .notJson
    | b :: rest =>
      if b == 93 then
        match (f :: fields).mapM (·.kind.default?) with
        | some atoms => .ok (atoms, b :: rest)
        | none => .error .wrongShape
      else if !first && b != 44 then .error .notJson
      else
        let start := if first then b :: rest else skipBlank rest
        match start with
        | [] | 93 :: _ => .error .notJson
        | _ => do
          let (a, rest) ← readAtom f.kind start
          let (atoms, rest) ← readItems fields false rest
          return (a :: atoms, rest)

/-! ## Records -/

/-- A whole text as a record: the values of the fields in the order of their declaration. -/
def readRecord (fields : List Field) (bs : Bytes) : Except Fault (List Atom) := do
  let (atoms, rest) ← (match skipBlank bs with
    | 91 :: rest => do
      let (atoms, rest) ← readItems fields true rest
      match skipBlank rest with
      | 93 :: rest => return (atoms, rest)
      | _ => throw .notJson
    | 123 :: rest => do
      let (known, rest) ← readFields fields (bs.length + 1) true [] rest
      return (← complete fields known, rest)
    | bs => .error (mismatch bs) : Except Fault (List Atom × Bytes))
  if (skipBlank rest).isEmpty then return atoms else throw .notJson

end UnitLedger.Json
