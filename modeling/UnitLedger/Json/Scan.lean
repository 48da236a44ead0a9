import UnitLedger.Decimal.Shortest
import UnitLedger.Word

/-!
  UnitLedger.Json.Scan — the tokens of a JSON text, read from its bytes.

  Each scanner takes bytes and gives what it read and the bytes that follow, or reports that the
  text is not JSON at this point. Texts are decoded and must be well-formed in every respect; a value
  that nobody asked for is skipped, and then only its outline is checked: escapes must be
  well-formed, but the characters of its texts and the size of its numbers do not matter.
-/

namespace UnitLedger.Json

abbrev Bytes := List UInt8

/-- Why a text cannot be read. -/
inductive Fault where
  /-- The text is not JSON. -/
  | notJson
  /-- The text is JSON so far, but not the value that was asked for. -/
  | wrongShape
  deriving DecidableEq, Repr

def isBlankByte (b : UInt8) : Bool := b == 32 || b == 9 || b == 10 || b == 13

def skipBlank (bs : Bytes) : Bytes := bs.dropWhile isBlankByte

def isDigit (b : UInt8) : Bool := 48 ≤ b && b ≤ 57

/-- The rest after these exact bytes. -/
def scanWord (word : String) (bs : Bytes) : Except Fault (Unit × Bytes) :=
  let w := word.toUTF8.toList
  if bs.take w.length = w then .ok ((), bs.drop w.length) else .error .notJson

/-! ## Texts -/

def hexValue? (b : UInt8) : Option Nat :=
  if isDigit b then some (b.toNat - 48)
  else if 97 ≤ b && b ≤ 102 then some (b.toNat - 87)
  else if 65 ≤ b && b ≤ 70 then some (b.toNat - 55)
  else none

def hex4? (a b c d : UInt8) : Option Nat := do
  return ((← hexValue? a) * 16 + (← hexValue? b)) * 256 + (← hexValue? c) * 16 + (← hexValue? d)

/-- The byte that a one-letter escape stands for. -/
def escaped? (b : UInt8) : Option UInt8 :=
  if b == 34 || b == 92 || b == 47 then some b
  else if b == 98 then some 8
  else if b == 102 then some 12
  else if b == 110 then some 10
  else if b == 114 then some 13
  else if b == 116 then some 9
  else none

def utf8 (codePoint : Nat) : Bytes := (String.singleton (Char.ofNat codePoint)).toUTF8.toList

def isHighSurrogate (n : Nat) : Bool := 0xD800 ≤ n && n ≤ 0xDBFF
def isLowSurrogate (n : Nat) : Bool := 0xDC00 ≤ n && n ≤ 0xDFFF

/-- The bytes of a text whose opening quote has been read. An escaped surrogate must be one of a
pair. -/
def scanTextBytes : Bytes → Except Fault (Bytes × Bytes)
  | [] => .error .notJson
  | 34 :: rest => .ok ([], rest)
  | 92 :: 117 :: a :: b :: c :: d :: rest =>
    match hex4? a b c d with
    | none => .error .notJson
    | some n =>
      if isLowSurrogate n then .error .notJson
      else if isHighSurrogate n then
        match rest with
        | 92 :: 117 :: e :: f :: g :: h :: rest =>
          match hex4? e f g h with
          | none => .error .notJson
          | some m =>
            if isLowSurrogate m then do
              let (tail, rest) ← scanTextBytes rest
              return (utf8 (0x10000 + (n - 0xD800) * 1024 + (m - 0xDC00)) ++ tail, rest)
            else .error .notJson
        | _ => .error .notJson
      else do
        let (tail, rest) ← scanTextBytes rest
        return (utf8 n ++ tail, rest)
  | 92 :: b :: rest =>
    match escaped? b with
    | none => .error .notJson
    | some b => do
      let (tail, rest) ← scanTextBytes rest
      return (b :: tail, rest)
  | b :: rest =>
    if b < 32 || b == 92 then .error .notJson
    else do
      let (tail, rest) ← scanTextBytes rest
      return (b :: tail, rest)

/-- A text whose opening quote has been read; its bytes must be UTF-8. -/
def scanText (bs : Bytes) : Except Fault (String × Bytes) := do
  let (text, rest) ← scanTextBytes bs
  match String.fromUTF8? ⟨text.toArray⟩ with
  | some s => return (s, rest)
  | none => throw .notJson

/-- Skips a text whose opening quote has been read. -/
def skipText : Bytes → Except Fault (Unit × Bytes)
  | [] => .error .notJson
  | 34 :: rest => .ok ((), rest)
  | 92 :: 117 :: a :: b :: c :: d :: rest =>
    if (hex4? a b c d).isSome then skipText rest else .error .notJson
  | 92 :: b :: rest => if (escaped? b).isSome then skipText rest else .error .notJson
  | b :: rest => if b < 32 || b == 92 then .error .notJson else skipText rest

/-! ## Numbers -/

/-- A number as it is written: an integer, or one with a fraction or an exponent. -/
structure Literal where
  negative : Bool
  digits : Bytes
  fraction : Bytes
  /-- The exponent, if one is written. -/
  exponent : Option Int
  deriving Repr

def digitsValue (ds : Bytes) : Nat := ds.foldl (fun n b => 10 * n + (b.toNat - 48)) 0

/-- Digits, of which there must be one. -/
def scanDigits (bs : Bytes) : Except Fault (Bytes × Bytes) :=
  let ds := bs.takeWhile isDigit
  if ds.isEmpty then .error .notJson else .ok (ds, bs.dropWhile isDigit)

/-- The integer part: zero, or digits that do not start with zero. -/
def scanWhole (bs : Bytes) : Except Fault (Bytes × Bytes) := do
  let (ds, rest) ← scanDigits bs
  if ds.head? = some 48 ∧ ds.length ≠ 1 then throw .notJson
  return (ds, rest)

def scanFraction : Bytes → Except Fault (Bytes × Bytes)
  | 46 :: rest => scanDigits rest
  | bs => .ok ([], bs)

def scanSignedDigits : Bytes → Except Fault (Int × Bytes)
  | 45 :: rest => do
    let (ds, rest) ← scanDigits rest
    return (-(digitsValue ds : Int), rest)
  | 43 :: rest => do
    let (ds, rest) ← scanDigits rest
    return (digitsValue ds, rest)
  | bs => do
    let (ds, rest) ← scanDigits bs
    return (digitsValue ds, rest)

def scanExponent : Bytes → Except Fault (Option Int × Bytes)
  | b :: rest =>
    if b == 101 || b == 69 then do
      let (e, rest) ← scanSignedDigits rest
      return (some e, rest)
    else .ok (none, b :: rest)
  | [] => .ok (none, [])

def scanLiteral (bs : Bytes) : Except Fault (Literal × Bytes) := do
  let negative := bs.head? = some 45
  let (digits, rest) ← scanWhole (if negative then bs.drop 1 else bs)
  let (fraction, rest) ← scanFraction rest
  let (exponent, rest) ← scanExponent rest
  return (⟨negative, digits, fraction, exponent⟩, rest)

/-- A number's value: an integer of up to 64 bits, or a number that is none. -/
inductive Number where
  | integer (n : Int)
  | other
  deriving DecidableEq, Repr

namespace Literal

/-- The least number that is too large for a double: half a step above the greatest double. -/
def infinityBound : Nat := 1 <<< 1024 - 1 <<< 970

/-- The number is too large for a double. -/
def overflows (l : Literal) : Bool :=
  let digits := (l.digits ++ l.fraction).dropWhile (· == 48)
  let exponent : Int := l.exponent.getD 0 - l.fraction.length
  let size : Int := digits.length + exponent
  if digits.isEmpty || size < 300 then false
  else if 320 < size then true
  else
    let (numerator, denominator) := Decimal.scale (digitsValue digits) 10 exponent
    infinityBound * denominator ≤ numerator

def value (l : Literal) : Number :=
  let n := digitsValue l.digits
  if l.exponent.isSome || !l.fraction.isEmpty then .other
  else if l.negative then
    if n = 0 ∨ -(n : Int) < Word.minSigned64 then .other else .integer (-(n : Int))
  else if n ≤ Word.max64 then .integer n
  else .other

end Literal

def scanNumber (bs : Bytes) : Except Fault (Number × Bytes) := do
  let (l, rest) ← scanLiteral bs
  if l.overflows then throw .notJson
  return (l.value, rest)

/-! ## Skipping -/

inductive Bracket where
  | list
  | object
  deriving DecidableEq, Repr

/-- Where skipping stands. -/
inductive Expected where
  /-- A value. -/
  | value
  /-- What follows a value inside the innermost bracket, or its first item. -/
  | next (first : Bool)
  /-- The name of a field. -/
  | name
  deriving DecidableEq, Repr

/-- Skips to the end of the value that the open brackets surround. Each step takes at least one byte
or moves on to a step that does. -/
def skipOpen : Nat → List Bracket → Expected → Bytes → Except Fault (Unit × Bytes)
  | 0, _, _, _ => .error .notJson
  | fuel + 1, stack, .value, bs =>
    match skipBlank bs with
    | [] => .error .notJson
    | b :: rest =>
      let closed (rest : Bytes) : Except Fault (Unit × Bytes) :=
        if stack.isEmpty then .ok ((), rest) else skipOpen fuel stack (.next false) rest
      if b == 110 then scanWord "ull" rest >>= fun r => closed r.2
      else if b == 116 then scanWord "rue" rest >>= fun r => closed r.2
      else if b == 102 then scanWord "alse" rest >>= fun r => closed r.2
      else if b == 34 then skipText rest >>= fun r => closed r.2
      else if b == 45 || isDigit b then scanLiteral (b :: rest) >>= fun r => closed r.2
      else if b == 91 then skipOpen fuel (.list :: stack) (.next true) rest
      else if b == 123 then skipOpen fuel (.object :: stack) (.next true) rest
      else .error .notJson
  | fuel + 1, stack, .next first, bs =>
    match stack, skipBlank bs with
    | [], _ | _, [] => .error .notJson
    | bracket :: outer, b :: rest =>
      let start : Expected := if bracket = .list then .value else .name
      let last : UInt8 := if bracket = .list then 93 else 125
      if b == last then
        if outer.isEmpty then .ok ((), rest) else skipOpen fuel outer (.next false) rest
      else if first then skipOpen fuel stack start (b :: rest)
      else if b == 44 then skipOpen fuel stack start rest
      else .error .notJson
  | fuel + 1, stack, .name, bs =>
    match skipBlank bs with
    | 34 :: rest => do
      let (_, rest) ← skipText rest
      match skipBlank rest with
      | 58 :: rest => skipOpen fuel stack .value rest
      | _ => throw .notJson
    | _ => .error .notJson

/-- Skips one value. -/
def skipValue (bs : Bytes) : Except Fault (Unit × Bytes) :=
  skipOpen (2 * bs.length + 2) [] .value bs

end UnitLedger.Json
