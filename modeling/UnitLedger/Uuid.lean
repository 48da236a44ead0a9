/-!
  UnitLedger.Uuid — identifiers of 128 bits and their spellings.

  An identifier is read from 32 hexadecimal digits, from the five hyphenated groups of 8, 4, 4, 4
  and 12 digits, from such groups in braces, and from such groups after `urn:uuid:`; digits may have
  either case. It is always written in hyphenated groups of lower-case digits.
-/

namespace UnitLedger

structure Uuid where
  bits : BitVec 128
  deriving DecidableEq, Repr, Inhabited

namespace Uuid

def ofNat (n : Nat) : Uuid := ⟨BitVec.ofNat 128 n⟩

/-- Identifiers are ordered as numbers, which is the order of their bytes and of their texts. -/
instance : LT Uuid := ⟨fun a b => a.bits.toNat < b.bits.toNat⟩
instance : LE Uuid := ⟨fun a b => a.bits.toNat ≤ b.bits.toNat⟩
instance (a b : Uuid) : Decidable (a < b) := Nat.decLt _ _
instance (a b : Uuid) : Decidable (a ≤ b) := Nat.decLe _ _

def digit (n : Nat) : Char := Char.ofNat (if n < 10 then 48 + n else 87 + n)

def digitValue? (c : Char) : Option Nat :=
  if '0' ≤ c ∧ c ≤ '9' then some (c.toNat - 48)
  else if 'a' ≤ c ∧ c ≤ 'f' then some (c.toNat - 87)
  else if 'A' ≤ c ∧ c ≤ 'F' then some (c.toNat - 55)
  else none

/-- The last `count` hexadecimal digits of `n`, most significant first. -/
def digits : Nat → Nat → List Char
  | 0, _ => []
  | count + 1, n => digits count (n / 16) ++ [digit (n % 16)]

/-- The lengths of the groups of the written form. -/
def groupLengths : List Nat := [8, 4, 4, 4, 12]

/-- Cuts `ds` into groups of the given lengths, with a hyphen between two groups. -/
def hyphenate : List Nat → List Char → List Char
  | [], _ => []
  | [n], ds => ds.take n
  | n :: rest, ds => ds.take n ++ '-' :: hyphenate rest (ds.drop n)

def toChars (id : Uuid) : List Char := hyphenate groupLengths (digits 32 id.bits.toNat)

def toText (id : Uuid) : String := String.ofList (id.toChars)

instance : ToString Uuid := ⟨toText⟩

/-- The digits of a hyphenated text, or nothing if a group or a hyphen is missing or too long. -/
def dehyphenate : List Nat → List Char → Option (List Char)
  | [], _ => none
  | [n], cs => if cs.length = n then some cs else none
  | n :: rest, cs =>
    match cs.drop n with
    | '-' :: after => (dehyphenate rest after).map (cs.take n ++ ·)
    | _ => none

def ofDigits? (ds : List Char) : Option Uuid := do
  let value ← ds.foldlM (fun n c => (digitValue? c).map (16 * n + ·)) 0
  return ofNat value

def urn : List Char := "urn:uuid:".toList

/-- The hyphenated part of a text of the given length, where its form has one. -/
def unwrap? (cs : List Char) : Option (List Char) :=
  if cs.length = 36 then some cs
  else if cs.length = 38 then
    if cs.head? = some '\x7b' ∧ cs.getLast? = some '\x7d' then some (cs.drop 1).dropLast else none
  else if cs.length = 45 then
    if cs.take 9 = urn then some (cs.drop 9) else none
  else none

def ofChars? (cs : List Char) : Option Uuid :=
  if cs.length = 32 then ofDigits? cs
  else (unwrap? cs).bind fun inner => (dehyphenate groupLengths inner).bind ofDigits?

def ofText? (s : String) : Option Uuid := ofChars? s.toList

end Uuid

end UnitLedger
