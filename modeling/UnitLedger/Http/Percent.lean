/-!
  UnitLedger.Http.Percent — percent-encoded text in addresses.

  A percent sign with two hexadecimal digits stands for one byte; every other byte, a lone percent
  sign included, stands for itself. The bytes are the UTF-8 form of the text.
-/

namespace UnitLedger.Http

abbrev Bytes := List UInt8

def bytesOf (s : String) : Bytes := s.toUTF8.toList

/-- The text with these UTF-8 bytes, if they are such. -/
def textOf? (bs : Bytes) : Option String := String.fromUTF8? ⟨bs.toArray⟩

def hexValue? (b : UInt8) : Option UInt8 :=
  if 48 ≤ b && b ≤ 57 then some (b - 48)
  else if 97 ≤ b && b ≤ 102 then some (b - 87)
  else if 65 ≤ b && b ≤ 70 then some (b - 55)
  else none

def percentDecode : Bytes → Bytes
  | [] => []
  | 37 :: a :: b :: rest =>
    match hexValue? a, hexValue? b with
    | some x, some y => (16 * x + y) :: percentDecode rest
    | _, _ => 37 :: percentDecode (a :: b :: rest)
  | b :: rest => b :: percentDecode rest

/-- A part of an address as text, if its bytes are UTF-8. -/
def percentText? (s : String) : Option String := textOf? (percentDecode (bytesOf s))

end UnitLedger.Http
