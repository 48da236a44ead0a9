/-!
  UnitLedger.Word — how large a number of 16, 32 or 64 bits may be.
-/

namespace UnitLedger.Word

def max16 : Nat := 65535

def max32 : Nat := 4294967295

def max64 : Nat := 18446744073709551615

/-- One of the 64 bits is the sign. -/
def maxSigned64 : Int := 9223372036854775807

def minSigned64 : Int := -9223372036854775808

end UnitLedger.Word
