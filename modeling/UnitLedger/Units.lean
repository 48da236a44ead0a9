/-!
  UnitLedger.Units — counts of fund units.

  Units are whole numbers that the store keeps in a signed 32-bit column. They are integers here,
  and the column's range is a condition: `add?` and `sub?` give nothing when the exact result does
  not fit, `addClamped` and `subClamped` give the nearest number that does.
-/

namespace UnitLedger.Units

/-- The largest count a fund, an entry or a transfer may hold. -/
def greatest : Int := 2147483647

/-- The least number the column can hold. -/
def least : Int := -2147483648

/-- The numbers that the column can hold. -/
def Fits (units : Int) : Prop := least ≤ units ∧ units ≤ greatest

instance (units : Int) : Decidable (Fits units) := inferInstanceAs (Decidable (_ ∧ _))

/-- A requested count, accepted from `min` up to the greatest one. -/
def checked? (units min : Int) : Option Int :=
  if units < min ∨ greatest < units ∨ units < least then none else some units

def add? (a b : Int) : Option Int :=
  if Fits (a + b) then some (a + b) else none

def sub? (a b : Int) : Option Int :=
  if Fits (a - b) then some (a - b) else none

/-- The number of the column's range that is nearest to `units`. -/
def clamp (units : Int) : Int := max least (min greatest units)

def addClamped (a b : Int) : Int := clamp (a + b)

def subClamped (a b : Int) : Int := clamp (a - b)

end UnitLedger.Units
