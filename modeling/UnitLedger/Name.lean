import UnitLedger.Text.Blank

/-!
  UnitLedger.Name — the names of funds and owners.

  A name is stored trimmed. `normalize?` gives the stored form of what a caller wrote, or nothing
  when no stored form exists: the trimmed text is empty or longer than `Name.maxLength` code
  points. Length is counted after trimming and in code points, so every script has the same room.
-/

namespace UnitLedger.Name

/-- The most code points a stored name may have. -/
def maxLength : Nat := 255

/-- A text that may be stored as a name: it has no blank ends and an allowed length. -/
def IsStored (name : String) : Prop :=
  Text.trim name.toList = name.toList ∧ 1 ≤ name.length ∧ name.length ≤ maxLength

def normalize? (raw : String) : Option String :=
  let trimmed := Text.trim raw.toList
  if trimmed.isEmpty || trimmed.length > maxLength then none else some (String.ofList trimmed)

end UnitLedger.Name
