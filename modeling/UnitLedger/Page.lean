/-!
  UnitLedger.Page — windows on ordered lists.

  A caller may ask for a limit and an offset (`ListParams`). `ListParams.window` brings them into
  the allowed range, and `Window.slice` cuts that window out of a list that is already in order. A
  `Page` carries its window and the length of the whole list beside the items.
-/

namespace UnitLedger

/-- The limit and offset that a caller asked for, either of which may be left out. -/
structure ListParams where
  limit : Option Int := none
  offset : Option Int := none
  deriving DecidableEq, Repr

/-- The rows `offset, …, offset + limit - 1` of a list. -/
structure Window where
  limit : Int
  offset : Int
  deriving DecidableEq, Repr

namespace ListParams

/-- The limit of a request that names none, or none above zero. -/
def defaultLimit : Int := 100

def maxLimit : Int := 1000

/-- A limit above zero is capped, any other becomes the default; a negative offset becomes zero. -/
def window (p : ListParams) : Window where
  limit := match p.limit with
    | some n => if 0 < n then min n maxLimit else defaultLimit
    | none => defaultLimit
  offset := max (p.offset.getD 0) 0

end ListParams

namespace Window

/-- A window's bound as a count of rows. A negative bound counts modulo 2^64, so that it lies beyond
every list. -/
def rows (bound : Int) : Nat :=
  if 0 ≤ bound then bound.toNat else (bound + 18446744073709551616).toNat

def slice (w : Window) {α : Type} (items : List α) : List α :=
  (items.drop (rows w.offset)).take (rows w.limit)

end Window

structure Page (α : Type) where
  items : List α
  /-- How many rows the whole list has. -/
  total : Nat
  window : Window
  deriving DecidableEq, Repr

namespace Page

/-- The page of `items` that `w` shows. -/
def ofList {α : Type} (items : List α) (w : Window) : Page α :=
  ⟨w.slice items, items.length, w⟩

def map {α β : Type} (f : α → β) (p : Page α) : Page β :=
  ⟨p.items.map f, p.total, p.window⟩

end Page

end UnitLedger
