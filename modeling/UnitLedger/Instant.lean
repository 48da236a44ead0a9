/-!
  UnitLedger.Instant — points in time and how they are written.

  An instant is a count of nanoseconds since the start of 1970 in UTC. It is written in the
  Internet date and time format with a final `Z`. `toText` writes the fewest of 0, 3, 6 or 9
  fraction digits that lose nothing, `toMillisText` always writes three. A year outside 0 to 9999
  carries a sign.
-/

namespace UnitLedger

structure Instant where
  nanos : Int
  deriving DecidableEq, Repr, Inhabited

namespace Instant

def ofMillis (ms : Int) : Instant := ⟨ms * 1000000⟩

/-- Whole milliseconds since the start of 1970, rounded down. -/
def millis (t : Instant) : Int := t.nanos.fdiv 1000000

def after (t : Instant) (nanos : Nat) : Instant := ⟨t.nanos + nanos⟩

instance : LT Instant := ⟨fun a b => a.nanos < b.nanos⟩
instance : LE Instant := ⟨fun a b => a.nanos ≤ b.nanos⟩
instance (a b : Instant) : Decidable (a < b) := Int.decLt _ _
instance (a b : Instant) : Decidable (a ≤ b) := Int.decLe _ _

/-- A day of the proleptic Gregorian calendar. -/
structure Date where
  year : Int
  month : Nat
  day : Nat
  deriving DecidableEq, Repr

/-- The date that lies `days` after 1970-01-01. Years are counted from the first of March, so that
the leap day is the last of its year, and in eras of 400 years, each of 146097 days. -/
def Date.ofDays (days : Int) : Date :=
  let shifted := days + 719468
  let era := shifted.fdiv 146097
  let dayOfEra := (shifted - era * 146097).toNat
  let yearOfEra := (dayOfEra - dayOfEra / 1460 + dayOfEra / 36524 - dayOfEra / 146096) / 365
  let dayOfYear := dayOfEra - (365 * yearOfEra + yearOfEra / 4 - yearOfEra / 100)
  let shiftedMonth := (5 * dayOfYear + 2) / 153
  let month := if shiftedMonth < 10 then shiftedMonth + 3 else shiftedMonth - 9
  { year := yearOfEra + era * 400 + (if month ≤ 2 then 1 else 0)
    month
    day := dayOfYear - (153 * shiftedMonth + 2) / 5 + 1 }

/-- Decimal digits of `n`, filled with zeros on the left up to `width` characters. -/
def padded (width n : Nat) : String :=
  let ds := toString n
  String.ofList (List.replicate (width - ds.length) '0') ++ ds

/-- Four digits for the years 0 to 9999; a sign and at least four digits for all others. -/
def yearText (year : Int) : String :=
  if 0 ≤ year ∧ year ≤ 9999 then padded 4 year.toNat
  else (if year < 0 then "-" else "+") ++ padded 4 year.natAbs

def Date.toText (d : Date) : String :=
  yearText d.year ++ "-" ++ padded 2 d.month ++ "-" ++ padded 2 d.day

def nanosPerDay : Int := 86400000000000

/-- Date and time of day up to the second, without a zone. -/
def secondsText (t : Instant) : String :=
  let ofDay := (t.nanos - t.nanos.fdiv nanosPerDay * nanosPerDay).toNat / 1000000000
  (Date.ofDays (t.nanos.fdiv nanosPerDay)).toText ++ "T" ++ padded 2 (ofDay / 3600) ++ ":"
    ++ padded 2 (ofDay / 60 % 60) ++ ":" ++ padded 2 (ofDay % 60)

/-- Nanoseconds past the last full second. -/
def subsecond (t : Instant) : Nat := (t.nanos - t.nanos.fdiv 1000000000 * 1000000000).toNat

def fractionText (subsecond : Nat) : String :=
  if subsecond = 0 then ""
  else if subsecond % 1000000 = 0 then "." ++ padded 3 (subsecond / 1000000)
  else if subsecond % 1000 = 0 then "." ++ padded 6 (subsecond / 1000)
  else "." ++ padded 9 subsecond

def toText (t : Instant) : String := secondsText t ++ fractionText t.subsecond ++ "Z"

def toMillisText (t : Instant) : String :=
  secondsText t ++ "." ++ padded 3 (t.subsecond / 1000000) ++ "Z"

end Instant

end UnitLedger
