/-!
  UnitLedger.Decimal.Shortest — the shortest decimal of a double.

  A finite double stands for every real number that rounds to it. `shortest` gives the decimal with
  the fewest digits among those numbers, and of several the one nearest to the double itself. All
  arithmetic is exact, on natural numbers: the double is `significand · 2^exponent`, and the
  interval of reals that round to it is kept in quarters of that unit.
-/

namespace UnitLedger

/-- The number `digits · 10^exponent`, negated if `negative`. -/
structure Decimal where
  negative : Bool
  digits : Nat
  exponent : Int
  deriving DecidableEq, Repr

namespace Decimal

/-- A positive double in exact form. -/
structure Binary where
  significand : Nat
  exponent : Int
  /-- The next double below is only half as far away as the next one above. -/
  atBinade : Bool
  deriving DecidableEq, Repr

/-- The leading bit of a significand; a double does not keep it, but for the smallest doubles. -/
def Binary.leadingBit : Nat := 1 <<< 52

/-- The magnitude that a double's bits stand for, infinities and NaN read as if they were finite. -/
def Binary.ofBits (bits : UInt64) : Binary :=
  let fraction : Nat := bits.toNat % leadingBit
  let power : Nat := bits.toNat / leadingBit % 2048
  if power = 0 then ⟨fraction, -1074, false⟩
  else ⟨leadingBit + fraction, (power : Int) - 1075, fraction = 0 ∧ 1 < power⟩

/-- The fraction `numerator / denominator` of `n · base^power`. -/
def scale (n base : Nat) (power : Int) : Nat × Nat :=
  if 0 ≤ power then (n * Nat.pow base power.toNat, 1) else (n, Nat.pow base power.natAbs)

namespace Binary

/-- Quarter units of the double, divided by `10^e`, as a fraction. -/
def onGrid (b : Binary) (quarters : Nat) (e : Int) : Nat × Nat :=
  let binary := scale quarters 2 (b.exponent - 2)
  let decimal := scale 1 10 (-e)
  (binary.1 * decimal.1, binary.2 * decimal.2)

/-- The number `c · 10^e` rounds to the double. The ends of the interval belong to it exactly when
the significand is even. -/
def rounds (b : Binary) (c : Nat) (e : Int) : Bool :=
  let low := b.onGrid (4 * b.significand - (if b.atBinade then 1 else 2)) e
  let high := b.onGrid (4 * b.significand + 2) e
  if b.significand % 2 = 0 then low.1 ≤ c * low.2 && c * high.2 ≤ high.1
  else low.1 < c * low.2 && c * high.2 < high.1

/-- Of the two multiples of `10^e` next to the double, the one that rounds to it; of two the nearer,
and the even one when both are equally near. -/
def hit? (b : Binary) (e : Int) : Option Nat :=
  let value := b.onGrid (4 * b.significand) e
  let below := value.1 / value.2
  let remainder := value.1 % value.2
  let above := below + 1
  match b.rounds below e && 0 < below, b.rounds above e with
  | true, true =>
    if 2 * remainder < value.2 ∨ (2 * remainder = value.2 ∧ below % 2 = 0) then some below
    else some above
  | true, false => some below
  | false, true => some above
  | false, false => none

/-- The largest `p` with `10^p` at most the double, searched downwards from `p` for `fuel` steps. -/
def magnitude (b : Binary) : Nat → Int → Int
  | 0, p => p
  | fuel + 1, p =>
    let value := b.onGrid (4 * b.significand) p
    if value.2 ≤ value.1 then p else magnitude b fuel (p - 1)

/-- The first grid, from coarse to fine, on which a multiple rounds to the double. Seventeen digits
always do. -/
def search (b : Binary) : Nat → Int → Nat × Int
  | 0, e => (((b.onGrid (4 * b.significand) e).1 / (b.onGrid (4 * b.significand) e).2), e)
  | fuel + 1, e =>
    match b.hit? e with
    | some c => (c, e)
    | none => search b fuel (e - 1)

end Binary

/-- Drops final zeros of the digits. -/
def normalize : Nat → Nat → Int → Nat × Int
  | 0, digits, e => (digits, e)
  | fuel + 1, digits, e =>
    if digits % 10 = 0 ∧ digits ≠ 0 then normalize fuel (digits / 10) (e + 1) else (digits, e)

def shortest (x : Float) : Decimal :=
  let b := Binary.ofBits x.toBits
  let negative := 1 <<< 63 ≤ x.toBits.toNat
  if b.significand = 0 then ⟨negative, 0, 0⟩
  else
    let found := b.search 17 (b.magnitude 640 309)
    let found := normalize 20 found.1 found.2
    ⟨negative, found.1, found.2⟩

end Decimal

end UnitLedger
