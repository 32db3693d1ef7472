import MarketTape.Decimal.Binary

/-!
# The fewest digits that read back

A finite double is written with the fewest decimal digits that read back as that double, and among
those with the digits nearest to it.

* `Digits` is a decimal number, `Digits.ofBinary` chooses the one that is written.
* `candidate?` looks at one decimal grid: of the grid's two points around the value it takes the
  nearer one that reads back.
* `search` goes from a coarse grid to finer ones and stops at the first that has such a point.
-/

namespace MarketTape.Decimal

/-- The number `coefficient · 10 ^ exponent`. -/
structure Digits where
  coefficient : Nat
  exponent : Int
  deriving DecidableEq, Repr

/-- Which of two equally near numbers is taken: the one whose last digit is even, or the one farther
from zero. -/
inductive Tie
  | toEven
  | away
  deriving DecidableEq, Repr

/-- A value between the midpoints below and above it, all three in the same unit of a quarter of a
last place.  The midpoints belong to the band if it is `closed`. -/
structure Band where
  low : Nat
  value : Nat
  high : Nat
  closed : Bool

namespace Band

/-- The numbers that read back as the given one. -/
def around (b : Binary) : Band :=
  ⟨4 * b.mantissa - b.below, 4 * b.mantissa, 4 * b.mantissa + b.above, b.endsIncluded⟩

/-- Whether a number lies in the band. -/
def holds (band : Band) (n : Nat) : Bool :=
  if band.closed then band.low ≤ n && n ≤ band.high else band.low < n && n < band.high

/-- The same band counted in a finer unit. -/
def scale (band : Band) (factor : Nat) : Band :=
  ⟨band.low * factor, band.value * factor, band.high * factor, band.closed⟩

/-- Among the multiples of `step` around the value, the nearer one that lies in the band, as a
number of steps. -/
def nearest? (band : Band) (tie : Tie) (step : Nat) : Option Nat :=
  let n := band.value / step
  let downwards := band.value - n * step
  let upwards := (n + 1) * step - band.value
  let down := band.holds (n * step) && n != 0
  let up := band.holds ((n + 1) * step)
  if down && up then
    if downwards < upwards then some n
    else if upwards < downwards then some (n + 1)
    else match tie with
      | .toEven => some (if n % 2 = 0 then n else n + 1)
      | .away => some (n + 1)
  else if down then some n
  else if up then some (n + 1)
  else none

end Band

/-- The point of the grid of multiples of `10 ^ place` that is written for a number, if one of them
reads back as it. -/
def candidate? (tie : Tie) (b : Binary) (place : Int) : Option Nat :=
  let quarter := b.exponent - 2
  let band := (Band.around b).scale (Nat.pow 2 quarter.toNat * Nat.pow 10 (-place).toNat)
  band.nearest? tie (Nat.pow 2 (-quarter).toNat * Nat.pow 10 place.toNat)

/-- Tries a grid and then finer ones, at most `fuel` of them. -/
def search (tie : Tie) (b : Binary) : Nat → Int → Option Digits
  | 0, _ => none
  | fuel + 1, place =>
    match candidate? tie b place with
    | some n => some ⟨n, place⟩
    | none => search tie b fuel (place - 1)

/-- A decimal place no coarser than the last one whose grid can be hit: `2 ^ n` is at most
`10 ^ (n · 0.30103)` for a positive `n`, and a negative `n` is rounded up. -/
def coarsestPlace (b : Binary) : Int :=
  (b.exponent + (Nat.log2 b.mantissa : Int) + 1) * 30103 / 100000 + 1

namespace Digits

/-- Moves the zeros at the end of the coefficient into the exponent. -/
def strip : Nat → Digits → Digits
  | 0, d => d
  | fuel + 1, d =>
    if d.coefficient ≠ 0 ∧ d.coefficient % 10 = 0 then
      strip fuel ⟨d.coefficient / 10, d.exponent + 1⟩
    else d

/-- The digits written for a number other than zero.  Seventeen digits always read back, and the
search starts at most two places above the first digit. -/
def ofBinary (tie : Tie) (b : Binary) : Digits :=
  strip 400 ((search tie b 24 (coarsestPlace b)).getD ⟨b.mantissa, 0⟩)

end Digits

end MarketTape.Decimal
