import MarketTape.Decimal.Reading

/-!
# Numbers in JSON text

A number without point and exponent is a whole number as long as it fits 64 bits.  Any other number
is a double: its leading digits, as many as fit 64 bits, are turned into a double, which is then
multiplied or divided once by a power of ten.  That is the nearest double whenever the digits and
the power are small enough to be exact.

* `Numeral` is the text of a number taken apart.
* `Numeral.value?` is its value; a number beyond the range of doubles has none.
-/

namespace MarketTape.Json

open Decimal

/-- The parts of a number: whether there is a minus, the digits before and after the point, and the
exponent, if there is one: whether it has a minus, and its digits. -/
structure Numeral where
  negative : Bool
  whole : List Char
  fraction : List Char
  exponent : Option (Bool × List Char)

/-- What a number stands for: a whole number of 64 bits, with or without sign, or a double. -/
inductive Numeral.Value
  | int (n : Int)
  | float (x : Float)

/-- The greatest number of 64 bits. -/
def greatestWord : Nat := 18446744073709551615

/-- Reads digits after those of `start` as long as the number fits 64 bits, and counts them. -/
def absorb (start : Nat) : List Char → Nat × Nat
  | [] => (start, 0)
  | c :: rest =>
    let next := start * 10 + (digit? c).getD 0
    if greatestWord < next then (start, 0)
    else
      let (n, count) := absorb next rest
      (n, count + 1)

/-- The double for `10 ^ n`. -/
def powerOfTen (n : Nat) : Float := Float.ofScientific 1 false n

/-- A double times `10 ^ exponent`, by a single multiplication or division where the power is
itself a double. -/
def rescale? (x : Float) (exponent : Int) : Option Float :=
  if exponent.natAbs ≤ 308 then
    if 0 ≤ exponent then
      let y := x * powerOfTen exponent.natAbs
      if y.isInf then none else some y
    else some (x / powerOfTen exponent.natAbs)
  else if x == 0.0 then some x
  else if 0 ≤ exponent then none
  else rescale? (x / powerOfTen 308) (exponent + 308)
termination_by exponent.natAbs

/-- Exponents are held in 32 bits; what lies beyond is held at the end of that range. -/
def saturate (exponent : Int) : Int :=
  max (-2147483648) (min 2147483647 exponent)

namespace Numeral

/-- The double that a number stands for, without its sign. -/
def magnitude? (numeral : Numeral) (significand : Nat) (place : Int) : Option Float :=
  match numeral.exponent with
  | none => rescale? (Float.ofNat significand) place
  | some (negative, digits) =>
    let n : Int := ofDigits 0 digits
    if 2147483647 < n then
      if significand ≠ 0 ∧ ¬ negative then none else some 0.0
    else
      rescale? (Float.ofNat significand) (saturate (if negative then place - n else place + n))

/-- The value of a number.  A minus before zero is kept, so that number is a double. -/
def value? (numeral : Numeral) : Option Value :=
  let (leading, kept) := absorb 0 numeral.whole
  let dropped := numeral.whole.length - kept
  if numeral.fraction = [] ∧ numeral.exponent.isNone ∧ dropped = 0 then
    if ¬ numeral.negative then some (.int leading)
    else if leading = 0 ∨ 9223372036854775808 < leading then
      some (.float (-Float.ofNat leading))
    else some (.int (-leading))
  else
    let (significand, places) := absorb leading numeral.fraction
    (numeral.magnitude? significand ((dropped : Int) - places)).map fun x =>
      .float (if numeral.negative then -x else x)

end Numeral

end MarketTape.Json
