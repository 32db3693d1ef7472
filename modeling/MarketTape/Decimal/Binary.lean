/-!
# A double as a whole number times a power of two

Number text is worked out in exact arithmetic, so a double is first taken apart into its sign, a
whole number and a power of two.  Everything that reads back as the same double lies between two
neighbouring midpoints, and those are whole quarters of the same power of two.

* `Binary` is the exact value of a finite double, `Binary.ofFloat` reads it off the bits.
* `Binary.below` and `Binary.above` are the distances to the two midpoints, in quarters.
-/

namespace MarketTape.Decimal

/-- The number `mantissa · 2 ^ exponent`, negated if `negative`.  It is `narrow` if the next double
towards zero is only half as far away as the next one away from it. -/
structure Binary where
  negative : Bool
  mantissa : Nat
  exponent : Int
  narrow : Bool
  deriving DecidableEq, Repr

namespace Binary

/-- The value of a finite double.  A biased exponent of zero marks the numbers below the least
normal one, which lack the implied leading bit. -/
def ofFloat (x : Float) : Binary :=
  let bits : Nat := x.toBits.toNat
  let fraction : Nat := bits % Nat.pow 2 52
  let biased : Nat := bits / Nat.pow 2 52 % Nat.pow 2 11
  let negative := bits / Nat.pow 2 63 == 1
  if biased = 0 then ⟨negative, fraction, -1074, false⟩
  else ⟨negative, Nat.pow 2 52 + fraction, (biased : Int) - 1075, fraction == 0 && biased != 1⟩

/-- Quarters of the last place from the value down to the midpoint below it. -/
def below (b : Binary) : Nat := if b.narrow then 1 else 2

/-- Quarters of the last place from the value up to the midpoint above it. -/
def above (_ : Binary) : Nat := 2

/-- A midpoint itself reads back as the neighbour whose significant bits are even. -/
def endsIncluded (b : Binary) : Bool := b.mantissa % 2 == 0

end Binary

end MarketTape.Decimal
