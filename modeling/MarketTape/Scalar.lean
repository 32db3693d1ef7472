/-!
# Numbers that prices and money are measured in

Prices, quoted sizes and amounts of money are all of one number type, and every rule that computes
with them is written over an arbitrary such type.  The program runs on doubles; the accounting
identities it rests on hold over exact numbers, and one definition serves both.

* `Scalar` is the arithmetic that book keeping needs.
* `AnalyticScalar` adds the logarithm and the square root that market statistics need.
* `Scalar.sum` adds amounts from left to right, starting at `Scalar.neutral`.
-/

namespace MarketTape

/-! ## The arithmetic -/

/-- A number type with ordered arithmetic.  Nothing is assumed of the operations: the laws an
identity needs are laws of the particular number type it is stated for.  `ofInt` is the number
nearest to a whole number, and `neutral` the sum of no numbers: adding it to a number on either side
gives that number back.  To `larger` and `smaller` a missing number gives way to a present one; a
number is finite if it is neither infinite nor missing. -/
class Scalar (α : Type) extends Add α, Sub α, Mul α, Div α, Neg α, LT α, LE α where
  decideLT : DecidableLT α
  decideLE : DecidableLE α
  ofInt : Int → α
  neutral : α
  abs : α → α
  larger : α → α → α
  smaller : α → α → α
  isFinite : α → Bool

instance Scalar.instDecidableLT {α : Type} [Scalar α] : DecidableLT α := Scalar.decideLT

instance Scalar.instDecidableLE {α : Type} [Scalar α] : DecidableLE α := Scalar.decideLE

/-- A number type on which market statistics can be computed, with natural logarithms and square
roots. -/
class AnalyticScalar (α : Type) extends Scalar α where
  ln : α → α
  sqrt : α → α

namespace Scalar

variable {α : Type} [Scalar α]

def zero : α := ofInt 0

/-- The sum of a list of numbers, added up from the left. -/
def sum (xs : List α) : α := xs.foldl (· + ·) neutral

/-- One divided by a whole number. -/
def inverseOf (n : Int) : α := ofInt 1 / ofInt n

/-- How far `a` lies above `b`, or zero where it does not. -/
def excess (a b : α) : α := larger (a - b) zero

/-- Confines a number to the band from `-bound` to `bound`.  A missing number stays missing. -/
def clamp (bound x : α) : α :=
  if x < -bound then -bound else if bound < x then bound else x

end Scalar

/-! ## Doubles -/

/-- The greater of two doubles, where a NaN stands for a missing number. -/
def largerFloat (a b : Float) : Float :=
  if a.isNaN then b else if b.isNaN then a else if a < b then b else a

/-- The lesser of two doubles, where a NaN stands for a missing number. -/
def smallerFloat (a b : Float) : Float :=
  if a.isNaN then b else if b.isNaN then a else if b < a then b else a

/-- Doubles.  Adding `0.0` to `-0.0` gives `0.0`, so the neutral element of addition is `-0.0`. -/
instance : AnalyticScalar Float where
  decideLT := inferInstance
  decideLE := inferInstance
  ofInt := Float.ofInt
  neutral := -0.0
  abs := Float.abs
  larger := largerFloat
  smaller := smallerFloat
  isFinite := Float.isFinite
  ln := Float.log
  sqrt := Float.sqrt

end MarketTape
