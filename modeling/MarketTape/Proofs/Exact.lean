import Mathlib.Algebra.Order.Ring.Rat
import Mathlib.Algebra.Order.Field.Rat
import MarketTape.Scalar

/-!
# Exact numbers

On rational numbers the arithmetic of prices and money has the laws that rounding takes away, so
identities of accounts are stated there.

* The instance makes rational numbers a number type for prices; every one of them is finite.
-/

namespace MarketTape

/-- Rational numbers. -/
instance : Scalar ℚ where
  decideLT := inferInstance
  decideLE := inferInstance
  ofInt n := n
  neutral := 0
  abs x := |x|
  larger := max
  smaller := min
  isFinite _ := true

namespace Scalar

@[simp] lemma zero_exact : (zero : ℚ) = 0 := rfl

@[simp] lemma ofInt_exact (n : Int) : (ofInt n : ℚ) = n := rfl

@[simp] lemma abs_exact (x : ℚ) : Scalar.abs x = |x| := rfl

@[simp] lemma sum_exact (xs : List ℚ) : Scalar.sum xs = xs.sum := List.sum_eq_foldl.symm

end Scalar

end MarketTape
