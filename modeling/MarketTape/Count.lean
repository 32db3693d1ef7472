/-!
# Counts of lots and nanoseconds

A number of lots, a time stamp and a bucket number are whole numbers of the signed 64-bit range.
An operation whose result leaves that range has no result: nothing wraps around, and no later step
of a run sees a wrong count.

* `Count.Fits` says that a whole number lies in the range.
* `Count.fit` keeps a number that does.
* `Count.quotient?` and `Count.abs?` are the operations whose failures are not plain from their sum.
-/

namespace MarketTape.Count

def least : Int := -9223372036854775808

def greatest : Int := 9223372036854775807

/-- A whole number in the signed 64-bit range. -/
def Fits (n : Int) : Prop := least ≤ n ∧ n ≤ greatest

instance (n : Int) : Decidable (Fits n) := inferInstanceAs (Decidable (_ ∧ _))

/-- A whole number as a count, if it is one. -/
def fit (n : Int) : Option Int := if Fits n then some n else none

theorem fit_eq_some_iff {n m : Int} : fit n = some m ↔ Fits n ∧ n = m := by
  unfold fit
  split <;> simp_all

theorem fit_eq_none_iff {n : Int} : fit n = none ↔ ¬ Fits n := by
  unfold fit
  split <;> simp_all

theorem fits_of_fit {n m : Int} (h : fit n = some m) : Fits m := by
  obtain ⟨hn, rfl⟩ := fit_eq_some_iff.1 h
  exact hn

/-- Distance from zero, which the least count does not have. -/
def abs? (n : Int) : Option Int := fit n.natAbs

/-- Division rounded so that the remainder is never negative.  There is none by zero, and the
least count has no quotient by `-1`. -/
def quotient? (n width : Int) : Option Int := if width = 0 then none else fit (n / width)

end MarketTape.Count
