import MarketTape.Book

/-!
# Equity and performance

After every bar the profit of the whole book is one point of the equity curve.  The curve starts at
zero, so that a loss from the first bar on counts as a drawdown.

* `EquityCurve.record` adds a point and keeps the peak and the largest drawdown.
* `Performance` is the summary of a finished run.
-/

namespace MarketTape

/-- One point of the equity curve: the time of a bar, the profit of the book, and how far that lies
below the highest profit so far. -/
structure EquityPoint (α : Type) where
  time : Int
  equity : α
  drawdown : α
  deriving DecidableEq, Repr

/-- The profit of the book over time.  `peak` is the highest profit so far, and at least zero. -/
structure EquityCurve (α : Type) where
  points : Array (EquityPoint α)
  peak : α
  maxDrawdown : α

namespace EquityCurve

variable {α : Type} [Scalar α]

def start : EquityCurve α := ⟨#[], Scalar.zero, Scalar.zero⟩

def record (c : EquityCurve α) (time : Int) (equity : α) : EquityCurve α :=
  let peak := Scalar.larger c.peak equity
  let drawdown := peak - equity
  ⟨c.points.push ⟨time, equity, drawdown⟩, peak, Scalar.larger c.maxDrawdown drawdown⟩

/-- Every record adds one point. -/
@[simp] theorem size_record (c : EquityCurve α) (time : Int) (equity : α) :
    (c.record time equity).points.size = c.points.size + 1 := by
  simp [record]

end EquityCurve

/-- The summary of a run.  The statuses are in the order of their names; `fillCount` has the trades
of the strategy, and moves between contracts do not count. -/
structure Performance (α : Type) where
  total : α
  realized : α
  unrealized : α
  maxDrawdown : α
  equityPoints : Nat
  orderStatus : List (String × Nat)
  fillCount : Nat
  rolloverSlippage : α
  deriving DecidableEq, Repr

def Performance.of {α : Type} [Scalar α] (book : Book α) (curve : EquityCurve α)
    (statuses : StatusCounts) (rolloverSlippage : α) : Performance α where
  total := book.realizedTotal + book.unrealizedTotal
  realized := book.realizedTotal
  unrealized := book.unrealizedTotal
  maxDrawdown := curve.maxDrawdown
  equityPoints := curve.points.size
  orderStatus := statuses.histogram
  fillCount := statuses.get .filled
  rolloverSlippage := rolloverSlippage

end MarketTape
