import MarketTape.Book
import MarketTape.Decimal.Layout

/-!
# Integrity of the final positions

A run ends with a check of the positions it reports.  A flat position has neither an average price
nor unrealized profit, any other position has a positive average price, and the total profit is the
sum of its two parts.  Amounts are compared up to a small tolerance, since they were rounded.

* `Violation` is a way in which a position fails the check, and `Violation.message` its text.
* `violations` checks all positions, in the order of their names.
-/

namespace MarketTape

/-- A way in which a reported position contradicts itself: there are no lots but an average price or
unrealized profit, there are lots but no positive average price, or the total is not the sum of its
parts. -/
inductive Violation (α : Type) where
  | flatWithAverage (instrument : String) (average : α)
  | flatWithUnrealized (instrument : String) (unrealized : α)
  | openWithoutAverage (instrument : String) (net : Int) (average : α)
  | totalOff (instrument : String) (total realized unrealized : α)
  deriving DecidableEq, Repr

section Check

variable {α : Type} [Scalar α]

/-- How far rounding may take two amounts apart. -/
def tolerance : α := Scalar.inverseOf 1000000000

/-- Whether an amount is farther from zero than rounding explains. -/
def isOff (x : α) : Bool := tolerance < Scalar.abs x

/-- What is wrong with one position. -/
def PnlSnapshot.violations (instrument : String) (s : PnlSnapshot α) : List (Violation α) :=
  (if s.net = 0 then
    (if isOff s.average then [.flatWithAverage instrument s.average] else []) ++
      (if isOff s.unrealized then [.flatWithUnrealized instrument s.unrealized] else [])
  else if ¬ Scalar.zero < s.average then [.openWithoutAverage instrument s.net s.average]
  else []) ++
  (if isOff (s.total - (s.realized + s.unrealized)) then
    [.totalOff instrument s.total s.realized s.unrealized]
  else [])

/-- What is wrong with the reported positions. -/
def violations (snapshots : Table (PnlSnapshot α)) : List (Violation α) :=
  snapshots.rows.flatMap fun (instrument, s) => s.violations instrument

end Check

def Violation.message : Violation Float → String
  | flatWithAverage instrument average =>
    instrument ++ ": flat position has avg_open_price " ++ Decimal.plainText average
  | flatWithUnrealized instrument unrealized =>
    instrument ++ ": flat position has unrealized_pnl " ++ Decimal.plainText unrealized
  | openWithoutAverage instrument net average =>
    instrument ++ ": open position " ++ toString net ++ " has non-positive avg_open_price " ++
      Decimal.plainText average
  | totalOff instrument total realized unrealized =>
    instrument ++ ": total_pnl " ++ Decimal.plainText total ++ " != realized " ++
      Decimal.plainText realized ++ " + unrealized " ++ Decimal.plainText unrealized

end MarketTape
