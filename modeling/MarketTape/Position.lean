import MarketTape.Order
import MarketTape.Count

/-!
# Positions

A position is a number of lots, held at an average price, and the profit that closing lots has
brought.  Trading on the side of the position blends the price of the new lots into the average;
trading against it closes lots at the average first, and whatever is left opens a position at the
price of the trade.

* `Position.trade?` applies a trade and gives the profit that it realized.
* `unrealized` is the profit that closing everything at a mark would bring.
* `PnlSnapshot` is a position seen at a mark.
-/

namespace MarketTape

/-- Lots held in one instrument, negative for sold ones, and the profit realized so far.  The
average is that of the prices at which they were taken on, and zero when there are none. -/
structure Position (α : Type) where
  net : Int
  average : α
  realized : α
  deriving DecidableEq, Repr

variable {α : Type} [Scalar α]

/-- The profit of closing a number of lots, held at an average price, at a mark. -/
def unrealized (net : Int) (average mark : α) : α :=
  if 0 < net then (mark - average) * Scalar.ofInt net
  else if net < 0 then (average - mark) * Scalar.ofInt (-net)
  else Scalar.zero

/-- A position seen at a mark; the total is both profits together. -/
structure PnlSnapshot (α : Type) where
  net : Int
  average : α
  realized : α
  unrealized : α
  mark : α
  total : α
  deriving DecidableEq, Repr

namespace Position

def flat : Position α := ⟨0, Scalar.zero, Scalar.zero⟩

def isFlat (p : Position α) : Bool := p.net == 0

/-- Takes on lots on the side of the position, or from flat. -/
def grow? (p : Position α) (side : Side) (volume : Int) (price : α) : Option (Position α) := do
  let before ← Count.abs? p.net
  let net ← Count.fit (p.net + side.sign * volume)
  let after ← Count.abs? net
  some { p with
    net
    average := (p.average * Scalar.ofInt before + price * Scalar.ofInt volume) /
      Scalar.ofInt after }

/-- The profit of closing lots at a price. -/
def closingProfit (p : Position α) (lots : Int) (price : α) : α :=
  if 0 < p.net then (price - p.average) * Scalar.ofInt lots
  else (p.average - price) * Scalar.ofInt lots

/-- Closes lots against the side of the position; what is left of the trade opens a position. -/
def reduce? (p : Position α) (side : Side) (volume : Int) (price : α) :
    Option (Position α × α) := do
  let held ← Count.abs? p.net
  let closing := min volume held
  let profit := p.closingProfit closing price
  let net ← Count.fit (p.net + side.sign * closing)
  let realized := p.realized + profit
  let remaining := volume - closing
  some
    (if 0 < remaining then ⟨side.sign * remaining, price, realized⟩
      else if net = 0 then ⟨0, Scalar.zero, realized⟩
      else ⟨net, p.average, realized⟩,
      profit)

/-- Applies a trade and gives the profit that it realized.  A trade of no lots changes nothing. -/
def trade? (p : Position α) (side : Side) (volume : Int) (price : α) :
    Option (Position α × α) :=
  if volume ≤ 0 then some (p, Scalar.zero)
  else if p.net = 0 ∨ p.net.sign = side.sign then
    (p.grow? side volume price).map fun p => (p, Scalar.zero)
  else p.reduce? side volume price

def snapshot (p : Position α) (mark : α) : PnlSnapshot α :=
  let open_ := MarketTape.unrealized p.net p.average mark
  ⟨p.net, p.average, p.realized, open_, mark, p.realized + open_⟩

end Position

end MarketTape
