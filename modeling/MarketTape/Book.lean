import MarketTape.Position
import MarketTape.Table

/-!
# The book of a run

The book holds the position in every instrument that was ever traded and the last price of every
instrument that was seen.  A position is valued at the last price of its instrument, and at its own
average where there is none yet.

* `Book.trade?` applies a trade, `Book.mark` records a price.
* `Book.snapshots` shows every position; `Book.totalPnl` adds up their profits.
-/

namespace MarketTape

/-- The position in every instrument that was ever traded, and the last price of every one that was
seen. -/
structure Book (α : Type) where
  positions : Table (Position α)
  marks : Table α

namespace Book

variable {α : Type}

def empty : Book α := ⟨Table.empty, Table.empty⟩

/-- The position in an instrument that was ever traded. -/
def get? (b : Book α) (instrument : String) : Option (Position α) := b.positions.get? instrument

def net (b : Book α) (instrument : String) : Int :=
  match b.get? instrument with
  | some p => p.net
  | none => 0

def mark? (b : Book α) (instrument : String) : Option α := b.marks.get? instrument

def mark (b : Book α) (instrument : String) (price : α) : Book α :=
  { b with marks := b.marks.insert instrument price }

def put (b : Book α) (instrument : String) (p : Position α) : Book α :=
  { b with positions := b.positions.insert instrument p }

theorem get?_put (b : Book α) (instrument : String) (p : Position α) (other : String) :
    (b.put instrument p).get? other = if other = instrument then some p else b.get? other :=
  Table.get?_insert ..

/-- A written position counts for its own instrument alone. -/
theorem net_put (b : Book α) (instrument : String) (p : Position α) (other : String) :
    (b.put instrument p).net other = if other = instrument then p.net else b.net other := by
  simp only [net, get?_put]
  by_cases h : other = instrument <;> simp [h]

theorem mark?_mark (b : Book α) (instrument : String) (price : α) (other : String) :
    (b.mark instrument price).mark? other =
      if other = instrument then some price else b.mark? other :=
  Table.get?_insert ..

/-- A mark moves no lots. -/
@[simp] theorem net_mark (b : Book α) (instrument : String) (price : α) (other : String) :
    (b.mark instrument price).net other = b.net other := rfl

/-- The price at which a position is valued. -/
def valuation (b : Book α) (instrument : String) (p : Position α) : α :=
  (b.mark? instrument).getD p.average

variable [Scalar α]

/-- The position in an instrument, flat where there never was one. -/
def position (b : Book α) (instrument : String) : Position α :=
  (b.get? instrument).getD Position.flat

/-- Enters an instrument with the position it has, so that it is shown from now on. -/
def enter (b : Book α) (instrument : String) : Book α := b.put instrument (b.position instrument)

/-- Applies a trade and gives the profit that it realized. -/
def trade? (b : Book α) (instrument : String) (side : Side) (volume : Int) (price : α) :
    Option (Book α × α) :=
  ((b.position instrument).trade? side volume price).map fun (p, profit) =>
    (b.put instrument p, profit)

/-- The realized profit of all positions. -/
def realizedTotal (b : Book α) : α :=
  Scalar.sum (b.positions.rows.map fun (_, p) => p.realized)

/-- The unrealized profit of all positions at the last prices. -/
def unrealizedTotal (b : Book α) : α :=
  Scalar.sum (b.positions.rows.map fun (instrument, p) =>
    unrealized p.net p.average (b.valuation instrument p))

/-- The profit of all positions. -/
def totalPnl (b : Book α) : α := b.realizedTotal + b.unrealizedTotal

/-- Every position at the last price of its instrument. -/
def snapshots (b : Book α) : Table (PnlSnapshot α) :=
  b.positions.map fun instrument p => p.snapshot (b.valuation instrument p)

end Book

end MarketTape
