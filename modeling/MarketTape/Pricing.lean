import MarketTape.Order
import MarketTape.Tick
import MarketTape.Bar

/-!
# Prices of fills

An order of a strategy fills at the close of the bar that it answered.  A trade that moves a
position to another contract is priced off a tick instead, and slippage goes against the trader.

* `fillAtClose` is the fill of an order.
* `LegPricing` says which price of a tick is taken and how much slippage is added.
* `LegPricing.price` is the price of one lot together with its slippage.
-/

namespace MarketTape

/-- Which price of a tick a trade is based on: the ask for buying and the bid for selling, half way
between the two, or the last trade. -/
inductive PriceMode
  | quote
  | mid
  | last
  deriving DecidableEq, Repr

def PriceMode.labels : List (String × PriceMode) := [("bbo", quote), ("mid", mid), ("last", last)]

def PriceMode.label : PriceMode → String
  | quote => "bbo"
  | mid => "mid"
  | last => "last"

variable {α : Type} [Scalar α]

/-- The fill of a number of lots of an intent at the close of a bar. -/
def fillAtClose (intent : Intent α) (bar : Bar α) (volume : Int) : Fill α where
  time := bar.lastTime
  instrument := bar.instrument
  side := intent.side
  offset := intent.offset
  volume := volume
  price := bar.close
  slippage := Scalar.zero
  traceId := intent.traceId

/-- How a trade off a tick is priced: on which price it is based, and slippage in hundredths of a
percent of that price. -/
structure LegPricing (α : Type) where
  mode : PriceMode
  slippageBps : α
  deriving DecidableEq, Repr

namespace LegPricing

/-- The price of a tick that a trade is based on.  A missing quote gives way to the last trade. -/
def reference (p : LegPricing α) (side : Side) (t : Tick α) : α :=
  match p.mode with
  | .last => t.last
  | .mid => if Scalar.zero < t.bid ∧ Scalar.zero < t.ask then t.mid else t.last
  | .quote =>
    let quote := match side with
      | .buy => t.ask
      | .sell => t.bid
    if Scalar.zero < quote then quote else t.last

/-- The price of one lot with slippage, and the slippage: buying costs more, selling brings less. -/
def withSlippage (p : LegPricing α) (side : Side) (base : α) : α × α :=
  let slippage := base * p.slippageBps / Scalar.ofInt 10000
  match side with
  | .buy => (base + slippage, slippage)
  | .sell => (base - slippage, slippage)

/-- The price of one lot off a tick, and its slippage. -/
def price (p : LegPricing α) (side : Side) (t : Tick α) : α × α :=
  p.withSlippage side (p.reference side t)

end LegPricing

end MarketTape
