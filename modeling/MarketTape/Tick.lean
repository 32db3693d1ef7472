import MarketTape.Scalar
import MarketTape.Count

/-!
# Ticks

A tick is one update of the market in one instrument.  Ticks are ordered by time and, at one time,
by instrument; ticks that agree in both keep the order in which they were recorded.

* `Tick` is the update, `Tick.comesBy` its order, `Tick.sorted` the stable sort by that order.
* `underlying` is the symbol that the contracts of one future share.
* `bucketOf?` is the number of the time bucket a time stamp falls into.
-/

namespace MarketTape

/-- An update of the market in one instrument, for example `rb2405`.  The time is in nanoseconds
since the first day of 1970, `last` is the price of the last trade, and the volume is what was
traded since the market opened. -/
structure Tick (α : Type) where
  instrument : String
  time : Int
  last : α
  volume : α
  bid : α
  bidSize : α
  ask : α
  askSize : α
  deriving DecidableEq, Repr

/-- The letters at the front of an instrument: `rb2405` is a contract on `rb`. -/
def underlying (instrument : String) : String :=
  String.ofList (instrument.toList.takeWhile Char.isAlpha)

/-- The number of the bucket of the given width that holds a time stamp. -/
def bucketOf? (time width : Int) : Option Int := Count.quotient? time width

namespace Tick

variable {α : Type}

/-- Half way between bid and ask. -/
def mid [Scalar α] (t : Tick α) : α := (t.bid + t.ask) / Scalar.ofInt 2

/-- The order of ticks: by time, then by instrument. -/
def comesBy (a b : Tick α) : Bool :=
  a.time < b.time || (a.time == b.time && a.instrument ≤ b.instrument)

/-- Whether every tick may stand before the one after it. -/
def inOrder : List (Tick α) → Bool
  | [] => true
  | [_] => true
  | a :: b :: rest => comesBy a b && inOrder (b :: rest)

/-- The ticks in their order; ticks of one time and instrument stay as they were. -/
def sorted (ticks : List (Tick α)) : List (Tick α) :=
  if inOrder ticks then ticks else ticks.mergeSort comesBy

end Tick

end MarketTape
