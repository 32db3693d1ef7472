import MarketTape.Bar

/-!
# Market states

A strategy sees every bar together with a description of the market at its close.  The description
comes from a detector, which may be anything that turns a sequence of bars into such descriptions.

* `Regime` is the coarse label and `MarketState` the whole description.
* `BarState` is what a strategy sees.
* `Detector` is the interface of detectors.
-/

namespace MarketTape

/-- A coarse description of the market: there is not enough history, prices keep rising, they keep
falling, there is no direction and no turmoil, or prices swing widely. -/
inductive Regime
  | warmup
  | trendUp
  | trendDown
  | ranging
  | volatile
  deriving DecidableEq, Repr

namespace Regime

def label : Regime → String
  | warmup => "warmup"
  | trendUp => "trend_up"
  | trendDown => "trend_down"
  | ranging => "ranging"
  | volatile => "volatile"

def labels : List (String × Regime) :=
  [warmup, trendUp, trendDown, ranging, volatile].map fun r => (r.label, r)

end Regime

/-- A description of the market at the close of a bar.  The range is a share of the close, the
volume is in units of the recent mean volume, the spread is in hundredths of a percent of the middle
price, and the trend strength is the mean of recent returns over its standard error. -/
structure MarketState (α : Type) where
  ret : α
  volatility : α
  rangePct : α
  volumeRatio : α
  spreadBps : α
  imbalance : α
  trendStrength : α
  regime : Regime
  deriving DecidableEq, Repr

/-- What a strategy sees of a bar: the bar, the market at its close, and the lots held in its
instrument. -/
structure BarState (α : Type) where
  bar : Bar α
  state : MarketState α
  net : Int
  deriving DecidableEq, Repr

/-- Something that describes the market bar by bar.  It describes nothing where a count leaves its
range. -/
structure Detector (α : Type) where
  State : Type
  start : State
  observe : State → Bar α → Option (State × MarketState α)

end MarketTape
