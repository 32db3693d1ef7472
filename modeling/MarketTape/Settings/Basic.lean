import MarketTape.Calendar
import MarketTape.Json.Basic
import MarketTape.Regime.Detection
import MarketTape.Rollover

/-!
# Settings of a run

The settings say where the ticks are, which of them are replayed, how bars are built and described,
how positions are moved between contracts, and which strategy trades.

* `Settings` holds the five sections; `Settings.initial` is what holds where nothing is said.
* `DataSettings.window` turns the range of days into a window of time stamps.
-/

namespace MarketTape

/-- What happens to a data file whose description is missing or wrong: the run stops, or the file is
read anyway. -/
inductive SidecarPolicy
  | strict
  | lenient
  deriving DecidableEq, Repr

namespace SidecarPolicy

def label : SidecarPolicy → String
  | strict => "strict"
  | lenient => "lenient"

def labels : List (String × SidecarPolicy) := [("strict", strict), ("lenient", lenient)]

end SidecarPolicy

/-- Where the ticks are, and which of them are replayed: those from the first day to the last one,
up to a cap.  Up to `preloadMaxRows` ticks are merged by sorting. -/
structure DataSettings where
  csvPath : Option String
  datasetRoot : Option String
  validation : SidecarPolicy
  startDate : Option Date
  endDate : Option Date
  maxRows : Option Nat
  preloadMaxRows : Nat

/-- Whether positions are moved between contracts, and how. -/
structure RolloverSettings where
  enabled : Bool
  terms : RolloverTerms Float

/-- The name under which the strategy is registered, and its parameters. -/
structure StrategySettings where
  name : String
  params : Json

/-- How the run is simulated: whether intents are filled and positions are kept, where the audit log
goes, and which strategy trades. -/
structure BacktestSettings where
  deterministic : Bool
  logPath : Option String
  strategy : StrategySettings

/-- The settings of a run.  The width of the bars is in nanoseconds. -/
structure Settings where
  data : DataSettings
  bucketWidth : Int
  detector : DetectorTerms Float
  rollover : RolloverSettings
  backtest : BacktestSettings

namespace Settings

/-- What holds where nothing is said: bars of a minute, strict rollover at the quotes without
slippage, and a strategy that does nothing. -/
def initial : Settings where
  data :=
    { csvPath := none, datasetRoot := none, validation := .strict, startDate := none
      endDate := none, maxRows := none, preloadMaxRows := 1000000 }
  bucketWidth := 60000000000
  detector := { window := 20, trendThreshold := 2.0, volatilityThreshold := 0.01 }
  rollover :=
    { enabled := true
      terms := { mode := .strict, pricing := { mode := .quote, slippageBps := 0.0 } } }
  backtest :=
    { deterministic := true, logPath := none, strategy := { name := "noop", params := .obj [] } }

end Settings

end MarketTape
