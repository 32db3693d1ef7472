import MarketTape.Settings.Basic
import MarketTape.Json.Decode

/-!
# The text of settings

Settings are written as JSON.  Whatever is left out keeps its initial value, and unknown members are
passed over, so that many texts stand for the same settings; the canonical text is the one that
writes every member in its place.

* `Settings.read?` reads settings, `Settings.canonical` writes them.
-/

namespace MarketTape

open Json

/-! ## Reading -/

def Json.Draft.date? (d : Draft) : Option Date := d.text?.bind Date.read?

namespace DataSettings

def fields : List Draft.FieldName :=
  [⟨"csv_path", []⟩, ⟨"dataset_root", []⟩, ⟨"validation", []⟩, ⟨"start_date", []⟩,
    ⟨"end_date", []⟩, ⟨"max_rows", []⟩, ⟨"preload_max_rows", []⟩]

def read? (d : Draft) : Option DataSettings := do
  let initial := Settings.initial.data
  let r ← d.record? fields
  let csvPath ← fieldOr r "csv_path" initial.csvPath (·.optional? Draft.text?)
  let datasetRoot ← fieldOr r "dataset_root" initial.datasetRoot (·.optional? Draft.text?)
  let validation ← fieldOr r "validation" initial.validation (·.choice? SidecarPolicy.labels)
  let startDate ← fieldOr r "start_date" initial.startDate (·.optional? Draft.date?)
  let endDate ← fieldOr r "end_date" initial.endDate (·.optional? Draft.date?)
  let maxRows ← fieldOr r "max_rows" initial.maxRows (·.optional? Draft.word?)
  let preloadMaxRows ← fieldOr r "preload_max_rows" initial.preloadMaxRows Draft.word?
  some { csvPath, datasetRoot, validation, startDate, endDate, maxRows, preloadMaxRows }

end DataSettings

def readBucketWidth? (d : Draft) : Option Int := do
  let r ← d.record? [⟨"bucket_width_ns", []⟩]
  fieldOr r "bucket_width_ns" Settings.initial.bucketWidth Draft.count?

def DetectorTerms.read? (d : Draft) : Option (DetectorTerms Float) := do
  let initial := Settings.initial.detector
  let r ← d.record? [⟨"window", []⟩, ⟨"trend_threshold", []⟩, ⟨"volatility_threshold", []⟩]
  let window ← fieldOr r "window" initial.window Draft.word?
  let trendThreshold ← fieldOr r "trend_threshold" initial.trendThreshold Draft.float?
  let volatilityThreshold ←
    fieldOr r "volatility_threshold" initial.volatilityThreshold Draft.float?
  some { window, trendThreshold, volatilityThreshold }

def RolloverSettings.read? (d : Draft) : Option RolloverSettings := do
  let initial := Settings.initial.rollover
  let r ← d.record? [⟨"enabled", []⟩, ⟨"mode", []⟩, ⟨"price_mode", []⟩,
    ⟨"slippage_bps", ["rollover_slippage_bps"]⟩]
  let enabled ← fieldOr r "enabled" initial.enabled Draft.bool?
  let mode ← fieldOr r "mode" initial.terms.mode (·.choice? RolloverMode.labels)
  let priceMode ← fieldOr r "price_mode" initial.terms.pricing.mode (·.choice? PriceMode.labels)
  let slippageBps ← fieldOr r "slippage_bps" initial.terms.pricing.slippageBps Draft.float?
  some { enabled, terms := { mode, pricing := { mode := priceMode, slippageBps } } }

def StrategySettings.read? (d : Draft) : Option StrategySettings := do
  let initial := Settings.initial.backtest.strategy
  let r ← d.record? [⟨"name", []⟩, ⟨"params", []⟩]
  let name ← fieldOr r "name" initial.name Draft.text?
  let params ← fieldOr r "params" initial.params Draft.toJson?
  some { name, params }

def BacktestSettings.read? (d : Draft) : Option BacktestSettings := do
  let initial := Settings.initial.backtest
  let r ← d.record? [⟨"deterministic", []⟩, ⟨"wal_path", []⟩, ⟨"strategy", []⟩]
  let deterministic ← fieldOr r "deterministic" initial.deterministic Draft.bool?
  let logPath ← fieldOr r "wal_path" initial.logPath (·.optional? Draft.text?)
  let strategy ← fieldOr r "strategy" initial.strategy StrategySettings.read?
  some { deterministic, logPath, strategy }

namespace Settings

/-- Takes settings out of a text whose structure is known. -/
def ofDraft? (d : Draft) : Option Settings := do
  let r ← d.record? [⟨"data", []⟩, ⟨"bars", []⟩, ⟨"detector", []⟩, ⟨"rollover", []⟩,
    ⟨"backtest", []⟩]
  let data ← fieldOr r "data" initial.data DataSettings.read?
  let bucketWidth ← fieldOr r "bars" initial.bucketWidth readBucketWidth?
  let detector ← fieldOr r "detector" initial.detector DetectorTerms.read?
  let rollover ← fieldOr r "rollover" initial.rollover RolloverSettings.read?
  let backtest ← fieldOr r "backtest" initial.backtest BacktestSettings.read?
  some { data, bucketWidth, detector, rollover, backtest }

def read? (text : String) : Option Settings := (Draft.read? text.toList).bind ofDraft?

end Settings

/-! ## Writing -/

/-- A value that may be missing. -/
def Json.ofOption {β : Type} (encode : β → Json) : Option β → Json
  | some x => encode x
  | none => .null

def DataSettings.toJson (s : DataSettings) : Json :=
  .obj
    [("csv_path", Json.ofOption .str s.csvPath),
      ("dataset_root", Json.ofOption .str s.datasetRoot),
      ("validation", .str s.validation.label),
      ("start_date", Json.ofOption (fun d => .str d.text) s.startDate),
      ("end_date", Json.ofOption (fun d => .str d.text) s.endDate),
      ("max_rows", Json.ofOption (fun n : Nat => .int n) s.maxRows),
      ("preload_max_rows", .int s.preloadMaxRows)]

def DetectorTerms.toJson (t : DetectorTerms Float) : Json :=
  .obj
    [("window", .int t.window), ("trend_threshold", .float t.trendThreshold),
      ("volatility_threshold", .float t.volatilityThreshold)]

def RolloverSettings.toJson (s : RolloverSettings) : Json :=
  .obj
    [("enabled", .bool s.enabled), ("mode", .str s.terms.mode.label),
      ("price_mode", .str s.terms.pricing.mode.label),
      ("slippage_bps", .float s.terms.pricing.slippageBps)]

def BacktestSettings.toJson (s : BacktestSettings) : Json :=
  .obj
    [("deterministic", .bool s.deterministic), ("wal_path", Json.ofOption .str s.logPath),
      ("strategy", .obj [("name", .str s.strategy.name), ("params", s.strategy.params)])]

namespace Settings

/-- The settings as JSON, every member in its place. -/
def toJson (s : Settings) : Json :=
  .obj
    [("data", s.data.toJson), ("bars", .obj [("bucket_width_ns", .int s.bucketWidth)]),
      ("detector", s.detector.toJson), ("rollover", s.rollover.toJson),
      ("backtest", s.backtest.toJson)]

/-- The canonical text. -/
def canonical (s : Settings) : String := s.toJson.compactText

end Settings

end MarketTape
