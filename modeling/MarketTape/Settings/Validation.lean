import MarketTape.Settings.Basic
import MarketTape.Error
import MarketTape.Scan

/-!
# Admissible settings

Settings are checked section by section before anything is read.

* `Settings.validate` finds the first thing that is wrong.
* `DataSettings.window` is the window of time stamps that the range of days stands for.
-/

namespace MarketTape

/-- The nanosecond at which a day starts. -/
def Date.midnight (d : Date) : Except Error Int :=
  match d.midnight? with
  | some n => .ok n
  | none => .error (.dayOutOfRange d)

namespace DataSettings

/-- The first nanosecond of the range of days. -/
def windowStart (s : DataSettings) : Except Error (Option Int) :=
  match s.startDate with
  | none => .ok none
  | some d => d.midnight.map some

/-- The first nanosecond after the range of days, where the day after the last one starts. -/
def windowStop (s : DataSettings) : Except Error (Option Int) :=
  match s.endDate with
  | none => .ok none
  | some d =>
    match d.next? with
    | none => .error (.endOfCalendar d)
    | some next => next.midnight.map some

/-- The range of days as a half-open window of time stamps. -/
def window (s : DataSettings) : Except Error (Option Int × Option Int) :=
  match s.windowStart with
  | .error e => .error e
  | .ok start =>
    match s.windowStop with
    | .error e => .error e
    | .ok stop => .ok (start, stop)

/-- The request for the ticks that are replayed. -/
def request (s : DataSettings) : Except Error ScanRequest :=
  s.window.map fun (start, stop) => ⟨start, stop, s.maxRows⟩

/-- Exactly one source of ticks is named. -/
def checkSource (s : DataSettings) : Except Error Unit :=
  match s.csvPath, s.datasetRoot with
  | none, none => .error .noData
  | some _, some _ => .error .twoSources
  | _, _ => .ok ()

/-- The range of days is not reversed. -/
def checkDays (s : DataSettings) : Except Error Unit :=
  match s.startDate, s.endDate with
  | some first, some last =>
    if first.isAfter last then .error (.daysReversed first last) else .ok ()
  | _, _ => .ok ()

def validate (s : DataSettings) : Except Error Unit := do
  s.checkSource
  s.checkDays
  let _ ← s.window
  if s.maxRows = some 0 then .error .zeroCap else .ok ()

end DataSettings

/-- Buckets have a positive width. -/
def checkBucketWidth (width : Int) : Except Error Unit :=
  if width ≤ 0 then .error (.bucketWidth width) else .ok ()

/-- A detector can be built. -/
def DetectorTerms.validate (t : DetectorTerms Float) : Except Error Unit :=
  if t.window < 2 then .error (.detectorWindow t.window)
  else if ¬ Scalar.zero < t.trendThreshold then .error .trendThreshold
  else if ¬ Scalar.zero < t.volatilityThreshold then .error .volatilityThreshold
  else .ok ()

/-- Slippage can be charged. -/
def RolloverTerms.validate (t : RolloverTerms Float) : Except Error Unit :=
  if t.Admissible then .ok () else .error (.slippage t.pricing.slippageBps)

/-- The strategy has a name. -/
def StrategySettings.validate (s : StrategySettings) : Except Error Unit :=
  if Text.trim s.name.toList = [] then .error .namelessStrategy else .ok ()

/-- Finds the first thing that is wrong. -/
def Settings.validate (s : Settings) : Except Error Unit := do
  s.data.validate
  checkBucketWidth s.bucketWidth
  s.detector.validate
  s.rollover.terms.validate
  s.backtest.strategy.validate

end MarketTape
