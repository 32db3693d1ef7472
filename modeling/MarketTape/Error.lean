import MarketTape.Calendar
import MarketTape.Files.Tree
import MarketTape.Text.Quoted

/-!
# Errors

Everything that keeps a run from giving a report is one of these causes.  The settings can be wrong,
the data can be, a strategy can refuse to be made, or a file cannot be used.

* `Error` lists the causes, `Error.message` words them.
* `Error.kind` sorts them into the kinds that a caller can tell apart.
-/

namespace MarketTape

/-- What is wrong with the description of a data file: it is not the JSON of a description, it
follows another version of the format, its first time lies after its last one, or it does not name
its source. -/
inductive SidecarFlaw
  | malformed
  | otherVersion (version : String)
  | timesReversed (first last : Int)
  | namelessSource
  deriving DecidableEq

/-- The version of the format that descriptions follow. -/
def sidecarVersion : String := "v2"

/-- What a flaw adds to the message; malformed JSON speaks for itself. -/
def SidecarFlaw.reason : SidecarFlaw → Option String
  | malformed => none
  | otherVersion version =>
    some ("schema_version " ++ Text.quoted version ++ ", expected " ++ Text.quoted sidecarVersion)
  | timesReversed first last =>
    some ("min_ts_ns " ++ toString first ++ " greater than max_ts_ns " ++ toString last)
  | namelessSource => some "empty source_fingerprint"

/-- Why there is no report.  The registered strategies are listed where they are known, and so is
what was to be done with a file that cannot be used. -/
inductive Error where
  | unreadableSettings
  | noData
  | twoSources
  | daysReversed (first last : Date)
  | endOfCalendar (last : Date)
  | dayOutOfRange (day : Date)
  | zeroCap
  | bucketWidth (width : Int)
  | detectorWindow (window : Nat)
  | trendThreshold
  | volatilityThreshold
  | slippage (bps : Float)
  | namelessStrategy
  | unknownStrategy (name : String) (registered : Option (List String))
  | followerParams
  | followerVolume (volume : Int)
  | nothingToSign
  | missingColumns (path : String) (columns : List String)
  | sidecarUnreadable (path : String) (problem : FileProblem)
  | sidecarFlawed (path : String) (flaw : SidecarFlaw)
  | blankStrategyName
  | alreadyRegistered (name : String)
  | strategyDeclined (reason : String)
  | file (what : Option String) (problem : FileProblem)
  | unreadableHeader

namespace Error

/-- The kinds of errors that a caller can tell apart: those of the settings, the data, the strategy,
of a file, and of the rows of a file. -/
inductive Kind
  | settings
  | data
  | strategy
  | file
  | rows
  deriving DecidableEq, Repr

def kind : Error → Kind
  | missingColumns _ _ | sidecarUnreadable _ _ | sidecarFlawed _ _ => .data
  | blankStrategyName | alreadyRegistered _ | strategyDeclined _ => .strategy
  | file _ _ => .file
  | unreadableHeader => .rows
  | _ => .settings

/-- The words for a kind that begin a message. -/
def Kind.words : Kind → String
  | settings => "Configuration error"
  | data => "Data error"
  | strategy => "Strategy error"
  | file => "I/O error"
  | rows => "CSV error"

/-- What happened, without the words for its kind.  For some causes the kind says it all. -/
def detail : Error → Option String
  | unreadableSettings => some "invalid config"
  | noData => some "one of data.csv_path or data.dataset_root is required"
  | twoSources => some "data.csv_path and data.dataset_root are mutually exclusive"
  | daysReversed first last =>
    some ("invalid date range: start " ++ first.text ++ " is after end " ++ last.text)
  | endOfCalendar last => some ("end date " ++ last.text ++ " out of range")
  | dayOutOfRange day => some ("date " ++ day.text ++ " not representable in nanoseconds")
  | zeroCap => some "data.max_rows must be positive when set"
  | bucketWidth width => some ("bars.bucket_width_ns must be positive, got " ++ toString width)
  | detectorWindow window =>
    some ("detector.window must be at least 2, got " ++ toString window)
  | trendThreshold => some "detector.trend_threshold must be positive"
  | volatilityThreshold => some "detector.volatility_threshold must be positive"
  | slippage bps =>
    some ("rollover_slippage_bps must be a non-negative number, got " ++ Decimal.plainText bps)
  | namelessStrategy => some "backtest.strategy.name must not be empty"
  | unknownStrategy name none => some ("unknown strategy '" ++ name ++ "'")
  | unknownStrategy name (some registered) =>
    some ("unknown strategy '" ++ name ++ "', registered: " ++ ", ".intercalate registered)
  | followerParams => some "invalid regime_follow params"
  | followerVolume volume =>
    some ("regime_follow volume must be positive, got " ++ toString volume)
  | nothingToSign => some "no data source configured"
  | missingColumns path columns =>
    some (path ++ ": missing columns " ++ ",".intercalate columns)
  | sidecarUnreadable path problem =>
    some (path ++ ": cannot read metadata sidecar: " ++ problem.message)
  | sidecarFlawed path flaw =>
    some (path ++ ": invalid metadata sidecar" ++
      match flaw.reason with
      | some reason => ": " ++ reason
      | none => "")
  | blankStrategyName => some "strategy name must not be empty"
  | alreadyRegistered name => some ("strategy '" ++ name ++ "' already registered")
  | strategyDeclined reason => some reason
  | file none problem => some problem.message
  | file (some what) problem => some (what ++ ": " ++ problem.message)
  | unreadableHeader => none

def message (e : Error) : String :=
  match e.detail with
  | some detail => e.kind.words ++ ": " ++ detail
  | none => e.kind.words

end Error

end MarketTape
