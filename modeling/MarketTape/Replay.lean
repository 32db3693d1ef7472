import MarketTape.Audit.Line
import MarketTape.Report
import MarketTape.Settings.Validation
import MarketTape.Strategy.Builtin

/-!
# Replaying ticks

A replay is set up from settings and a registry of strategies, and then run against a file tree.
The order of the steps decides which of two errors is reported, and what is read where one file is
both written and read: the inputs are digested first, then the strategy is made, then the audit log
is created empty, and only then are the ticks read.

* `Replay.make` checks the settings; nothing is read.
* `Replay.run` replays the data that the settings name, `Replay.runOn` the ticks of a given source.
* `Outcome` is a report, or the news that a count left its range.
-/

namespace MarketTape

/-- Something that ticks can be read from, under the name that reports give it.  What it answers to
a request may depend on the files as they are now. -/
structure TickSource where
  name : String
  scan : FileTree → ScanRequest → Except Error (List (PartitionScan Float))

namespace TickSource

/-- Ticks that are already at hand. -/
def memory (partitions : List (List (Tick Float))) : TickSource where
  name := "memory"
  scan _ r := .ok (scanMemory partitions r)

def file (path : String) : TickSource where
  name := "csv:" ++ path
  scan files r := (scanFile files path 0 r).map ([·])

def dataset (path : String) (policy : SidecarPolicy) : TickSource where
  name := "partitioned:" ++ path
  scan files r := scanDataset files path policy r

/-- The source that settings name. -/
def ofSettings (s : DataSettings) : Except Error TickSource :=
  match s.csvPath, s.datasetRoot with
  | some path, _ => .ok (file path)
  | none, some path => .ok (dataset path s.validation)
  | none, none => .error .nothingToSign

end TickSource

/-- A replay that is set up: admissible settings, and the strategies that can be made. -/
structure Replay where
  settings : Settings
  registry : Registry Float

/-- How a replay ends when nothing is wrong with its inputs: with a report, which comes with what
the strategy was told, or because a count left its range. -/
inductive Outcome where
  | finished (report : Report Float) (calls : List (Call Float))
  | overflowed

namespace Replay

/-- Sets a replay up, if the settings are admissible and the strategy is registered. -/
def make (settings : Settings) (registry : Registry Float) : Except Error Replay :=
  match settings.validate with
  | .error e => .error e
  | .ok () =>
    let name := settings.backtest.strategy.name
    if registry.contains name then .ok ⟨settings, registry⟩
    else .error (.unknownStrategy name (some registry.names))

/-! ## The steps -/

/-- Whether positions are moved between contracts. -/
def rolls (s : Settings) : Bool := s.backtest.deterministic && s.rollover.enabled

/-- What is simulated, given the strategy. -/
def simulation (s : Settings) (handle : StrategyHandle Float) : Simulation Float where
  deterministic := s.backtest.deterministic
  bucketWidth := s.bucketWidth
  rollover := if s.rollover.enabled then some s.rollover.terms else none
  logging := s.backtest.logPath.isSome
  strategyName := s.backtest.strategy.name
  capabilities := handle.capabilities
  strategy := handle.strategy
  detector := regimeDetector s.detector

/-- Refuses terms that the parts of a run cannot work with. -/
def checkTerms (s : Settings) : Except Error Unit := do
  s.detector.validate
  if rolls s then s.rollover.terms.validate

/-- Makes the strategy and what it runs in. -/
def prepare (r : Replay) : Except Error (Simulation Float) :=
  let s := r.settings
  match r.registry.create s.backtest.strategy.name s.backtest.strategy.params with
  | .error e => .error e
  | .ok handle =>
    match checkTerms s with
    | .error e => .error e
    | .ok () => .ok (simulation s handle)

/-- Writes the audit log, if there is one. -/
def writeLog (files : FileTree) (s : Settings) (text : String) : Except Error FileTree :=
  match s.backtest.logPath with
  | none => .ok files
  | some path =>
    match files.write path (Node.bytesOf text) with
    | .ok files => .ok files
    | .error problem => .error (.file (some ("WAL " ++ path)) problem)

/-- The stream of the scanned ticks.  Few ticks are sorted, many are taken from a queue. -/
def merge (s : DataSettings) (scans : List (PartitionScan Float)) : Merged Float :=
  let partitions := scans.map (·.ticks)
  if partitions.flatten.length ≤ s.preloadMaxRows then
    mergeBySorting partitions s.maxRows
  else mergeByQueue partitions s.maxRows

/-- What reading took; the cap may also have cut the merged stream. -/
def metrics (scans : List (PartitionScan Float)) (merged : Merged Float) : ScanMetrics :=
  let m := ScanMetrics.ofScans scans
  { m with earlyStop := m.earlyStop || merged.earlyStop }

/-- The log of a run as text.  Where a count left its range, at a tick or at the end, it is the log
from before that, without what the tick or the end had already written. -/
def logText {sim : Simulation Float} : Except (Run sim) (Run sim) → String
  | .ok run => run.floor.log.text
  | .error run => run.floor.log.text

def outcome {sim : Simulation Float} (source : String) (signatures : Signatures)
    (scan : ScanMetrics) : Except (Run sim) (Run sim) → Outcome
  | .ok run => .finished (.of run source signatures scan) run.calls.toList
  | .error _ => .overflowed

/-- The signatures of a replay whose data was digested, or whose data are the scanned ticks. -/
def signatures (s : Settings) (scans : List (PartitionScan Float)) (data : Option String) :
    Signatures :=
  ⟨s.inputSignature, data.getD (Digest.hex (scanDigest scans))⟩

/-- Replays the ticks of a source, after the data was digested if `data` is given.  The files after
the replay come with its outcome; an error leaves them as they were when it arose. -/
def execute (r : Replay) (files : FileTree) (source : TickSource) (data : Option String) :
    FileTree × Except Error Outcome :=
  let s := r.settings
  match s.data.request with
  | .error e => (files, .error e)
  | .ok request =>
    match r.prepare with
    | .error e => (files, .error e)
    | .ok sim =>
      match writeLog files s "" with
      | .error e => (files, .error e)
      | .ok files =>
        match source.scan files request with
        | .error e => (files, .error e)
        | .ok scans =>
          let merged := merge s.data scans
          let run := Run.through sim merged.ticks
          match writeLog files s (logText run) with
          | .error e => (files, .error e)
          | .ok files =>
            (files, .ok (outcome source.name (signatures s scans data) (metrics scans merged) run))

/-- Replays the data that the settings name. -/
def run (r : Replay) (files : FileTree) : FileTree × Except Error Outcome :=
  match TickSource.ofSettings r.settings.data with
  | .error e => (files, .error e)
  | .ok source =>
    match r.settings.data.signature files with
    | .error e => (files, .error e)
    | .ok data => r.execute files source (some data)

/-- Replays the ticks of a given source. -/
def runOn (r : Replay) (files : FileTree) (source : TickSource) : FileTree × Except Error Outcome :=
  r.execute files source none

end Replay

end MarketTape
