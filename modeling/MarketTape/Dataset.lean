import MarketTape.Json.Decode
import MarketTape.Settings.Basic
import MarketTape.TickFile

/-!
# Datasets

A dataset is a directory of files of ticks, at any depth.  Beside every file lies a description with
the first and the last time in it, so that a file outside the requested window need not be opened.

* `listDataFiles` finds the files below a path, in order, unless one of the directories there is
  `outOfReach?`.
* `Sidecar` is the description of a file, `loadSidecar` reads it.
* `scanDataset` scans all files.
-/

namespace MarketTape

/-! ## Finding the files -/

/-- Whether a file name is that of a file of ticks. -/
def isDataName (name : String) : Bool := Path.extension? name == some "csv"

mutual

/-- The files of ticks at and below an entry of the given name, as the names that lead there. -/
def Node.dataFiles (name : String) : Node → List (List String)
  | .file _ _ => if isDataName name then [[name]] else []
  | .dir entries => (dataFilesIn entries).map (name :: ·)

/-- The files of ticks among the entries of a directory and below. -/
def dataFilesIn : List (String × Node) → List (List String)
  | [] => []
  | (name, node) :: rest => node.dataFiles name ++ dataFilesIn rest

end

/-- The paths of the files of ticks among the entries of a directory and below, in the order of the
paths. -/
def dataPathsIn (entries : List (String × Node)) : List String :=
  ((dataFilesIn entries).map Path.ofNames).mergeSort fun a b => a ≤ b

mutual

/-- The directories at and below an entry of the given name, as the names that lead there. -/
def Node.directories (name : String) : Node → List (List String)
  | .file _ _ => []
  | .dir entries => [name] :: (directoriesIn entries).map (name :: ·)

/-- The directories among the entries of a directory and below. -/
def directoriesIn : List (String × Node) → List (List String)
  | [] => []
  | (name, node) :: rest => node.directories name ++ directoriesIn rest

end

/-- What keeps a directory below a path from being looked into.  Each is looked into by a path of
its own, which can be longer than paths may be. -/
def outOfReach? (path : String) (entries : List (String × Node)) : Option FileProblem :=
  (directoriesIn entries).findSome? fun names =>
    FileTree.flawOf? (Path.join path (Path.ofNames names))

/-- The paths of the files of ticks below a directory, relative to it. -/
def listDataFiles (files : FileTree) (path : String) : Except Error (List String) :=
  match files.list path with
  | .error problem => .error (.file none problem)
  | .ok entries =>
    match outOfReach? path entries with
    | some problem => .error (.file none problem)
    | none => .ok (dataPathsIn entries)

/-! ## Descriptions -/

/-- The description of a file of ticks: its first and its last time, the number of its rows, the
version of the format, and what it was made from. -/
structure Sidecar where
  firstTime : Int
  lastTime : Int
  rowCount : Nat
  version : String
  source : String
  deriving DecidableEq, Repr

namespace Sidecar

def path (file : String) : String := Path.withExtension file "meta.json"

/-- What is wrong with a description that could be read. -/
def flaw? (s : Sidecar) : Option SidecarFlaw :=
  if s.version ≠ sidecarVersion then some (.otherVersion s.version)
  else if s.lastTime < s.firstTime then some (.timesReversed s.firstTime s.lastTime)
  else if Text.trim s.source.toList = [] then some .namelessSource
  else none

/-- Takes a description out of a text whose structure is known.  Nothing may be left out. -/
def ofDraft? (d : Json.Draft) : Option Sidecar := do
  let r ← d.record? [⟨"min_ts_ns", []⟩, ⟨"max_ts_ns", []⟩, ⟨"row_count", []⟩,
    ⟨"schema_version", []⟩, ⟨"source_fingerprint", []⟩]
  let firstTime ← Json.field r "min_ts_ns" Json.Draft.count?
  let lastTime ← Json.field r "max_ts_ns" Json.Draft.count?
  let rowCount ← Json.field r "row_count" Json.Draft.word?
  let version ← Json.field r "schema_version" Json.Draft.text?
  let source ← Json.field r "source_fingerprint" Json.Draft.text?
  some { firstTime, lastTime, rowCount, version, source }

def toJson (s : Sidecar) : Json :=
  .obj
    [("min_ts_ns", .int s.firstTime), ("max_ts_ns", .int s.lastTime),
      ("row_count", .int s.rowCount), ("schema_version", .str s.version),
      ("source_fingerprint", .str s.source)]

/-- Whether the times of the file can meet the window of a request. -/
def overlaps (s : Sidecar) (r : ScanRequest) : Bool := r.overlaps s.firstTime s.lastTime

end Sidecar

/-- Reads and checks the description of a file. -/
def loadSidecar (files : FileTree) (file : String) : Except Error Sidecar :=
  match files.readText (Sidecar.path file) with
  | .error problem => .error (.sidecarUnreadable file problem)
  | .ok text =>
    match (Json.Draft.read? text.toList).bind Sidecar.ofDraft? with
    | none => .error (.sidecarFlawed file .malformed)
    | some s =>
      match s.flaw? with
      | some flaw => .error (.sidecarFlawed file flaw)
      | none => .ok s

/-- The description of a file, as far as the policy needs one. -/
def sidecarFor (files : FileTree) (policy : SidecarPolicy) (file : String) :
    Except Error (Option Sidecar) :=
  match loadSidecar files file, policy with
  | .ok s, _ => .ok (some s)
  | .error e, .strict => .error e
  | .error _, .lenient => .ok none

/-! ## Scanning -/

/-- A partition that was left alone. -/
def PartitionScan.leftAlone (partition : Nat) (path : String) : PartitionScan Float where
  partition := partition
  path := some path
  ticks := []
  rowsScanned := 0
  rowGroupsScanned := 0
  bytesRead := 0
  earlyStop := false
  pruned := true

/-- Scans a file of a dataset, unless its description rules it out. -/
def scanPartition (files : FileTree) (policy : SidecarPolicy) (request : ScanRequest)
    (file : String) (partition : Nat) : Except Error (PartitionScan Float) :=
  match sidecarFor files policy file with
  | .error e => .error e
  | .ok (some s) =>
    if s.overlaps request then scanFile files file partition request
    else .ok (.leftAlone partition file)
  | .ok none => scanFile files file partition request

/-- Scans all files of a dataset, in the order of their paths. -/
def scanDataset (files : FileTree) (path : String) (policy : SidecarPolicy)
    (request : ScanRequest) : Except Error (List (PartitionScan Float)) :=
  match listDataFiles files path with
  | .error e => .error e
  | .ok paths =>
    paths.zipIdx.mapM fun (file, partition) =>
      scanPartition files policy request (Path.join path file) partition

end MarketTape
