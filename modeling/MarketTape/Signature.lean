import MarketTape.Dataset
import MarketTape.Digest
import MarketTape.Settings.Text

/-!
# Signatures of a run

A report names its inputs by two digests: one of the settings and one of the data.  Each digests a
sequence of bytes that is defined here, so that what a signature stands for can be told apart from
how it is mixed.

* `Settings.inputSignature` digests the canonical text of the settings.
* `fileDigest` digests the bytes of a file.
* `datasetBytes` are the names, sizes and times of the files of a dataset, one after the other.
* `scanBytes` are the ticks of all partitions, for data that does not lie in named files.
-/

namespace MarketTape

/-- The digest of the settings. -/
def Settings.inputSignature (s : Settings) : String :=
  Digest.hex (Digest.of (Node.bytesOf s.canonical))

def fileDigest (files : FileTree) (path : String) : Except Error UInt64 :=
  match files.read path with
  | .unopened problem => .error (.file (some path) problem)
  | .unread problem => .error (.file none problem)
  | .bytes content => .ok (Digest.of content)

/-! ## Datasets -/

/-- What identifies a file of a dataset: its path below the dataset, the number of its bytes, and
the nanosecond at which it was last changed. -/
structure FileStamp where
  path : String
  size : Nat
  modified : Int
  deriving DecidableEq, Repr

/-- A stamp as bytes: the path and a zero byte, the size, the time. -/
def FileStamp.bytes (s : FileStamp) : List UInt8 :=
  Node.bytesOf s.path ++ 0 :: (Digest.littleEndian 8 s.size ++ Digest.signed 16 s.modified)

/-- The stamps of a dataset as bytes. -/
def datasetBytes (stamps : List FileStamp) : List UInt8 := stamps.flatMap FileStamp.bytes

def fileStamp (files : FileTree) (path file : String) : Except Error FileStamp :=
  match files.find (Path.join path file) with
  | .error problem => .error (.file none problem)
  | .ok (.file content modified) => .ok ⟨file, content.length, modified⟩
  | .ok (.dir _) => .error (.file none .isDirectory)

def datasetDigest (files : FileTree) (path : String) : Except Error UInt64 :=
  match listDataFiles files path with
  | .error e => .error e
  | .ok paths =>
    (paths.mapM (fileStamp files path)).map fun stamps => Digest.of (datasetBytes stamps)

/-- The signature of the data that settings name. -/
def DataSettings.signature (files : FileTree) (s : DataSettings) : Except Error String :=
  match s.csvPath, s.datasetRoot with
  | some path, _ => (fileDigest files path).map Digest.hex
  | none, some path => (datasetDigest files path).map Digest.hex
  | none, none => .error .nothingToSign

/-! ## Scans -/

/-- A tick as bytes: the instrument and a zero byte, the time, and its six numbers. -/
def Tick.bytes (t : Tick Float) : List UInt8 :=
  Node.bytesOf t.instrument ++ 0 :: (Digest.signed 8 t.time ++
    [t.last, t.volume, t.bid, t.bidSize, t.ask, t.askSize].flatMap Digest.ofFloat)

/-- Scans as bytes: the number of every partition, and its ticks. -/
def scanBytes (scans : List (PartitionScan Float)) : List UInt8 :=
  scans.flatMap fun s => Digest.littleEndian 8 s.partition ++ s.ticks.flatMap Tick.bytes

def scanDigest (scans : List (PartitionScan Float)) : UInt64 := Digest.of (scanBytes scans)

/-- The two signatures of a report: the digest of the settings and that of the data. -/
structure Signatures where
  input : String
  data : String
  deriving DecidableEq, Repr

end MarketTape
