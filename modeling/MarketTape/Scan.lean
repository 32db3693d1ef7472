import MarketTape.Merge

/-!
# Scans

A source of ticks answers a request with one scan for every partition: the ticks inside the
requested window, in order and up to the cap, and what reading them took.

* `ScanRequest` is a window in time and a cap on the ticks of one partition.
* `PartitionScan` is what one partition gave, `ScanMetrics` adds the partitions up.
* `scanMemory` answers from ticks that are already at hand.
-/

namespace MarketTape

/-- A window in time, from `start` on and before `stop`, and a cap on the ticks that any one
partition needs to give. -/
structure ScanRequest where
  start : Option Int
  stop : Option Int
  maxRows : Option Nat
  deriving DecidableEq, Repr

namespace ScanRequest

def contains (r : ScanRequest) (time : Int) : Bool :=
  r.start.all (· ≤ time) && r.stop.all (time < ·)

/-- Whether a stretch of time from its first to its last stamp can meet the window. -/
def overlaps (r : ScanRequest) (first last : Int) : Bool :=
  r.start.all (· ≤ last) && r.stop.all (first < ·)

end ScanRequest

/-- What the scan of one partition gave: its ticks, in order, and what reading them took.  Rows
count whether they are usable or not; an early stop is that the cap cut ticks off, and a partition
is pruned if it was left alone because its declared times miss the window. -/
structure PartitionScan (α : Type) where
  partition : Nat
  path : Option String
  ticks : List (Tick α)
  rowsScanned : Nat
  rowGroupsScanned : Nat
  bytesRead : Nat
  earlyStop : Bool
  pruned : Bool
  deriving DecidableEq, Repr

/-- The scans of all partitions added up. -/
structure ScanMetrics where
  partitionsScanned : Nat
  partitionsPruned : Nat
  rowsScanned : Nat
  rowGroupsScanned : Nat
  bytesRead : Nat
  earlyStop : Bool
  deriving DecidableEq, Repr

variable {α : Type}

namespace ScanMetrics

def none : ScanMetrics := ⟨0, 0, 0, 0, 0, false⟩

def add (m : ScanMetrics) (s : PartitionScan α) : ScanMetrics where
  partitionsScanned := m.partitionsScanned + if s.pruned then 0 else 1
  partitionsPruned := m.partitionsPruned + if s.pruned then 1 else 0
  rowsScanned := m.rowsScanned + s.rowsScanned
  rowGroupsScanned := m.rowGroupsScanned + s.rowGroupsScanned
  bytesRead := m.bytesRead + s.bytesRead
  earlyStop := m.earlyStop || s.earlyStop

/-- The sums over all partitions. -/
def ofScans (scans : List (PartitionScan α)) : ScanMetrics := scans.foldl add none

end ScanMetrics

/-- The ticks of a partition that a request asks for, and whether the cap cut some off.  The cap
comes after the sorting, so the earliest ticks are kept. -/
def ScanRequest.select (r : ScanRequest) (ticks : List (Tick α)) : List (Tick α) × Bool :=
  capped r.maxRows (Tick.sorted (ticks.filter fun t => r.contains t.time))

/-- Scans ticks that are already at hand. -/
def scanMemory (partitions : List (List (Tick α))) (r : ScanRequest) : List (PartitionScan α) :=
  partitions.zipIdx.map fun (ticks, partition) =>
    let (selected, earlyStop) := r.select ticks
    { partition, path := none, ticks := selected, rowsScanned := ticks.length
      rowGroupsScanned := 1, bytesRead := 0, earlyStop, pruned := false }

end MarketTape
