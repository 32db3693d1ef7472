import MarketTape.Integrity
import MarketTape.Json.Basic
import MarketTape.Scan
import MarketTape.Signature
import MarketTape.Simulation

/-!
# Reports

A report says what was replayed, what the strategy did and what came of it.

* `Report.of` makes the report of a finished run; `PositionReport` is the part on positions, which
  only a deterministic run has.
* `Report.isClean` holds if the final positions passed their check.
* `Report.toJson` is the report as JSON.
-/

namespace MarketTape

/-- What a deterministic run reports of its positions: how they ended, the summary of the run, the
moves between contracts with their parts and what they lost to slippage, and what is wrong with the
final positions. -/
structure PositionReport (α : Type) where
  snapshots : Table (PnlSnapshot α)
  performance : Performance α
  rolloverEvents : List (RolloverEvent α)
  rolloverActions : List (RolloverAction α)
  rolloverSlippage : α
  violations : List (Violation α)

/-- What a run reports.  `orderEvents` counts the steps in the lives of the orders. -/
structure Report (α : Type) where
  source : String
  signatures : Signatures
  ticksRead : Nat
  barsEmitted : Nat
  intentsEmitted : Nat
  orderEvents : Nat
  logRecords : Nat
  instruments : List String
  scan : ScanMetrics
  positions : Option (PositionReport α)

variable {α : Type} [Scalar α]

/-- The positions of a finished run. -/
def PositionReport.of {sim : Simulation α} (run : Run sim) : PositionReport α :=
  let snapshots := run.floor.book.snapshots
  let slippage := match run.rollover with
    | some r => r.slippageTotal
    | none => Scalar.zero
  { snapshots
    performance := .of run.floor.book run.equity run.floor.desk.statuses slippage
    rolloverEvents := match run.rollover with
      | some r => r.events.toList
      | none => []
    rolloverActions := match run.rollover with
      | some r => r.actions.toList
      | none => []
    rolloverSlippage := slippage
    violations := MarketTape.violations snapshots }

/-- The report of a finished run. -/
def Report.of {sim : Simulation α} (run : Run sim) (source : String) (signatures : Signatures)
    (scan : ScanMetrics) : Report α where
  source := source
  signatures := signatures
  ticksRead := run.ticksRead
  barsEmitted := run.barsEmitted
  intentsEmitted := run.intentsEmitted
  orderEvents := run.floor.desk.statuses.total
  logRecords := run.floor.log.size
  instruments := run.instruments.names
  scan := scan
  positions := if sim.deterministic then some (.of run) else none

/-- Whether nothing is wrong with the final positions. -/
def Report.isClean {α : Type} (r : Report α) : Bool :=
  match r.positions with
  | some p => p.violations.isEmpty
  | none => true

/-! ## Reports as JSON -/

def PnlSnapshot.toJson (s : PnlSnapshot Float) : Json :=
  .obj
    [("net_position", .int s.net), ("avg_open_price", .float s.average),
      ("realized_pnl", .float s.realized), ("unrealized_pnl", .float s.unrealized),
      ("mark_price", .float s.mark), ("total_pnl", .float s.total)]

def snapshotsToJson (snapshots : Table (PnlSnapshot Float)) : Json :=
  .obj (snapshots.rows.map fun (instrument, s) => (instrument, s.toJson))

def histogramToJson (counts : List (String × Nat)) : Json :=
  .obj (counts.map fun (label, n) => (label, .int n))

def Performance.toJson (p : Performance Float) : Json :=
  .obj
    [("total_pnl", .float p.total), ("realized_pnl", .float p.realized),
      ("unrealized_pnl", .float p.unrealized), ("max_drawdown", .float p.maxDrawdown),
      ("equity_points", .int p.equityPoints), ("order_status", histogramToJson p.orderStatus),
      ("fill_count", .int p.fillCount), ("rollover_slippage_total", .float p.rolloverSlippage)]

def priceToJson : Option Float → Json
  | some x => .float x
  | none => .null

def RolloverEvent.toJson (e : RolloverEvent Float) : Json :=
  .obj
    [("ts_ns", .int e.time), ("symbol", .str e.symbol), ("from_instrument", .str e.source),
      ("to_instrument", .str e.target), ("requested_mode", .str e.requested.label),
      ("applied_mode", .str e.applied.label), ("net_position", .int e.net),
      ("close_price", priceToJson e.closePrice), ("open_price", priceToJson e.openPrice),
      ("slippage_cost", .float e.slippageCost), ("canceled_orders", .int e.canceledOrders)]

def RolloverAction.toJson (a : RolloverAction Float) : Json :=
  .obj
    [("ts_ns", .int a.time), ("symbol", .str a.symbol), ("instrument", .str a.instrument),
      ("leg", .str a.leg.label), ("side", .str a.side.label), ("volume", .int a.volume),
      ("price", .float a.price), ("slippage_cost", .float a.slippageCost),
      ("realized_pnl", .float a.realized)]

def ScanMetrics.toJson (m : ScanMetrics) : Json :=
  .obj
    [("partitions_scanned", .int m.partitionsScanned),
      ("partitions_pruned", .int m.partitionsPruned), ("rows_scanned", .int m.rowsScanned),
      ("row_groups_scanned", .int m.rowGroupsScanned), ("bytes_read", .int m.bytesRead),
      ("early_stop", .bool m.earlyStop)]

def PositionReport.toJson (p : PositionReport Float) : Json :=
  .obj
    [("snapshots", snapshotsToJson p.snapshots), ("performance", p.performance.toJson),
      ("rollover_events", .arr (p.rolloverEvents.map (·.toJson))),
      ("rollover_actions", .arr (p.rolloverActions.map (·.toJson))),
      ("rollover_slippage_total", .float p.rolloverSlippage),
      ("violations", .arr (p.violations.map fun v => .str v.message))]

def Report.toJson (r : Report Float) : Json :=
  .obj
    [("source", .str r.source), ("input_signature", .str r.signatures.input),
      ("data_signature", .str r.signatures.data), ("ticks_read", .int r.ticksRead),
      ("bars_emitted", .int r.barsEmitted), ("intents_emitted", .int r.intentsEmitted),
      ("order_events", .int r.orderEvents), ("wal_records", .int r.logRecords),
      ("instruments", .arr (r.instruments.map .str)), ("scan", r.scan.toJson),
      ("deterministic", match r.positions with
        | some p => p.toJson
        | none => .null)]

end MarketTape
