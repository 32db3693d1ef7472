import MarketTape.Equity
import MarketTape.Rollover
import MarketTape.Strategy.Basic

/-!
# Simulating a run

A simulation goes through the ticks one by one.  A tick may close a bar; the bar is described,
waiting orders are settled on it, the strategy answers, and its intents are settled on the same bar.
Only then does the tick itself count: it is the new mark of its instrument, and if it is the first
of another contract the position moves there.  The order of these steps is what most properties of
a run rest on.

A simulation that is not deterministic shows the bars to the strategy and fills nothing.

* `Simulation` is what is simulated; `Run` is how far a simulation has come.
* `Run.onTick?` takes a tick, `Run.onBar?` a closed bar, and `Run.finish?` ends the run.
* `Run.feed` takes ticks until one of them makes a count leave its range.
* `Call` is something the strategy was told; a run keeps them all.
-/

namespace MarketTape

/-- Something that a strategy was told: a bar was closed, one of its intents was filled, or the run
is over. -/
inductive Call (α : Type) where
  | state (s : BarState α)
  | fill (f : Fill α)
  | shutdown
  deriving DecidableEq, Repr

/-- What is simulated.  Intents are filled and positions are kept in a deterministic one only; the
width of the bars is in nanoseconds. -/
structure Simulation (α : Type) where
  deterministic : Bool
  bucketWidth : Int
  rollover : Option (RolloverTerms α)
  logging : Bool
  strategyName : String
  capabilities : Capabilities
  strategy : Strategy α
  detector : Detector α

/-- How far a simulation has come.  `nextTrace` is the number of the next order, `floor` has orders,
positions and log, and `calls` is what the strategy was told, in order. -/
structure Run {α : Type} (sim : Simulation α) where
  bars : Bars α
  detector : sim.detector.State
  strategy : sim.strategy.State
  nextTrace : Nat
  floor : Floor α
  rollover : Option (Rollover α)
  equity : EquityCurve α
  instruments : Table Unit
  ticksRead : Nat
  barsEmitted : Nat
  intentsEmitted : Nat
  lastTime : Int
  calls : Array (Call α)

namespace Run

variable {α : Type} [Scalar α] {sim : Simulation α}

def start (sim : Simulation α) : Run sim where
  bars := Bars.start sim.bucketWidth
  detector := sim.detector.start
  strategy := sim.strategy.start
  nextTrace := 1
  floor := Floor.start sim.logging
  rollover := if sim.deterministic then sim.rollover.map Rollover.start else none
  equity := EquityCurve.start
  instruments := Table.empty
  ticksRead := 0
  barsEmitted := 0
  intentsEmitted := 0
  lastTime := 0
  calls := #[]

/-! ## The strategy -/

/-- Tells the strategy of a fill. -/
def tell (run : Run sim) (fill : Fill α) : Run sim :=
  { run with
    strategy := sim.strategy.onFill run.strategy fill
    calls := run.calls.push (.fill fill) }

/-- Tells the strategy of fills, if it takes notice of them. -/
def notify (run : Run sim) (fills : List (Fill α)) : Run sim :=
  if sim.capabilities.orderAware then fills.foldl tell run else run

/-- Names an intent, unless the strategy names its own.  Names count up from 1 over the run. -/
def name (run : Run sim) (intent : Intent α) : Run sim × Intent α :=
  if sim.capabilities.traceProvider then (run, intent)
  else
    ({ run with nextTrace := run.nextTrace + 1 },
      { intent with traceId := sim.strategyName ++ "-" ++ toString run.nextTrace })

/-- Settles an intent on its bar.  A strategy that may not open positions has its opening intents
rejected. -/
def settleIntent? (run : Run sim) (bar : Bar α) (intent : Intent α) : Option (Run sim) :=
  let (run, intent) := run.name intent
  if intent.offset = .opening ∧ sim.capabilities.opening = false then
    some { run with floor := run.floor.reject intent bar }
  else
    (run.floor.submit? intent bar).map fun (floor, fill) =>
      { run with floor }.notify fill.toList

/-- Settles the intents of a bar one after the other. -/
def settleIntents? (run : Run sim) (bar : Bar α) : List (Intent α) → Option (Run sim)
  | [] => some run
  | intent :: rest =>
    match run.settleIntent? bar intent with
    | none => none
    | some run => run.settleIntents? bar rest

/-- Shows a bar to the strategy and gives its intents. -/
def ask? (run : Run sim) (s : BarState α) : Option (Run sim × List (Intent α)) :=
  (sim.strategy.onState run.strategy s).map fun (strategy, intents) =>
    ({ run with
        strategy
        intentsEmitted := run.intentsEmitted + intents.length
        calls := run.calls.push (.state s) },
      intents)

/-! ## Bars and ticks -/

/-- Counts a bar and describes the market after it. -/
def describe? (run : Run sim) (bar : Bar α) : Option (Run sim × MarketState α) :=
  (sim.detector.observe run.detector bar).map fun (detector, state) =>
    ({ run with detector, barsEmitted := run.barsEmitted + 1 }, state)

/-- Settles the orders that waited for a bar. -/
def settleWaiting? (run : Run sim) (bar : Bar α) : Option (Run sim) :=
  (run.floor.settle? bar).map fun (floor, fills) => { run with floor }.notify fills

/-- Adds the profit of the book to the equity curve. -/
def recordEquity (run : Run sim) (bar : Bar α) : Run sim :=
  { run with equity := run.equity.record bar.lastTime run.floor.book.totalPnl }

/-- Shows a bar to the strategy, with the lots that are held in its instrument now. -/
def askAbout? (run : Run sim) (bar : Bar α) (state : MarketState α) :
    Option (Run sim × List (Intent α)) :=
  run.ask? ⟨bar, state, run.floor.book.net bar.instrument⟩

def onBar? (run : Run sim) (bar : Bar α) : Option (Run sim) := do
  let (run, state) ← run.describe? bar
  if sim.deterministic then
    let run ← run.settleWaiting? bar
    let (run, intents) ← run.askAbout? bar state
    let run ← run.settleIntents? bar intents
    some (run.recordEquity bar)
  else
    let (run, _) ← run.askAbout? bar state
    some run

/-- Takes the bar that a tick closed, if it closed one. -/
def onClosed? (run : Run sim) : Option (Bar α) → Option (Run sim)
  | none => some run
  | some bar => run.onBar? bar

def count (run : Run sim) (t : Tick α) : Run sim :=
  { run with
    ticksRead := run.ticksRead + 1
    lastTime := t.time
    instruments := run.instruments.insert t.instrument () }

/-- Takes the last price of a tick as the mark of its instrument. -/
def mark (run : Run sim) (t : Tick α) : Run sim :=
  { run with floor := { run.floor with book := run.floor.book.mark t.instrument t.last } }

/-- Moves the position of a switch of contracts.  Orders that wait for the old contract are dropped
first. -/
def roll? (run : Run sim) (r : Rollover α) (p : PendingRollover) (t : Tick α) :
    Option (Run sim) :=
  let (floor, dropped) := run.floor.cancel p.source t.time
  (r.execute? p t floor.book floor.log dropped).map fun (r, book, log, _) =>
    { run with floor := { floor with book, log }, rollover := some r }

/-- Follows the active contracts through a tick. -/
def followContract? (run : Run sim) (t : Tick α) : Option (Run sim) :=
  match run.rollover with
  | none => some run
  | some r =>
    match r.detect t run.floor.book with
    | (r, none) => some { run with rollover := some r }
    | (r, some p) => run.roll? r p t

def onTick? (run : Run sim) (t : Tick α) : Option (Run sim) := do
  let run := run.count t
  let (bars, closed) ← run.bars.push? t
  let run ← { run with bars }.onClosed? closed
  if sim.deterministic then (run.mark t).followContract? t else some run

/-- Takes ticks one after the other.  If one of them makes a count leave its range, the answer is
the run before that tick. -/
def feed (run : Run sim) : List (Tick α) → Except (Run sim) (Run sim)
  | [] => .ok run
  | t :: rest =>
    match run.onTick? t with
    | none => .error run
    | some run => run.feed rest

/-! ## The end -/

/-- Tells the strategy that the run is over. -/
def shutdown (run : Run sim) : Run sim := { run with calls := run.calls.push .shutdown }

/-- Drops the orders that still wait. -/
def dropWaiting (run : Run sim) : Run sim :=
  if sim.deterministic then { run with floor := (run.floor.cancelAll run.lastTime).1 } else run

/-- Ends the run: the open bar is closed, and orders that still wait are dropped. -/
def finish? (run : Run sim) : Option (Run sim) :=
  let (bars, closed) := run.bars.flush
  (({ run with bars } : Run sim).onClosed? closed).map fun run => run.shutdown.dropWaiting

/-- A whole run.  If a count leaves its range, at a tick or at the end, the answer is the run before
that. -/
def through (sim : Simulation α) (ticks : List (Tick α)) : Except (Run sim) (Run sim) :=
  match (Run.start sim).feed ticks with
  | .error run => .error run
  | .ok run =>
    match run.finish? with
    | none => .error run
    | some run => .ok run

end Run

end MarketTape
