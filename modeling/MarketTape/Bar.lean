import MarketTape.Tick

/-!
# Bars

Ticks of one instrument that follow each other inside one time bucket are summed up in a bar.  A bar
stays open until a tick of another instrument or of another bucket arrives, so the bars of a stream
are the stretches of consecutive ticks that agree in both.  A bar counts its ticks, and there is no
bar of more ticks than can be counted.

* `Bar` is the summary, with the quotes as they stood at its close.
* `Bars` is the state of the building: the open bar, if any, and how many bars were closed.
* `Bars.push?` takes a tick and `Bars.flush` closes what is open.
-/

namespace MarketTape

/-- The summary of the ticks of one instrument in one time bucket.  `openPrice` and `close` are the
first and the last price, `lastTime` is the time of the last tick, and the quotes are those at that
tick; `start` is the time at which the bucket starts. -/
structure Bar (α : Type) where
  instrument : String
  bucket : Int
  start : Int
  lastTime : Int
  openPrice : α
  high : α
  low : α
  close : α
  volume : α
  tickCount : Nat
  bid : α
  ask : α
  bidSize : α
  askSize : α
  deriving DecidableEq, Repr

namespace Bar

/-- A number of ticks below `2 ^ 32`: the ticks of a bar are counted with 32 bits. -/
def CountFits (ticks : Nat) : Prop := ticks < 4294967296

instance (ticks : Nat) : Decidable (CountFits ticks) := inferInstanceAs (Decidable (_ < _))

@[simp] theorem countFits_zero : CountFits 0 := by decide

@[simp] theorem countFits_one : CountFits 1 := by decide

variable {α : Type} [Scalar α]

/-- Half way between bid and ask at the close. -/
def mid (b : Bar α) : α := (b.bid + b.ask) / Scalar.ofInt 2

/-- The distance from bid to ask at the close. -/
def spread (b : Bar α) : α := b.ask - b.bid

/-- By how much the bid outweighs the ask at the close, as a share of both. -/
def imbalance (b : Bar α) : α :=
  let total := b.bidSize + b.askSize
  if Scalar.zero < total then (b.bidSize - b.askSize) / total else Scalar.zero

end Bar

/-! ## An open bar -/

/-- A bar that may still take ticks.  `firstVolume` and `lastVolume` are the traded volumes that its
first and its last tick reported. -/
structure OpenBar (α : Type) where
  instrument : String
  bucket : Int
  start : Int
  lastTime : Int
  openPrice : α
  high : α
  low : α
  close : α
  firstVolume : α
  lastVolume : α
  tickCount : Nat
  bid : α
  bidSize : α
  ask : α
  askSize : α
  deriving DecidableEq, Repr

namespace OpenBar

variable {α : Type}

/-- The bar that a tick opens; there is none if its bucket starts before the first time stamp. -/
def ofTick? (t : Tick α) (bucket width : Int) : Option (OpenBar α) :=
  (Count.fit (bucket * width)).map fun start =>
    { instrument := t.instrument, bucket, start, lastTime := t.time
      openPrice := t.last, high := t.last, low := t.last, close := t.last
      firstVolume := t.volume, lastVolume := t.volume, tickCount := 1
      bid := t.bid, bidSize := t.bidSize, ask := t.ask, askSize := t.askSize }

variable [Scalar α]

def add (b : OpenBar α) (t : Tick α) : OpenBar α :=
  { b with
    high := Scalar.larger b.high t.last, low := Scalar.smaller b.low t.last, close := t.last
    lastVolume := t.volume, lastTime := t.time, tickCount := b.tickCount + 1
    bid := t.bid, bidSize := t.bidSize, ask := t.ask, askSize := t.askSize }

/-- Takes a further tick, if it can be counted. -/
def add? (b : OpenBar α) (t : Tick α) : Option (OpenBar α) :=
  if Bar.CountFits (b.tickCount + 1) then some (b.add t) else none

/-- Whether a tick of this instrument and bucket belongs to the bar. -/
def takes (b : OpenBar α) (instrument : String) (bucket : Int) : Bool :=
  b.bucket == bucket && b.instrument == instrument

/-- The finished bar.  Traded volume is reported as a running total, and a total that falls counts
as no volume. -/
def finish (b : OpenBar α) : Bar α :=
  { instrument := b.instrument, bucket := b.bucket, start := b.start, lastTime := b.lastTime
    openPrice := b.openPrice, high := b.high, low := b.low, close := b.close
    volume := Scalar.excess b.lastVolume b.firstVolume, tickCount := b.tickCount
    bid := b.bid, ask := b.ask, bidSize := b.bidSize, askSize := b.askSize }

end OpenBar

/-! ## Building bars -/

/-- The state of building bars of one width: the open bar, and how many bars were closed. -/
structure Bars (α : Type) where
  width : Int
  current : Option (OpenBar α)
  emitted : Nat
  deriving DecidableEq, Repr

namespace Bars

variable {α : Type}

def start (width : Int) : Bars α := ⟨width, none, 0⟩

/-- Before the first tick, if there are buckets of the width. -/
def start? (width : Int) : Option (Bars α) := if 0 < width then some (start width) else none

variable [Scalar α]

/-- Opens a bar with a tick and closes the one that was open. -/
def reopen? (s : Bars α) (t : Tick α) (bucket : Int) : Option (Bars α × Option (Bar α)) :=
  (OpenBar.ofTick? t bucket s.width).map fun fresh =>
    match s.current with
    | none => ({ s with current := some fresh }, none)
    | some b => ({ s with current := some fresh, emitted := s.emitted + 1 }, some b.finish)

/-- Takes a tick, and gives the bar that it closed. -/
def push? (s : Bars α) (t : Tick α) : Option (Bars α × Option (Bar α)) :=
  match bucketOf? t.time s.width with
  | none => none
  | some bucket =>
    match s.current with
    | some b =>
      if b.takes t.instrument bucket then
        (b.add? t).map fun b => ({ s with current := some b }, none)
      else s.reopen? t bucket
    | none => s.reopen? t bucket

/-- Closes the open bar at the end of the stream. -/
def flush (s : Bars α) : Bars α × Option (Bar α) :=
  match s.current with
  | none => (s, none)
  | some b => ({ s with current := none, emitted := s.emitted + 1 }, some b.finish)

end Bars

end MarketTape
