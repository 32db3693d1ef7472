import MarketTape.Regime.Basic
import MarketTape.Returns
import MarketTape.Table

/-!
# Detecting the regime

The detector keeps, for every instrument by itself, a window of returns and a window of volumes.
Until the window of returns is full the market is warming up; after that it is volatile, trending or
ranging, in this order of precedence.

* `DetectorTerms` are the window and the two thresholds.
* `InstrumentWindow.start?` sets the windows of an instrument aside when it is first seen, and
  `InstrumentWindow.observe` describes the market in that instrument.
* `regimeDetector` is the detector over all instruments.
-/

namespace MarketTape

/-- The number of bars in the window of the detector, the trend strength from which on the market is
trending, and the volatility above which it is volatile. -/
structure DetectorTerms (α : Type) where
  window : Nat
  trendThreshold : α
  volatilityThreshold : α
  deriving DecidableEq, Repr

/-- What is remembered of one instrument: recent returns, and recent volumes, oldest first. -/
structure InstrumentWindow (α : Type) where
  returns : RollingReturns α
  volumes : List α

variable {α : Type} [AnalyticScalar α]

namespace DetectorTerms

/-- Whether a detector can be built: two returns are needed for a deviation, and thresholds are
positive. -/
def Admissible (t : DetectorTerms α) : Prop :=
  2 ≤ t.window ∧ Scalar.zero < t.trendThreshold ∧ Scalar.zero < t.volatilityThreshold

instance (t : DetectorTerms α) : Decidable t.Admissible := inferInstanceAs (Decidable (_ ∧ _))

/-- The label for a window of returns with this volatility and trend strength. -/
def classify (t : DetectorTerms α) (ready : Bool) (volatility trend : α) : Regime :=
  if ¬ ready then .warmup
  else if t.volatilityThreshold < volatility then .volatile
  else if t.trendThreshold ≤ trend then .trendUp
  else if trend ≤ -t.trendThreshold then .trendDown
  else .ranging

end DetectorTerms

namespace InstrumentWindow

/-- Before the first bar, if the windows can be set aside.  Both have the same size. -/
def start? (t : DetectorTerms α) : Option (InstrumentWindow α) :=
  (RollingReturns.start? t.window).map (⟨·, []⟩)

/-- What is remembered of an instrument.  Its windows are set aside when it is first asked for. -/
def of? (t : DetectorTerms α) (windows : Table (InstrumentWindow α)) (instrument : String) :
    Option (InstrumentWindow α) :=
  match windows.get? instrument with
  | some w => some w
  | none => start? t

/-- The volume of a bar in units of the mean of the volumes before it. -/
def volumeRatio (volumes : List α) (volume : α) : α :=
  if volumes = [] then Scalar.zero
  else
    let mean := meanOf volumes
    if Scalar.zero < mean then volume / mean else Scalar.zero

/-- Takes a volume into a window of the given length. -/
def addVolume (window : Nat) (volumes : List α) (volume : α) : List α :=
  (if window ≤ volumes.length then volumes.drop 1 else volumes) ++ [volume]

/-- Takes a bar of the instrument and describes the market after it. -/
def observe (t : DetectorTerms α) (w : InstrumentWindow α) (bar : Bar α) :
    InstrumentWindow α × MarketState α :=
  let returns := (w.returns.addPrice bar.close).1
  let mid := bar.mid
  let volatility := returns.volatility.getD Scalar.zero
  let trendStrength := returns.trendStrength
  (⟨returns, addVolume t.window w.volumes bar.volume⟩,
    { ret := returns.last
      volatility
      rangePct := if Scalar.zero < bar.close then (bar.high - bar.low) / bar.close else Scalar.zero
      volumeRatio := volumeRatio w.volumes bar.volume
      spreadBps := if Scalar.zero < mid then bar.spread / mid * Scalar.ofInt 10000 else Scalar.zero
      imbalance := bar.imbalance
      trendStrength
      regime := t.classify returns.isReady volatility trendStrength })

end InstrumentWindow

/-- The detector that keeps a window for every instrument. -/
def regimeDetector (t : DetectorTerms α) : Detector α where
  State := Table (InstrumentWindow α)
  start := Table.empty
  observe windows bar :=
    (InstrumentWindow.of? t windows bar.instrument).map fun w =>
      let (w, state) := w.observe t bar
      (windows.insert bar.instrument w, state)

end MarketTape
