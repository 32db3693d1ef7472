import MarketTape.Count
import MarketTape.Scalar

/-!
# Rolling returns

The logarithmic returns of a price series over a sliding window.  Two adjacent positive prices give
a return; a price that is not positive gives none and breaks the chain.

* `RollingReturns.start?` sets the window aside, `RollingReturns.addPrice` takes a price.
* `RollingReturns.volatility` is the spread of the returns in the window, kept up to date through
  their running sum and sum of squares.
* `RollingReturns.trendStrength` is their mean in units of its own uncertainty.
-/

namespace MarketTape

variable {α : Type}

/-! ## Mean and deviation of a sample -/

/-- One step of a running mean: the mean so far and the number of values it is of. -/
def meanStep [Scalar α] (state : α × Nat) (x : α) : α × Nat :=
  let count := state.2 + 1
  (state.1 + (x - state.1) / Scalar.ofInt count, count)

/-- The mean of a sample, corrected value by value. -/
def meanOf [Scalar α] (xs : List α) : α := (xs.foldl meanStep (Scalar.zero, 0)).1

/-- The state of a running sum of squared deviations: the sum of the values, the sum of the squared
distances from their mean, and the number of values. -/
structure Deviation (α : Type) where
  sum : α
  squares : α
  count : Nat

def Deviation.add [Scalar α] (d : Deviation α) (x : α) : Deviation α :=
  let count := d.count + 1
  let sum := d.sum + x
  let distance := Scalar.ofInt count * x - sum
  let weight := Scalar.ofInt count * (Scalar.ofInt count - Scalar.ofInt 1)
  ⟨sum, d.squares + distance * distance / weight, count⟩

/-- The standard deviation of a sample, estimated with one degree of freedom less than values. -/
def deviationOf [AnalyticScalar α] : List α → α
  | [] => Scalar.zero
  | x :: rest =>
    let d := rest.foldl Deviation.add ⟨x, Scalar.zero, 1⟩
    AnalyticScalar.sqrt (d.squares / (Scalar.ofInt d.count - Scalar.ofInt 1))

/-! ## The window -/

/-- The returns in the window, oldest first, with their sum and the sum of their squares.  `last` is
the return that the latest price gave, or zero. -/
structure RollingReturns (α : Type) where
  window : Nat
  returns : List α
  previous : Option α
  last : α
  sum : α
  sumSquares : α

namespace RollingReturns

/-- The trend strength of returns that do not vary. -/
def trendCap [Scalar α] : α := Scalar.ofInt 100

/-- What counts as no variation. -/
def negligible [Scalar α] : α := Scalar.inverseOf 1000000000000

def start [Scalar α] (window : Nat) : RollingReturns α :=
  ⟨window, [], none, Scalar.zero, Scalar.zero, Scalar.zero⟩

/-- Whether a window can be set aside.  That is done for all of its numbers at once, each takes
eight bytes, and the size in bytes is a count. -/
def Fits (window : Nat) : Prop := Count.Fits (8 * window)

instance decidableFits (window : Nat) : Decidable (Fits window) :=
  inferInstanceAs (Decidable (Count.Fits _))

/-- Before the first price, if the window can be set aside. -/
def start? [Scalar α] (window : Nat) : Option (RollingReturns α) :=
  if Fits window then some (start window) else none

/-- Drops the oldest return of a full window. -/
def makeRoom [Scalar α] (r : RollingReturns α) : RollingReturns α :=
  if r.window ≤ r.returns.length then
    match r.returns with
    | [] => r
    | oldest :: rest =>
      { r with
        returns := rest, sum := r.sum - oldest, sumSquares := r.sumSquares - oldest * oldest }
  else r

/-- Takes a return into the window. -/
def addReturn [Scalar α] (r : RollingReturns α) (x : α) : RollingReturns α :=
  let r := r.makeRoom
  { r with returns := r.returns ++ [x], sum := r.sum + x, sumSquares := r.sumSquares + x * x }

/-- The return from one price to the next, if both are positive. -/
def returnOf? [AnalyticScalar α] (previous : Option α) (price : α) : Option α :=
  match previous with
  | none => none
  | some previous =>
    if Scalar.zero < previous ∧ Scalar.zero < price then
      some (AnalyticScalar.ln (price / previous))
    else none

/-- Takes a price, and gives the return that it produced. -/
def addPrice [AnalyticScalar α] (r : RollingReturns α) (price : α) : RollingReturns α × Option α :=
  let produced := returnOf? r.previous price
  let grown := match produced with
    | some x => r.addReturn x
    | none => r
  ({ grown with last := produced.getD Scalar.zero, previous := some price }, produced)

def count (r : RollingReturns α) : Nat := r.returns.length

/-- Whether the window is full. -/
def isReady (r : RollingReturns α) : Bool := r.window ≤ r.count

/-- The standard deviation of the returns in the window, as that of a whole population; it takes two
returns.  Rounding may make the difference of the sums negative, which counts as no deviation. -/
def volatility [AnalyticScalar α] (r : RollingReturns α) : Option α :=
  if r.count < 2 then none
  else
    let n : α := Scalar.ofInt r.count
    let mean := r.sum / n
    let variance := r.sumSquares / n - mean * mean
    some (if variance ≤ Scalar.zero then Scalar.zero else AnalyticScalar.sqrt variance)

/-- The mean of the returns over its standard error, confined to the cap.  Returns that do not vary
have the cap itself, in the direction of their mean. -/
def trendStrength [AnalyticScalar α] (r : RollingReturns α) : α :=
  if r.count < 2 then Scalar.zero
  else
    let mean := meanOf r.returns
    let deviation := deviationOf r.returns
    if negligible < deviation then
      Scalar.clamp trendCap
        (mean / (deviation / AnalyticScalar.sqrt (Scalar.ofInt r.count)))
    else if Scalar.abs mean ≤ negligible then Scalar.zero
    else if Scalar.zero < mean then trendCap
    else if mean < Scalar.zero then -trendCap
    else mean

end RollingReturns

end MarketTape
