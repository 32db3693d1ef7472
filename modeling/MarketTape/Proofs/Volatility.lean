import Mathlib.Analysis.Real.Sqrt
import Mathlib.Analysis.SpecialFunctions.Log.Basic
import Mathlib.Data.List.DropRight
import MarketTape.Proofs.Detection

/-!
# Volatility is that of the window

The window of returns keeps a running sum and a running sum of squares.  A return that leaves is
taken out of both, and a price that is not positive produces no return and leaves them alone, so
that after any prices the two belong to the returns that are still there and the volatility is the
one that would be computed from these afresh.

The window itself is right for every number type.  The sums are right only in exact numbers, where
taking a return out undoes putting it in; the logarithm may then be any function.

* `returnsOf` are the returns of some prices, one for every two adjacent positive ones.
* `RollingReturns.follow` takes prices, and `RollingReturns.Follows` is what is known of the window
  after them: `RollingReturns.Follows.take` takes one price, `RollingReturns.follows_follow` all.
* `populationVariance` is the mean of the squared distances from the mean, and
  `populationVariance_eq` computes it from the two sums.
* `RollingReturns.Summed` says that the sums are those of the returns, and
  `RollingReturns.Summed.volatility` that the volatility is then the root of the variance.
* `volatility_of_window` is the result.
-/

namespace MarketTape

/-! ## The returns of a price series -/

section Returns

variable {α : Type} [AnalyticScalar α]

/-- The returns of some prices: the logarithm of the ratio of every two adjacent positive ones. -/
def returnsOf (prices : List α) : List α :=
  ((prices.zip prices.tail).filter fun pair => Scalar.zero < pair.1 ∧ Scalar.zero < pair.2).map
    fun pair => AnalyticScalar.ln (pair.2 / pair.1)

omit [AnalyticScalar α] in
/-- One more price makes one more pair, with the price before it. -/
lemma zip_tail_concat (price : α) : ∀ {prices : List α} {before : α},
    prices.getLast? = some before →
      (prices ++ [price]).zip (prices ++ [price]).tail =
        prices.zip prices.tail ++ [(before, price)]
  | [only], before, h => by
    obtain rfl : only = before := Option.some.inj h
    rfl
  | first :: second :: rest, before, h => by
    rw [List.getLast?_cons_cons] at h
    exact congrArg ((first, second) :: ·) (zip_tail_concat price h)

lemma returnsOf_concat (prices : List α) (price : α) :
    returnsOf (prices ++ [price]) =
      returnsOf prices ++ (RollingReturns.returnOf? prices.getLast? price).toList := by
  cases h : prices.getLast? with
  | none =>
    rw [List.getLast?_eq_none_iff.mp h]
    rfl
  | some before =>
    rw [returnsOf, zip_tail_concat price h, List.filter_append, List.map_append, ← returnsOf,
      RollingReturns.returnOf?]
    congr 1
    by_cases hpositive : Scalar.zero < before ∧ Scalar.zero < price
    · rw [if_pos hpositive, List.filter_cons_of_pos (by simpa using hpositive)]
      rfl
    · rw [if_neg hpositive, List.filter_cons_of_neg (by simpa using hpositive)]
      rfl

end Returns

/-! ## The window -/

namespace RollingReturns

section Window

variable {α : Type} [AnalyticScalar α] {r : RollingReturns α} {prices produced : List α}

/-- Takes a price, and keeps the return that it produced. -/
def take (state : RollingReturns α × List α) (price : α) : RollingReturns α × List α :=
  ((state.1.addPrice price).1, state.2 ++ (state.1.addPrice price).2.toList)

/-- Takes prices from the first one on, and gives the returns that they produced. -/
def follow (window : Nat) (prices : List α) : RollingReturns α × List α :=
  prices.foldl take (start window, [])

lemma follow_concat (window : Nat) (prices : List α) (price : α) :
    follow window (prices ++ [price]) = take (follow window prices) price := List.foldl_concat ..

/-- A price that produces a return puts it into the window; any other price leaves the window as it
is. -/
lemma addPrice_cases (r : RollingReturns α) (price : α) :
    (∃ x, returnOf? r.previous price = some x ∧
        r.addPrice price = ({ r.addReturn x with last := x, previous := some price }, some x)) ∨
      returnOf? r.previous price = none ∧
        r.addPrice price = ({ r with last := Scalar.zero, previous := some price }, none) := by
  rw [addPrice]
  cases returnOf? r.previous price with
  | none => exact Or.inr ⟨rfl, rfl⟩
  | some x => exact Or.inl ⟨x, rfl, rfl⟩

/-- A return goes in at one end; if the window is full, one goes out at the other. -/
lemma returns_addReturn (hwindow : 0 < r.window) (h : r.returns = produced.rtake r.window) (x : α) :
    (r.addReturn x).returns = (produced ++ [x]).rtake r.window := by
  obtain ⟨n, hn⟩ := Nat.exists_eq_add_one_of_ne_zero hwindow.ne'
  have hroom : r.makeRoom.returns = produced.rtake n := by
    rw [returns_makeRoom, h, hn, List.rtake, List.rtake, List.length_drop, List.drop_drop]
    split <;> congr 1 <;> omega
  rw [hn, List.rtake_concat_succ, ← hroom]
  rfl

/-- What is known of a window of some size after some prices: one return was produced for every two
adjacent positive prices, and the window has the last of them. -/
structure Follows (size : Nat) (prices : List α) (state : RollingReturns α × List α) : Prop where
  window : state.1.window = size
  previous : state.1.previous = prices.getLast?
  produced : state.2 = returnsOf prices
  returns : state.1.returns = state.2.rtake size

lemma Follows.take {size : Nat} {state : RollingReturns α × List α} (hsize : 0 < size)
    (h : Follows size prices state) (price : α) :
    Follows size (prices ++ [price]) (RollingReturns.take state price) where
  window := (window_addPrice state.1 price).trans h.window
  previous := by
    rw [List.getLast?_concat]
    rfl
  produced := by
    rw [returnsOf_concat, ← h.previous, ← h.produced]
    rfl
  returns := by
    have hreturns := h.returns
    -- the size is that of the window, which is where room is made
    rw [← h.window] at hsize hreturns ⊢
    rw [RollingReturns.take]
    rcases addPrice_cases state.1 price with ⟨x, -, hprice⟩ | ⟨-, hprice⟩
    · rw [hprice]
      exact returns_addReturn hsize hreturns x
    · rw [hprice, Option.toList_none, List.append_nil]
      exact hreturns

/-- The window has as many returns as were produced, up to its size. -/
lemma Follows.count {size : Nat} {state : RollingReturns α × List α}
    (h : Follows size prices state) : state.1.count = min size state.2.length := by
  rw [RollingReturns.count, h.returns, List.rtake, List.length_drop]
  omega

/-- The window follows the prices, however many there are. -/
theorem follows_follow {size : Nat} (hsize : 0 < size) (prices : List α) :
    Follows size prices (follow size prices) := by
  induction prices using List.reverseRecOn with
  | nil => exact ⟨rfl, rfl, rfl, (List.rtake_nil size).symm⟩
  | append_singleton prices price ih => exact follow_concat size prices price ▸ ih.take hsize price

end Window

end RollingReturns

/-! ## Exact numbers -/

/-- A function of the real numbers in the place of the logarithm. -/
class Logarithm where
  ln : ℝ → ℝ

/-- Real numbers, with any logarithm. -/
noncomputable instance [Logarithm] : AnalyticScalar ℝ where
  decideLT := inferInstance
  decideLE := inferInstance
  ofInt n := n
  neutral := 0
  abs x := |x|
  larger := max
  smaller := min
  isFinite _ := true
  ln := Logarithm.ln
  sqrt := Real.sqrt

section Exact

variable [Logarithm]

@[simp] lemma Scalar.ofInt_real (n : Int) : (Scalar.ofInt n : ℝ) = n := rfl

@[simp] lemma Scalar.zero_real : (Scalar.zero : ℝ) = 0 := Int.cast_zero

end Exact

/-- The mean of the squared distances from the mean. -/
noncomputable def populationVariance (xs : List ℝ) : ℝ :=
  (xs.map fun x => (x - xs.sum / xs.length) ^ 2).sum / xs.length

/-- A variance is never negative. -/
lemma populationVariance_nonneg (xs : List ℝ) : 0 ≤ populationVariance xs := by
  refine div_nonneg (List.sum_nonneg fun y hy => ?_) (Nat.cast_nonneg _)
  obtain ⟨x, -, rfl⟩ := List.mem_map.mp hy
  exact sq_nonneg _

lemma sum_squared_distances (mean : ℝ) (xs : List ℝ) :
    (xs.map fun x => (x - mean) ^ 2).sum =
      (xs.map (· ^ 2)).sum - 2 * mean * xs.sum + xs.length * mean ^ 2 := by
  induction xs with
  | nil => simp
  | cons x rest ih =>
    simp only [List.map_cons, List.sum_cons, ih, List.length_cons, Nat.cast_add, Nat.cast_one]
    ring

/-- A variance is the mean of the squares less the square of the mean. -/
lemma populationVariance_eq {xs : List ℝ} (hxs : xs ≠ []) :
    populationVariance xs =
      (xs.map (· ^ 2)).sum / xs.length - (xs.sum / xs.length) * (xs.sum / xs.length) := by
  have hlength : (xs.length : ℝ) ≠ 0 := by
    rw [Nat.cast_ne_zero, Ne, List.length_eq_zero_iff]
    exact hxs
  rw [populationVariance, sum_squared_distances]
  field_simp
  ring

namespace RollingReturns

variable [Logarithm] {r : RollingReturns ℝ}

/-- The sums are those of the returns. -/
structure Summed (r : RollingReturns ℝ) : Prop where
  sum : r.sum = r.returns.sum
  sumSquares : r.sumSquares = (r.returns.map (· ^ 2)).sum

lemma summed_start (window : Nat) : (start window : RollingReturns ℝ).Summed :=
  ⟨Scalar.zero_real, Scalar.zero_real⟩

/-- What leaves the window is taken out of the sums. -/
lemma Summed.makeRoom (h : r.Summed) : r.makeRoom.Summed := by
  rw [RollingReturns.makeRoom]
  split
  · split
    · exact h
    · next oldest rest hreturns =>
      have hsum := h.sum
      have hsquares := h.sumSquares
      rw [hreturns, List.sum_cons] at hsum
      rw [hreturns, List.map_cons, List.sum_cons] at hsquares
      refine ⟨?_, ?_⟩
      · simp only [hsum]
        ring
      · simp only [hsquares]
        ring
  · exact h

lemma Summed.addReturn (h : r.Summed) (x : ℝ) : (r.addReturn x).Summed := by
  have hroom := h.makeRoom
  refine ⟨?_, ?_⟩
  · simp only [RollingReturns.addReturn, hroom.sum, List.sum_append, List.sum_singleton]
  · simp only [RollingReturns.addReturn, hroom.sumSquares, List.map_append, List.sum_append,
      List.map_singleton, List.sum_singleton, sq]

/-- After any prices the sums are those of the returns, whatever has gone through the window. -/
lemma summed_follow (window : Nat) (prices : List ℝ) : (follow window prices).1.Summed := by
  induction prices using List.reverseRecOn with
  | nil => exact summed_start window
  | append_singleton prices price ih =>
    rw [follow_concat, take]
    rcases addPrice_cases (follow window prices).1 price with ⟨x, -, hprice⟩ | ⟨-, hprice⟩
    · rw [hprice]
      exact ⟨(ih.addReturn x).sum, (ih.addReturn x).sumSquares⟩
    · rw [hprice]
      exact ⟨ih.sum, ih.sumSquares⟩

/-- The volatility is the root of the variance of the returns. -/
lemma Summed.volatility (h : r.Summed) (hcount : 2 ≤ r.count) :
    r.volatility = some (Real.sqrt (populationVariance r.returns)) := by
  have hreturns : r.returns ≠ [] := by
    intro hnil
    simp [count, hnil] at hcount
  have hvariance : r.sumSquares / Scalar.ofInt r.count -
      r.sum / Scalar.ofInt r.count * (r.sum / Scalar.ofInt r.count) =
        populationVariance r.returns := by
    rw [populationVariance_eq hreturns, h.sum, h.sumSquares, count, Scalar.ofInt_real,
      Int.cast_natCast]
  rw [RollingReturns.volatility, if_neg (by omega)]
  simp only [hvariance]
  split
  · next hle =>
    -- the branch is there for rounding; here it is the one where the returns do not vary
    rw [Scalar.zero_real] at hle ⊢
    rw [Real.sqrt_eq_zero_of_nonpos hle]
  · rfl

/-- The volatility is a matter of the returns in the window. -/
lemma Summed.volatility_eq {other : RollingReturns ℝ} (h : r.Summed) (hother : other.Summed)
    (hreturns : other.returns = r.returns) : other.volatility = r.volatility := by
  have hcount : other.count = r.count := congrArg List.length hreturns
  by_cases htwo : 2 ≤ r.count
  · rw [h.volatility htwo, hother.volatility (hcount ▸ htwo), hreturns]
  · rw [RollingReturns.volatility, RollingReturns.volatility, hcount, if_pos (by omega),
      if_pos (by omega)]

end RollingReturns

/-- A window that takes prices from the first one on, in exact numbers and with any logarithm.

One return is produced for every two adjacent positive prices, and the window has the last of them,
as many as fit; the two sums are those of the returns in the window.  With two returns or more there
is a volatility.  It is not negative, and its square is the variance of the returns in the window,
computed from these afresh; so it is the same after any other prices that leave the same returns
there, whatever has gone through the window before. -/
theorem volatility_of_window [Logarithm] {window : Nat} (hwindow : 1 ≤ window) (prices : List ℝ) :
    ∃ r produced, RollingReturns.follow window prices = (r, produced) ∧
      produced = returnsOf prices ∧
      r.returns = produced.rtake window ∧ r.count = min window produced.length ∧
      r.sum = r.returns.sum ∧ r.sumSquares = (r.returns.map (· ^ 2)).sum ∧
      (r.count < 2 → r.volatility = none) ∧
      (2 ≤ r.count →
        ∃ v, r.volatility = some v ∧ 0 ≤ v ∧ v ^ 2 = populationVariance r.returns) ∧
      ∀ other : List ℝ, (returnsOf other).rtake window = (returnsOf prices).rtake window →
        (RollingReturns.follow window other).1.volatility = r.volatility := by
  have hfollows := RollingReturns.follows_follow hwindow prices
  have hsummed := RollingReturns.summed_follow window prices
  refine ⟨(RollingReturns.follow window prices).1, (RollingReturns.follow window prices).2, rfl,
    hfollows.produced, hfollows.returns, hfollows.count, hsummed.sum, hsummed.sumSquares,
    ?_, ?_, ?_⟩
  · intro hcount
    rw [RollingReturns.volatility, if_pos hcount]
  · intro hcount
    refine ⟨_, hsummed.volatility hcount, Real.sqrt_nonneg _, ?_⟩
    exact Real.sq_sqrt (populationVariance_nonneg _)
  · intro other hother
    have hfollowsOther := RollingReturns.follows_follow hwindow other
    refine hsummed.volatility_eq (RollingReturns.summed_follow window other) ?_
    rw [hfollows.returns, hfollows.produced, hfollowsOther.returns, hfollowsOther.produced, hother]

/-! ## A series with a gap -/

/-- The natural logarithm. -/
noncomputable instance naturalLogarithm : Logarithm := ⟨Real.log⟩

/-- Prices of which one is no price. -/
def gappedPrices : List ℝ := [3, 1, 2, 0, 1, 2, 8]

/-- The first price and the last two pairs around the gap: four returns are produced, the last two
are in the window, and their variance is a quarter of the square of the logarithm of two. -/
theorem volatility_of_window_gappedPrices :
    ∃ r produced, RollingReturns.follow 2 gappedPrices = (r, produced) ∧
      produced = [Real.log (1 / 3), Real.log 2, Real.log 2, Real.log 4] ∧
      r.returns = [Real.log 2, Real.log 4] ∧
      ∃ v, r.volatility = some v ∧ 0 ≤ v ∧ v ^ 2 = Real.log 2 ^ 2 / 4 := by
  have hln (x : ℝ) : AnalyticScalar.ln x = Real.log x := rfl
  have hproduced : returnsOf gappedPrices =
      [Real.log (1 / 3), Real.log 2, Real.log 2, Real.log 4] := by
    norm_num [returnsOf, gappedPrices, hln]
  have hfour : Real.log 4 = 2 * Real.log 2 := by
    have hsquare : (4 : ℝ) = 2 ^ 2 := by norm_num
    rw [hsquare, Real.log_pow, Nat.cast_ofNat]
  obtain ⟨r, produced, hfollow, rfl, hreturns, hcount, -, -, -, hvolatility, -⟩ :=
    volatility_of_window (by decide : 1 ≤ 2) gappedPrices
  rw [hproduced] at hreturns hcount hfollow
  have hreturns' : r.returns = [Real.log 2, Real.log 4] := hreturns
  obtain ⟨v, hv, hnonneg, hsquare⟩ := hvolatility hcount.ge
  refine ⟨r, _, hfollow, rfl, hreturns', v, hv, hnonneg, ?_⟩
  rw [hsquare, hreturns', populationVariance, hfour]
  simp only [List.map_cons, List.map_nil, List.sum_cons, List.sum_nil, List.length_cons,
    List.length_nil]
  ring

end MarketTape
