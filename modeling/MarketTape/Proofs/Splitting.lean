import MarketTape.Proofs.AveragePrice
import MarketTape.Proofs.CashFlow

/-!
# A trade in two parts

Trading some lots and then some more, on the same side and at the same price, comes to the same as
trading all of them at once.  Where the position does not turn round that is plain arithmetic.
Where it does, the two ways go through different branches: what the whole trade does in one step,
closing lots and opening the other side, is done by the parts in any of three ways, by the place
where the trade is cut.  None of that can be seen afterwards, when prices are read as exact numbers.

* `Position.average_eq_of_against` is the average after a trade against the position, read off the
  lots alone.
* `Position.average_of_parts` compares the averages, wherever the trade is cut;
  `Position.eq_of_parts` compares everything, because the worth of a position at the price of a
  trade does not notice the trade.
* `Position.trade?_add_iff` adds that neither way runs out of range where the other does not.
* `splitting_changes_nothing` is the result.
-/

namespace MarketTape

namespace Position

/-! ## Averages -/

section Average

variable {p p' : Position ℚ} {side : Side} {volume : Int} {price profit : ℚ}

/-- The lots after a trade say which of its three ways a trade against the position has gone. -/
lemma average_eq_of_against (hsome : 0 < volume) (hagainst : p.net.sign = -side.sign)
    (h : p.trade? side volume price = some (p', profit)) :
    p'.average =
      if p'.net = 0 then 0 else if p'.net.sign = side.sign then price else p.average := by
  rcases average_of_against hsome hagainst h with ⟨hflat, haverage⟩ | ⟨hstill, haverage⟩ |
    ⟨hround, haverage⟩
  · rw [if_pos hflat, haverage, Scalar.zero_exact]
  · have hopposite : p'.net.sign = side.opposite.sign := by
      rw [hstill, hagainst, Side.sign_opposite]
    have hother : p'.net.sign ≠ side.sign := by
      rw [hstill, hagainst]
      rcases side.sign_eq with hs | hs <;> rw [hs] <;> decide
    rw [if_neg (Side.held_of_sign hopposite), if_neg hother, haverage]
  · rw [if_neg (Side.held_of_sign hround), if_pos hround, haverage]

/-- A trade from flat or on the side of the position adds to its size. -/
lemma abs_net_of_along (hsome : 0 < volume) (halong : p.net = 0 ∨ p.net.sign = side.sign)
    (h : p.trade? side volume price = some (p', profit)) :
    |(p'.net : ℚ)| = |(p.net : ℚ)| + volume := by
  have hnet := net_of_trade? h
  rw [if_neg (not_le.mpr hsome), Side.add_of_along halong] at hnet
  have hsize : (p'.net.natAbs : Int) = p.net.natAbs + volume := by
    rw [hnet, Side.natAbs_sign_mul]
    omega
  rw [Int.natCast_natAbs, Int.natCast_natAbs] at hsize
  exact_mod_cast hsize

end Average

/-! ## Both ways -/

section Parts

variable {p mid last whole : Position ℚ} {side : Side} {a b : Int} {price first second profit : ℚ}

/-- Both ways lead to the same lots. -/
lemma net_of_parts (ha : 0 < a) (hb : 0 < b) (hfirst : p.trade? side a price = some (mid, first))
    (hsecond : mid.trade? side b price = some (last, second))
    (hwhole : p.trade? side (a + b) price = some (whole, profit)) : last.net = whole.net := by
  have hmid := net_of_trade? hfirst
  have hlast := net_of_trade? hsecond
  have hall := net_of_trade? hwhole
  rw [if_neg (not_le.mpr ha)] at hmid
  rw [if_neg (not_le.mpr hb)] at hlast
  rw [if_neg (not_le.mpr (add_pos ha hb))] at hall
  rw [hlast, hall, hmid, mul_add, add_assoc]

/-- Both ways lead to the same average, wherever the trade is cut. -/
lemma average_of_parts (ha : 0 < a) (hb : 0 < b)
    (hfirst : p.trade? side a price = some (mid, first))
    (hsecond : mid.trade? side b price = some (last, second))
    (hwhole : p.trade? side (a + b) price = some (whole, profit)) :
    last.average = whole.average := by
  have hab : 0 < a + b := add_pos ha hb
  have hnet := net_of_parts ha hb hfirst hsecond hwhole
  by_cases halong : p.net = 0 ∨ p.net.sign = side.sign
  · -- all trades blend, and the prices paid add up
    obtain ⟨hside, hmid⟩ := average_of_along ha halong hfirst
    have hlast := (average_of_along hb (Or.inr hside) hsecond).2
    have hall := (average_of_along hab halong hwhole).2
    rw [abs_net_of_along ha halong hfirst, hmid] at hlast
    have hsize : 0 < |(p.net : ℚ)| + a + b :=
      add_pos (add_pos_of_nonneg_of_pos (abs_nonneg _) (Int.cast_pos.mpr ha)) (Int.cast_pos.mpr hb)
    refine mul_right_cancel₀ hsize.ne' (hlast.trans ?_)
    push_cast at hall
    linear_combination -hall
  · have hagainst : p.net.sign = -side.sign := by
      rw [Side.sign_of_against (not_or.mp halong).1 (not_or.mp halong).2, neg_neg]
    rw [average_eq_of_against hab hagainst hwhole, ← hnet]
    rcases average_of_against ha hagainst hfirst with ⟨hflat, -⟩ | ⟨hstill, hmid⟩ | ⟨hround, hmid⟩
    · -- cut where the position is flat: the second part opens the other side
      have hside := (average_of_along hb (Or.inl hflat) hsecond).1
      rw [if_neg (Side.held_of_sign hside), if_pos hside]
      exact average_eq_price hb (Or.inl hflat) (Or.inl hflat) hsecond
    · -- cut before that: the second part does what the whole trade does
      rw [average_eq_of_against hb (hstill.trans hagainst) hsecond, hmid]
    · -- cut after that: the first part has turned the position, and the second one adds to it
      have hside := (average_of_along hb (Or.inr hround) hsecond).1
      rw [if_neg (Side.held_of_sign hside), if_pos hside]
      exact average_eq_price hb (Or.inr hround) (Or.inr hmid) hsecond

/-- Both ways lead to the same position, and realize the same profit. -/
theorem eq_of_parts (ha : 0 < a) (hb : 0 < b)
    (hfirst : p.trade? side a price = some (mid, first))
    (hsecond : mid.trade? side b price = some (last, second))
    (hwhole : p.trade? side (a + b) price = some (whole, profit)) :
    last = whole ∧ first + second = profit := by
  have hnet := net_of_parts ha hb hfirst hsecond hwhole
  have haverage := average_of_parts ha hb hfirst hsecond hwhole
  have hrealized : last.realized = whole.realized := by
    have hworth : last.worth price = whole.worth price :=
      (worth_of_trade? hsecond).trans ((worth_of_trade? hfirst).trans (worth_of_trade? hwhole).symm)
    rw [worth_eq, worth_eq, hnet, haverage] at hworth
    exact add_right_cancel hworth
  refine ⟨?_, ?_⟩
  · cases last
    cases whole
    simp only [mk.injEq]
    exact ⟨hnet, haverage, hrealized⟩
  · have hfirst' := realized_of_trade? hfirst
    have hsecond' := realized_of_trade? hsecond
    have hwhole' := realized_of_trade? hwhole
    linear_combination hwhole' - hsecond' - hfirst' + hrealized

/-- The whole trade has a result if and only if its parts have one. -/
lemma exists_parts_iff (ha : 0 < a) (hb : 0 < b) (hcounted : a + b ≤ Count.greatest) :
    (∃ whole profit, p.trade? side (a + b) price = some (whole, profit)) ↔
      ∃ mid first last second, p.trade? side a price = some (mid, first) ∧
        mid.trade? side b price = some (last, second) := by
  have hab : 0 < a + b := add_pos ha hb
  rw [exists_trade?_iff hcounted]
  constructor
  · intro h
    obtain ⟨hbefore, hafter⟩ := h hab
    -- the lots in between are between the others
    have hbetween : ((p.net + side.sign * a).natAbs : Int) ≤ Count.greatest := by
      rcases side.sign_eq with hs | hs <;> rw [hs] at hafter ⊢ <;> omega
    obtain ⟨mid, first, hfirst⟩ := exists_trade? price hbefore hbetween
    have hmid := net_of_trade? hfirst
    rw [if_neg (not_le.mpr ha)] at hmid
    rw [mul_add, ← add_assoc, ← hmid] at hafter
    rw [← hmid] at hbetween
    obtain ⟨last, second, hsecond⟩ := exists_trade? price hbetween hafter
    exact ⟨mid, first, last, second, hfirst, hsecond⟩
  · rintro ⟨mid, first, last, second, hfirst, hsecond⟩ -
    have hmid := net_of_trade? hfirst
    rw [if_neg (not_le.mpr ha)] at hmid
    have hbefore := ((exists_trade?_iff (by omega)).mp ⟨mid, first, hfirst⟩ ha).1
    have hafter := ((exists_trade?_iff (by omega)).mp ⟨last, second, hsecond⟩ hb).2
    rw [hmid, add_assoc, ← mul_add] at hafter
    exact ⟨hbefore, hafter⟩

/-- A trade gives what its parts give, one after the other. -/
theorem trade?_add_iff (ha : 0 < a) (hb : 0 < b) (hcounted : a + b ≤ Count.greatest) :
    p.trade? side (a + b) price = some (whole, profit) ↔
      ∃ mid first second, p.trade? side a price = some (mid, first) ∧
        mid.trade? side b price = some (whole, second) ∧ first + second = profit := by
  constructor
  · intro hwhole
    obtain ⟨mid, first, last, second, hfirst, hsecond⟩ :=
      (exists_parts_iff ha hb hcounted).mp ⟨whole, profit, hwhole⟩
    obtain ⟨rfl, hprofit⟩ := eq_of_parts ha hb hfirst hsecond hwhole
    exact ⟨mid, first, second, hfirst, hsecond, hprofit⟩
  · rintro ⟨mid, first, second, hfirst, hsecond, rfl⟩
    obtain ⟨whole', profit', hwhole⟩ :=
      (exists_parts_iff ha hb hcounted).mpr ⟨mid, first, whole, second, hfirst, hsecond⟩
    obtain ⟨rfl, rfl⟩ := eq_of_parts ha hb hfirst hsecond hwhole
    exact hwhole

end Parts

end Position

/-! ## In a history -/

namespace Position

variable {side : Side} {a b : Int} {price : ℚ}

/-- Taking both parts is taking the whole trade. -/
lemma take?_parts (ha : 0 < a) (hb : 0 < b) (hfirst : Count.Fits a) (hsecond : Count.Fits b)
    (hwhole : Count.Fits (a + b)) (p : Position ℚ) :
    p.take? ⟨side, a + b, price, hwhole⟩ =
      (p.take? ⟨side, a, price, hfirst⟩).bind (·.take? ⟨side, b, price, hsecond⟩) := by
  refine Option.ext fun last => ?_
  simp only [take?, Option.bind_eq_some_iff, Option.map_eq_some_iff, Prod.exists,
    exists_and_right, exists_eq_right, trade?_add_iff ha hb hwhole.2]
  constructor
  · rintro ⟨profit, mid, first, second, hmid, hlast, -⟩
    exact ⟨mid, ⟨first, hmid⟩, second, hlast⟩
  · rintro ⟨mid, ⟨first, hmid⟩, second, hlast⟩
    exact ⟨first + second, mid, first, second, hmid, hlast, rfl⟩

/-- Wherever a trade stands among others, cutting it in two leaves what all of them come to. -/
theorem takeAll?_parts (ha : 0 < a) (hb : 0 < b) (hfirst : Count.Fits a) (hsecond : Count.Fits b)
    (hwhole : Count.Fits (a + b)) (before after : List (Trade ℚ)) (p : Position ℚ) :
    p.takeAll? (before ++ ⟨side, a + b, price, hwhole⟩ :: after) =
      p.takeAll?
        (before ++ ⟨side, a, price, hfirst⟩ :: ⟨side, b, price, hsecond⟩ :: after) := by
  simp only [takeAll?, List.foldlM_append, List.foldlM_cons]
  refine congrArg _ (funext fun mid => ?_)
  simp only [Option.bind_eq_bind, take?_parts ha hb hfirst hsecond hwhole, Option.bind_assoc]

end Position

/-! ## The result -/

/-- **Splitting a trade changes nothing.**  Lots are traded on one side and at one price, in two
parts or at once.

* From any position, the whole trade has a result if and only if its parts have one, and then both
  ways lead to the same position, with the same lots, average and realized profit; and the profits
  that the parts realize add up.
* From a position that some trades have led to, there is a result as long as the lots afterwards
  have a size.
* Where the trade is one of many, cutting it leaves what they come to as it is. -/
theorem splitting_changes_nothing (side : Side) (price : ℚ) {a b : Int} (ha : 0 < a) (hb : 0 < b)
    (hwhole : Count.Fits (a + b)) :
    (∀ (p last : Position ℚ) (profit : ℚ),
      p.trade? side (a + b) price = some (last, profit) ↔
        ∃ mid first second, p.trade? side a price = some (mid, first) ∧
          mid.trade? side b price = some (last, second) ∧ first + second = profit) ∧
    (∀ (trades : List (Trade ℚ)) (p : Position ℚ),
      (Position.flat : Position ℚ).takeAll? trades = some p →
        ((∃ last profit, p.trade? side (a + b) price = some (last, profit)) ↔
          ((p.net + side.sign * (a + b)).natAbs : Int) ≤ Count.greatest)) ∧
    ∀ (hfirst : Count.Fits a) (hsecond : Count.Fits b) (before after : List (Trade ℚ)),
      (Position.flat : Position ℚ).takeAll? (before ++ ⟨side, a + b, price, hwhole⟩ :: after) =
        (Position.flat : Position ℚ).takeAll?
          (before ++ ⟨side, a, price, hfirst⟩ :: ⟨side, b, price, hsecond⟩ :: after) := by
  refine ⟨fun p last profit => Position.trade?_add_iff ha hb hwhole.2, fun trades p h => ?_,
    fun hfirst hsecond before after => Position.takeAll?_parts ha hb hfirst hsecond hwhole ..⟩
  have hsize := (Position.ranged_takeAll? h).size
  rw [Position.exists_trade?_iff hwhole.2]
  exact ⟨fun hafter => (hafter (add_pos ha hb)).2, fun hafter _ => ⟨hsize, hafter⟩⟩

/-- Lots are bought at two prices. -/
def boughtTwice : List (Trade ℚ) := [⟨.buy, 30, 100, by decide⟩, ⟨.buy, 10, 104, by decide⟩]

/-- Forty lots are held at 101, and fifty are sold at 110.  The sale is cut before the position is
flat, where it is flat, and after it has turned round; every way ends with ten lots sold at 110, and
the profits of the parts are 360 together. -/
theorem splitting_changes_nothing_boughtTwice :
    ∃ p, (Position.flat : Position ℚ).takeAll? boughtTwice = some p ∧ p.net = 40 ∧
      p.average = 101 ∧
      ∀ cut ∈ [((15 : Int), (35 : Int)), (40, 10), (45, 5)],
        ∃ mid first last second, p.trade? .sell cut.1 110 = some (mid, first) ∧
          mid.trade? .sell cut.2 110 = some (last, second) ∧
          last = ⟨-10, 110, 360⟩ ∧ first + second = 360 := by
  have hvalue : ((Position.flat : Position ℚ).takeAll? boughtTwice).map (fun p =>
      (p.net, p.average, p.trade? .sell 50 110)) =
      some (40, 101, some (⟨-10, 110, 360⟩, 360)) := by
    decide +kernel
  obtain ⟨p, hp, hvalue⟩ := Option.map_eq_some_iff.mp hvalue
  simp only [Prod.mk.injEq] at hvalue
  obtain ⟨hnet, haverage, hwhole⟩ := hvalue
  refine ⟨p, hp, hnet, haverage, ?_⟩
  have hcut (a b : Int) (ha : 0 < a) (hb : 0 < b) (hsum : a + b = 50) :
      ∃ mid first last second, p.trade? .sell a 110 = some (mid, first) ∧
        mid.trade? .sell b 110 = some (last, second) ∧
        last = ⟨-10, 110, 360⟩ ∧ first + second = 360 := by
    have hfits : Count.Fits (a + b) := by
      rw [hsum]
      decide
    rw [← hsum] at hwhole
    obtain ⟨mid, first, second, hfirst, hsecond, hprofit⟩ :=
      ((splitting_changes_nothing .sell 110 ha hb hfits).1 p _ _).mp hwhole
    exact ⟨mid, first, _, second, hfirst, hsecond, rfl, hprofit⟩
  intro cut hmem
  simp only [List.mem_cons, List.not_mem_nil, or_false] at hmem
  rcases hmem with rfl | rfl | rfl
  · exact hcut 15 35 (by decide) (by decide) rfl
  · exact hcut 40 10 (by decide) (by decide) rfl
  · exact hcut 45 5 (by decide) (by decide) rfl

end MarketTape
