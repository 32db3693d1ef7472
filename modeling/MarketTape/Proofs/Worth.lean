import Mathlib.Tactic.FieldSimp
import Mathlib.Tactic.LinearCombination
import Mathlib.Tactic.Ring
import MarketTape.Proofs.Exact
import MarketTape.Proofs.Position
import MarketTape.Proofs.Table

/-!
# What a position is worth

Read in exact numbers, the profit of a position at a mark is what it has realized and its lots times
the distance of the mark from their average.  A trade at the mark moves profit from one part to the
other and leaves the whole as it was: lots that are taken on are worth what was paid for them, and
lots that are closed realize what they were worth.

* `Position.worth` is the profit of a position at a mark, and `Position.worth_of_trade?` says that a
  trade at the mark leaves it alone.
* `Book.totalPnl_eq` adds up a book, and `Book.totalPnl_of_trade?` says the same of the whole book.
* `Book.gain` is what a new mark adds to it, by `Book.totalPnl_mark`.
-/

namespace MarketTape

/-! ## One position -/

/-- The profit of closing everything, whichever side it is held on. -/
lemma unrealized_exact (net : Int) (average mark : ℚ) :
    unrealized net average mark = net * (mark - average) := by
  rw [unrealized]
  split
  · simp only [Scalar.ofInt_exact]
    ring
  · rename_i hlong
    split
    · simp only [Scalar.ofInt_exact, Int.cast_neg]
      ring
    · rename_i hshort
      have hflat : net = 0 := by omega
      rw [hflat, Scalar.zero_exact, Int.cast_zero, zero_mul]

namespace Position

/-- Realized and unrealized profit at a mark. -/
def worth (p : Position ℚ) (mark : ℚ) : ℚ := p.realized + unrealized p.net p.average mark

lemma worth_eq (p : Position ℚ) (mark : ℚ) :
    p.worth mark = p.realized + p.net * (mark - p.average) := by
  rw [worth, unrealized_exact]

@[simp] lemma worth_flat (mark : ℚ) : (flat : Position ℚ).worth mark = 0 := by
  simp [worth_eq, flat]

variable {p p' : Position ℚ} {side : Side} {volume : Int} {price profit : ℚ}

/-- Lots on the side of the position: the average moves just as far as the new lots ask for. -/
lemma worth_of_grow? (hvolume : 0 < volume) (hside : p.net = 0 ∨ p.net.sign = side.sign)
    (h : p.grow? side volume price = some p') : p'.worth price = p.worth price := by
  have hnet := net_of_grow? h
  simp only [grow?, Option.bind_eq_bind, Option.bind_eq_some_iff, Option.some.injEq,
    Scalar.ofInt_exact] at h
  obtain ⟨before, hbefore, net, -, after, hafter, rfl⟩ := h
  have hbefore' := Count.eq_natAbs_of_abs? hbefore
  have hafter' := Count.eq_natAbs_of_abs? hafter
  simp only at hnet
  -- on the side of the position, sizes times its sign are the lots themselves
  have hsizes : p.net = side.sign * before ∧ net = side.sign * after ∧ after ≠ 0 := by
    rcases side.sign_eq with hs | hs <;> rw [hs] at hside hnet ⊢
    · rw [Int.sign_eq_one_iff_pos] at hside
      omega
    · rw [Int.sign_eq_neg_one_iff_neg] at hside
      omega
  obtain ⟨hp, hn, hpos⟩ := hsizes
  have hsum : side.sign * after = side.sign * before + side.sign * volume := by omega
  have hafterQ : (after : ℚ) ≠ 0 := by exact_mod_cast hpos
  have hsumQ : (side.sign : ℚ) * after = side.sign * before + side.sign * volume := by
    exact_mod_cast hsum
  rw [worth_eq, worth_eq]
  simp only [hp, hn, Int.cast_mul]
  field_simp
  linear_combination price * hsumQ

/-- Lots against the position: what they were worth is realized, and lots of the other side are
taken on at the price. -/
lemma worth_of_reduce? (hvolume : 0 < volume) (hnet : p.net ≠ 0) (hside : p.net.sign ≠ side.sign)
    (h : p.reduce? side volume price = some (p', profit)) : p'.worth price = p.worth price := by
  simp only [reduce?, Option.bind_eq_bind, Option.bind_eq_some_iff, Option.some.injEq,
    Prod.mk.injEq] at h
  obtain ⟨held, hheld, net, hfit, hp', -⟩ := h
  have habs := Count.eq_natAbs_of_abs? hheld
  have hsum := (Count.fit_eq_some_iff.mp hfit).2
  set closing := min volume held with hclosing
  -- what is closed brings the distance of the price from the average, with the sign of the position
  have hprofit : p.closingProfit closing price =
      -(side.sign * closing : ℚ) * (price - p.average) := by
    rw [closingProfit]
    rcases side.sign_eq with hs | hs <;> rw [hs] at hside ⊢
    · rw [Ne, Int.sign_eq_one_iff_pos] at hside
      rw [if_neg hside, Scalar.ofInt_exact]
      push_cast
      ring
    · rw [Ne, Int.sign_eq_neg_one_iff_neg] at hside
      rw [if_pos (by omega), Scalar.ofInt_exact]
      push_cast
      ring
  have hclosed : 0 < volume - closing → net = 0 := by
    intro hleft
    have hall : closing = held := by omega
    rcases side.sign_eq with hs | hs <;> rw [hs] at hsum hside
    · rw [Ne, Int.sign_eq_one_iff_pos] at hside
      omega
    · rw [Ne, Int.sign_eq_neg_one_iff_neg] at hside
      omega
  have hlots : (net : ℚ) = p.net + side.sign * closing := by exact_mod_cast hsum.symm
  rw [worth_eq, worth_eq, ← hp']
  split
  · rename_i hleft
    rw [hclosed hleft] at hlots
    simp only [hprofit]
    push_cast at hlots ⊢
    linear_combination (price - p.average) * hlots
  · split
    · rename_i hzero
      rw [hzero] at hlots
      simp only [hprofit]
      push_cast at hlots ⊢
      linear_combination (price - p.average) * hlots
    · simp only [hprofit]
      linear_combination (price - p.average) * hlots

/-- A trade at the mark leaves the worth of a position as it was. -/
theorem worth_of_trade? (h : p.trade? side volume price = some (p', profit)) :
    p'.worth price = p.worth price := by
  rw [trade?] at h
  split at h
  · simp only [Option.some.injEq, Prod.mk.injEq] at h
    rw [h.1]
  · rename_i hvolume
    rw [not_le] at hvolume
    split at h
    · rename_i hside
      simp only [Option.map_eq_some_iff, Prod.mk.injEq] at h
      obtain ⟨q, hq, rfl, -⟩ := h
      exact worth_of_grow? hvolume hside hq
    · rename_i hside
      rw [not_or] at hside
      exact worth_of_reduce? hvolume hside.1 hside.2 h

end Position

/-! ## The whole book -/

namespace Book

variable {b b' : Book ℚ} {instrument : String} {side : Side} {volume : Int} {price profit : ℚ}

/-- The profit of a book is what its positions are worth, each at its own mark. -/
lemma totalPnl_eq (b : Book ℚ) :
    b.totalPnl = b.positions.total fun instrument p => p.worth (b.valuation instrument p) := by
  rw [totalPnl, realizedTotal, unrealizedTotal, Scalar.sum_exact, Scalar.sum_exact, Table.total]
  exact List.sum_map_add.symm

/-- What the row of an instrument counts; an instrument that was never traded has none. -/
lemma worth_row (b : Book ℚ) (instrument : String) (valued : Position ℚ → ℚ) :
    ((b.positions.get? instrument).map fun p => p.worth (valued p)).getD 0 =
      (b.position instrument).worth (valued (b.position instrument)) := by
  rw [position, get?]
  cases b.positions.get? instrument with
  | none => exact (Position.worth_flat _).symm
  | some p => rfl

/-- A written position counts in place of the one before it. -/
lemma totalPnl_put (b : Book ℚ) (instrument : String) (p : Position ℚ) :
    (b.put instrument p).totalPnl =
      b.totalPnl + p.worth (b.valuation instrument p) -
        (b.position instrument).worth (b.valuation instrument (b.position instrument)) := by
  have hmarks : (b.put instrument p).valuation = b.valuation := rfl
  have hrow := b.worth_row instrument (b.valuation instrument)
  rw [totalPnl_eq, hmarks, put, Table.total_insert, ← totalPnl_eq, hrow]

lemma valuation_of_mark? (h : b.mark? instrument = some price) (p : Position ℚ) :
    b.valuation instrument p = price := by
  rw [valuation, h]
  rfl

/-- A trade moves no mark, and at the mark of its instrument it leaves the profit of the book as it
was. -/
theorem totalPnl_of_trade? (h : b.trade? instrument side volume price = some (b', profit)) :
    b'.marks = b.marks ∧ (b.mark? instrument = some price → b'.totalPnl = b.totalPnl) := by
  obtain ⟨p, hp, rfl⟩ := trade?_cases h
  refine ⟨rfl, fun hmark => ?_⟩
  have hworth := Position.worth_of_trade? hp
  rw [totalPnl_put, valuation_of_mark? hmark, valuation_of_mark? hmark, hworth]
  exact add_sub_cancel_right _ _

/-- What a new last price adds to the profit of the lots that are held in its instrument. -/
def gain (b : Book ℚ) (instrument : String) (price : ℚ) : ℚ :=
  b.net instrument * (price - b.valuation instrument (b.position instrument))

/-- A mark adds what it brings to the lots of its instrument, and nothing else. -/
theorem totalPnl_mark (b : Book ℚ) (instrument : String) (price : ℚ) :
    (b.mark instrument price).totalPnl = b.totalPnl + b.gain instrument price := by
  have hpositions : (b.mark instrument price).positions = b.positions := rfl
  have hother : ∀ other (p : Position ℚ), other ≠ instrument →
      p.worth (b.valuation other p) =
        p.worth ((b.mark instrument price).valuation other p) := by
    intro other p hne
    rw [valuation, valuation, mark?_mark, if_neg hne]
  have hnew : ∀ p : Position ℚ, (b.mark instrument price).valuation instrument p = price := by
    intro p
    exact valuation_of_mark? ((mark?_mark ..).trans (if_pos rfl)) p
  have hafter := b.worth_row instrument ((b.mark instrument price).valuation instrument)
  have hbefore := b.worth_row instrument (b.valuation instrument)
  rw [totalPnl_eq, hpositions, Table.total_change b.positions instrument hother, ← totalPnl_eq,
    hafter, hbefore, hnew, Position.worth_eq, Position.worth_eq, gain, net_position]
  ring

end Book

end MarketTape
