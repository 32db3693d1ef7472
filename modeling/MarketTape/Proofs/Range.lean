import MarketTape.Proofs.Following
import MarketTape.Proofs.Reversal

/-!
# Lots stay in their range

The range of counts is not symmetric: its least number has no distance from zero.  A sale can lead
there by a sum that does not leave the range at all, and whoever asks for the size of such a
position afterwards has no answer.  A trade does not let it come so far.  It asks for the size of
what it leaves behind, and so it has no result exactly where lots of one side become more than the
greatest count; a trade against the position never runs into that, even when it turns the position
round.

* `Trade` is a trade whose lots are a count, and `Position.takeAll?` takes one after the other.
* `Position.take?_eq_none_iff` says when a trade has no result, where the position has a size.
* `Position.Ranged` says what the trades from a flat position have come to;
  `Position.ranged_takeAll?` is the induction.
* `net_stays_in_range` is the result.
-/

namespace MarketTape

variable {α : Type}

/-- A trade that can be asked for: the number of its lots is a count. -/
structure Trade (α : Type) where
  side : Side
  volume : Int
  price : α
  counted : Count.Fits volume

namespace Trade

/-- The lots that a trade adds to a position; a trade of no lots adds nothing. -/
def lots (t : Trade α) : Int := if 0 < t.volume then t.side.sign * t.volume else 0

/-- Leaving the trades of no lots out changes no sum. -/
lemma sum_lots (trades : List (Trade α)) :
    (trades.map lots).sum =
      ((trades.filter (0 < ·.volume)).map fun t => t.side.sign * t.volume).sum := by
  induction trades with
  | nil => rfl
  | cons t rest ih =>
    rw [List.map_cons, List.sum_cons, List.filter_cons, ih, lots]
    by_cases hsome : 0 < t.volume
    · simp [hsome]
    · simp [hsome]

end Trade

/-- A side that a position is not on is the other one. -/
lemma Side.sign_of_against {net : Int} {side : Side} (hheld : net ≠ 0)
    (hside : net.sign ≠ side.sign) : side.sign = -net.sign := by
  rcases Int.lt_or_gt_of_ne hheld with hshort | hlong
  · rw [Int.sign_eq_neg_one_of_neg hshort] at hside ⊢
    exact side.sign_eq.resolve_right (Ne.symm hside)
  · rw [Int.sign_eq_one_of_pos hlong] at hside ⊢
    exact side.sign_eq.resolve_left (Ne.symm hside)

variable [Scalar α]

/-! ## One trade -/

namespace Position

variable {p p' : Position α}

/-- Takes a trade. -/
def take? (p : Position α) (t : Trade α) : Option (Position α) :=
  (p.trade? t.side t.volume t.price).map Prod.fst

/-- Takes one trade after the other. -/
def takeAll? (p : Position α) (trades : List (Trade α)) : Option (Position α) :=
  trades.foldlM take? p

lemma take?_eq_none {t : Trade α} :
    p.take? t = none ↔ ¬ ∃ p' profit, p.trade? t.side t.volume t.price = some (p', profit) := by
  rw [take?, Option.map_eq_none_iff, Option.eq_none_iff_forall_ne_some]
  simp only [Prod.forall, not_exists, ne_eq]

/-- A position that has a size runs out of range exactly where a trade takes on more lots than there
is room for. -/
theorem take?_eq_none_iff (hheld : (p.net.natAbs : Int) ≤ Count.greatest) (t : Trade α) :
    p.take? t = none ↔
      0 < t.volume ∧ (p.net = 0 ∨ p.net.sign = t.side.sign) ∧
        Count.greatest < p.net.natAbs + t.volume := by
  rw [take?_eq_none, exists_trade?_iff t.counted.2, Classical.not_imp]
  refine and_congr_right fun hsome => ?_
  -- along with the position the sizes add up; against it the larger one bounds what is left
  by_cases halong : p.net = 0 ∨ p.net.sign = t.side.sign
  · have hsum : ((p.net + t.side.sign * t.volume).natAbs : Int) = p.net.natAbs + t.volume := by
      rw [Side.add_of_along halong, Side.natAbs_sign_mul]
      omega
    rw [hsum, not_and, not_le]
    exact ⟨fun h => ⟨halong, h hheld⟩, fun h _ => h.2⟩
  · have hagainst := natAbs_against_le (not_or.mp halong).2 hsome.le
    have hafter := hagainst.trans (max_le hheld t.counted.2)
    exact iff_of_false (fun h => h ⟨hheld, hafter⟩) fun h => halong h.1

/-! ## Many trades -/

/-- What some trades from a flat position have come to: their lots together, and these have a size.
-/
structure Ranged (p : Position α) (trades : List (Trade α)) : Prop where
  net : p.net = (trades.map Trade.lots).sum
  size : (p.net.natAbs : Int) ≤ Count.greatest

/-- One trade more. -/
lemma Ranged.take {trades : List (Trade α)} (h : p.Ranged trades) {t : Trade α}
    (ht : p.take? t = some p') : p'.Ranged (trades ++ [t]) := by
  simp only [take?, Option.map_eq_some_iff, Prod.exists, exists_and_right, exists_eq_right] at ht
  obtain ⟨profit, htrade⟩ := ht
  have hnet := net_of_trade? htrade
  have hlots : p'.net = p.net + t.lots := by
    rw [hnet, Trade.lots]
    split <;> split <;> omega
  refine ⟨?_, ?_⟩
  · rw [hlots, h.net, List.map_append, List.sum_append, List.map_singleton, List.sum_singleton]
  · by_cases hsome : 0 < t.volume
    · rw [hnet, if_neg (not_le.mpr hsome)]
      exact ((exists_trade?_iff t.counted.2).mp ⟨p', profit, htrade⟩ hsome).2
    · rw [hnet, if_pos (not_lt.mp hsome)]
      exact h.size

/-- All of them. -/
theorem ranged_takeAll? {trades : List (Trade α)}
    (h : (flat : Position α).takeAll? trades = some p) : p.Ranged trades := by
  induction trades using List.reverseRecOn generalizing p with
  | nil =>
    obtain rfl := Option.some.inj h
    exact ⟨rfl, Int.natCast_nonneg _⟩
  | append_singleton before t ih =>
    simp only [takeAll?, List.foldlM_append, List.foldlM_cons, List.foldlM_nil,
      Option.bind_eq_bind, Option.bind_eq_some_iff, Option.pure_def, Option.some.injEq] at h
    obtain ⟨mid, hmid, last, hlast, rfl⟩ := h
    exact (ih hmid).take hlast

end Position

/-! ## What asks for the size of a position -/

namespace Follower

omit [Scalar α] in
/-- The follower has an answer wherever what is held has a size. -/
lemma exists_onState? {volume : Int} (hvolume : 0 < volume) (hrange : volume ≤ Count.greatest)
    (f : Follower) {s : BarState α} (hnet : (s.net.natAbs : Int) ≤ Count.greatest) :
    ∃ answer, f.onState? volume s = some answer := by
  rw [onState?]
  split
  · exact ⟨_, rfl⟩
  · rename_i target htarget
    have hsize := (holds_target htarget).natAbs_le hvolume hrange
    split
    · exact ⟨_, rfl⟩
    · have hleave : ∃ left, f.leave? s target = some left := by
        rw [leave?]
        split
        · rw [Count.abs?_of_le hnet]
          exact ⟨_, rfl⟩
        · exact ⟨_, rfl⟩
      obtain ⟨⟨next, leaving⟩, hleave⟩ := hleave
      have henter : ∃ entered, next.enter? s target = some entered := by
        rw [enter?]
        split
        · rw [Count.abs?_of_le hsize]
          exact ⟨_, rfl⟩
        · exact ⟨_, rfl⟩
      obtain ⟨⟨last, entering⟩, henter⟩ := henter
      rw [hleave]
      exact ⟨_, congrArg (Option.map _) henter⟩

end Follower

/-! ## The result -/

/-- **Lots stay in their range.**  Trades are taken one after the other, from a flat position, as
long as they have a result.

* The lots that are held are those of the trades together, where a trade of no lots counts nothing.
* They are never the least count, so that they have a size; and with lots of that size the desk has
  an answer to every intent, the follower to every bar, and a rollover can move them to a contract
  that holds none.
* The next trade has no result if and only if it is one of some lots, the position is flat or on its
  side, and there would be more lots than the greatest count.
* Against the position every trade has a result, also one that turns the position round. -/
theorem net_stays_in_range {trades : List (Trade α)} {p : Position α}
    (h : (Position.flat : Position α).takeAll? trades = some p) :
    p.net = ((trades.filter (0 < ·.volume)).map fun t => t.side.sign * t.volume).sum ∧
    p.net ≠ Count.least ∧ Count.abs? p.net = some (p.net.natAbs : Int) ∧
    (∀ (intent : Intent α) (bar : Bar α),
      ∃ decision, Floor.decide? intent bar p.net = some decision) ∧
    (∀ volume, 0 < volume → volume ≤ Count.greatest → ∀ (f : Follower) (s : BarState α),
      s.net = p.net → ∃ answer, f.onState? volume s = some answer) ∧
    (∀ (r : Rollover α) pending t book, pending.source ≠ pending.target →
      book.net pending.source = p.net → book.net pending.target = 0 →
        ∃ m, r.move? pending t book = some m) ∧
    ∀ t : Trade α,
      (p.take? t = none ↔ 0 < t.volume ∧ (p.net = 0 ∨ p.net.sign = t.side.sign) ∧
        Count.greatest < p.net.natAbs + t.volume) ∧
      (p.net ≠ 0 → p.net.sign ≠ t.side.sign → ∃ p', p.take? t = some p' ∧
        (p.Reverses t.side t.volume → p'.net.sign = t.side.sign)) := by
  have hranged := Position.ranged_takeAll? h
  have hsize := hranged.size
  refine ⟨hranged.net.trans (Trade.sum_lots trades), ?_, Count.abs?_of_le hsize, ?_, ?_, ?_, ?_⟩
  · intro hleast
    rw [hleast] at hsize
    exact absurd hsize (by decide)
  · intro intent bar
    exact Floor.exists_decide? intent bar hsize
  · intro volume hvolume hrange f s hnet
    exact f.exists_onState? hvolume hrange (hnet ▸ hsize)
  · intro r pending t book hne hsource hflat
    exact r.exists_move? t hne (r.hasRoom_of_flat (hsource ▸ hsize) hflat)
  · intro t
    refine ⟨Position.take?_eq_none_iff hsize t, fun hheld hside => ?_⟩
    have hresult : p.take? t ≠ none := by
      rw [Ne, Position.take?_eq_none_iff hsize]
      exact fun hnone => hnone.2.1.elim hheld hside
    obtain ⟨p', hp'⟩ := Option.ne_none_iff_exists'.mp hresult
    refine ⟨p', hp', fun hreverses => ?_⟩
    obtain ⟨⟨q, profit⟩, htrade, rfl⟩ := Option.map_eq_some_iff.mp hp'
    have hround := ((Position.reverses_iff htrade).mp hreverses).2
    rw [hround]
    exact (Side.sign_of_against hheld hside).symm

/-! ## As many lots as there can be -/

/-- Five lots are bought, and then as many are sold as can be. -/
def soldOut : List (Trade Float) :=
  [⟨.buy, 5, 100, by decide⟩, ⟨.sell, 0, 7, by decide⟩,
    ⟨.sell, 9223372036854775807, 100, by decide⟩]

/-- Six lots are sold. -/
def sixSold : Trade Float := ⟨.sell, 6, 100, by decide⟩

/-- As many lots are bought as can be. -/
def allBought : Trade Float := ⟨.buy, 9223372036854775807, 100, by decide⟩

/-- There is room for five more sold lots.  With six there would be as many as the least count,
which is a count, but has no size; so they cannot be sold.  As many lots as can be are bought
without any trouble, and the position turns round. -/
theorem net_stays_in_range_soldOut :
    ∃ p, (Position.flat : Position Float).takeAll? soldOut = some p ∧
      p.net = 5 - Count.greatest ∧ p.net ≠ Count.least ∧
      (p.net + Side.sell.sign * 6 = Count.least ∧ p.take? sixSold = none) ∧
      ∃ p', p.take? allBought = some p' ∧ p'.net.sign = 1 := by
  have hvalues : ((Position.flat : Position Float).takeAll? soldOut).map (·.net) =
      some (5 - Count.greatest) := by decide +kernel
  obtain ⟨p, hp, hnet⟩ := Option.map_eq_some_iff.mp hvalues
  obtain ⟨-, hleast, -, -, -, -, hnext⟩ := net_stays_in_range hp
  have hsell : p.take? sixSold = none := by
    refine (hnext sixSold).1.mpr ?_
    rw [hnet]
    decide
  have hreverses : p.Reverses allBought.side allBought.volume := by
    rw [Position.Reverses, hnet]
    decide
  obtain ⟨p', hp', hround⟩ := (hnext allBought).2 hreverses.1
    hreverses.2.1
  exact ⟨p, hp, hnet, hleast, ⟨by rw [hnet]; decide, hsell⟩, p', hp', hround hreverses⟩

end MarketTape
