import Mathlib.Data.List.DropRight
import MarketTape.Proofs.Range
import MarketTape.Proofs.Worth

/-!
# The average price is between the prices paid

The average price of a position remembers the trades that have taken its lots on, and it has to
forget them with the position.  There are two ways to that: the last lots are closed, or the
position turns round, and then the trade that turns it is the first one to be remembered.  A trade
that closes only some of the lots changes nothing.

So the trades that count are the last ones, as far back as the position has been on the side on
which it is now; and of those the ones that are on that side.  Read in exact numbers, the average is
between the least and the greatest of their prices.

* `standing` are the last trades as far as the position has not changed its side, and `takenOn` the
  prices at which these have taken lots on.
* `Position.average_of_against` and `Position.average_of_along` say what one trade does to the
  average.
* `Spanned` is a number that has prices on both sides of it, or on it.
* `Position.Paid` is what the trades from a flat position have come to; `Position.Paid.take` is one
  trade more, and `Position.paid_takeAll?` the induction.
* `average_between_prices_paid` is the result.
-/

namespace MarketTape

/-! ## The trades that count -/

section TakenOn

variable {α : Type}

/-- Every trade with the lots that are held after it, if some are held before the first one. -/
def ledger : Int → List (Trade α) → List (Trade α × Int)
  | _, [] => []
  | held, t :: rest => (t, held + t.lots) :: ledger (held + t.lots) rest

/-- The lots of some trades together. -/
def lotsOf (trades : List (Trade α)) : Int := (trades.map Trade.lots).sum

/-- The last trades from a flat position, as far back as the lots held after them have the sign that
they have at the end. -/
def standing (trades : List (Trade α)) : List (Trade α × Int) :=
  (ledger 0 trades).rtakeWhile fun entry => entry.2.sign == (lotsOf trades).sign

/-- Whether a trade has taken lots on, by the lots that are held after it: it is on their side. -/
def takesOn (entry : Trade α × Int) : Bool :=
  0 < entry.1.volume && entry.1.side.sign == entry.2.sign

/-- The prices of the trades that have taken lots on since the position was flat or on the other
side for the last time. -/
def takenOn (trades : List (Trade α)) : List α :=
  ((standing trades).filter takesOn).map (·.1.price)

lemma ledger_concat (held : Int) (trades : List (Trade α)) (t : Trade α) :
    ledger held (trades ++ [t]) =
      ledger held trades ++ [(t, held + lotsOf (trades ++ [t]))] := by
  induction trades generalizing held with
  | nil => simp [ledger, lotsOf]
  | cons first rest ih =>
    have hlots : lotsOf (first :: (rest ++ [t])) = first.lots + lotsOf (rest ++ [t]) := rfl
    rw [List.cons_append, ledger, ledger, ih, hlots, add_assoc, List.cons_append]

lemma map_fst_ledger (held : Int) (trades : List (Trade α)) :
    (ledger held trades).map Prod.fst = trades := by
  induction trades generalizing held with
  | nil => rfl
  | cons t rest ih => rw [ledger, List.map_cons, ih]

/-- One trade more stands behind the others, unless it has changed the side: then it stands alone.
-/
lemma standing_concat (trades : List (Trade α)) (t : Trade α) :
    standing (trades ++ [t]) =
      (if (lotsOf (trades ++ [t])).sign = (lotsOf trades).sign then standing trades else []) ++
        [(t, lotsOf (trades ++ [t]))] := by
  rw [standing, ledger_concat, zero_add, List.rtakeWhile_concat, if_pos (beq_self_eq_true _)]
  split
  · rename_i hsame
    rw [hsame, standing]
  · rename_i hother
    -- the trade before is on the other side, or there is none
    refine congrArg (· ++ _) ?_
    rcases trades.eq_nil_or_concat' with rfl | ⟨before, last, rfl⟩
    · exact List.rtakeWhile_nil _
    · rw [ledger_concat, zero_add]
      refine List.rtakeWhile_concat_neg _ _ _ ?_
      rw [beq_iff_eq]
      exact fun hsame => hother hsame.symm

lemma takenOn_concat (trades : List (Trade α)) (t : Trade α) :
    takenOn (trades ++ [t]) =
      (if (lotsOf (trades ++ [t])).sign = (lotsOf trades).sign then takenOn trades else []) ++
        if takesOn (t, lotsOf (trades ++ [t])) then [t.price] else [] := by
  rw [takenOn, standing_concat, List.filter_append, List.map_append, List.filter_singleton]
  congr 1
  · split <;> rfl
  · cases takesOn (t, lotsOf (trades ++ [t])) <;> rfl

/-- The prices that count are prices of trades. -/
lemma exists_of_mem_takenOn {trades : List (Trade α)} {price : α} (h : price ∈ takenOn trades) :
    ∃ t ∈ trades, t.price = price := by
  obtain ⟨entry, hentry, rfl⟩ := List.mem_map.mp h
  have hmem : entry ∈ ledger 0 trades :=
    (List.rtakeWhile_suffix _ _).subset (List.mem_of_mem_filter hentry)
  exact ⟨entry.1, map_fst_ledger 0 trades ▸ List.mem_map_of_mem hmem, rfl⟩

end TakenOn

/-! ## Between prices -/

/-- A number that some price does not exceed and that does not exceed some price. -/
def Spanned (prices : List ℚ) (x : ℚ) : Prop :=
  (∃ lo ∈ prices, lo ≤ x) ∧ ∃ hi ∈ prices, x ≤ hi

namespace Spanned

variable {prices : List ℚ} {x y price : ℚ}

lemma singleton (price : ℚ) : Spanned [price] price :=
  ⟨⟨price, List.mem_singleton_self _, le_refl _⟩, price, List.mem_singleton_self _, le_refl _⟩

/-- A number between a spanned one and a price is spanned with that price. -/
lemma concat (h : Spanned prices x) (hlo : min x price ≤ y) (hhi : y ≤ max x price) :
    Spanned (prices ++ [price]) y := by
  obtain ⟨⟨lo, hlomem, hlox⟩, hi, himem, hxhi⟩ := h
  constructor
  · rcases min_le_iff.mp hlo with hxy | hpy
    · exact ⟨lo, List.mem_append_left _ hlomem, hlox.trans hxy⟩
    · exact ⟨price, List.mem_append_right _ (List.mem_singleton_self _), hpy⟩
  · rcases le_max_iff.mp hhi with hyx | hyp
    · exact ⟨hi, List.mem_append_left _ himem, hyx.trans hxhi⟩
    · exact ⟨price, List.mem_append_right _ (List.mem_singleton_self _), hyp⟩

/-- A spanned number is between the least and the greatest price. -/
lemma extremes (h : Spanned prices x) :
    ∃ lo hi, prices.min? = some lo ∧ prices.max? = some hi ∧ lo ≤ x ∧ x ≤ hi := by
  obtain ⟨⟨below, hbelow, hbelowx⟩, above, habove, hxabove⟩ := h
  obtain ⟨lo, hlo⟩ := Option.isSome_iff_exists.mp (List.isSome_min?_of_mem hbelow)
  obtain ⟨hi, hhi⟩ := Option.isSome_iff_exists.mp (List.isSome_max?_of_mem habove)
  have hleast := (List.min?_eq_some_iff.mp hlo).2 below hbelow
  have hgreatest := (List.max?_eq_some_iff.mp hhi).2 above habove
  exact ⟨lo, hi, hlo, hhi, hleast.trans hbelowx, hxabove.trans hgreatest⟩

end Spanned

/-- The average of two numbers by weights is between them. -/
lemma blend_between {size more a b x : ℚ} (hsize : 0 ≤ size) (hmore : 0 < more)
    (h : x * (size + more) = a * size + b * more) : min a b ≤ x ∧ x ≤ max a b := by
  have hall : 0 < size + more := add_pos_of_nonneg_of_pos hsize hmore
  constructor
  · refine le_of_mul_le_mul_right ?_ hall
    calc min a b * (size + more) = min a b * size + min a b * more := mul_add _ _ _
      _ ≤ a * size + b * more :=
        add_le_add (mul_le_mul_of_nonneg_right (min_le_left a b) hsize)
          (mul_le_mul_of_nonneg_right (min_le_right a b) hmore.le)
      _ = x * (size + more) := h.symm
  · refine le_of_mul_le_mul_right ?_ hall
    calc x * (size + more) = a * size + b * more := h
      _ ≤ max a b * size + max a b * more :=
        add_le_add (mul_le_mul_of_nonneg_right (le_max_left a b) hsize)
          (mul_le_mul_of_nonneg_right (le_max_right a b) hmore.le)
      _ = max a b * (size + more) := (mul_add _ _ _).symm

/-! ## One trade -/

lemma Side.sign_ne_zero (side : Side) : side.sign ≠ 0 := by cases side <;> simp [sign]

/-- Lots that are on a side are some. -/
lemma Side.held_of_sign {net : Int} {side : Side} (h : net.sign = side.sign) : net ≠ 0 :=
  fun hflat => side.sign_ne_zero (h.symm.trans (Int.sign_eq_zero_iff_zero.mpr hflat))

namespace Position

section Against

variable {α : Type} [Scalar α] {p p' : Position α} {side : Side} {volume : Int} {price profit : α}

/-- A trade against the position closes it, or leaves the average as it is, or opens the other side
at the price of the trade. -/
lemma average_of_against (hsome : 0 < volume) (hagainst : p.net.sign = -side.sign)
    (h : p.trade? side volume price = some (p', profit)) :
    p'.net = 0 ∧ p'.average = Scalar.zero ∨
      p'.net.sign = p.net.sign ∧ p'.average = p.average ∨
        p'.net.sign = side.sign ∧ p'.average = price := by
  have halong : ¬ (p.net = 0 ∨ p.net.sign = side.sign) := by
    rw [← Int.sign_eq_zero_iff_zero]
    rcases side.sign_eq with hs | hs <;> rw [hs] at hagainst ⊢ <;> omega
  rw [trade?, if_neg (not_le.mpr hsome), if_neg halong] at h
  simp only [reduce?, Option.bind_eq_bind, Option.bind_eq_some_iff, Option.some.injEq,
    Prod.mk.injEq] at h
  obtain ⟨held, hheld, net, hfit, hp', -⟩ := h
  have habs := Count.eq_natAbs_of_abs? hheld
  have hsum := (Count.fit_eq_some_iff.mp hfit).2
  split at hp'
  · rename_i hleft
    have hnet : p'.net = side.sign * (volume - min volume held) := hp' ▸ rfl
    have hround : p'.net.sign = side.sign := by
      rw [hnet, Side.sign_sign_mul _ hleft]
    exact Or.inr (Or.inr ⟨hround, hp' ▸ rfl⟩)
  · split at hp'
    · exact Or.inl (hp' ▸ ⟨rfl, rfl⟩)
    · rename_i hleft hrest
      have hnet : p'.net = net := hp' ▸ rfl
      have hstill : p'.net.sign = p.net.sign := by
        rw [Side.add_of_against hagainst] at hsum
        have hkept : 0 < (p.net.natAbs : Int) - min volume held := by
          have hne : (p.net.natAbs : Int) - min volume held ≠ 0 := fun hzero =>
            hrest (by rw [← hsum, hzero, mul_zero])
          omega
        rw [hnet, ← hsum, Side.sign_sign_mul _ hkept, hagainst, Side.sign_opposite]
      exact Or.inr (Or.inl ⟨hstill, hp' ▸ rfl⟩)

/-- A trade against the position of fewer lots than it has leaves the average as it is. -/
lemma exists_take?_of_fewer {t : Trade α} (hsize : (p.net.natAbs : Int) ≤ Count.greatest)
    (hsome : 0 < t.volume) (hagainst : p.net.sign = -t.side.sign)
    (hfewer : t.volume < p.net.natAbs) :
    ∃ p', p.take? t = some p' ∧ p'.net.sign = p.net.sign ∧ p'.average = p.average := by
  have hafter : p.net + t.side.sign * t.volume =
      t.side.opposite.sign * (p.net.natAbs - t.volume) := Side.add_of_against hagainst
  have hless : (p.net + t.side.sign * t.volume).natAbs ≤ p.net.natAbs := by
    rw [hafter, Side.natAbs_sign_mul]
    omega
  obtain ⟨p', profit, htrade⟩ := exists_trade? t.price hsize
    ((Int.ofNat_le.mpr hless).trans hsize)
  have hnet := net_of_trade? htrade
  rw [if_neg (not_le.mpr hsome), hafter] at hnet
  have hsign : p'.net.sign = p.net.sign := by
    rw [hnet, Side.sign_sign_mul _ (by omega), Side.sign_opposite, hagainst]
  refine ⟨p', by rw [take?, htrade]; rfl, hsign, ?_⟩
  rcases average_of_against hsome hagainst htrade with ⟨hflat, -⟩ | ⟨-, haverage⟩ | ⟨hround, -⟩
  · rw [hflat, Int.sign_zero] at hsign
    rcases t.side.sign_eq with hs | hs <;> omega
  · exact haverage
  · rcases t.side.sign_eq with hs | hs <;> omega

end Against

variable {p p' : Position ℚ} {side : Side} {volume : Int} {price profit : ℚ}

/-- A trade from flat or on the side of the position moves the average to the price by the part that
the new lots are of all. -/
lemma average_of_along (hsome : 0 < volume) (halong : p.net = 0 ∨ p.net.sign = side.sign)
    (h : p.trade? side volume price = some (p', profit)) :
    p'.net.sign = side.sign ∧
      p'.average * (|(p.net : ℚ)| + volume) = p.average * |(p.net : ℚ)| + price * volume := by
  have hnet := net_of_trade? h
  rw [if_neg (not_le.mpr hsome)] at hnet
  have hbefore := Side.eq_of_along halong
  have hafter := hnet.trans (Side.add_of_along halong)
  refine ⟨?_, ?_⟩
  · rw [hafter, Side.sign_sign_mul _ (by omega)]
  · -- nothing is realized, so the worth at the price says how far the average has moved
    have hworth := worth_of_trade? h
    rw [worth_eq, worth_eq, realized_of_along halong h, add_right_inj] at hworth
    have hbeforeQ : (p.net : ℚ) = side.sign * |(p.net : ℚ)| := by
      rw [Int.natCast_natAbs] at hbefore
      exact_mod_cast hbefore
    have hafterQ : (p'.net : ℚ) = side.sign * (|(p.net : ℚ)| + volume) := by
      rw [Int.natCast_natAbs] at hafter
      exact_mod_cast hafter
    generalize |(p.net : ℚ)| = size at hbeforeQ hafterQ ⊢
    rw [hafterQ, hbeforeQ, mul_assoc, mul_assoc] at hworth
    have hunit : (side.sign : ℚ) ≠ 0 := Int.cast_ne_zero.mpr side.sign_ne_zero
    linear_combination -mul_left_cancel₀ hunit hworth

/-- A position that takes lots on at the price of all its lots, or has none, is held at that price.
-/
lemma average_eq_price (hsome : 0 < volume) (halong : p.net = 0 ∨ p.net.sign = side.sign)
    (hprice : p.net = 0 ∨ p.average = price)
    (h : p.trade? side volume price = some (p', profit)) : p'.average = price := by
  have hblend := (average_of_along hsome halong h).2
  have hpaid : p.average * |(p.net : ℚ)| = price * |(p.net : ℚ)| := by
    rcases hprice with hflat | hprice
    · rw [hflat, Int.cast_zero, abs_zero, mul_zero, mul_zero]
    · rw [hprice]
  have hall : 0 < |(p.net : ℚ)| + volume :=
    add_pos_of_nonneg_of_pos (abs_nonneg _) (Int.cast_pos.mpr hsome)
  rw [hpaid, ← mul_add] at hblend
  exact mul_right_cancel₀ hall.ne' hblend

/-! ## Many trades -/

/-- What some trades from a flat position have come to: the lots are those of the trades, without
lots there is no average, and the average of some lots is between the prices at which they were
taken on. -/
structure Paid (p : Position ℚ) (trades : List (Trade ℚ)) : Prop where
  ranged : p.Ranged trades
  flat : p.net = 0 → p.average = 0
  held : p.net ≠ 0 → Spanned (takenOn trades) p.average

lemma paid_flat : (Position.flat : Position ℚ).Paid [] where
  ranged := ⟨rfl, Int.natCast_nonneg _⟩
  flat _ := rfl
  held hheld := absurd rfl hheld

section Take

variable {trades : List (Trade ℚ)} {t : Trade ℚ}

/-- The prices that count after one trade more, by the lots before and after it. -/
lemma takenOn_of_ranged (h : p.Ranged trades) (h' : p'.Ranged (trades ++ [t])) :
    takenOn (trades ++ [t]) =
      (if p'.net.sign = p.net.sign then takenOn trades else []) ++
        if takesOn (t, p'.net) then [t.price] else [] := by
  have hbefore : lotsOf trades = p.net := h.net.symm
  have hafter : lotsOf (trades ++ [t]) = p'.net := h'.net.symm
  rw [takenOn_concat, hbefore, hafter]

/-- From flat the price of the trade is the only one, and otherwise it is blended in. -/
lemma Paid.along (h : p.Paid trades) (hranged : p'.Ranged (trades ++ [t])) (hsome : 0 < t.volume)
    (halong : p.net = 0 ∨ p.net.sign = t.side.sign)
    (htrade : p.trade? t.side t.volume t.price = some (p', profit)) :
    p'.Paid (trades ++ [t]) := by
  obtain ⟨hside, haverage⟩ := average_of_along hsome halong htrade
  have hprices := takenOn_of_ranged h.ranged hranged
  have hmore : (0 : ℚ) < t.volume := Int.cast_pos.mpr hsome
  refine ⟨hranged, fun hflat => absurd hflat (Side.held_of_sign hside), fun _ => ?_⟩
  by_cases hflat : p.net = 0
  · have htaken : takenOn (trades ++ [t]) = [t.price] := by
      simp [hprices, takesOn, hsome, hside, hflat, t.side.sign_ne_zero]
    rw [htaken, average_eq_price hsome halong (.inl hflat) htrade]
    exact Spanned.singleton t.price
  · have htaken : takenOn (trades ++ [t]) = takenOn trades ++ [t.price] := by
      simp [hprices, takesOn, hsome, hside, halong.resolve_left hflat]
    have hbetween := blend_between (abs_nonneg _) hmore haverage
    rw [htaken]
    exact (h.held hflat).concat hbetween.1 hbetween.2

/-- Against the position no price comes in, but for the one of a trade that turns it round. -/
lemma Paid.against (h : p.Paid trades) (hranged : p'.Ranged (trades ++ [t]))
    (hsome : 0 < t.volume) (hheld : p.net ≠ 0) (hside : p.net.sign ≠ t.side.sign)
    (htrade : p.trade? t.side t.volume t.price = some (p', profit)) :
    p'.Paid (trades ++ [t]) := by
  have hagainst : p.net.sign = -t.side.sign := by rw [Side.sign_of_against hheld hside, neg_neg]
  have hprices := takenOn_of_ranged h.ranged hranged
  rcases average_of_against hsome hagainst htrade with ⟨hflat, haverage⟩ | ⟨hsign, haverage⟩ |
    ⟨hsign, haverage⟩
  · exact ⟨hranged, fun _ => haverage, fun hleft => absurd hflat hleft⟩
  · have htaken : takenOn (trades ++ [t]) = takenOn trades := by
      simp [hprices, takesOn, hsign, Ne.symm hside]
    have hleft : p'.net ≠ 0 := fun hflat =>
      hheld (Int.sign_eq_zero_iff_zero.mp (hsign ▸ Int.sign_eq_zero_iff_zero.mpr hflat))
    refine ⟨hranged, fun hflat => absurd hflat hleft, fun _ => ?_⟩
    rw [htaken, haverage]
    exact h.held hheld
  · have htaken : takenOn (trades ++ [t]) = [t.price] := by
      simp [hprices, takesOn, hsome, hsign, Ne.symm hside]
    refine ⟨hranged, fun hflat => absurd hflat (Side.held_of_sign hsign), fun _ => ?_⟩
    rw [htaken, haverage]
    exact Spanned.singleton t.price

/-- One trade more. -/
theorem Paid.take (h : p.Paid trades) (ht : p.take? t = some p') : p'.Paid (trades ++ [t]) := by
  have hranged := h.ranged.take ht
  obtain ⟨⟨q, profit⟩, htrade, rfl⟩ := Option.map_eq_some_iff.mp ht
  by_cases hsome : 0 < t.volume
  · by_cases halong : p.net = 0 ∨ p.net.sign = t.side.sign
    · exact h.along hranged hsome halong htrade
    · exact h.against hranged hsome (not_or.mp halong).1 (not_or.mp halong).2 htrade
  · -- a trade of no lots leaves everything as it is
    rw [trade?, if_pos (not_lt.mp hsome)] at htrade
    obtain rfl : p = q := congrArg Prod.fst (Option.some.inj htrade)
    have htaken : takenOn (trades ++ [t]) = takenOn trades := by
      simp [takenOn_of_ranged h.ranged hranged, takesOn, hsome]
    exact ⟨hranged, h.flat, htaken ▸ h.held⟩

end Take

/-- All of them. -/
theorem paid_takeAll? {trades : List (Trade ℚ)}
    (h : (Position.flat : Position ℚ).takeAll? trades = some p) : p.Paid trades := by
  induction trades using List.reverseRecOn generalizing p with
  | nil =>
    obtain rfl := Option.some.inj h
    exact paid_flat
  | append_singleton before t ih =>
    simp only [takeAll?, List.foldlM_append, List.foldlM_cons, List.foldlM_nil,
      Option.bind_eq_bind, Option.bind_eq_some_iff, Option.pure_def, Option.some.injEq] at h
    obtain ⟨mid, hmid, last, hlast, rfl⟩ := h
    exact (ih hmid).take hlast

/-- If all trades have positive prices, the average of some lots is positive. -/
lemma Paid.average_pos {trades : List (Trade ℚ)} (h : p.Paid trades) (hheld : p.net ≠ 0)
    (hprices : ∀ t ∈ trades, 0 < t.price) : 0 < p.average := by
  obtain ⟨⟨lo, hlo, hle⟩, -⟩ := h.held hheld
  obtain ⟨t, ht, rfl⟩ := exists_of_mem_takenOn hlo
  exact (hprices t ht).trans_le hle

end Position

/-! ## The result -/

/-- **The average price is between the prices paid.**  Trades at positive prices are taken one after
the other, from a flat position.

* The lots that are held are those of the trades together.
* Without lots there is no average.
* The average of some lots is between the least and the greatest of the prices at which lots were
  taken on since the position was flat or on the other side, and so it is positive.
* A trade against the position of fewer lots than it has leaves the average as it is. -/
theorem average_between_prices_paid {trades : List (Trade ℚ)} {p : Position ℚ}
    (h : (Position.flat : Position ℚ).takeAll? trades = some p)
    (hprices : ∀ t ∈ trades, 0 < t.price) :
    p.net = lotsOf trades ∧
    (p.net = 0 → p.average = 0) ∧
    (p.net ≠ 0 → (∃ lo hi, (takenOn trades).min? = some lo ∧ (takenOn trades).max? = some hi ∧
      lo ≤ p.average ∧ p.average ≤ hi) ∧ 0 < p.average) ∧
    ∀ t : Trade ℚ, 0 < t.volume → p.net.sign = -t.side.sign → t.volume < p.net.natAbs →
      ∃ p', p.take? t = some p' ∧ p'.net.sign = p.net.sign ∧ p'.average = p.average := by
  have hpaid := Position.paid_takeAll? h
  refine ⟨hpaid.ranged.net, hpaid.flat, fun hheld => ?_, fun t hsome hagainst hfewer => ?_⟩
  · exact ⟨(hpaid.held hheld).extremes, hpaid.average_pos hheld hprices⟩
  · exact Position.exists_take?_of_fewer hpaid.ranged.size hsome hagainst hfewer

/-- Lots are bought at two prices and some of them sold, then the position turns round and more lots
are sold. -/
def turnedShort : List (Trade ℚ) :=
  [⟨.buy, 2, 100, by decide⟩, ⟨.buy, 2, 110, by decide⟩, ⟨.sell, 1, 120, by decide⟩,
    ⟨.sell, 7, 90, by decide⟩, ⟨.sell, 2, 80, by decide⟩]

/-- One lot is bought. -/
def oneBought : Trade ℚ := ⟨.buy, 1, 70, by decide⟩

/-- When the position turned round, the prices of the bought lots were forgotten, and that of the
lots that were sold from them never counted.  What counts are the price at which it was turned and
the one after it, and buying a lot back changes nothing about that. -/
theorem average_between_prices_paid_turnedShort :
    ∃ p, (Position.flat : Position ℚ).takeAll? turnedShort = some p ∧ p.net = -6 ∧
      takenOn turnedShort = [90, 80] ∧ 80 ≤ p.average ∧ p.average ≤ 90 ∧
      ∃ p', p.take? oneBought = some p' ∧ p'.average = p.average := by
  have hprices : ∀ t ∈ turnedShort, 0 < t.price := by decide +kernel
  have hvalue : ((Position.flat : Position ℚ).takeAll? turnedShort).map (·.net) = some (-6) := by
    decide +kernel
  have htaken : takenOn turnedShort = [90, 80] ∧ (takenOn turnedShort).min? = some 80 ∧
      (takenOn turnedShort).max? = some 90 := by
    decide +kernel
  obtain ⟨p, hp, hnet⟩ := Option.map_eq_some_iff.mp hvalue
  obtain ⟨-, -, hheld, hfewer⟩ := average_between_prices_paid hp hprices
  obtain ⟨⟨lo, hi, hlo, hhi, hbetween⟩, -⟩ := hheld (by rw [hnet]; decide)
  rw [htaken.2.1, Option.some.injEq] at hlo
  rw [htaken.2.2, Option.some.injEq] at hhi
  obtain ⟨p', hp', -, hsame⟩ := hfewer oneBought (by decide) (by rw [hnet]; decide)
    (by rw [hnet]; decide)
  subst hlo hhi
  exact ⟨p, hp, hnet, htaken.1, hbetween.1, hbetween.2, p', hp', hsame⟩

end MarketTape
