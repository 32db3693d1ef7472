import MarketTape.Proofs.Worth

/-!
# Profit is what came in less what went out

A position remembers an average price and what it has realized, and forgets the trades.  Still
nothing is lost by that: at any mark the two of them together say what all the trades have brought,
each of them its lots times the distance of the mark from its price.  It makes no difference how
often the position was closed in part, or turned round, on the way.

* `Booking` is what is entered in a book: a trade or a last price.
* `Booking.flows` is what the trades in an instrument bring at a mark.
* `Book.Accounts` says that a book stands for the bookings; `Book.Accounts.post` is the step and
  `Book.accounts_postAll?` the whole sequence.
* `Book.exists_postAll?` says when the sequence has a result, and `profit_is_cash_flow` what it is
  worth.
-/

namespace MarketTape

/-! ## Bookings -/

/-- Something that is entered in a book: some lots are traded at a price, or an instrument has a new
last price. -/
inductive Booking (α : Type) where
  | trade (instrument : String) (side : Side) (volume : Int) (price : α)
  | mark (instrument : String) (price : α)
  deriving DecidableEq, Repr

namespace Book

variable {α : Type} [Scalar α]

/-- Enters a booking, if the lots stay in their range. -/
def post? (b : Book α) : Booking α → Option (Book α)
  | .trade instrument side volume price =>
    (b.trade? instrument side volume price).map Prod.fst
  | .mark instrument price => some (b.mark instrument price)

/-- Enters one booking after the other. -/
def postAll? (b : Book α) (bookings : List (Booking α)) : Option (Book α) :=
  bookings.foldlM post? b

end Book

namespace Booking

variable {α : Type}

/-- The instrument that is traded. -/
def traded? : Booking α → Option String
  | .trade instrument _ _ _ => some instrument
  | .mark .. => none

/-- The last price of an instrument that is recorded. -/
def markOf? (instrument : String) : Booking α → Option α
  | .trade .. => none
  | .mark name price => if name = instrument then some price else none

/-- The instruments that were traded. -/
def tradedIn (bookings : List (Booking α)) : Finset String :=
  (bookings.filterMap traded?).toFinset

/-- The last one of the prices that were recorded of an instrument. -/
def lastMark? (bookings : List (Booking α)) (instrument : String) : Option α :=
  (bookings.filterMap (markOf? instrument)).getLast?

/-- What lots traded at a price bring at a mark; a trade of no lots brings nothing. -/
def flowOf (side : Side) (volume : Int) (price mark : ℚ) : ℚ :=
  if 0 < volume then side.sign * volume * (mark - price) else 0

/-- What a booking brings in an instrument at a mark. -/
def flow (instrument : String) (mark : ℚ) : Booking ℚ → ℚ
  | .trade name side volume price =>
    if name = instrument then flowOf side volume price mark else 0
  | .mark .. => 0

/-- The lots of an instrument that a booking moves, in either direction. -/
def lots (instrument : String) : Booking α → Int
  | .trade name _ volume _ => if name = instrument then max volume 0 else 0
  | .mark .. => 0

/-- The lots of an instrument that all bookings move. -/
def lotsIn (bookings : List (Booking α)) (instrument : String) : Int :=
  (bookings.map (lots instrument)).sum

/-- What all bookings bring in an instrument at a mark. -/
def flows (bookings : List (Booking ℚ)) (instrument : String) (mark : ℚ) : ℚ :=
  (bookings.map (flow instrument mark)).sum

lemma flows_concat (bookings : List (Booking ℚ)) (x : Booking ℚ) (instrument : String) (mark : ℚ) :
    flows (bookings ++ [x]) instrument mark =
      flows bookings instrument mark + x.flow instrument mark := by
  simp [flows]

lemma lotsIn_concat (bookings : List (Booking α)) (x : Booking α) (instrument : String) :
    lotsIn (bookings ++ [x]) instrument = lotsIn bookings instrument + x.lots instrument := by
  simp [lotsIn]

lemma lots_nonneg (x : Booking α) (instrument : String) : 0 ≤ x.lots instrument := by
  cases x with
  | trade name side volume price =>
    rw [lots]
    split
    · exact Int.le_max_right _ _
    · exact Int.le_refl _
  | mark name price => exact Int.le_refl _

lemma mem_tradedIn_concat {bookings : List (Booking α)} {x : Booking α} {instrument : String} :
    instrument ∈ tradedIn (bookings ++ [x]) ↔
      instrument ∈ tradedIn bookings ∨ x.traded? = some instrument := by
  simp only [tradedIn, List.filterMap_append, List.toFinset_append, Finset.mem_union,
    List.mem_toFinset]
  refine or_congr_right ?_
  rw [List.mem_filterMap]
  simp

lemma lastMark?_concat (bookings : List (Booking α)) (x : Booking α) (instrument : String) :
    lastMark? (bookings ++ [x]) instrument =
      (x.markOf? instrument).or (lastMark? bookings instrument) := by
  rw [lastMark?, List.filterMap_append, List.getLast?_append]
  cases hx : x.markOf? instrument with
  | none => simp [hx, lastMark?]
  | some price => simp [hx]

end Booking

open Booking

/-! ## One position -/

namespace Position

variable {p p' : Position ℚ} {side : Side} {volume : Int} {price profit : ℚ}

/-- A trade adds to the worth at any mark what its lots bring there. -/
theorem worth_add_flowOf (h : p.trade? side volume price = some (p', profit)) (mark : ℚ) :
    p'.worth mark = p.worth mark + flowOf side volume price mark := by
  -- at the price of the trade nothing changes, and the lots say how the worth goes on from there
  have hworth := worth_of_trade? h
  have hnet := net_of_trade? h
  rw [worth_eq, worth_eq] at hworth
  rw [worth_eq, worth_eq, flowOf]
  by_cases hvolume : 0 < volume
  · rw [if_neg (not_le.mpr hvolume)] at hnet
    have hlots : (p'.net : ℚ) = p.net + side.sign * volume := by exact_mod_cast hnet
    rw [if_pos hvolume]
    linear_combination hworth + (mark - price) * hlots
  · rw [if_pos (not_lt.mp hvolume)] at hnet
    have hlots : (p'.net : ℚ) = p.net := by exact_mod_cast hnet
    rw [if_neg hvolume]
    linear_combination hworth + (mark - price) * hlots

/-- What a trade gives as its profit is what it adds to the realized profit. -/
theorem realized_of_trade? (h : p.trade? side volume price = some (p', profit)) :
    p'.realized = p.realized + profit := by
  rw [trade?] at h
  split at h
  · simp only [Option.some.injEq, Prod.mk.injEq, Scalar.zero_exact] at h
    obtain ⟨rfl, rfl⟩ := h
    exact (add_zero _).symm
  · split at h
    · simp only [Option.map_eq_some_iff, Prod.mk.injEq, Scalar.zero_exact, grow?,
        Option.bind_eq_bind, Option.bind_eq_some_iff, Option.some.injEq] at h
      obtain ⟨q, ⟨before, -, net, -, after, -, rfl⟩, rfl, rfl⟩ := h
      exact (add_zero _).symm
    · simp only [reduce?, Option.bind_eq_bind, Option.bind_eq_some_iff, Option.some.injEq,
        Prod.mk.injEq] at h
      obtain ⟨held, -, net, -, rfl, rfl⟩ := h
      -- the three outcomes differ in lots and average only
      split
      · rfl
      · split <;> rfl

end Position

/-! ## The book -/

namespace Book

/-- A trade adds to the profit of the book what its lots bring at the mark of its instrument. -/
lemma totalPnl_add_flowOf {b b' : Book ℚ} {instrument : String} {side : Side} {volume : Int}
    {price profit mark : ℚ} (h : b.trade? instrument side volume price = some (b', profit))
    (hmark : b.mark? instrument = some mark) :
    b'.totalPnl = b.totalPnl + flowOf side volume price mark := by
  obtain ⟨p, hp, rfl⟩ := trade?_cases h
  rw [totalPnl_put, valuation_of_mark? hmark, valuation_of_mark? hmark,
    Position.worth_add_flowOf hp]
  ring

/-- A book that stands for the bookings.  At any mark a position is worth what its trades bring
there; there are positions in the instruments that were traded and in no others, and the marks are
the last prices. -/
structure Accounts (bookings : List (Booking ℚ)) (b : Book ℚ) : Prop where
  worth : ∀ instrument mark, (b.position instrument).worth mark = flows bookings instrument mark
  traded : ∀ instrument, instrument ∈ b.positions.names ↔ instrument ∈ tradedIn bookings
  marks : ∀ instrument, b.mark? instrument = lastMark? bookings instrument

variable {bookings : List (Booking ℚ)} {b b' : Book ℚ}

lemma accounts_empty : Accounts [] Book.empty where
  worth _ mark := Position.worth_flat mark
  traded _ := Iff.rfl
  marks _ := rfl

/-- One booking more. -/
theorem Accounts.post (h : b.Accounts bookings) {x : Booking ℚ} (hx : b.post? x = some b') :
    b'.Accounts (bookings ++ [x]) := by
  cases x with
  | trade instrument side volume price =>
    simp only [post?, Option.map_eq_some_iff] at hx
    obtain ⟨⟨b', profit⟩, htrade, rfl⟩ := hx
    obtain ⟨p, hp, rfl⟩ := trade?_cases htrade
    refine ⟨?_, ?_, ?_⟩
    · intro other mark
      rw [flows_concat, position_put]
      by_cases hother : other = instrument
      · subst hother
        rw [if_pos rfl, Position.worth_add_flowOf hp, h.worth, flow, if_pos rfl]
      · rw [if_neg hother, h.worth, flow, if_neg (Ne.symm hother), add_zero]
    · intro other
      rw [mem_tradedIn_concat, ← h.traded, put, Table.mem_names_insert, or_comm, traded?,
        Option.some.injEq, eq_comm (a := other)]
    · intro other
      rw [lastMark?_concat, ← h.marks]
      rfl
  | mark instrument price =>
    obtain rfl := Option.some.inj hx
    refine ⟨?_, ?_, ?_⟩
    · intro other mark
      rw [flows_concat, flow, add_zero, ← h.worth]
      rfl
    · intro other
      rw [mem_tradedIn_concat, ← h.traded]
      simp [traded?, Book.mark]
    · intro other
      rw [lastMark?_concat, ← h.marks, mark?_mark, markOf?]
      by_cases hother : other = instrument
      · rw [if_pos hother, if_pos hother.symm, Option.some_or]
      · rw [if_neg hother, if_neg (Ne.symm hother), Option.none_or]

/-- All of them. -/
theorem accounts_postAll? (h : Book.empty.postAll? bookings = some b) : b.Accounts bookings := by
  induction bookings using List.reverseRecOn generalizing b with
  | nil =>
    obtain rfl := Option.some.inj h
    exact accounts_empty
  | append_singleton before x ih =>
    simp only [postAll?, List.foldlM_append, List.foldlM_cons, List.foldlM_nil,
      Option.bind_eq_bind, Option.bind_eq_some_iff, Option.pure_def, Option.some.injEq] at h
    obtain ⟨mid, hmid, last, hlast, rfl⟩ := h
    exact (ih hmid).post hlast

/-- A booking has a result where the lots that were moved before leave it room, and then the lots
that are held are within those that were moved. -/
lemma exists_post? (x : Booking ℚ) (hheld : ∀ i, ((b.net i).natAbs : Int) ≤ lotsIn bookings i)
    (hroom : ∀ i, lotsIn (bookings ++ [x]) i ≤ Count.greatest) :
    ∃ b', b.post? x = some b' ∧
      ∀ i, ((b'.net i).natAbs : Int) ≤ lotsIn (bookings ++ [x]) i := by
  simp only [lotsIn_concat] at hroom ⊢
  cases x with
  | mark instrument price =>
    refine ⟨_, rfl, fun i => ?_⟩
    rw [net_mark, lots, Int.add_zero]
    exact hheld i
  | trade instrument side volume price =>
    have hnet := hheld instrument
    have hlots := hroom instrument
    rw [lots, if_pos rfl] at hlots
    by_cases hvolume : volume ≤ 0
    · have htrade : b.trade? instrument side volume price =
          some (b.put instrument (b.position instrument), 0) := by
        rw [trade?, Position.trade?, if_pos hvolume]
        rfl
      refine ⟨_, by rw [post?, htrade]; rfl, fun i => ?_⟩
      have hnone := net_of_trade? htrade i
      rw [if_neg (fun hpos => absurd hpos.2 (Int.not_lt.mpr hvolume))] at hnone
      have hmoved := lots_nonneg (Booking.trade instrument side volume price) i
      have hbefore := hheld i
      rw [hnone]
      omega
    · have hsum : ((b.net instrument + side.sign * volume).natAbs : Int) ≤
          lotsIn bookings instrument + max volume 0 := by
        rcases side.sign_eq with hs | hs <;> rw [hs] <;> omega
      obtain ⟨b', profit, htrade⟩ := exists_trade? price (by omega) (hsum.trans hlots)
      refine ⟨b', by rw [post?, htrade]; rfl, fun i => ?_⟩
      rw [net_of_trade? htrade]
      by_cases hi : i = instrument
      · subst hi
        rw [if_pos ⟨rfl, Int.not_le.mp hvolume⟩, lots, if_pos rfl]
        exact hsum
      · rw [if_neg (fun hpos => hi hpos.1), lots, if_neg (Ne.symm hi), Int.add_zero]
        exact hheld i

/-- Where the lots that are moved stay in their range, the whole sequence has a result. -/
theorem exists_postAll? (hroom : ∀ i, lotsIn bookings i ≤ Count.greatest) :
    ∃ b, Book.empty.postAll? bookings = some b ∧
      ∀ i, ((b.net i).natAbs : Int) ≤ lotsIn bookings i := by
  induction bookings using List.reverseRecOn with
  | nil => exact ⟨Book.empty, rfl, fun i => Int.le_refl _⟩
  | append_singleton before x ih =>
    -- fewer bookings move fewer lots
    obtain ⟨mid, hmid, hheld⟩ := ih fun i => by
      have hi := hroom i
      rw [lotsIn_concat] at hi
      have hx := x.lots_nonneg i
      omega
    obtain ⟨b, hb, hafter⟩ := exists_post? x hheld hroom
    refine ⟨b, ?_, hafter⟩
    rw [postAll?] at hmid ⊢
    rw [List.foldlM_append, hmid]
    simp only [List.foldlM_cons, List.foldlM_nil, Option.bind_eq_bind, Option.bind_some, hb,
      Option.pure_def]

/-- The profit of the book is what the trades bring at the last prices; where there is none, a
position counts with what it has realized. -/
theorem Accounts.totalPnl (h : b.Accounts bookings) :
    b.totalPnl = ∑ instrument ∈ tradedIn bookings,
      match lastMark? bookings instrument with
      | some mark => flows bookings instrument mark
      | none => (b.position instrument).realized := by
  have hnames : b.positions.names.toFinset = tradedIn bookings := by
    ext instrument
    rw [List.mem_toFinset, h.traded]
  rw [totalPnl_eq, Table.total_eq_sum, hnames]
  refine Finset.sum_congr rfl fun instrument _ => ?_
  rw [b.worth_row instrument (b.valuation instrument), valuation, h.marks]
  cases lastMark? bookings instrument with
  | some mark => exact h.worth instrument mark
  | none => rw [Option.getD_none, Position.worth_eq, sub_self, mul_zero, add_zero]

end Book

/-- **Profit is what came in less what went out.**  Bookings have a result as long as the lots that
are moved stay in their range.  Read in exact numbers, after any bookings that have one:

* at any mark the realized and the unrealized profit of an instrument together are the sum over its
  trades of some lots, each counting its lots times the distance of the mark from its price;
* every trade gave as its profit what it added to the realized profit of its instrument;
* the profit of the book is the sum of these amounts at the last prices, over the instruments that
  were traded, where one without a last price counts with its realized profit alone. -/
theorem profit_is_cash_flow (bookings : List (Booking ℚ)) :
    ((∀ instrument, lotsIn bookings instrument ≤ Count.greatest) →
      ∃ b, Book.empty.postAll? bookings = some b) ∧
    ∀ b, Book.empty.postAll? bookings = some b →
      (∀ instrument mark,
        (b.position instrument).realized +
            unrealized (b.position instrument).net (b.position instrument).average mark =
          flows bookings instrument mark) ∧
      (∀ before instrument side volume price after,
        bookings = before ++ .trade instrument side volume price :: after →
          ∃ mid next profit, Book.empty.postAll? before = some mid ∧
            mid.trade? instrument side volume price = some (next, profit) ∧
            profit = (next.position instrument).realized - (mid.position instrument).realized) ∧
      b.totalPnl = ∑ instrument ∈ tradedIn bookings,
        match lastMark? bookings instrument with
        | some last => flows bookings instrument last
        | none => (b.position instrument).realized := by
  refine ⟨fun hroom => ?_, fun b h => ?_⟩
  · obtain ⟨b, hb, -⟩ := Book.exists_postAll? hroom
    exact ⟨b, hb⟩
  have haccounts := Book.accounts_postAll? h
  refine ⟨haccounts.worth, ?_, haccounts.totalPnl⟩
  rintro before instrument side volume price after rfl
  simp only [Book.postAll?, List.foldlM_append, List.foldlM_cons, Option.bind_eq_bind,
    Option.bind_eq_some_iff, Book.post?, Option.map_eq_some_iff] at h
  obtain ⟨mid, hmid, -, ⟨⟨next, profit⟩, htrade, -⟩, -⟩ := h
  refine ⟨mid, next, profit, hmid, htrade, ?_⟩
  obtain ⟨p, hp, rfl⟩ := Book.trade?_cases htrade
  rw [Book.position_put, if_pos rfl, Position.realized_of_trade? hp, add_sub_cancel_left]

/-- Three lots are bought, one of them is sold again, and then so many that the position turns
round.  The other instrument has no last price. -/
def turnedRound : List (Booking ℚ) :=
  [.mark "rb2405" 99, .trade "rb2405" .buy 3 100, .trade "rb2405" .sell 1 110,
    .trade "ag2406" .sell 2 50, .trade "rb2405" .buy 0 7, .trade "rb2405" .sell 4 105,
    .trade "ag2406" .buy 1 40, .mark "rb2405" 102]

/-- At 102 the trades of the first instrument bring 3 · 2 + 1 · 8 + 4 · 3; the second one has
realized ten. -/
theorem profit_is_cash_flow_turnedRound :
    ∃ b, Book.empty.postAll? turnedRound = some b ∧
      ((b.position "rb2405").net, (b.position "rb2405").average,
        (b.position "rb2405").realized) = (-2, 105, 20) ∧
      flows turnedRound "rb2405" 102 = 26 ∧
      (b.position "rb2405").realized + unrealized (-2) 105 102 = 26 ∧ b.totalPnl = 26 + 10 := by
  have hvalues : (Book.empty.postAll? turnedRound).map (fun b =>
      ((b.position "rb2405").net, (b.position "rb2405").average,
        (b.position "rb2405").realized, (b.position "ag2406").realized)) =
      some (-2, 105, 20, 10) := by
    decide +kernel
  have hroom : ∀ instrument, lotsIn turnedRound instrument ≤ Count.greatest := by
    intro instrument
    simp only [lotsIn, turnedRound, lots, List.map_cons, List.map_nil, List.sum_cons, List.sum_nil,
      Count.greatest]
    split_ifs <;> omega
  obtain ⟨hexists, hresult⟩ := profit_is_cash_flow turnedRound
  obtain ⟨b, hb⟩ := hexists hroom
  rw [hb, Option.map_some] at hvalues
  simp only [Option.some.injEq, Prod.mk.injEq] at hvalues
  obtain ⟨hnet, haverage, hrealized, hother⟩ := hvalues
  obtain ⟨hflows, -, htotal⟩ := hresult b hb
  have hflow : flows turnedRound "rb2405" 102 = 26 := by decide +kernel
  have hworth := hflows "rb2405" 102
  rw [hnet, haverage, hflow] at hworth
  have hnames : tradedIn turnedRound = {"rb2405", "ag2406"} := by decide +kernel
  have hmarks : lastMark? turnedRound "rb2405" = some 102 ∧
      lastMark? turnedRound "ag2406" = none := by
    decide +kernel
  rw [hnames, Finset.sum_pair (by decide), hmarks.1, hmarks.2] at htotal
  refine ⟨b, hb, ?_, hflow, hworth, ?_⟩
  · rw [hnet, haverage, hrealized]
  · rw [htotal, ← hflow, ← hother]

end MarketTape
