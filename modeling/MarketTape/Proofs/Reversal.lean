import MarketTape.Proofs.Service

/-!
# No order turns a position round

A trade can do more than an order is meant to do: what is left of it after closing a position opens
the other side at once.  The desk has orders for opening and orders for closing, and it sees to it
that neither of them ever does both.  Closing is cut down to what is held; opening against a
position has to wait; and of the orders that waited only one can trade, since the next one finds
lots again.

For the last point it matters what the desk lets wait: an order for no lots, or one in the row of
another instrument, would break it.

* `Position.Reverses` is the trade that turns a position round.
* `Fill.Reduces`, `Fill.Grows` and `Fill.Executes` say what a trade of an order has done.
* `Floor.submit?_executes` and `Floor.settle?_cases` are the two ways in which orders trade.
* `orders_never_reverse` is the result.
-/

namespace MarketTape

variable {α : Type}

/-! ## What a trade does to a position -/

/-- A trade that closes a position and opens the other side with what is left. -/
def Position.Reverses (p : Position α) (side : Side) (volume : Int) : Prop :=
  p.net ≠ 0 ∧ p.net.sign ≠ side.sign ∧ (p.net.natAbs : Int) < volume

/-- A trade that takes lots off a position: they go against it, and it comes nearer to zero by as
much without crossing zero. -/
structure Fill.Reduces (fill : Fill α) (p p' : Position α) : Prop where
  some : 0 < fill.volume
  against : p.net.sign = -fill.side.sign
  net : p'.net = p.net + fill.side.sign * fill.volume
  towards : (p'.net.natAbs : Int) + fill.volume = p.net.natAbs
  uncrossed : p'.net = 0 ∨ p'.net.sign = p.net.sign

/-- A trade that adds lots to a position: they go along with it, or there was none, and it gets away
from zero by as much.  Nothing is realized. -/
structure Fill.Grows (fill : Fill α) (p p' : Position α) : Prop where
  some : 0 < fill.volume
  along : p.net = 0 ∨ p.net.sign = fill.side.sign
  net : p'.net = p.net + fill.side.sign * fill.volume
  away : (p'.net.natAbs : Int) = p.net.natAbs + fill.volume
  side : p'.net.sign = fill.side.sign
  realized : p'.realized = p.realized

/-- A trade that takes lots off a position does not turn it round. -/
lemma Fill.Reduces.straight {fill : Fill α} {p p' : Position α} (h : fill.Reduces p p') :
    ¬ p.Reverses fill.side fill.volume := by
  rintro ⟨-, -, hmore⟩
  have htowards := h.towards
  omega

/-- Nor does one that adds lots. -/
lemma Fill.Grows.straight {fill : Fill α} {p p' : Position α} (h : fill.Grows p p') :
    ¬ p.Reverses fill.side fill.volume := by
  rintro ⟨hheld, hside, -⟩
  exact h.along.elim hheld hside

/-- A trade of an order that leads from one book to another.  Closing trades what was asked for, but
not more than is held; opening trades all that was asked for.  The position is not turned round, and
nothing else in the book changes. -/
structure Fill.Executes [Scalar α] (fill : Fill α) (intent : Intent α) (b b' : Book α) : Prop where
  instrument : fill.instrument = intent.instrument
  side : fill.side = intent.side
  offset : fill.offset = intent.offset
  closes : intent.offset = .closing →
    fill.volume = min intent.volume (b.net intent.instrument).natAbs ∧
      fill.Reduces (b.position intent.instrument) (b'.position intent.instrument)
  opens : intent.offset = .opening →
    fill.volume = intent.volume ∧
      fill.Grows (b.position intent.instrument) (b'.position intent.instrument)
  straight : ¬ (b.position intent.instrument).Reverses fill.side fill.volume
  others : ∀ other, other ≠ intent.instrument → b'.get? other = b.get? other
  marks : b'.marks = b.marks

variable [Scalar α]

namespace Position

variable {p p' : Position α} {side : Side} {volume : Int} {price profit : α}

/-- The trades that turn a position round are those after which the other side is held. -/
lemma reverses_iff (h : p.trade? side volume price = some (p', profit)) :
    p.Reverses side volume ↔ p.net ≠ 0 ∧ p'.net.sign = -p.net.sign := by
  rw [net_of_trade? h, Reverses]
  refine and_congr_right fun hnet => ?_
  rcases Int.lt_or_gt_of_ne hnet with hlt | hgt
  · rw [Int.sign_eq_neg_one_of_neg hlt]
    rcases side.sign_eq with hs | hs <;> rw [hs] <;> split <;>
      simp only [Int.neg_neg, Int.sign_eq_one_iff_pos] <;> omega
  · rw [Int.sign_eq_one_of_pos hgt]
    rcases side.sign_eq with hs | hs <;> rw [hs] <;> split <;>
      simp only [Int.sign_eq_neg_one_iff_neg] <;> omega

/-- A trade from flat or on the side of the position realizes nothing. -/
lemma realized_of_along (halong : p.net = 0 ∨ p.net.sign = side.sign)
    (h : p.trade? side volume price = some (p', profit)) : p'.realized = p.realized := by
  rw [trade?, if_pos halong] at h
  split at h
  · simp only [Option.some.injEq, Prod.mk.injEq] at h
    rw [h.1]
  · simp only [Option.map_eq_some_iff, Prod.mk.injEq, grow?, Option.bind_eq_bind,
      Option.bind_eq_some_iff, Option.some.injEq] at h
    obtain ⟨q, ⟨before, -, net, -, after, -, rfl⟩, rfl, -⟩ := h
    rfl

end Position

namespace Fill

variable {fill : Fill α} {p p' : Position α} {price profit : α}

/-- Trading at most what is held on the other side takes it off. -/
lemma reduces (hsome : 0 < fill.volume) (hagainst : p.net.sign = -fill.side.sign)
    (hheld : fill.volume ≤ p.net.natAbs)
    (h : p.trade? fill.side fill.volume price = some (p', profit)) : fill.Reduces p p' := by
  have hnet := Position.net_of_trade? h
  rw [if_neg (Int.not_le.mpr hsome)] at hnet
  have hafter := hnet.trans (Side.add_of_against hagainst)
  refine ⟨hsome, hagainst, hnet, ?_, ?_⟩
  · rw [hafter, Side.natAbs_sign_mul]
    omega
  · rcases eq_or_lt_of_le hheld with hall | hfewer
    · left
      rw [hafter, hall, Int.sub_self, Int.mul_zero]
    · right
      rw [hafter, Side.sign_sign_mul _ (by omega), Side.sign_opposite, hagainst]

/-- Trading from flat or on the side of the position adds to it. -/
lemma grows (hsome : 0 < fill.volume) (halong : p.net = 0 ∨ p.net.sign = fill.side.sign)
    (h : p.trade? fill.side fill.volume price = some (p', profit)) : fill.Grows p p' := by
  have hnet := Position.net_of_trade? h
  rw [if_neg (Int.not_le.mpr hsome)] at hnet
  have hafter := hnet.trans (Side.add_of_along halong)
  refine ⟨hsome, halong, hnet, ?_, ?_, Position.realized_of_along halong h⟩
  · rw [hafter, Side.natAbs_sign_mul]
    omega
  · rw [hafter, Side.sign_sign_mul _ (by omega)]

end Fill

/-! ## How orders trade -/

namespace DeskCall

/-- The instrument that a call is about. -/
def instrument? : DeskCall α → Option String
  | .submit intent _ => some intent.instrument
  | .reject intent _ => some intent.instrument
  | .settle bar => some bar.instrument
  | .cancel instrument _ => some instrument
  | .cancelAll _ => none

end DeskCall

namespace Floor

variable {f f' : Floor α} {intent : Intent α} {bar : Bar α}

/-- The intents that a call may bring to a trade. -/
def inHand (f : Floor α) : DeskCall α → List (Intent α)
  | .submit intent _ => [intent]
  | .settle bar => (f.desk.waitingFor bar.instrument).map (·.intent)
  | _ => []

/-- A trade of an order, given what the desk has made sure of. -/
lemma executes {volume : Int} {b b' : Book α} {profit : α}
    (hinstrument : intent.instrument = bar.instrument) (hsome : 0 < volume)
    (hcase :
      (intent.offset = .closing ∧ (b.net intent.instrument).sign = -intent.side.sign ∧
        volume = min intent.volume (b.net intent.instrument).natAbs) ∨
      (intent.offset = .opening ∧
        (b.net intent.instrument = 0 ∨ (b.net intent.instrument).sign = intent.side.sign) ∧
          volume = intent.volume))
    (h : b.trade? bar.instrument intent.side volume bar.close = some (b', profit)) :
    (fillAtClose intent bar volume).Executes intent b b' := by
  rw [← hinstrument] at h
  obtain ⟨p, hp, rfl⟩ := Book.trade?_cases h
  have hafter : (b.put intent.instrument p).position intent.instrument = p := by
    rw [Book.position_put, if_pos rfl]
  have hothers : ∀ other, other ≠ intent.instrument →
      (b.put intent.instrument p).get? other = b.get? other := by
    intro other hother
    rw [Book.get?_put, if_neg hother]
  rw [← Book.net_position] at hcase
  rcases hcase with ⟨hoffset, hagainst, hvolume⟩ | ⟨hoffset, halong, hvolume⟩
  · have hreduces : (fillAtClose intent bar volume).Reduces (b.position intent.instrument) p :=
      Fill.reduces hsome hagainst (hvolume ▸ Int.min_le_right _ _) hp
    refine ⟨hinstrument.symm, rfl, rfl, fun _ => ⟨?_, hafter.symm ▸ hreduces⟩, ?_,
      hreduces.straight, hothers, rfl⟩
    · rw [← Book.net_position]
      exact hvolume
    · intro hopening
      rw [hoffset] at hopening
      cases hopening
  · have hgrows : (fillAtClose intent bar volume).Grows (b.position intent.instrument) p :=
      Fill.grows hsome halong hp
    refine ⟨hinstrument.symm, rfl, rfl, ?_, fun _ => ⟨hvolume, hafter.symm ▸ hgrows⟩,
      hgrows.straight, hothers, rfl⟩
    intro hclosing
    rw [hoffset] at hclosing
    cases hclosing

/-- An intent that does not trade leaves the book alone. -/
lemma submit?_executes {fill : Option (Fill α)} (h : f.submit? intent bar = some (f', fill)) :
    (fill = none ∧ f'.book = f.book) ∨
      ∃ trade, fill = some trade ∧ trade.Executes intent f.book f'.book := by
  rcases submit?_cases h with
    ⟨-, rfl, rfl⟩ | ⟨-, rfl, rfl⟩ | ⟨volume, book, profit, hd, htrade, rfl, rfl⟩
  · exact .inl ⟨rfl, rfl⟩
  · exact .inl ⟨rfl, rfl⟩
  · obtain ⟨hasked, -, hinstrument, hcase⟩ := decide?_trade hd
    refine .inr ⟨_, rfl, ?_⟩
    rcases hcase with ⟨hoffset, hnet, hagainst, held, habs, hvolume⟩ | ⟨hoffset, halong, hvolume⟩
    · have hheld := Count.pos_of_abs? hnet habs
      rw [Count.eq_natAbs_of_abs? habs] at hvolume hheld
      have hsome : 0 < volume := hvolume ▸ Int.lt_min.mpr ⟨hasked, hheld⟩
      exact executes hinstrument hsome (.inl ⟨hoffset, hagainst, hvolume⟩) htrade
    · exact executes hinstrument (hvolume ▸ hasked) (.inr ⟨hoffset, halong, hvolume⟩) htrade

/-- Where what is held has a size, there is always an answer to what becomes of an intent. -/
lemma exists_decide? (intent : Intent α) (bar : Bar α) {net : Int}
    (hnet : (net.natAbs : Int) ≤ Count.greatest) :
    ∃ decision, decide? intent bar net = some decision := by
  rw [decide?]
  split
  · exact ⟨.reject, rfl⟩
  · split
    · split
      · rw [Count.abs?_of_le hnet]
        exact ⟨_, rfl⟩
      · exact ⟨.reject, rfl⟩
    · split
      · exact ⟨.wait, rfl⟩
      · exact ⟨.trade intent.volume, rfl⟩

/-- Closing is always answered. -/
lemma exists_submit?_of_closing (hoffset : intent.offset = .closing)
    (hnet : ((f.book.net intent.instrument).natAbs : Int) ≤ Count.greatest) :
    ∃ f' fill, f.submit? intent bar = some (f', fill) := by
  obtain ⟨decision, hd⟩ := exists_decide? intent bar hnet
  rw [submit?, hd]
  cases decision with
  | reject => exact ⟨_, _, rfl⟩
  | wait => exact ⟨_, _, rfl⟩
  | trade volume =>
    obtain ⟨hasked, -, hinstrument, hcase⟩ := decide?_trade hd
    rcases hcase with ⟨-, hheld, hagainst, held, hheld', hvolume⟩ | ⟨hopening, -⟩
    · rw [Count.eq_natAbs_of_abs? hheld'] at hvolume
      -- closing leaves fewer lots than there were
      have hafter : ((f.book.net intent.instrument + intent.side.sign * volume).natAbs : Int) ≤
          Count.greatest := by
        refine Int.le_trans (Int.ofNat_le.mpr ?_) hnet
        rcases intent.side.sign_eq with hs | hs <;> rw [hs] at hagainst ⊢
        · have hshort := Int.sign_eq_neg_one_iff_neg.mp hagainst
          omega
        · have hlong := Int.sign_eq_one_iff_pos.mp hagainst
          omega
      rw [hinstrument] at hnet hafter
      obtain ⟨book, profit, htrade⟩ := Book.exists_trade? bar.close hnet hafter
      have hfill : f.fill? intent bar volume =
          some (f.afterFill intent bar volume book, fillAtClose intent bar volume) :=
        congrArg (Option.map _) htrade
      exact ⟨_, _, congrArg (Option.map _) hfill⟩
    · rw [hoffset] at hopening
      cases hopening

omit [Scalar α] in
/-- Refuses waiting orders one after the other. -/
def rejectAll (f : Floor α) (bar : Bar α) (due : List (Waiting α)) : Floor α :=
  due.foldl (fun f w => f.reject w.intent bar) f

omit [Scalar α] in
@[simp] lemma book_rejectAll (due : List (Waiting α)) : (f.rejectAll bar due).book = f.book := by
  induction due generalizing f with
  | nil => rfl
  | cons w rest ih => exact ih (f := f.reject w.intent bar)

/-- Where lots are held, or the bar did not close at a positive price, every order is refused. -/
lemma settleEach?_eq_rejectAll {due : List (Waiting α)} (hdue : ∀ w ∈ due, w.Proper bar.instrument)
    (hheld : ¬ (f.book.net bar.instrument = 0 ∧ Scalar.zero < bar.close)) :
    f.settleEach? bar due = some (f.rejectAll bar due, []) := by
  induction due generalizing f with
  | nil => rfl
  | cons w rest ih =>
    obtain ⟨hw, hrest⟩ := List.forall_mem_cons.mp hdue
    have hone : f.settleOne? w.intent bar = some (f.reject w.intent bar, none) := by
      rw [settleOne?, hw.instrument, if_neg hheld]
    have hlater : (f.reject w.intent bar).settleEach? bar rest =
        some ((f.reject w.intent bar).rejectAll bar rest, []) := ih hrest hheld
    simp only [settleEach?, hone, hlater, Option.map_some, Option.toList_none, List.nil_append]
    rfl

/-- Of the orders that waited none trades while lots are held or the close is not positive. -/
lemma settle?_of_held (hfiled : f.desk.Filed)
    (hheld : ¬ (f.book.net bar.instrument = 0 ∧ Scalar.zero < bar.close)) :
    f.settle? bar =
      some ((f.without bar.instrument).rejectAll bar (f.desk.waitingFor bar.instrument), []) :=
  settleEach?_eq_rejectAll (f := f.without bar.instrument) (hfiled bar.instrument) hheld

/-- Otherwise the first one trades, and it leaves lots, so that there is no room for another one. -/
lemma settle?_of_flat (hfiled : f.desk.Filed) {w : Waiting α} {rest : List (Waiting α)}
    (hrow : f.desk.waitingFor bar.instrument = w :: rest)
    (hflat : f.book.net bar.instrument = 0) (hclose : Scalar.zero < bar.close) {book : Book α}
    {profit : α}
    (htrade : f.book.trade? bar.instrument w.intent.side w.intent.volume bar.close =
      some (book, profit)) :
    f.settle? bar =
      some (((f.without bar.instrument).afterFill w.intent bar w.intent.volume book).rejectAll bar
        rest, [fillAtClose w.intent bar w.intent.volume]) := by
  have hdue := hfiled bar.instrument
  rw [hrow] at hdue
  obtain ⟨hw, hrest⟩ := List.forall_mem_cons.mp hdue
  have hlots : book.net bar.instrument ≠ 0 := by
    have hvolume := hw.volume
    have hnet := Book.net_of_trade? htrade bar.instrument
    rw [if_pos ⟨rfl, hvolume⟩, hflat] at hnet
    rcases w.intent.side.sign_eq with hs | hs <;> rw [hs] at hnet <;> omega
  have hfill : (f.without bar.instrument).fill? w.intent bar w.intent.volume =
      some ((f.without bar.instrument).afterFill w.intent bar w.intent.volume book,
        fillAtClose w.intent bar w.intent.volume) := congrArg (Option.map _) htrade
  have hone : (f.without bar.instrument).settleOne? w.intent bar =
      some ((f.without bar.instrument).afterFill w.intent bar w.intent.volume book,
        some (fillAtClose w.intent bar w.intent.volume)) := by
    rw [settleOne?, hw.instrument, if_pos ⟨hflat, hclose⟩, hfill]
    rfl
  have hlater := settleEach?_eq_rejectAll
    (f := (f.without bar.instrument).afterFill w.intent bar w.intent.volume book) hrest
    (fun hboth => hlots hboth.1)
  have heach : f.settle? bar =
      (f.without bar.instrument).settleEach? bar (f.desk.waitingFor bar.instrument) := rfl
  rw [heach, hrow]
  simp only [settleEach?, hone, hlater, Option.map_some, Option.toList_some, List.append_nil]

/-- Of the orders that waited the first one trades if the instrument is flat and the close is
positive, and all others are refused. -/
lemma settle?_cases {fills : List (Fill α)} (hfiled : f.desk.Filed)
    (h : f.settle? bar = some (f', fills)) :
    ((f.desk.waitingFor bar.instrument = [] ∨
          ¬ (f.book.net bar.instrument = 0 ∧ Scalar.zero < bar.close)) ∧
        fills = [] ∧
        f' = (f.without bar.instrument).rejectAll bar (f.desk.waitingFor bar.instrument)) ∨
      ∃ w rest book profit, f.desk.waitingFor bar.instrument = w :: rest ∧
        w.Proper bar.instrument ∧ (f.book.net bar.instrument = 0 ∧ Scalar.zero < bar.close) ∧
        fills = [fillAtClose w.intent bar w.intent.volume] ∧
        f.book.trade? bar.instrument w.intent.side w.intent.volume bar.close =
          some (book, profit) ∧
        f' = ((f.without bar.instrument).afterFill w.intent bar w.intent.volume book).rejectAll bar
          rest := by
  cases hrow : f.desk.waitingFor bar.instrument with
  | nil =>
    have hnone : f.settle? bar = some (f.without bar.instrument, []) := by
      rw [settle?, hrow]
      rfl
    obtain ⟨rfl, rfl⟩ := Prod.mk.inj (Option.some.inj (hnone.symm.trans h))
    exact .inl ⟨.inl rfl, rfl, rfl⟩
  | cons w rest =>
    have hw := hfiled bar.instrument w (hrow ▸ List.mem_cons_self)
    by_cases hripe : f.book.net bar.instrument = 0 ∧ Scalar.zero < bar.close
    · have heach : (f.without bar.instrument).settleEach? bar (w :: rest) = some (f', fills) := by
        rw [← hrow]
        exact h
      obtain ⟨g, fill, more, hone, -, -⟩ := settleEach?_cons heach
      rcases settleOne?_cases hone with ⟨-, book, profit, htrade, -, -⟩ | ⟨hheld, -, -⟩
      · have hall := settle?_of_flat hfiled hrow hripe.1 hripe.2 htrade
        obtain ⟨rfl, rfl⟩ := Prod.mk.inj (Option.some.inj (hall.symm.trans h))
        exact .inr ⟨w, rest, book, profit, rfl, hw, hripe, rfl, htrade, rfl⟩
      · rw [hw.instrument] at hheld
        exact absurd hripe hheld
    · have hnone := settle?_of_held hfiled hripe
      obtain ⟨rfl, rfl⟩ := Prod.mk.inj (Option.some.inj (hnone.symm.trans h))
      exact .inl ⟨.inr hripe, rfl, by rw [hrow]⟩

/-- An order that waited trades as one for opening does. -/
lemma settle?_executes {fills : List (Fill α)} (hfiled : f.desk.Filed)
    (h : f.settle? bar = some (f', fills)) :
    (fills = [] ∧ f'.book = f.book) ∨
      ∃ w ∈ f.desk.waitingFor bar.instrument, ∃ trade, fills = [trade] ∧
        trade.Executes w.intent f.book f'.book ∧ w.Proper bar.instrument ∧
        f.book.net bar.instrument = 0 := by
  rcases settle?_cases hfiled h with
    ⟨-, rfl, rfl⟩ | ⟨w, rest, book, profit, hrow, hw, ⟨hflat, -⟩, rfl, htrade, rfl⟩
  · exact .inl ⟨rfl, book_rejectAll _⟩
  · have hmem : w ∈ f.desk.waitingFor bar.instrument := hrow ▸ List.mem_cons_self
    refine .inr ⟨w, hmem, _, rfl, ?_, hw, hflat⟩
    rw [book_rejectAll]
    refine executes hw.instrument hw.volume (.inr ⟨hw.opening, .inl ?_, rfl⟩) htrade
    rw [hw.instrument]
    exact hflat

end Floor

/-! ## The result -/

/-- A desk that calls can lead to, whatever the book and the log are. -/
def Desk.Reachable (d : Desk α) : Prop :=
  ∃ book log requests f services,
    (Floor.mk Desk.start book log).serveAll? requests = some (f, services) ∧ f.desk = d

lemma Desk.Reachable.filed {d : Desk α} (h : d.Reachable) : d.Filed := by
  obtain ⟨book, log, requests, f, services, hcalls, rfl⟩ := h
  exact (Desk.filed_start.serveAll hcalls).1

/-- **No order turns a position round.**  Take a desk that calls have led to, with any book.

* An intent for closing is answered, if what is held has a distance from zero.
* A call that gives no trade back leaves the whole book as it is.
* Any other call gives back exactly one trade, of an intent that it had in hand, and in the
  instrument that it is about.  If the intent is for closing, the trade takes the lots that were
  asked for off the position, at most all of them, and does not cross zero.  If it is for opening,
  the trade has all the lots that were asked for, from flat or along with the position, and realizes
  nothing; and an order that waited starts from flat.  In neither case is a position turned round,
  and nothing changes in another instrument. -/
theorem orders_never_reverse {f : Floor α} (hdesk : f.desk.Reachable) :
    (∀ intent bar, intent.offset = .closing →
      ((f.book.net intent.instrument).natAbs : Int) ≤ Count.greatest →
        ∃ f' fill, f.submit? intent bar = some (f', fill)) ∧
    ∀ call f' answer, f.serve? call = some (f', answer) →
      (answer.fills = [] ∧ f'.book = f.book) ∨
      ∃ intent ∈ f.inHand call, ∃ fill, answer.fills = [fill] ∧
        fill.Executes intent f.book f'.book ∧ call.instrument? = some fill.instrument ∧
        (call.settles = true →
          intent.offset = .opening ∧ f.book.net fill.instrument = 0) := by
  refine ⟨fun intent bar hoffset hnet => Floor.exists_submit?_of_closing hoffset hnet, ?_⟩
  intro call f' answer h
  cases Floor.serve?_cases h with
  | @submit intent bar _ _ hsubmit =>
    rcases Floor.submit?_executes hsubmit with ⟨rfl, hbook⟩ | ⟨trade, rfl, hexecutes⟩
    · exact .inl ⟨rfl, hbook⟩
    · refine .inr ⟨intent, List.mem_singleton_self _, trade, rfl, hexecutes, ?_, ?_⟩
      · rw [hexecutes.instrument]
        rfl
      · intro hsettles
        cases hsettles
  | reject intent bar => exact .inl ⟨rfl, rfl⟩
  | @settle bar _ _ hsettle =>
    rcases Floor.settle?_executes hdesk.filed hsettle with
      ⟨rfl, hbook⟩ | ⟨w, hmem, trade, rfl, hexecutes, hw, hflat⟩
    · exact .inl ⟨rfl, hbook⟩
    · have hinstrument : trade.instrument = bar.instrument :=
        hexecutes.instrument.trans hw.instrument
      refine .inr ⟨w.intent, List.mem_map_of_mem hmem, trade, rfl, hexecutes, ?_, fun _ => ?_⟩
      · rw [hinstrument]
        rfl
      · rw [hinstrument]
        exact ⟨hw.opening, hflat⟩
  | cancel instrument time => exact .inl ⟨rfl, Floor.book_cancel f instrument time⟩
  | cancelAll time => exact .inl ⟨rfl, Floor.book_cancelAll f time⟩

/-! ## Two orders that wait -/

/-- An order that sells lots. -/
def selling (offset : Offset) (volume : Int) : Intent Float :=
  ⟨"rb2405", .sell, offset, volume, 100, "t"⟩

/-- Two lots are held. -/
def heldBook : Book Float := Book.empty.put "rb2405" ⟨2, 100, 0⟩

/-- Two orders for opening came while lots were held, and had to wait. -/
def waitingDesk : Desk Float where
  waiting := Table.empty.insert "rb2405" [⟨selling .opening 1, 59⟩, ⟨selling .opening 3, 59⟩]
  statuses := ⟨0, 0, 2, 0, 0⟩

lemma reachable_waitingDesk : waitingDesk.Reachable :=
  ⟨heldBook, AuditLog.start true,
    [(heldBook, .submit (selling .opening 1) (closedBar "rb2405" 100)),
      (heldBook, .submit (selling .opening 3) (closedBar "rb2405" 100))], _, _, rfl, rfl⟩

/-- Closing five lots takes off the two that are held.  When nothing is held, the first one of the
two orders trades, and the other one does not. -/
theorem orders_never_reverse_waitingDesk :
    waitingDesk.Reachable ∧
    (∃ f' fill answer,
      (Floor.mk waitingDesk heldBook (AuditLog.start true)).serve?
          (.submit (selling .closing 5) (closedBar "rb2405" 100)) = some (f', answer) ∧
        answer.fills = [fill] ∧ fill.volume = 2 ∧
        fill.Executes (selling .closing 5) heldBook f'.book) ∧
    ∃ f' fill answer,
      (Floor.mk waitingDesk Book.empty (AuditLog.start true)).serve?
          (.settle (closedBar "rb2405" 100)) = some (f', answer) ∧
        answer.fills = [fill] ∧ fill.volume = 1 ∧ f'.book.net "rb2405" = -1 ∧
        ∃ intent ∈ [selling .opening 1, selling .opening 3],
          fill.Executes intent Book.empty f'.book := by
  have hdesk := reachable_waitingDesk
  refine ⟨hdesk, ?_, ?_⟩
  · have hvalues : ((Floor.mk waitingDesk heldBook (AuditLog.start true)).serve?
        (.submit (selling .closing 5) (closedBar "rb2405" 100))).map
          (fun served => served.2.fills.map (·.volume)) = some [2] := by
      decide +kernel
    obtain ⟨⟨f', answer⟩, h, hvolumes⟩ := Option.map_eq_some_iff.mp hvalues
    rcases (orders_never_reverse hdesk).2 _ f' answer h with
      ⟨hnone, -⟩ | ⟨intent, hmem, fill, hfills, hexecutes, -, -⟩
    · rw [hnone] at hvolumes
      cases hvolumes
    · obtain rfl := List.mem_singleton.mp hmem
      rw [hfills] at hvolumes
      exact ⟨f', fill, answer, h, hfills, (List.cons.inj hvolumes).1, hexecutes⟩
  · have hvalues : ((Floor.mk waitingDesk Book.empty (AuditLog.start true)).serve?
        (.settle (closedBar "rb2405" 100))).map
          (fun served => (served.2.fills.map (·.volume), served.1.book.net "rb2405")) =
            some ([1], -1) := by
      decide +kernel
    obtain ⟨⟨f', answer⟩, h, hresult⟩ := Option.map_eq_some_iff.mp hvalues
    obtain ⟨hvolumes, hnet⟩ := Prod.mk.inj hresult
    rcases (orders_never_reverse hdesk).2 _ f' answer h with
      ⟨hnone, -⟩ | ⟨intent, hmem, fill, hfills, hexecutes, -, -⟩
    · rw [hnone] at hvolumes
      cases hvolumes
    · rw [hfills] at hvolumes
      exact ⟨f', fill, answer, h, hfills, (List.cons.inj hvolumes).1, hnet, intent, hmem,
        hexecutes⟩

end MarketTape
