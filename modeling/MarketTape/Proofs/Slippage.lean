import MarketTape.Proofs.CashFlow
import MarketTape.Proofs.Moving
import MarketTape.Proofs.Neutrality

/-!
# What rollovers cost

What a rollover loses to slippage is written down three times: with every part of it, in its
summary, and in a running total.  It reaches the profit only through the prices of the parts.  Read
in exact numbers the three agree, and they agree with the profit as well, if parts are priced off
the last trade: then the price that slippage is added to is the mark of the contract, of the old one
because its last tick was remembered when it was marked, and of the new one because its tick is
marked first.

* `RolloverAction.Charged` says what slippage does to a part that is priced off a tick;
  `RolloverAction.Charged.flowOf` what that brings at the price it is based on.
* `RolloverEvent.Costs` says that a summary adds up its parts; `Rollover.costs_of_move?` that it
  does.
* `Run.LastMarked` says that marks are the last prices, `Run.lastMarked_feed` that they always are.
* `Rollover.AddsUp` is the invariant, with one lemma for each thing that happens to the records;
  `Run.addsUp_feed` is the induction over the ticks.
* `rollover_costs_add_up` is the result.
-/

namespace MarketTape

/-! ## Parts -/

/-- The price of one lot with slippage is moved by a share of the price that it is based on. -/
lemma LegPricing.price_eq (pricing : LegPricing ℚ) (side : Side) (t : Tick ℚ) :
    pricing.price side t =
      (pricing.reference side t +
          side.sign * (pricing.reference side t * pricing.slippageBps / 10000),
        pricing.reference side t * pricing.slippageBps / 10000) := by
  simp only [price, withSlippage, Scalar.ofInt_exact]
  push_cast
  cases side with
  | buy => rw [Side.sign, Int.cast_one, one_mul]
  | sell => rw [Side.sign, Int.cast_neg, Int.cast_one, neg_one_mul, sub_eq_add_neg]

namespace RolloverAction

/-- A part of a move that is priced off a tick: slippage moves its price against the trader, and
costs what it moves the price by, for every lot. -/
structure Charged (a : RolloverAction ℚ) (pricing : LegPricing ℚ) (t : Tick ℚ) : Prop where
  base : 0 < pricing.reference a.side t
  price : a.price = pricing.reference a.side t +
    a.side.sign * (pricing.reference a.side t * pricing.slippageBps / 10000)
  buying : a.side = .buy → pricing.reference a.side t ≤ a.price
  selling : a.side = .sell → a.price ≤ pricing.reference a.side t
  cost : a.slippageCost = a.volume * |a.price - pricing.reference a.side t|
  nonneg : 0 ≤ a.slippageCost

variable {a : RolloverAction ℚ} {terms : RolloverTerms ℚ} {t : Tick ℚ}

/-- Slippage that is not negative, off a positive price. -/
lemma PricedOff.charged (h : a.PricedOff terms t) (hterms : terms.Admissible) (ht : 0 < t.last)
    (hvolume : 0 ≤ a.volume) : a.Charged terms.pricing t := by
  obtain ⟨hprice, hcost⟩ := Prod.mk.inj h
  rw [LegPricing.price_eq] at hprice hcost
  simp only [Scalar.ofInt_exact] at hprice hcost
  have hbase := terms.pricing.reference_pos ht a.side
  have hlow : 0 ≤ terms.pricing.slippageBps := not_lt.mp hterms.2
  have hshare : 0 ≤ terms.pricing.reference a.side t * terms.pricing.slippageBps / 10000 := by
    positivity
  have hlots : (0 : ℚ) ≤ a.volume := by exact_mod_cast hvolume
  have hmoved : |a.price - terms.pricing.reference a.side t| =
      terms.pricing.reference a.side t * terms.pricing.slippageBps / 10000 := by
    rw [hprice, add_sub_cancel_left, abs_mul, abs_of_nonneg hshare]
    rcases a.side.sign_eq with hs | hs <;> rw [hs] <;> norm_num
  refine ⟨hbase, hprice, ?_, ?_, ?_, ?_⟩
  · intro hside
    have hsign : (a.side.sign : ℚ) = 1 := by rw [hside, Side.sign, Int.cast_one]
    rw [hprice, hsign, one_mul]
    exact le_add_of_nonneg_right hshare
  · intro hside
    have hsign : (a.side.sign : ℚ) = -1 := by rw [hside, Side.sign, Int.cast_neg, Int.cast_one]
    rw [hprice, hsign, neg_one_mul]
    exact add_le_of_nonpos_right (neg_nonpos.mpr hshare)
  · rw [hcost, hmoved, mul_comm]
  · rw [hcost]
    exact mul_nonneg hshare hlots

/-- At the price that it is based on, a part brings what it costs, as a loss. -/
lemma Charged.flowOf {pricing : LegPricing ℚ} (h : a.Charged pricing t) (hsome : 0 < a.volume) :
    Booking.flowOf a.side a.volume a.price (pricing.reference a.side t) = -a.slippageCost := by
  rw [Booking.flowOf, if_pos hsome, h.cost]
  cases hside : a.side with
  | buy =>
    have hup := sub_nonneg.mpr (h.buying hside)
    rw [hside] at hup
    rw [abs_of_nonneg hup, Side.sign]
    push_cast
    ring
  | sell =>
    have hdown := sub_nonpos.mpr (h.selling hside)
    rw [hside] at hdown
    rw [abs_of_nonpos hdown, Side.sign]
    push_cast
    ring

end RolloverAction

/-! ## Moves -/

/-- What a rollover lost to slippage, by its parts, and what it did to the profit of the book.  The
closing part is priced off the last tick of the old contract, the opening part off the first tick of
the new one, and handing over costs nothing.  The parts add up, and priced off the last trade they
are just what the profit loses. -/
structure RolloverEvent.Costs (e : RolloverEvent ℚ) (terms : RolloverTerms ℚ) (t last : Tick ℚ)
    (book book' : Book ℚ) (parts : List (RolloverAction ℚ)) : Prop where
  made : Rollover.Legs ⟨e.symbol, e.source, e.target⟩ t book book' e.applied parts
  closing : ∀ a ∈ parts, a.leg = .closing → a.Charged terms.pricing last
  opening : ∀ a ∈ parts, a.leg = .opening → a.Charged terms.pricing t
  carrying : ∀ a ∈ parts, a.leg = .carrying → a.slippageCost = 0
  total : e.slippageCost = (parts.map (·.slippageCost)).sum
  profit : e.applied = .strict → terms.pricing.mode = .last →
    book'.totalPnl = book.totalPnl - e.slippageCost

namespace Rollover

variable {r r' : Rollover ℚ} {p : PendingRollover} {t last : Tick ℚ} {book : Book ℚ} {m : Move ℚ}

/-- The cost of a move is that of its parts. -/
lemma slippageCost_of_move? (h : r.move? p t book = some m) :
    m.slippageCost = (m.actions.map (·.slippageCost)).sum := by
  simp only [move?] at h
  split at h
  · cases h
  · split at h
    · simp only [moveStrict?, Option.bind_eq_bind, Option.bind_eq_some_iff, Option.some.injEq,
        Prod.exists] at h
      obtain ⟨mid, closed, -, final, opened, -, rfl⟩ := h
      simp only [List.map_cons, List.map_nil, List.sum_cons, List.sum_nil, add_zero]
      exact add_mul _ _ _
    · obtain rfl := Option.some.inj h
      simp [moveByCarry]

/-- Off the last trades, which are the marks, a move by trades takes its cost from the profit. -/
lemma totalPnl_of_move? (hterms : r.terms.Admissible) (hlast : 0 < last.last) (ht : 0 < t.last)
    (hseen : r.lastTicks.get? p.source = some last) (hheld : book.net p.source ≠ 0)
    (hsource : book.mark? p.source = some last.last) (htarget : book.mark? p.target = some t.last)
    (hmode : r.terms.pricing.mode = .last) (h : r.move? p t book = some m)
    (hstrict : r.modeFor book p.target = .strict) :
    m.book.totalPnl = book.totalPnl - m.slippageCost := by
  have hcost := slippageCost_of_move? h
  obtain ⟨volume, hvolume, htrades | hcarry⟩ := move?_cases h
  · obtain ⟨-, mid, closed, opened, hclose, hopen, hactions, -⟩ := htrades
    have hsome := Count.pos_of_abs? hheld hvolume
    have hbase : ∀ side (x : Tick ℚ), r.terms.pricing.reference side x = x.last := by
      intro side x
      simp only [LegPricing.reference, hmode]
    have hclosing : (r.closingLeg p t book volume closed).Charged r.terms.pricing last :=
      (closing_pricedOff hseen t).charged hterms hlast hsome.le
    have hopening : (r.openingLeg p t book volume opened).Charged r.terms.pricing t :=
      opening_pricedOff.charged hterms ht hsome.le
    have hclosed := hclosing.flowOf hsome
    have hopened := hopening.flowOf hsome
    rw [hbase] at hclosed hopened
    -- both trades are made off the mark, so each of them takes from the profit what it costs
    have hmid : mid.totalPnl =
        book.totalPnl - (r.closingLeg p t book volume closed).slippageCost := by
      rw [Book.totalPnl_add_flowOf hclose hsource, sub_eq_add_neg, ← hclosed]
      rfl
    have hmark : mid.mark? p.target = some t.last := by
      rw [Book.mark?, Book.marks_of_trade? hclose]
      exact htarget
    have hend : m.book.totalPnl =
        mid.totalPnl - (r.openingLeg p t book volume opened).slippageCost := by
      rw [Book.totalPnl_add_flowOf hopen hmark, sub_eq_add_neg, ← hopened]
      rfl
    rw [hend, hmid, hcost, hactions, List.map_cons, List.map_singleton, List.sum_cons,
      List.sum_singleton, sub_sub]
  · cases hstrict.symm.trans hcarry.1

/-- A switch that comes up in a run, with a price in either contract that is its mark, costs what
its summary says. -/
lemma costs_of_move? (hne : p.source ≠ p.target) (hterms : r.terms.Admissible)
    (hlast : 0 < last.last) (ht : 0 < t.last) (hseen : r.lastTicks.get? p.source = some last)
    (hheld : book.net p.source ≠ 0) (hsource : book.mark? p.source = some last.last)
    (htarget : book.mark? p.target = some t.last) (h : r.move? p t book = some m)
    (canceled : Nat) :
    (r.summary p t book m canceled).Costs r.terms t last book m.book m.actions := by
  have hparts : ∀ a ∈ m.actions, (a.leg = .closing → a.Charged r.terms.pricing last) ∧
      (a.leg = .opening → a.Charged r.terms.pricing t) ∧
      (a.leg = .carrying → a.slippageCost = 0) := by
    obtain ⟨volume, hvolume, htrades | hcarry⟩ := move?_cases h
    · obtain ⟨-, mid, closed, opened, -, -, hactions, -⟩ := htrades
      have hsome := Count.pos_of_abs? hheld hvolume
      rw [hactions, List.forall_mem_cons, List.forall_mem_singleton]
      constructor
      · refine ⟨fun _ => (closing_pricedOff hseen t).charged hterms hlast hsome.le, ?_, ?_⟩
        · rintro ⟨⟩
        · rintro ⟨⟩
      · refine ⟨?_, fun _ => opening_pricedOff.charged hterms ht hsome.le, ?_⟩
        · rintro ⟨⟩
        · rintro ⟨⟩
    · obtain ⟨-, -, hactions, -⟩ := hcarry
      rw [hactions, List.forall_mem_singleton]
      refine ⟨?_, ?_, fun _ => rfl⟩
      · rintro ⟨⟩
      · rintro ⟨⟩
  exact
    { made := legs_of_move? hne h
      closing := fun a ha => (hparts a ha).1
      opening := fun a ha => (hparts a ha).2.1
      carrying := fun a ha => (hparts a ha).2.2
      total := slippageCost_of_move? h
      profit := fun hstrict hmode =>
        totalPnl_of_move? hterms hlast ht hseen hheld hsource htarget hmode h hstrict }

end Rollover

/-! ## Marks -/

namespace Run

section Marks

variable {α : Type} [Scalar α] {sim : Simulation α} {ticks : List (Tick α)}
  {run run' arrived : Run sim} {t : Tick α}

/-- The mark of every instrument is the price of its last tick. -/
def LastMarked (run : Run sim) (ticks : List (Tick α)) : Prop :=
  ∀ instrument, run.floor.book.mark? instrument =
    (lastTick? ticks fun i => i = instrument).map (·.last)

/-- A tick that has arrived is marked, and its bar marks nothing. -/
lemma LastMarked.arrive (h : run.LastMarked ticks) (hdet : sim.deterministic = true)
    (ha : run.arrive? t = some arrived) : arrived.LastMarked (ticks ++ [t]) := by
  obtain ⟨bars, closed, mid, -, hmid, rfl⟩ := arrive?_cases ha
  have hkeeps : ∀ bar : Bar α, Floor.Keeps (fun book (_ : AuditLog α) =>
      book.marks = run.floor.book.marks) bar.instrument bar.lastTime := fun bar =>
    { order := fun h _ _ _ => h
      fill := fun h _ _ _ _ _ _ _ ht => (Book.marks_of_trade? ht).trans h }
  have hcounted : ({ run.count t with bars } : Run sim).floor.book.marks =
      run.floor.book.marks := rfl
  have hmarks : mid.floor.book.marks = run.floor.book.marks :=
    (onClosed?_keeps (fun bar _ => hkeeps bar) hdet hcounted hmid).1
  intro instrument
  rw [lastTick?_concat]
  refine (Book.mark?_mark ..).trans ?_
  rw [Book.mark?, hmarks]
  by_cases hsame : t.instrument = instrument
  · rw [if_pos hsame, if_pos hsame.symm]
    rfl
  · rw [if_neg hsame, if_neg (Ne.symm hsame)]
    exact h instrument

/-- Whatever ticks are taken, their prices are the marks. -/
theorem lastMarked_feed (hdet : sim.deterministic = true)
    (h : (Run.start sim).feed ticks = .ok run) : run.LastMarked ticks := by
  refine feed_induct (P := fun ticks run => run.LastMarked ticks) (fun _ => rfl) ?_ h
  intro ticks run t run' _ hrun ht
  obtain ⟨arrived, ha, hfollow⟩ := onTick?_cases hdet ht
  have harrived := hrun.arrive hdet ha
  intro instrument
  rw [Book.mark?, marks_followContract? hfollow]
  exact harrived instrument

omit [Scalar α] in
/-- When a switch comes up, the last tick of the old contract is known and is its mark, and the tick
is the mark of the new one. -/
lemma LastMarked.of_due (h : run.LastMarked (ticks ++ [t])) {r : Rollover α} {source : String}
    (hdue : r.Due ticks t source run.floor.book) :
    ∃ last, lastTick? ticks (fun i => i = source) = some last ∧
      (r.see t).lastTicks.get? source = some last ∧
      run.floor.book.mark? source = some last.last ∧
      run.floor.book.mark? t.instrument = some t.last := by
  obtain ⟨last, hlast, hseen⟩ := hdue.seen
  refine ⟨last, hlast, hseen, ?_, ?_⟩
  · rw [h source, lastTick?_concat, if_neg hdue.ne.symm, hlast]
    rfl
  · rw [h t.instrument, lastTick?_concat, if_pos rfl]
    rfl

end Marks

end Run

/-! ## Runs -/

/-- A rollover of a simulation comes of one of the ticks, after it has arrived and was marked, and
costs what it is said to cost, measured against the book right before it and right after it. -/
def RolloverEvent.CostsIn (e : RolloverEvent ℚ) (sim : Simulation ℚ) (ticks : List (Tick ℚ))
    (parts : List (RolloverAction ℚ)) : Prop :=
  ∃ (terms : RolloverTerms ℚ) (before : List (Tick ℚ)) (t : Tick ℚ) (after : List (Tick ℚ))
      (run arrived run' : Run sim) (last : Tick ℚ),
    sim.rollover = some terms ∧ ticks = before ++ t :: after ∧
      (Run.start sim).feed before = .ok run ∧ run.arrive? t = some arrived ∧
      arrived.followContract? t = some run' ∧ run'.moves = arrived.moves ++ [e] ∧
      lastTick? before (fun i => i = e.source) = some last ∧
      e.Costs terms t last arrived.floor.book run'.floor.book parts

lemma RolloverEvent.CostsIn.more {e : RolloverEvent ℚ} {sim : Simulation ℚ} {ticks : List (Tick ℚ)}
    {parts : List (RolloverAction ℚ)} (h : e.CostsIn sim ticks parts) (more : List (Tick ℚ)) :
    e.CostsIn sim (ticks ++ more) parts := by
  obtain ⟨terms, before, t, after, run, arrived, run', last, hsim, rfl, hrest⟩ := h
  exact ⟨terms, before, t, after ++ more, run, arrived, run', last, hsim, by simp, hrest⟩

/-- The total is that of the summaries, the list of parts is that of all moves one after the other,
and every summary adds up the parts of its own move. -/
structure Rollover.AddsUp (r : Rollover ℚ) (sim : Simulation ℚ) (ticks : List (Tick ℚ))
    (parts : List (List (RolloverAction ℚ))) : Prop where
  total : r.slippageTotal = (r.events.toList.map (·.slippageCost)).sum
  actions : r.actions.toList = parts.flatten
  events : List.Forall₂ (fun e own => e.CostsIn sim ticks own) r.events.toList parts

namespace Rollover.AddsUp

variable {r seen : Rollover ℚ} {sim : Simulation ℚ} {ticks : List (Tick ℚ)} {t : Tick ℚ}
  {parts : List (List (RolloverAction ℚ))}

lemma start (sim : Simulation ℚ) (terms : RolloverTerms ℚ) :
    (Rollover.start terms).AddsUp sim [] [] :=
  ⟨rfl, rfl, .nil⟩

lemma more (h : r.AddsUp sim ticks parts) (more : List (Tick ℚ)) :
    r.AddsUp sim (ticks ++ more) parts :=
  ⟨h.total, h.actions, h.events.imp fun _ _ he => he.more more⟩

/-- Noticing a tick costs nothing. -/
lemma detect {book : Book ℚ} {pending : Option PendingRollover} (h : r.AddsUp sim ticks parts)
    (hd : r.detect t book = (seen, pending)) : seen.AddsUp sim ticks parts := by
  rcases detect_cases hd with ⟨-, rfl, -⟩ | ⟨-, rfl, -⟩ | ⟨source, -, -, -, rfl, -⟩ <;>
    exact ⟨h.total, h.actions, h.events⟩

/-- One move more. -/
lemma afterMove {p : PendingRollover} {m : Move ℚ} {event : RolloverEvent ℚ}
    (h : r.AddsUp sim ticks parts) (hcost : event.slippageCost = m.slippageCost)
    (hevent : event.CostsIn sim ticks m.actions) :
    (r.afterMove p m event).AddsUp sim ticks (parts ++ [m.actions]) where
  total := by
    simp only [Rollover.afterMove, Rollover.activate, Array.toList_push, List.map_append,
      List.sum_append, List.map_singleton, List.sum_singleton, h.total, hcost]
  actions := by
    simp only [Rollover.afterMove, Rollover.activate, Array.toList_append, List.flatten_append,
      List.flatten_singleton, h.actions]
  events := by
    simp only [Rollover.afterMove, Rollover.activate, Array.toList_push]
    exact List.rel_append h.events (.cons hevent .nil)

end Rollover.AddsUp

namespace Run

variable {sim : Simulation ℚ} {ticks : List (Tick ℚ)} {run run' arrived : Run sim} {t : Tick ℚ}

/-- A switch that comes up in a run costs what it is said to cost. -/
lemma costsIn_roll? (hdet : sim.deterministic = true)
    (hterms : ∀ terms, sim.rollover = some terms → terms.Admissible)
    (hprices : ∀ x ∈ ticks ++ [t], 0 < x.last) (hfeed : (Run.start sim).feed ticks = .ok run)
    (ha : run.arrive? t = some arrived) {r : Rollover ℚ} (hr : arrived.rollover = some r)
    (hfollow : arrived.followContract? t = some run') {source : String}
    (hdue : r.Due ticks t source arrived.floor.book)
    (hroll : arrived.roll? (r.see t) ⟨underlying t.instrument, source, t.instrument⟩ t =
      some run') :
    ∃ (p : PendingRollover) (m : Rollover.Move ℚ) (event : RolloverEvent ℚ),
      run'.rollover = some ((r.see t).afterMove p m event) ∧
      event.slippageCost = m.slippageCost ∧ event.CostsIn sim (ticks ++ [t]) m.actions := by
  obtain ⟨hsim, -⟩ := follows_arrive hdet hfeed ha hr
  obtain ⟨last, hlast, hseen, hsource, htarget⟩ :=
    ((lastMarked_feed hdet hfeed).arrive hdet ha).of_due hdue
  have hlastPos : 0 < last.last :=
    hprices last (List.mem_append_left _ (fits_of_lastTick? hlast).1)
  have htPos : 0 < t.last := hprices t (by simp)
  obtain ⟨r', book, log, event, hexec, rfl⟩ := roll?_cases hroll
  obtain ⟨m, hm, rfl, rfl, -, rfl⟩ := Rollover.execute?_cases hexec
  -- the orders that are dropped first have not touched the book
  rw [Floor.book_cancel] at hm
  have hcosts := Rollover.costs_of_move? (r := r.see t)
    (p := ⟨underlying t.instrument, source, t.instrument⟩) hdue.ne (hterms r.terms hsim) hlastPos
    htPos hseen hdue.held hsource htarget hm (arrived.floor.cancel source t.time).2
  refine ⟨_, m, _, rfl, rfl, r.terms, ticks, t, [], run, arrived, _, last, hsim, rfl, hfeed, ha,
    hfollow, ?_, hlast, ?_⟩
  · simp [moves, hr, Rollover.afterMove, Rollover.activate, Rollover.see]
  · rw [Floor.book_cancel]
    exact hcosts

/-- A tick keeps the accounts of its rollovers. -/
lemma addsUp_onTick? (hdet : sim.deterministic = true)
    (hterms : ∀ terms, sim.rollover = some terms → terms.Admissible)
    (hprices : ∀ x ∈ ticks ++ [t], 0 < x.last) (hfeed : (Run.start sim).feed ticks = .ok run)
    {parts : List (List (RolloverAction ℚ))}
    (h : ∀ r, run.rollover = some r → r.AddsUp sim ticks parts) (ht : run.onTick? t = some run') :
    ∃ parts', ∀ r, run'.rollover = some r → r.AddsUp sim (ticks ++ [t]) parts' := by
  obtain ⟨arrived, ha, hfollow⟩ := onTick?_cases hdet ht
  have hrollover := rollover_arrive? ha
  rcases followContract?_cases hfollow with
    ⟨hnone, rfl⟩ | ⟨r, seen, pending, hr, hd, ⟨-, rfl⟩ | ⟨p, rfl, hroll⟩⟩
  · refine ⟨[], fun r hr => ?_⟩
    rw [hnone] at hr
    cases hr
  · have hadds := (h r (hrollover ▸ hr)).detect hd
    refine ⟨parts, fun r' hr' => ?_⟩
    obtain rfl := Option.some.inj hr'
    exact hadds.more [t]
  · have hadds := (h r (hrollover ▸ hr)).detect hd
    obtain ⟨source, hactive, hne, hheld, rfl, rfl⟩ := Rollover.switch_of_detect hd
    have hdue : r.Due ticks t source arrived.floor.book :=
      ⟨(follows_arrive hdet hfeed ha hr).2, hactive, hne, hheld⟩
    obtain ⟨p, m, event, hmoved, hcost, hcosts⟩ :=
      costsIn_roll? hdet hterms hprices hfeed ha hr hfollow hdue hroll
    refine ⟨parts ++ [m.actions], fun r' hr' => ?_⟩
    obtain rfl := Option.some.inj (hmoved.symm.trans hr')
    exact (hadds.more [t]).afterMove hcost hcosts

/-- So do all ticks. -/
theorem addsUp_feed (hdet : sim.deterministic = true)
    (hterms : ∀ terms, sim.rollover = some terms → terms.Admissible)
    (hprices : ∀ t ∈ ticks, 0 < t.last) (h : (Run.start sim).feed ticks = .ok run) :
    ∃ parts, ∀ r, run.rollover = some r → r.AddsUp sim ticks parts := by
  revert hprices
  refine feed_induct (P := fun ticks run => (∀ t ∈ ticks, 0 < t.last) →
    ∃ parts, ∀ r, run.rollover = some r → r.AddsUp sim ticks parts) ?_ ?_ h
  · refine fun _ => ⟨[], fun r hr => ?_⟩
    simp only [start, hdet, if_true, Option.map_eq_some_iff] at hr
    obtain ⟨terms, -, rfl⟩ := hr
    exact .start sim terms
  · intro ticks run t run' hfeed ih ht hprices
    obtain ⟨parts, hparts⟩ := ih fun x hx => hprices x (List.mem_append_left _ hx)
    exact addsUp_onTick? hdet hterms hprices hfeed hparts ht

/-- The last bar and the end of a run follow no contract. -/
lemma rollover_finish? (h : run.finish? = some run') : run'.rollover = run.rollover := by
  obtain ⟨mid, hmid, rfl⟩ := finish?_cases h
  have hdropped : mid.shutdown.dropWaiting.rollover = mid.rollover := by
    rw [dropWaiting]
    split <;> rfl
  rw [hdropped, (onClosed?_sameTape hmid).rollover]

end Run

/-- **Rollovers cost what they say.**  Read in exact numbers, in a run over ticks with positive
prices and with slippage that is not negative, after any tick and at the end:

* the reported total is the sum over the reported rollovers, and it is part of the performance;
* the reported parts are those of the rollovers, one after the other, and every rollover costs what
  its own parts cost together;
* a part that was traded is moved against the trader off the price of its tick, and costs what that
  comes to for all its lots; a position that was handed over cost nothing;
* off the last trade, the profit of the book right after a move by trades is the profit right before
  it less the cost of the rollover. -/
theorem rollover_costs_add_up {sim : Simulation ℚ} (hdet : sim.deterministic = true)
    (hterms : ∀ terms, sim.rollover = some terms → terms.Admissible) {ticks : List (Tick ℚ)}
    (hprices : ∀ t ∈ ticks, 0 < t.last) {run : Run sim}
    (h : (Run.start sim).feed ticks = .ok run ∨ Run.through sim ticks = .ok run) :
    (PositionReport.of run).rolloverSlippage =
        ((PositionReport.of run).rolloverEvents.map (·.slippageCost)).sum ∧
      (PositionReport.of run).performance.rolloverSlippage =
        (PositionReport.of run).rolloverSlippage ∧
      ∃ parts, (PositionReport.of run).rolloverActions = parts.flatten ∧
        List.Forall₂ (fun e own => e.CostsIn sim ticks own)
          (PositionReport.of run).rolloverEvents parts := by
  obtain ⟨parts, hparts⟩ : ∃ parts, ∀ r, run.rollover = some r → r.AddsUp sim ticks parts := by
    rcases h with hfeed | hthrough
    · exact Run.addsUp_feed hdet hterms hprices hfeed
    · obtain ⟨fed, hfeed, hfinish⟩ := Run.through_cases hthrough
      rw [Run.rollover_finish? hfinish]
      exact Run.addsUp_feed hdet hterms hprices hfeed
  cases hrollover : run.rollover with
  | none =>
    simp only [PositionReport.of, hrollover, Performance.of]
    exact ⟨rfl, trivial, [], rfl, .nil⟩
  | some r =>
    have hadds := hparts r hrollover
    simp only [PositionReport.of, hrollover, Performance.of]
    exact ⟨hadds.total, trivial, parts, hadds.actions, hadds.events⟩

/-! ## The sold lot, off the last trade -/

/-- The sold lot is moved at the last trades, with a slippage of a fifth of a percent. -/
def soldLotOffLast : Simulation ℚ :=
  { soldLot 0 with rollover := some ⟨.strict, ⟨.last, 20⟩⟩ }

/-- Buying the lot back at 100 costs a fifth, selling it again at 110 a little more.  Nothing else
was earned or lost. -/
theorem rollover_costs_add_up_soldLotOffLast :
    ∃ run : Run soldLotOffLast, Run.through soldLotOffLast soldLotTicks = .ok run ∧
      (PositionReport.of run).rolloverActions.map (·.slippageCost) = [1 / 5, 11 / 50] ∧
      (PositionReport.of run).rolloverSlippage = 21 / 50 ∧
      run.floor.book.totalPnl = -(21 / 50) ∧
      ∃ e parts, (PositionReport.of run).rolloverEvents = [e] ∧
        e.CostsIn soldLotOffLast soldLotTicks parts := by
  have hvalues : (Run.through soldLotOffLast soldLotTicks).toOption.map
      (fun run => ((PositionReport.of run).rolloverActions.map (·.slippageCost),
        (PositionReport.of run).rolloverEvents.map (·.slippageCost),
        run.floor.book.totalPnl)) =
      some ([1 / 5, 11 / 50], [21 / 50], -(21 / 50)) := by decide +kernel
  obtain ⟨run, hrun, hvalues⟩ := Run.exists_of_through hvalues
  obtain ⟨hactions, hevents, hprofit⟩ := by simpa only [Prod.mk.injEq] using hvalues
  have hterms : ∀ terms, soldLotOffLast.rollover = some terms → terms.Admissible := by
    intro terms hterms
    obtain rfl := Option.some.inj hterms
    decide +kernel
  obtain ⟨htotal, -, parts, -, hall⟩ :=
    rollover_costs_add_up rfl hterms (by decide +kernel) (.inr hrun)
  obtain ⟨e, he, -⟩ := List.map_eq_singleton_iff.mp hevents
  rw [he] at hall
  obtain ⟨own, -, hown, -, -⟩ := List.forall₂_cons_left_iff.mp hall
  refine ⟨run, hrun, hactions, ?_, hprofit, e, own, he, hown⟩
  rw [htotal, hevents, List.sum_singleton]

end MarketTape
