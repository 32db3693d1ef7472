import MarketTape.Proofs.Bars
import MarketTape.Proofs.Rollover
import MarketTape.Proofs.Run

/-!
# One live contract per symbol

The active contract of a symbol is the one that traded last, and lots are never held in another.
The reason is the order of steps inside a tick.  A bar is closed before its tick switches the
contract, so whatever trades on it trades in the contract that is still active; the switch then
moves all lots away before the next bar is built.

Two consequences make rollovers simpler than they look.  The new contract is flat when a position
moves there, so a position that is to be carried is carried; and a tick of the old contract was
seen, so its price never falls back on a mark or on an average.

* `lastTick?` is the last tick of a stream among the instruments that fit.
* `Follows` is the invariant of the active contracts and the book, `Bars.Open` that of the open bar.
* `RolloverEvent.ComesOf` is what there is to say about a single rollover.
* `one_live_contract` is the result.
-/

namespace MarketTape

variable {α : Type}

/-! ## The last tick of a stream -/

/-- The last tick of a stream among the instruments that fit. -/
def lastTick? (ticks : List (Tick α)) (fits : String → Prop) [DecidablePred fits] :
    Option (Tick α) :=
  (ticks.filter fun t => fits t.instrument).getLast?

section LastTick

variable {ticks : List (Tick α)} {fits : String → Prop} [DecidablePred fits]

lemma lastTick?_concat (t : Tick α) :
    lastTick? (ticks ++ [t]) fits =
      if fits t.instrument then some t else lastTick? ticks fits := by
  simp only [lastTick?, List.filter_append]
  by_cases hfits : fits t.instrument <;> simp [hfits]

lemma fits_of_lastTick? {t : Tick α} (h : lastTick? ticks fits = some t) :
    t ∈ ticks ∧ fits t.instrument := by
  have hmem := List.mem_of_getLast? h
  rw [List.mem_filter, decide_eq_true_eq] at hmem
  exact hmem

lemma lastTick?_isSome {t : Tick α} (ht : t ∈ ticks) (hfits : fits t.instrument) :
    ∃ last, lastTick? ticks fits = some last := by
  have hmem : t ∈ ticks.filter fun t => fits t.instrument :=
    List.mem_filter.mpr ⟨ht, decide_eq_true hfits⟩
  exact ⟨_, List.getLast?_eq_some_getLast (List.ne_nil_of_mem hmem)⟩

/-- The last tick of all is the last one of its own instrument and symbol. -/
lemma lastTick?_of_getLast? {t : Tick α} (h : ticks.getLast? = some t)
    (hfits : fits t.instrument) : lastTick? ticks fits = some t := by
  obtain ⟨before, rfl⟩ := List.getLast?_eq_some_iff.mp h
  rw [lastTick?_concat, if_pos hfits]

end LastTick

/-! ## The open bar -/

namespace Bars

/-- The open bar is one of the instrument that ticked last. -/
def Open (s : Bars α) (ticks : List (Tick α)) : Prop :=
  s.current.map (·.instrument) = ticks.getLast?.map (·.instrument)

variable [Scalar α]

/-- After a tick the open bar is one of its instrument, and a bar that it closed was the open
one. -/
lemma push?_cases {s s' : Bars α} {t : Tick α} {closed : Option (Bar α)}
    (h : s.push? t = some (s', closed)) :
    s'.current.map (·.instrument) = some t.instrument ∧
      ∀ bar, closed = some bar → s.current.map (·.instrument) = some bar.instrument := by
  obtain ⟨b, hb, hends⟩ := push?_endsWith h
  refine ⟨by rw [hb]; exact congrArg some hends.instrument, ?_⟩
  rintro bar rfl
  obtain ⟨b, hb, rfl⟩ := push?_closed h
  rw [hb]
  rfl

lemma flush_cases {s : Bars α} {bar : Bar α} (h : s.flush.2 = some bar) :
    s.current.map (·.instrument) = some bar.instrument := by
  rw [flush_eq, Option.map_eq_some_iff] at h
  obtain ⟨b, hb, rfl⟩ := h
  rw [hb]
  rfl

end Bars

/-! ## The active contracts -/

/-- The active contracts are those that ticked last in their symbols, lots are held in no others,
and the last ticks are known. -/
structure Follows (ticks : List (Tick α)) (r : Rollover α) (book : Book α) : Prop where
  active : ∀ symbol, r.activeContract? symbol =
    (lastTick? ticks fun i => underlying i = symbol).map (·.instrument)
  flat : ∀ instrument, r.activeContract? (underlying instrument) ≠ some instrument →
    book.net instrument = 0
  seen : ∀ instrument, r.lastTicks.get? instrument = lastTick? ticks fun i => i = instrument

namespace Follows

variable {ticks : List (Tick α)} {r : Rollover α} {book : Book α} {t : Tick α}

/-- The instrument that ticked last is the active one of its symbol. -/
lemma active_of_getLast? (h : Follows ticks r book) {instrument : String}
    (hopen : ticks.getLast?.map (·.instrument) = some instrument) :
    r.activeContract? (underlying instrument) = some instrument := by
  obtain ⟨last, hlast, rfl⟩ := Option.map_eq_some_iff.mp hopen
  have hsymbol : lastTick? ticks (fun i => underlying i = underlying last.instrument) = some last :=
    lastTick?_of_getLast? hlast rfl
  rw [h.active, hsymbol]
  rfl

/-- An active contract belongs to its symbol, and a tick of it was seen. -/
lemma tick_of_active (h : Follows ticks r book) {symbol instrument : String}
    (hactive : r.activeContract? symbol = some instrument) :
    underlying instrument = symbol ∧
      ∃ last, lastTick? ticks (fun i => i = instrument) = some last := by
  rw [h.active, Option.map_eq_some_iff] at hactive
  obtain ⟨last, hlast, rfl⟩ := hactive
  obtain ⟨hmem, hsymbol⟩ := fits_of_lastTick? hlast
  exact ⟨hsymbol, lastTick?_isSome hmem rfl⟩

/-- Where another contract is the active one, that of a tick is flat. -/
lemma flat_of_active (h : Follows ticks r book) {source : String}
    (hactive : r.activeContract? (underlying t.instrument) = some source)
    (hne : source ≠ t.instrument) : book.net t.instrument = 0 := by
  refine h.flat t.instrument ?_
  rw [hactive]
  exact fun heq => hne (Option.some.inj heq)

/-- The last tick of the active contract is known when a tick of another one comes. -/
lemma seen_of_active (h : Follows ticks r book) {source : String}
    (hactive : r.activeContract? (underlying t.instrument) = some source)
    (hne : source ≠ t.instrument) :
    ∃ last, lastTick? ticks (fun i => i = source) = some last ∧
      (r.see t).lastTicks.get? source = some last := by
  obtain ⟨-, last, hlast⟩ := h.tick_of_active hactive
  refine ⟨last, hlast, ?_⟩
  rw [Rollover.see, Table.get?_insert, if_neg hne, h.seen, hlast]

/-- Trading in an active contract keeps the others flat. -/
lemma keeps [Scalar α] (r : Rollover α) {instrument : String}
    (hactive : r.activeContract? (underlying instrument) = some instrument) (time : Int) :
    Floor.Keeps (fun book (_ : AuditLog α) => ∀ other,
      r.activeContract? (underlying other) ≠ some other → book.net other = 0)
      instrument time where
  order h _ _ _ := h
  fill h := by
    intro intent bar volume book' profit _ _ ht other hother
    have hne : other ≠ instrument := by
      rintro rfl
      exact hother hactive
    rw [Book.net_of_trade? ht, if_neg (fun hsame => hne hsame.1)]
    exact h other hother

/-- With one more tick seen, the active contract of its symbol is its instrument, if all others of
the symbol are flat. -/
lemma activate {r' : Rollover α} {book' : Book α} (h : Follows ticks r book)
    (hactive : ∀ symbol, r'.activeContract? symbol =
      if symbol = underlying t.instrument then some t.instrument else r.activeContract? symbol)
    (hseen : r'.lastTicks = r.lastTicks.insert t.instrument t)
    (hflat : ∀ other, underlying other = underlying t.instrument → other ≠ t.instrument →
      book'.net other = 0)
    (hframe : ∀ other, underlying other ≠ underlying t.instrument →
      book'.net other = book.net other) : Follows (ticks ++ [t]) r' book' where
  active := by
    intro symbol
    rw [hactive, lastTick?_concat, h.active]
    by_cases hsymbol : symbol = underlying t.instrument
    · rw [if_pos hsymbol, if_pos hsymbol.symm]
      rfl
    · rw [if_neg hsymbol, if_neg (Ne.symm hsymbol)]
  flat := by
    intro other hother
    rw [hactive] at hother
    by_cases hsymbol : underlying other = underlying t.instrument
    · rw [if_pos hsymbol] at hother
      exact hflat other hsymbol fun hsame => hother (congrArg some hsame.symm)
    · rw [if_neg hsymbol] at hother
      rw [hframe other hsymbol]
      exact h.flat other hother
  seen := by
    intro instrument
    rw [hseen, Table.get?_insert, lastTick?_concat, h.seen]
    by_cases hsame : instrument = t.instrument
    · rw [if_pos hsame, if_pos hsame.symm]
    · rw [if_neg hsame, if_neg (Ne.symm hsame)]

/-- A tick that calls for no move keeps the contracts followed. -/
lemma detect {seen : Rollover α} {book : Book α} (h : Follows ticks r book)
    (hd : r.detect t book = (seen, none)) : Follows (ticks ++ [t]) seen book := by
  rcases Rollover.detect_cases hd with ⟨hsame, rfl, -⟩ | ⟨hother, rfl, -⟩ |
    ⟨source, -, -, -, -, hsome⟩
  · refine h.activate ?_ rfl ?_ fun _ _ => rfl
    · intro symbol
      rw [Rollover.activeContract?_see]
      split
      · rename_i hsymbol
        rw [hsymbol, hsame]
      · rfl
    · intro other hsymbol hne
      refine h.flat other ?_
      rw [hsymbol, hsame]
      exact fun heq => hne (Option.some.inj heq).symm
  · refine h.activate (fun symbol => Rollover.activeContract?_activate ..) rfl ?_ fun _ _ => rfl
    intro other hsymbol hne
    by_cases hactive : r.activeContract? (underlying other) = some other
    · rw [hsymbol] at hactive
      exact (hother other hactive).2
    · exact h.flat other hactive
  · cases hsome

/-- A move keeps the contracts followed. -/
lemma execute [Scalar α] {source : String} {book book' : Book α} {log log' : AuditLog α}
    {canceled : Nat} {r' : Rollover α} {event : RolloverEvent α} (h : Follows ticks r book)
    (hactive : r.activeContract? (underlying t.instrument) = some source)
    (hne : source ≠ t.instrument) (hheld : book.net source ≠ 0)
    (hx : (r.see t).execute? ⟨underlying t.instrument, source, t.instrument⟩ t book log canceled =
      some (r', book', log', event)) : Follows (ticks ++ [t]) r' book' := by
  obtain ⟨m, hm, rfl, rfl, -, rfl⟩ := Rollover.execute?_cases hx
  have hnet := Rollover.net_of_move? hne hheld hm
  have hsibling := (h.tick_of_active hactive).1
  refine h.activate (fun symbol => Rollover.activeContract?_activate ..) rfl ?_ ?_
  -- the old contract is flat now, and the rest of the symbol was flat before
  · intro other hsymbol hother
    rw [hnet]
    by_cases hsource : other = source
    · rw [if_pos hsource]
    · rw [if_neg hsource, if_neg hother]
      refine h.flat other ?_
      rw [hsymbol, hactive]
      exact fun heq => hsource (Option.some.inj heq).symm
  · intro other hsymbol
    have hsource : other ≠ source := by
      rintro rfl
      exact hsymbol hsibling
    have htarget : other ≠ t.instrument := by
      rintro rfl
      exact hsymbol rfl
    rw [hnet, if_neg hsource, if_neg htarget]

end Follows

/-! ## Single rollovers -/

variable [Scalar α]

/-- What there is to say about a rollover at a tick: the book in front of it holds lots in the old
contract and none in the new one, it is done the way it was asked for, and the old position is
closed, if it is closed at all, off the last tick of the old contract. -/
structure RolloverEvent.ComesOf (e : RolloverEvent α) (terms : RolloverTerms α) (t : Tick α)
    (book : Book α) (last : Tick α) : Prop where
  time : e.time = t.time
  target : e.target = t.instrument
  sibling : e.source ≠ e.target ∧ underlying e.source = e.symbol ∧ underlying e.target = e.symbol
  held : book.net e.source = e.net ∧ e.net ≠ 0
  flat : book.net e.target = 0
  asked : e.requested = terms.mode
  applied : e.applied = e.requested
  closed : e.closePrice = match e.applied with
    | .strict => some (terms.pricing.price (Side.ofPosition e.net).opposite last).1
    | .carry => none

/-- A part of a move that closes a position is priced off a tick. -/
def RolloverAction.PricedOff (a : RolloverAction α) (terms : RolloverTerms α) (last : Tick α) :
    Prop :=
  (a.price, a.slippageCost) =
    ((terms.pricing.price a.side last).1,
      (terms.pricing.price a.side last).2 * Scalar.ofInt a.volume)

namespace Rollover

variable {r r' : Rollover α} {p : PendingRollover} {t last : Tick α} {book book' : Book α}
  {log log' : AuditLog α} {canceled : Nat} {event : RolloverEvent α}

/-- A move to a flat contract from one whose last tick was seen is as it should be. -/
lemma comesOf_summary {m : Move α} (hm : r.move? p t book = some m)
    (htarget : p.target = t.instrument)
    (hsibling : p.source ≠ p.target ∧ underlying p.source = p.symbol ∧
      underlying p.target = p.symbol)
    (hheld : book.net p.source ≠ 0) (hflat : book.net p.target = 0)
    (hlast : r.lastTicks.get? p.source = some last) :
    (r.summary p t book m canceled).ComesOf r.terms t book last where
  time := rfl
  target := htarget
  sibling := hsibling
  held := ⟨rfl, hheld⟩
  flat := hflat
  asked := rfl
  applied := r.modeFor_of_flat hflat
  closed := by
    obtain ⟨volume, -, hstrict | hcarry⟩ := move?_cases hm
    · obtain ⟨hmode, mid, closed, opened, -, -, -, hprice⟩ := hstrict
      simp only [summary, hmode, hprice, closingLeg, closingPrice_of_seen hlast]
    · obtain ⟨hmode, -, -, hprice⟩ := hcarry
      simp only [summary, hmode, hprice]

/-- A part that closes the old position is priced off the last tick of the old contract. -/
lemma closing_pricedOff (hlast : r.lastTicks.get? p.source = some last) (t : Tick α) {volume : Int}
    {realized : α} : (r.closingLeg p t book volume realized).PricedOff r.terms last := by
  simp only [RolloverAction.PricedOff, closingLeg, closingPrice_of_seen hlast]

/-- A part that opens the new position is priced off the first tick of the new contract. -/
lemma opening_pricedOff {volume : Int} {realized : α} :
    (r.openingLeg p t book volume realized).PricedOff r.terms t := rfl

/-- The part of a move that closes the old position is priced off its last tick. -/
lemma pricedOff_of_move? {m : Move α} (hm : r.move? p t book = some m)
    (hlast : r.lastTicks.get? p.source = some last) {a : RolloverAction α} (ha : a ∈ m.actions)
    (hleg : a.leg = .closing) :
    a.instrument = p.source ∧ a.time = t.time ∧ a.symbol = p.symbol ∧
      a.PricedOff r.terms last := by
  obtain ⟨volume, -, hstrict | hcarry⟩ := move?_cases hm
  · obtain ⟨-, mid, closed, opened, -, -, hactions, -⟩ := hstrict
    rw [hactions] at ha
    rcases List.mem_cons.mp ha with rfl | ha
    · exact ⟨rfl, rfl, rfl, closing_pricedOff hlast t⟩
    · obtain rfl := List.mem_singleton.mp ha
      cases hleg
  · obtain ⟨-, -, hactions, -⟩ := hcarry
    rw [hactions] at ha
    obtain rfl := List.mem_singleton.mp ha
    cases hleg

end Rollover

/-- A rollover of a simulation comes of one of the ticks: it is made when the tick has arrived, and
the old contract has a last tick among those before. -/
def RolloverEvent.Explained (e : RolloverEvent α) (sim : Simulation α) (terms : RolloverTerms α)
    (ticks : List (Tick α)) : Prop :=
  ∃ (before : List (Tick α)) (t : Tick α) (after : List (Tick α)) (run arrived : Run sim)
      (last : Tick α),
    ticks = before ++ t :: after ∧ (Run.start sim).feed before = .ok run ∧
      run.arrive? t = some arrived ∧ lastTick? before (fun i => i = e.source) = some last ∧
      e.ComesOf terms t arrived.floor.book last

/-- A part of a move comes of one of the ticks, and it is priced off the last tick of its instrument
among those before. -/
def RolloverAction.Explained (a : RolloverAction α) (terms : RolloverTerms α)
    (ticks : List (Tick α)) : Prop :=
  ∃ before t after last, ticks = before ++ t :: after ∧ a.time = t.time ∧
    a.symbol = underlying t.instrument ∧ lastTick? before (fun i => i = a.instrument) = some last ∧
    a.PricedOff terms last

lemma RolloverEvent.Explained.more {e : RolloverEvent α} {sim : Simulation α}
    {terms : RolloverTerms α} {ticks : List (Tick α)} (h : e.Explained sim terms ticks)
    (more : List (Tick α)) : e.Explained sim terms (ticks ++ more) := by
  obtain ⟨before, t, after, run, arrived, last, rfl, hrest⟩ := h
  exact ⟨before, t, after ++ more, run, arrived, last, by simp, hrest⟩

lemma RolloverAction.Explained.more {a : RolloverAction α} {terms : RolloverTerms α}
    {ticks : List (Tick α)} (h : a.Explained terms ticks) (more : List (Tick α)) :
    a.Explained terms (ticks ++ more) := by
  obtain ⟨before, t, after, last, rfl, hrest⟩ := h
  exact ⟨before, t, after ++ more, last, by simp, hrest⟩

/-! ## Runs -/

namespace Run

variable {sim : Simulation α} {terms : RolloverTerms α} {ticks : List (Tick α)}
  {run run' arrived : Run sim} {r : Rollover α} {t : Tick α}

/-- The invariant of a run with rollovers: it follows the contracts, and all that it has moved is
explained. -/
structure Tracks (terms : RolloverTerms α) (ticks : List (Tick α)) (run : Run sim)
    (r : Rollover α) : Prop where
  rollover : run.rollover = some r
  agreed : r.terms = terms
  bar : run.bars.Open ticks
  follows : Follows ticks r run.floor.book
  events : ∀ e ∈ r.events.toList, e.Explained sim terms ticks
  actions : ∀ a ∈ r.actions.toList, a.leg = .closing → a.Explained terms ticks

/-- A bar of the instrument that ticked last trades in an active contract. -/
lemma follows_onClosed? {closed : Option (Bar α)} (hdet : sim.deterministic = true)
    (h : Follows ticks r run.floor.book)
    (hbar : ∀ bar, closed = some bar → ticks.getLast?.map (·.instrument) = some bar.instrument)
    (hc : run.onClosed? closed = some run') :
    Follows ticks r run'.floor.book ∧ run'.rollover = run.rollover ∧ run'.bars = run.bars := by
  have keeps : ∀ bar, closed = some bar → Floor.Keeps (fun book (_ : AuditLog α) => ∀ other,
      r.activeContract? (underlying other) ≠ some other → book.net other = 0)
      bar.instrument bar.lastTime := by
    intro bar hclosed
    exact Follows.keeps r (h.active_of_getLast? (hbar bar hclosed)) bar.lastTime
  obtain ⟨hflat, hroll, hbars⟩ := onClosed?_keeps keeps hdet h.flat hc
  exact ⟨⟨h.active, hflat, h.seen⟩, hroll, hbars⟩

/-- When a tick has arrived, the contracts before it are still followed. -/
lemma Tracks.arrive (h : run.Tracks terms ticks r) (hdet : sim.deterministic = true)
    (ha : run.arrive? t = some arrived) :
    arrived.rollover = some r ∧ arrived.bars.Open (ticks ++ [t]) ∧
      Follows ticks r arrived.floor.book := by
  obtain ⟨bars, closed, mid, hpush, hmid, rfl⟩ := arrive?_cases ha
  obtain ⟨hcurrent, hclosed⟩ := Bars.push?_cases hpush
  have hcounted : Follows ticks r ({ run.count t with bars } : Run sim).floor.book := h.follows
  obtain ⟨hfollows, hroll, hbars⟩ := follows_onClosed? hdet hcounted
    (fun bar hbar => h.bar.symm.trans (hclosed bar hbar)) hmid
  refine ⟨hroll.trans h.rollover, ?_, hfollows.active, hfollows.flat, hfollows.seen⟩
  have hmark : (mid.mark t).bars = bars := hbars
  rw [Bars.Open, hmark, hcurrent, List.getLast?_concat]
  rfl

/-- A switch that moves a position is explained, and so are the parts of the move. -/
lemma Tracks.roll {source : String} (h : run.Tracks terms ticks r)
    (hfeed : (Run.start sim).feed ticks = .ok run) (ha : run.arrive? t = some arrived)
    (hfollows : Follows ticks r arrived.floor.book) (hopen : arrived.bars.Open (ticks ++ [t]))
    (hactive : r.activeContract? (underlying t.instrument) = some source)
    (hne : source ≠ t.instrument) (hheld : arrived.floor.book.net source ≠ 0)
    (hroll : arrived.roll? (r.see t) ⟨underlying t.instrument, source, t.instrument⟩ t =
      some run') : ∃ r', run'.Tracks terms (ticks ++ [t]) r' := by
  obtain ⟨r', book, log, event, hx, rfl⟩ := roll?_cases hroll
  rw [Floor.book_cancel] at hx
  have hlive := hfollows.execute hactive hne hheld hx
  obtain ⟨m, hm, rfl, hevent, -, rfl⟩ := Rollover.execute?_cases hx
  -- the new contract is not the active one, and a tick of the active one was seen
  have hflat := hfollows.flat_of_active hactive hne
  have hsibling := (hfollows.tick_of_active hactive).1
  obtain ⟨last, hlast, hseen⟩ := hfollows.seen_of_active hactive hne
  have hagreed : (r.see t).terms = terms := h.agreed
  refine ⟨_, rfl, h.agreed, hopen, hlive, ?_, ?_⟩
  · intro e he
    simp only [Rollover.afterMove, Array.toList_push, List.mem_append, List.mem_singleton] at he
    rcases he with he | rfl
    · exact (h.events e he).more [t]
    · refine ⟨ticks, t, [], run, arrived, last, rfl, hfeed, ha, ?_, ?_⟩
      · rw [hevent]
        exact hlast
      · rw [hevent, ← hagreed]
        exact Rollover.comesOf_summary hm rfl ⟨hne, hsibling, rfl⟩ hheld hflat hseen
  · intro a hmem hleg
    simp only [Rollover.afterMove, Array.toList_append, List.mem_append] at hmem
    rcases hmem with hmem | hmem
    · exact (h.actions a hmem hleg).more [t]
    · obtain ⟨hinstrument, htime, hsymbol, hpriced⟩ :=
        Rollover.pricedOff_of_move? hm hseen hmem hleg
      refine ⟨ticks, t, [], last, rfl, htime, hsymbol, ?_, hagreed ▸ hpriced⟩
      rw [hinstrument]
      exact hlast

lemma Tracks.tick (h : run.Tracks terms ticks r) (hdet : sim.deterministic = true)
    (hfeed : (Run.start sim).feed ticks = .ok run) (ht : run.onTick? t = some run') :
    ∃ r', run'.Tracks terms (ticks ++ [t]) r' := by
  obtain ⟨arrived, ha, hfollow⟩ := onTick?_cases hdet ht
  obtain ⟨hrollover, hopen, hfollows⟩ := h.arrive hdet ha
  rcases followContract?_cases hfollow with ⟨hnone, -⟩ | ⟨r₀, seen, pending, hr, hd, hcase⟩
  · rw [hrollover] at hnone
    cases hnone
  · obtain rfl := Option.some.inj (hrollover.symm.trans hr)
    rcases hcase with ⟨rfl, rfl⟩ | ⟨p, rfl, hroll⟩
    · have hlive : Follows (ticks ++ [t]) seen arrived.floor.book := hfollows.detect hd
      obtain ⟨hterms, hevents, hactions⟩ := Rollover.detect_frame hd
      refine ⟨seen, rfl, hterms.trans h.agreed, hopen, hlive, ?_, ?_⟩
      · intro e he
        exact (h.events e (hevents ▸ he)).more [t]
      · intro a hmem hleg
        exact (h.actions a (hactions ▸ hmem) hleg).more [t]
    · obtain ⟨source, hactive, hne, hheld, rfl, rfl⟩ := Rollover.switch_of_detect hd
      exact h.roll hfeed ha hfollows hopen hactive hne hheld hroll

/-- The last bar keeps the contracts followed, and nothing is moved after it. -/
lemma Tracks.finish (h : run.Tracks terms ticks r) (hdet : sim.deterministic = true)
    (hf : run.finish? = some run') :
    run'.rollover = some r ∧ Follows ticks r run'.floor.book := by
  obtain ⟨mid, hmid, rfl⟩ := finish?_cases hf
  have hflushed : Follows ticks r ({ run with bars := run.bars.flush.1 } : Run sim).floor.book :=
    h.follows
  obtain ⟨hfollows, hroll, -⟩ := follows_onClosed? hdet hflushed
    (fun bar hbar => h.bar.symm.trans (Bars.flush_cases hbar)) hmid
  have hdropped : (mid.floor.cancelAll mid.lastTime).1.book = mid.floor.book :=
    Floor.book_cancelAll ..
  rw [dropWaiting_eq hdet]
  exact ⟨hroll.trans h.rollover, hdropped ▸ hfollows⟩

lemma tracks_start (hdet : sim.deterministic = true) (hroll : sim.rollover = some terms) :
    (Run.start sim).Tracks terms [] (Rollover.start terms) where
  rollover := by simp only [start, hdet, hroll, if_true, Option.map_some]
  agreed := rfl
  bar := rfl
  follows := ⟨fun _ => rfl, fun _ _ => rfl, fun _ => rfl⟩
  events := by
    intro e he
    cases he
  actions := by
    intro a ha
    cases ha

lemma tracks_feed (hdet : sim.deterministic = true) (hroll : sim.rollover = some terms)
    (h : (Run.start sim).feed ticks = .ok run) : ∃ r, run.Tracks terms ticks r := by
  refine feed_induct (P := fun ticks run => ∃ r, run.Tracks terms ticks r)
    ⟨_, tracks_start hdet hroll⟩ ?_ h
  rintro ticks run t run' hfeed ⟨r, hr⟩ ht
  exact hr.tick hdet hfeed ht

end Run

/-- After every tick of a run with rollovers and after the end of the run, the active contract of a
symbol is the instrument of its last tick, and every other contract of the symbol is flat.  Every
rollover up to there moved lots to a flat contract in the way it was asked for, and every part that
closed a position was priced off the last tick of its contract. -/
theorem one_live_contract {sim : Simulation α} {terms : RolloverTerms α}
    (hdet : sim.deterministic = true) (hroll : sim.rollover = some terms)
    {ticks : List (Tick α)} {run : Run sim}
    (h : (Run.start sim).feed ticks = .ok run ∨ Run.through sim ticks = .ok run) :
    ∃ r, run.rollover = some r ∧ Follows ticks r run.floor.book ∧
      (∀ e ∈ r.events.toList, e.Explained sim terms ticks) ∧
      ∀ a ∈ r.actions.toList, a.leg = .closing → a.Explained terms ticks := by
  rcases h with hfeed | hthrough
  · obtain ⟨r, hr⟩ := Run.tracks_feed hdet hroll hfeed
    exact ⟨r, hr.rollover, hr.follows, hr.events, hr.actions⟩
  · obtain ⟨fed, hfeed, hfinish⟩ := Run.through_cases hthrough
    obtain ⟨r, hr⟩ := Run.tracks_feed hdet hroll hfeed
    obtain ⟨hrollover, hfollows⟩ := hr.finish hdet hfinish
    exact ⟨r, hrollover, hfollows, hr.events, hr.actions⟩

/-- The short run moves a lot strictly, in two parts, and it does so as it should. -/
theorem one_live_contract_shortRun :
    ((shortRun .strict).rollover.map fun r => (r.events.size, r.actions.size)) = some (1, 2) ∧
      ∃ r, (shortRun .strict).rollover = some r ∧
        Follows shortTicks r (shortRun .strict).floor.book ∧
        (∀ e ∈ r.events.toList,
          e.Explained (shortSimulation .strict) ⟨.strict, ⟨.quote, 10⟩⟩ shortTicks) ∧
        ∀ a ∈ r.actions.toList, a.leg = .closing →
          a.Explained ⟨.strict, ⟨.quote, 10⟩⟩ shortTicks := by
  refine ⟨by decide +kernel, ?_⟩
  exact one_live_contract rfl rfl (.inr (through_shortSimulation .strict))

end MarketTape
