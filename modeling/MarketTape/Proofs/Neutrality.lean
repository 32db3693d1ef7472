import MarketTape.Proofs.Soundness
import MarketTape.Proofs.Told
import MarketTape.Proofs.Worth

/-!
# Orders make no money

Read in exact numbers, an order that trades leaves the profit of the book as it was.  It trades at
the close of a bar, and that is the last mark of the instrument: the bar was closed before the tick
that closed it was marked, so the tick before it is still the last one that counts.  Were that tick
marked first, or were a waiting order priced off another bar, every trade would make or lose money.

So between rollovers profit comes from marks alone.

* `Run.Marked` says that the open bar closes at the mark of its instrument; `Run.marked_feed` that
  it always does.
* `Run.FillsOn.neutral` is the result for a single fill.
* `Run.markGains` adds up what the marks of some ticks bring to the lots that are held.
* `bar_close_fills_neutral` is the result.
-/

namespace MarketTape

/-! ## The mark of the open bar -/

section Marks

variable {α : Type} [Scalar α]

namespace Run

variable {sim : Simulation α} {run run' : Run sim} {ticks : List (Tick α)} {t : Tick α}

/-- The open bar closes, as far as it has come, at the mark of its instrument. -/
def Marked (run : Run sim) : Prop :=
  ∀ b, run.bars.current = some b → run.floor.book.mark? b.instrument = some b.close

/-- Following a contract moves no mark. -/
lemma marks_followContract? (h : run.followContract? t = some run') :
    run'.floor.book.marks = run.floor.book.marks := by
  rcases followContract?_cases h with
    ⟨-, rfl⟩ | ⟨r, seen, pending, -, -, ⟨-, rfl⟩ | ⟨p, -, hroll⟩⟩
  · rfl
  · rfl
  · obtain ⟨r', book, log, event, hexec, rfl⟩ := roll?_cases hroll
    obtain ⟨m, hm, rfl, -, -, -⟩ := Rollover.execute?_cases hexec
    rw [Floor.book_cancel] at hm
    exact Rollover.marks_of_move? hm

/-- A tick is the mark of its instrument, and the open bar ends with it. -/
lemma marked_onTick? (hdet : sim.deterministic = true) (h : run.onTick? t = some run') :
    run'.Marked := by
  rw [onTick?_eq hdet, Option.bind_eq_some_iff] at h
  obtain ⟨mid, hmid, hfollow⟩ := h
  obtain ⟨bars, closed, hpush, hclosed⟩ := uptoMark?_cases hmid
  obtain ⟨b, hb, hends⟩ := Bars.push?_endsWith hpush
  have hbars : run'.bars = bars := by
    obtain ⟨floor, rollover, rfl⟩ := followContract?_frame hfollow
    exact (onClosed?_sameTape hclosed).bars
  intro current hopen
  rw [hbars, hb, Option.some.injEq] at hopen
  subst hopen
  rw [Book.mark?, marks_followContract? hfollow, hends.instrument, hends.close]
  exact (Book.mark?_mark ..).trans (if_pos rfl)

theorem marked_feed (hdet : sim.deterministic = true) (h : (Run.start sim).feed ticks = .ok run) :
    run.Marked :=
  feed_induct (P := fun _ run => run.Marked) (fun _ hopen => by cases hopen)
    (fun _ _ ht => marked_onTick? hdet ht) h

/-- When a bar is closed, its close is the mark of its instrument. -/
lemma Marked.closes {fed : Run sim} {bar : Bar α} (h : fed.Marked) (hcloses : fed.Closes bar run) :
    run.floor.book.mark? bar.instrument = some bar.close := by
  obtain ⟨⟨b, hb, rfl⟩, hfloor, -⟩ := hcloses.cases
  rw [hfloor]
  exact h b hb

end Run

end Marks

/-! ## Single fills -/

namespace Floor

/-- A floor with given marks and a given profit. -/
structure Stands (f : Floor ℚ) (marks : Table ℚ) (profit : ℚ) : Prop where
  marks : f.book.marks = marks
  profit : f.book.totalPnl = profit

namespace Stands

variable {f f' : Floor ℚ} {marks : Table ℚ} {profit : ℚ} {bar : Bar ℚ} {intent : Intent ℚ}

/-- A trade at the mark leaves marks and profit as they are. -/
lemma afterFill (h : f.Stands marks profit) (hmark : marks.get? bar.instrument = some bar.close)
    {volume : Int} {book : Book ℚ} {realized : ℚ}
    (ht : f.book.trade? bar.instrument intent.side volume bar.close = some (book, realized)) :
    (f.afterFill intent bar volume book).Stands marks profit := by
  obtain ⟨hmarks, hprofit⟩ := Book.totalPnl_of_trade? ht
  have hmark' : f.book.mark? bar.instrument = some bar.close := by
    rw [Book.mark?, h.marks, hmark]
  exact ⟨hmarks.trans h.marks, (hprofit hmark').trans h.profit⟩

lemma submit (h : f.Stands marks profit) (hmark : marks.get? bar.instrument = some bar.close)
    {fill : Option (Fill ℚ)} (hs : f.submit? intent bar = some (f', fill)) :
    f'.Stands marks profit := by
  rcases submit?_cases hs with ⟨-, rfl, -⟩ | ⟨-, rfl, -⟩ | ⟨volume, book, realized, -, ht, rfl, -⟩
  · exact ⟨h.marks, h.profit⟩
  · exact ⟨h.marks, h.profit⟩
  · exact h.afterFill hmark ht

lemma settleOne (h : f.Stands marks profit) (hmark : marks.get? bar.instrument = some bar.close)
    {fill : Option (Fill ℚ)} (hs : f.settleOne? intent bar = some (f', fill)) :
    f'.Stands marks profit := by
  rcases settleOne?_cases hs with ⟨-, book, realized, ht, rfl, -⟩ | ⟨-, rfl, -⟩
  · exact h.afterFill hmark ht
  · exact ⟨h.marks, h.profit⟩

lemma settleEach (h : f.Stands marks profit) (hmark : marks.get? bar.instrument = some bar.close)
    {due : List (Waiting ℚ)} {fills : List (Fill ℚ)}
    (hs : f.settleEach? bar due = some (f', fills)) : f'.Stands marks profit :=
  settleEach?_induct (Q := fun _ g => g.Stands marks profit)
    (fun hg hone => hg.settleOne hmark hone) h hs

/-- All that is done on a bar leaves marks and profit as they are. -/
lemma upholds (marks : Table ℚ) (profit : ℚ) (hmark : marks.get? bar.instrument = some bar.close) :
    Upholds (fun f => f.Stands marks profit) bar where
  reject h _ := ⟨h.marks, h.profit⟩
  submit h hs := h.submit hmark hs
  settle := by
    intro f f' fills h hs
    have hstart : (f.without bar.instrument).Stands marks profit := ⟨h.marks, h.profit⟩
    exact hstart.settleEach hmark hs

end Stands

end Floor

namespace Run

variable {sim : Simulation ℚ} {run run' : Run sim} {bar : Bar ℚ} {t : Tick ℚ}

/-- A fill on a bar is made at the mark, and the profit of the book is the same before and after. -/
lemma FillsOn.neutral {f f' : Floor ℚ} {fill : Fill ℚ} (h : run.FillsOn bar f fill f')
    (hmark : run.floor.book.mark? bar.instrument = some bar.close) :
    fill.instrument = bar.instrument ∧ fill.price = bar.close ∧
      f.book.mark? bar.instrument = some bar.close ∧ f'.book.totalPnl = f.book.totalPnl := by
  have hstart : ∀ {described : Run sim} {state : MarketState ℚ},
      run.describe? bar = some (described, state) →
        described.floor.Stands run.floor.book.marks run.floor.book.totalPnl := by
    intro described state hdescribed
    rw [(describe?_frame hdescribed).1]
    exact ⟨rfl, rfl⟩
  have hupholds := Floor.Stands.upholds run.floor.book.marks run.floor.book.totalPnl hmark
  cases h with
  | @deferred described state done rest w _ _ fills _ hdescribed hdue hbefore hone =>
    have hwithout : (described.floor.without bar.instrument).Stands run.floor.book.marks
        run.floor.book.totalPnl := ⟨(hstart hdescribed).marks, (hstart hdescribed).profit⟩
    have hf := hwithout.settleEach hmark hbefore
    have hf' := hf.settleOne hmark hone
    have hfmark : f.book.mark? bar.instrument = some bar.close := by
      rw [Book.mark?, hf.marks]
      exact hmark
    rcases Floor.settleOne?_cases hone with ⟨-, book, realized, -, -, hfill⟩ | ⟨-, -, hfill⟩
    · rw [Option.some.inj hfill]
      exact ⟨rfl, rfl, hfmark, hf'.profit.trans hf.profit.symm⟩
    · cases hfill
  | @direct described settled asked answered state done rest intent _ _ hdescribed hsettled hasked
      hbefore hone =>
    have hs := settleWaiting?_upholds hupholds (hstart hdescribed) hsettled
    rw [← (askAbout?_frame hasked).1] at hs
    have hf : answered.floor.Stands run.floor.book.marks run.floor.book.totalPnl :=
      settleIntents?_induct
        (P := fun _ r => r.floor.Stands run.floor.book.marks run.floor.book.totalPnl)
        (fun hg hi => settleIntent?_upholds hupholds hg hi) hs hbefore
    have hf' := hf.submit hmark hone
    have hfmark : answered.floor.book.mark? bar.instrument = some bar.close := by
      rw [Book.mark?, hf.marks]
      exact hmark
    rcases Floor.submit?_cases hone with
      ⟨-, -, hfill⟩ | ⟨-, -, hfill⟩ | ⟨volume, book, realized, -, -, -, hfill⟩
    · cases hfill
    · cases hfill
    · rw [Option.some.inj hfill]
      exact ⟨rfl, rfl, hfmark, hf'.profit.trans hf.profit.symm⟩

/-! ## Ticks -/

/-- A bar that is closed leaves marks and profit as they are, and its point of the equity curve is
the profit from before. -/
lemma Marked.onBar? {fed : Run sim} (hdet : sim.deterministic = true) (h : fed.Marked)
    (hcloses : fed.Closes bar run) (hbar : run.onBar? bar = some run') :
    run'.floor.Stands fed.floor.book.marks fed.floor.book.totalPnl ∧
      run'.equity = fed.equity.record bar.lastTime fed.floor.book.totalPnl := by
  obtain ⟨-, hfloor, hequity⟩ := hcloses.cases
  have hmark := h.closes hcloses
  rw [hfloor] at hmark
  have hstands : run'.floor.Stands fed.floor.book.marks fed.floor.book.totalPnl :=
    onBar?_upholds (Floor.Stands.upholds _ _ hmark) hdet ⟨hfloor ▸ rfl, hfloor ▸ rfl⟩ hbar
  refine ⟨hstands, ?_⟩
  rw [onBar?_equity hdet hbar, hstands.profit, hequity]

/-- The same for a tick up to its mark, whether it closes a bar or not. -/
lemma Marked.uptoMark? (hdet : sim.deterministic = true) (h : run.Marked)
    (hmid : run.uptoMark? t = some run') :
    run'.floor.Stands run.floor.book.marks run.floor.book.totalPnl := by
  obtain ⟨bars, closed, hpush, hclosed⟩ := uptoMark?_cases hmid
  cases closed with
  | none =>
    rw [← Option.some.inj hclosed]
    exact ⟨rfl, rfl⟩
  | some bar => exact (h.onBar? hdet (.tick hpush) hclosed).1

/-- What the mark of a tick brings to the lots that are held once the bar that it closed is
settled. -/
def markGain (run : Run sim) (t : Tick ℚ) : ℚ :=
  match run.uptoMark? t with
  | none => 0
  | some mid => mid.floor.book.gain t.instrument t.last

/-- What the marks of some ticks bring to the lots that are held, one after the other. -/
def markGains (run : Run sim) : List (Tick ℚ) → ℚ
  | [] => 0
  | t :: rest =>
    run.markGain t + match run.onTick? t with
      | none => 0
      | some next => next.markGains rest

/-- Up to its mark a tick makes no move. -/
lemma moves_uptoMark? (h : run.uptoMark? t = some run') : (run'.mark t).moves = run.moves := by
  obtain ⟨bars, closed, -, hclosed⟩ := uptoMark?_cases h
  simp only [moves, mark, (onClosed?_sameTape hclosed).rollover, count]

/-- A tick without a rollover brings what its mark brings. -/
lemma Marked.onTick? (hdet : sim.deterministic = true) (h : run.Marked)
    (ht : run.onTick? t = some run') (hmoves : run'.moves = run.moves) :
    run'.floor.book.totalPnl = run.floor.book.totalPnl + run.markGain t := by
  rw [onTick?_eq hdet, Option.bind_eq_some_iff] at ht
  obtain ⟨mid, hmid, hfollow⟩ := ht
  have hstands := h.uptoMark? hdet hmid
  rcases followContract?_moves hfollow with ⟨-, hfloor⟩ | ⟨event, hevent⟩
  · rw [hfloor, markGain, hmid, ← hstands.profit]
    exact Book.totalPnl_mark ..
  · rw [moves_uptoMark? hmid, hmoves] at hevent
    simp at hevent

/-- Moves are only ever added. -/
lemma moves_onTick? (hdet : sim.deterministic = true) (ht : run.onTick? t = some run') :
    run.moves <+: run'.moves := by
  rw [onTick?_eq hdet, Option.bind_eq_some_iff] at ht
  obtain ⟨mid, hmid, hfollow⟩ := ht
  rw [← moves_uptoMark? hmid]
  rcases followContract?_moves hfollow with ⟨hsame, -⟩ | ⟨event, hevent⟩
  · exact ⟨[], (List.append_nil _).trans hsame.symm⟩
  · exact ⟨[event], hevent.symm⟩

lemma moves_feed (hdet : sim.deterministic = true) :
    ∀ {ticks : List (Tick ℚ)} {run later : Run sim},
      run.feed ticks = .ok later → run.moves <+: later.moves
  | [], run, later, h => by
    exact Except.ok.inj h ▸ List.prefix_rfl
  | t :: rest, run, later, h => by
    rw [feed] at h
    split at h
    · cases h
    · rename_i next hnext
      exact (moves_onTick? hdet hnext).trans (moves_feed hdet h)

/-- Over ticks without a rollover profit comes from marks alone. -/
theorem Marked.feed (hdet : sim.deterministic = true) :
    ∀ {ticks : List (Tick ℚ)} {run later : Run sim}, run.Marked → run.feed ticks = .ok later →
      later.moves = run.moves →
        later.floor.book.totalPnl = run.floor.book.totalPnl + run.markGains ticks
  | [], run, later, _, h, _ => by
    rw [← Except.ok.inj h]
    exact (add_zero _).symm
  | t :: rest, run, later, hmarked, h, hmoves => by
    rw [Run.feed] at h
    split at h
    · cases h
    · rename_i next hnext
      -- nothing was added on the whole way, so nothing was added on either part of it
      have hfirst := moves_onTick? hdet hnext
      have hrest := moves_feed hdet h
      have hnextMoves : next.moves = run.moves := by
        rw [hmoves] at hrest
        exact hrest.eq_of_length_le hfirst.length_le
      have htick := hmarked.onTick? hdet hnext hnextMoves
      have hlater := Marked.feed hdet (marked_onTick? hdet hnext) h (hmoves.trans hnextMoves.symm)
      rw [hlater, htick, markGains, hnext, add_assoc]

end Run

/-- Read in exact numbers, no order changes the profit of the book.

Whenever a run over some ticks closes a bar, every fill on it, of an order that waited and of an
answer alike, is made at the close of the bar, which is the mark of its instrument at that moment,
and the profit right after it is the profit right before it.  So the bar as a whole leaves the
profit alone, and adds just that profit to the equity curve.  And over any further ticks without a
rollover the profit, and with it the next point of the curve, moves by what the marks of the ticks
bring to the lots that are held. -/
theorem bar_close_fills_neutral {sim : Simulation ℚ} (hdet : sim.deterministic = true)
    {ticks : List (Tick ℚ)} {fed : Run sim} (h : (Run.start sim).feed ticks = .ok fed) :
    (∀ bar run, fed.Closes bar run →
        (∀ f fill f', run.FillsOn bar f fill f' →
          fill.instrument = bar.instrument ∧ fill.price = bar.close ∧
            f.book.mark? bar.instrument = some bar.close ∧
            f'.book.totalPnl = f.book.totalPnl) ∧
        ∀ run', run.onBar? bar = some run' →
          run'.floor.book.totalPnl = fed.floor.book.totalPnl ∧
            run'.equity = fed.equity.record bar.lastTime fed.floor.book.totalPnl) ∧
      ∀ more later, fed.feed more = .ok later → later.moves = fed.moves →
        later.floor.book.totalPnl = fed.floor.book.totalPnl + fed.markGains more ∧
          ∀ bar run run', later.Closes bar run → run.onBar? bar = some run' →
            run'.equity = later.equity.record bar.lastTime
              (fed.floor.book.totalPnl + fed.markGains more) := by
  have hmarked := Run.marked_feed hdet h
  refine ⟨?_, ?_⟩
  · intro bar run hcloses
    refine ⟨?_, ?_⟩
    · intro f fill f' hfill
      exact hfill.neutral (hmarked.closes hcloses)
    · intro run' hbar
      obtain ⟨hstands, hequity⟩ := hmarked.onBar? hdet hcloses hbar
      exact ⟨hstands.profit, hequity⟩
  · intro more later hlater hmoves
    have hprofit := hmarked.feed hdet hlater hmoves
    refine ⟨hprofit, ?_⟩
    intro bar run run' hcloses hbar
    have hall : (Run.start sim).feed (ticks ++ more) = .ok later := by
      rw [Run.feed_append, h]
      exact hlater
    have hequity := ((Run.marked_feed hdet hall).onBar? hdet hcloses hbar).2
    rw [hequity, hprofit]

/-! ## A round trip and a short sale

Two lots are bought, and on the next bar they are sold again and one more is to be sold short.  It
has to wait for the bar after that.
-/

/-- What is simulated. -/
def roundTrip : Simulation ℚ where
  deterministic := true
  bucketWidth := 60
  rollover := none
  logging := false
  strategyName := "trial"
  capabilities := { opening := true, orderAware := false, traceProvider := false }
  strategy := scripted
    [("1", [⟨.buy, .opening, 2, none, ""⟩]),
      ("2", [⟨.sell, .opening, 1, none, ""⟩, ⟨.sell, .closing, 2, none, ""⟩])]
  detector := quietDetector

/-- Four ticks, of which the last one closes the bar that the short sale waits for. -/
def roundTripTicks : List (Tick ℚ) :=
  [⟨"rb2405", 0, 100, 1, 99, 1, 101, 1⟩, ⟨"rb2405", 60, 103, 2, 102, 1, 104, 1⟩,
    ⟨"rb2405", 120, 101, 3, 100, 1, 102, 1⟩, ⟨"rb2405", 180, 99, 4, 98, 1, 100, 1⟩]

/-- The lots that were sold brought six, and while the short sale waits nothing is held.  It is made
on the bar that the last tick closes, and only the mark of that tick brings two more. -/
theorem bar_close_fills_neutral_roundTrip :
    ∃ fed later : Run roundTrip,
      (Run.start roundTrip).feed (roundTripTicks.take 3) = .ok fed ∧
        fed.feed (roundTripTicks.drop 3) = .ok later ∧
        (fed.floor.desk.waitingCount = 1 ∧ fed.floor.book.net "rb2405" = 0 ∧
          later.floor.book.net "rb2405" = -1) ∧
        (fed.floor.book.totalPnl = 6 ∧ fed.markGains (roundTripTicks.drop 3) = 2) ∧
        later.floor.book.totalPnl = 6 + 2 := by
  have hfed : ((Run.start roundTrip).feed (roundTripTicks.take 3)).toOption.map
      (fun fed => (fed.floor.desk.waitingCount, fed.floor.book.net "rb2405",
        fed.floor.book.totalPnl, fed.markGains (roundTripTicks.drop 3),
        (fed.feed (roundTripTicks.drop 3)).toOption.map (·.floor.book.net "rb2405"))) =
      some (1, 0, 6, 2, some (-1)) := by decide +kernel
  obtain ⟨fed, hrun, hvalues⟩ := Run.exists_of_ok hfed
  simp only [Prod.mk.injEq] at hvalues
  obtain ⟨hwaiting, hnet, hprofit, hgains, hlaterNet⟩ := hvalues
  obtain ⟨later, hlater, hlaterNet⟩ := Run.exists_of_ok hlaterNet
  have hstill : ∀ {ticks : List (Tick ℚ)} {run : Run roundTrip},
      (Run.start roundTrip).feed ticks = .ok run → run.moves = [] := by
    intro ticks run hfeed
    rw [Run.moves, Run.rollover_feed rfl hfeed rfl]
    rfl
  have hmoves : later.moves = fed.moves := by
    have hall : (Run.start roundTrip).feed
        (roundTripTicks.take 3 ++ roundTripTicks.drop 3) = .ok later := by
      rw [Run.feed_append, hrun]
      exact hlater
    rw [hstill hall, hstill hrun]
  have hneutral := ((bar_close_fills_neutral rfl hrun).2 _ later hlater hmoves).1
  refine ⟨fed, later, hrun, hlater, ⟨hwaiting, hnet, hlaterNet⟩, ⟨hprofit, hgains⟩, ?_⟩
  rw [hneutral, hprofit, hgains]

end MarketTape
