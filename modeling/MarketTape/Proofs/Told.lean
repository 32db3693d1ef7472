import Mathlib.Algebra.GroupWithZero.Nat
import MarketTape.Proofs.Bars
import MarketTape.Proofs.Clock
import MarketTape.Proofs.Rollover
import MarketTape.Proofs.Run

/-!
# What a strategy is told

On every bar a strategy is told of the orders that had waited for it, is shown the bar, and is told
what became of its answers; at the very end it is told that the run is over.  So the bars that it
was shown are the bars that were closed, and each tick is in one of them or in the open bar.

* `Run.onBar?_calls` is what a strategy is told on a bar, whether orders are filled or not.
* `Run.barsShown` are the bars that it was shown, and `fillsIn` the fills in what it was told.
* `Run.FillsOn` is a single fill while a bar is settled.
* `Run.followContract?_frame` says that following a contract tells it nothing.
* `Run.Closes` is the moment at which a bar is closed, `Run.uptoMark?` a tick up to its mark, and
  `Run.closing?` the end of a run up to its last bar.
* `Run.moves` are the moves between contracts.
* `Run.Shown` is the invariant; `Run.shown_feed` and `Run.Shown.closing` carry it through a run.
-/

namespace MarketTape

variable {α : Type}

/-- The bar that a call shows, if it shows one. -/
def Call.bar? : Call α → Option (Bar α)
  | .state s => some s.bar
  | .fill _ => none
  | .shutdown => none

/-- The bars that some calls show. -/
def shownIn (calls : List (Call α)) : List (Bar α) := calls.filterMap Call.bar?

@[simp] lemma shownIn_append (calls more : List (Call α)) :
    shownIn (calls ++ more) = shownIn calls ++ shownIn more := List.filterMap_append

@[simp] lemma shownIn_fills (fills : List (Fill α)) : shownIn (fills.map Call.fill) = [] := by
  simp [shownIn, Call.bar?]

/-- The fill that a call tells of, if it tells of one. -/
def Call.fill? : Call α → Option (Fill α)
  | .fill f => some f
  | .state _ => none
  | .shutdown => none

/-- The fills that some calls tell of. -/
def fillsIn (calls : List (Call α)) : List (Fill α) := calls.filterMap Call.fill?

@[simp] lemma fillsIn_append (calls more : List (Call α)) :
    fillsIn (calls ++ more) = fillsIn calls ++ fillsIn more := List.filterMap_append

namespace Run

variable {sim : Simulation α} {run run' : Run sim} {ticks : List (Tick α)}

/-- The bars that the strategy was shown. -/
def barsShown (run : Run sim) : List (Bar α) := shownIn run.calls.toList

/-! ## On a bar -/

@[simp] lemma calls_notify (run : Run sim) (fills : List (Fill α)) :
    (run.notify fills).calls.toList = run.calls.toList ++ (told sim fills).map Call.fill := by
  rw [notify_eq, Array.toList_append]

@[simp] lemma calls_name (run : Run sim) (intent : Intent α) :
    (run.name intent).1.calls = run.calls := by
  rw [name]; split <;> rfl

@[simp] lemma fillsIn_shutdown (run : Run sim) :
    fillsIn run.shutdown.calls.toList = fillsIn run.calls.toList := by
  rw [shutdown, Array.toList_push, fillsIn_append]
  exact List.append_nil _

@[simp] lemma barsEmitted_notify (run : Run sim) (fills : List (Fill α)) :
    (run.notify fills).barsEmitted = run.barsEmitted := by rw [notify_eq]

@[simp] lemma barsEmitted_name (run : Run sim) (intent : Intent α) :
    (run.name intent).1.barsEmitted = run.barsEmitted := by
  rw [name]; split <;> rfl

@[simp] lemma intentsEmitted_notify (run : Run sim) (fills : List (Fill α)) :
    (run.notify fills).intentsEmitted = run.intentsEmitted := by rw [notify_eq]

@[simp] lemma intentsEmitted_name (run : Run sim) (intent : Intent α) :
    (run.name intent).1.intentsEmitted = run.intentsEmitted := by
  rw [name]; split <;> rfl

/-- A run and a later one between which the strategy was told of fills and asked nothing. -/
structure Hears (run run' : Run sim) : Prop where
  calls : ∃ fills : List (Fill α), run'.calls.toList = run.calls.toList ++ fills.map Call.fill
  bars : run'.barsEmitted = run.barsEmitted
  intents : run'.intentsEmitted = run.intentsEmitted

lemma Hears.refl (run : Run sim) : Hears run run := ⟨⟨[], by simp⟩, rfl, rfl⟩

lemma Hears.trans {mid : Run sim} (h : Hears run mid) (h' : Hears mid run') : Hears run run' := by
  obtain ⟨fills, hfills⟩ := h.calls
  obtain ⟨more, hmore⟩ := h'.calls
  refine ⟨⟨fills ++ more, ?_⟩, h'.bars.trans h.bars, h'.intents.trans h.intents⟩
  rw [hmore, hfills, List.map_append, List.append_assoc]

variable [Scalar α] {bar : Bar α}

lemma settleWaiting?_hears (h : run.settleWaiting? bar = some run') : Hears run run' := by
  obtain ⟨floor, fills, -, rfl⟩ := settleWaiting?_cases h
  exact ⟨⟨told sim fills, calls_notify _ _⟩, barsEmitted_notify _ _, intentsEmitted_notify _ _⟩

lemma settleIntent?_hears {intent : Intent α} (h : run.settleIntent? bar intent = some run') :
    Hears run run' := by
  rcases settleIntent?_cases h with rfl | ⟨floor, fill, -, rfl⟩
  · exact ⟨⟨[], by simp⟩, by simp, by simp⟩
  · exact ⟨⟨told sim fill.toList, by simp⟩, by simp, by simp⟩

lemma settleIntents?_hears {intents : List (Intent α)}
    (h : run.settleIntents? bar intents = some run') : Hears run run' :=
  settleIntents?_induct (P := fun _ => Hears run)
    (fun hbefore hone => hbefore.trans (settleIntent?_hears hone)) (Hears.refl run) h

/-- On a bar a strategy is told of some fills, is shown the bar, and is told of some more fills. -/
theorem onBar?_calls (h : run.onBar? bar = some run') :
    run'.barsEmitted = run.barsEmitted + 1 ∧
      ∃ (early : List (Fill α)) (s : BarState α) (late : List (Fill α)),
        s.bar = bar ∧ run'.calls.toList =
          run.calls.toList ++ (early.map Call.fill ++ .state s :: late.map Call.fill) := by
  by_cases hdet : sim.deterministic = true
  · obtain ⟨described, state, settled, asked, intents, answered, hd, hs, ha, hi, rfl⟩ :=
      onBar?_cases hdet h
    obtain ⟨detector, -, rfl⟩ := describe?_cases hd
    obtain ⟨strategy, -, rfl⟩ := askAbout?_cases ha
    have hsettled := settleWaiting?_hears hs
    have hanswered := settleIntents?_hears hi
    obtain ⟨early, hearly⟩ := hsettled.calls
    obtain ⟨late, hlate⟩ := hanswered.calls
    refine ⟨hanswered.bars.trans hsettled.bars, early, settled.shown bar state, late, rfl, ?_⟩
    have hcalls : (answered.recordEquity bar).calls = answered.calls := rfl
    rw [hcalls, hlate, Array.toList_push, hearly, List.append_assoc, List.append_assoc,
      List.singleton_append]
  · simp only [onBar?, hdet, Bool.false_eq_true, if_false, Option.bind_eq_bind,
      Option.bind_eq_some_iff, Option.some.injEq, Prod.exists] at h
    obtain ⟨described, state, hd, asked, intents, ha, rfl⟩ := h
    obtain ⟨detector, -, rfl⟩ := describe?_cases hd
    obtain ⟨strategy, -, rfl⟩ := askAbout?_cases ha
    exact ⟨rfl, [], _, [], rfl, Array.toList_push⟩

/-- A bar is shown once. -/
lemma barsShown_onBar? (h : run.onBar? bar = some run') :
    run'.barsShown = run.barsShown ++ [bar] := by
  obtain ⟨-, early, s, late, rfl, hcalls⟩ := onBar?_calls h
  have hshown : shownIn (.state s :: late.map Call.fill) = [s.bar] := by
    rw [← List.singleton_append, shownIn_append, shownIn_fills]
    rfl
  rw [barsShown, hcalls, shownIn_append, shownIn_append, shownIn_fills, hshown, List.nil_append,
    barsShown]

/-- While a bar is settled, an order is filled and the floor goes from one to the next.  Orders that
waited for the bar come first, one after the other; the answers to the bar follow. -/
inductive FillsOn (run : Run sim) (bar : Bar α) : Floor α → Fill α → Floor α → Prop
  | deferred {described : Run sim} {state : MarketState α} {done rest : List (Waiting α)}
    {w : Waiting α} {f f' : Floor α} {fills : List (Fill α)} {fill : Fill α}
    (described_eq : run.describe? bar = some (described, state))
    (due : described.floor.desk.waitingFor bar.instrument = done ++ w :: rest)
    (before : (described.floor.without bar.instrument).settleEach? bar done = some (f, fills))
    (one : f.settleOne? w.intent bar = some (f', some fill)) : FillsOn run bar f fill f'
  | direct {described settled asked answered : Run sim} {state : MarketState α}
    {done rest : List (Intent α)} {intent : Intent α} {f' : Floor α} {fill : Fill α}
    (described_eq : run.describe? bar = some (described, state))
    (settled_eq : described.settleWaiting? bar = some settled)
    (asked_eq : settled.askAbout? bar state = some (asked, done ++ intent :: rest))
    (before : asked.settleIntents? bar done = some answered)
    (one : answered.floor.submit? (answered.name intent).2 bar = some (f', some fill)) :
    FillsOn run bar answered.floor fill f'

/-! ## Between bars -/

/-- Following a contract changes orders, positions and log, and the active contracts; nothing
else. -/
lemma followContract?_frame {t : Tick α} (h : run.followContract? t = some run') :
    ∃ floor rollover, run' = { run with floor, rollover } := by
  rcases followContract?_cases h with
    ⟨-, rfl⟩ | ⟨r, seen, pending, -, -, ⟨-, rfl⟩ | ⟨p, -, hroll⟩⟩
  · exact ⟨run'.floor, run'.rollover, rfl⟩
  · exact ⟨run.floor, some seen, rfl⟩
  · obtain ⟨r', book, log, event, -, rfl⟩ := roll?_cases hroll
    exact ⟨_, some r', rfl⟩

/-- The moves between contracts, in order. -/
def moves (run : Run sim) : List (RolloverEvent α) :=
  (run.rollover.map fun r => r.events.toList).getD []

/-- Following a contract makes one more move, or it touches neither orders nor positions. -/
lemma followContract?_moves {t : Tick α} (h : run.followContract? t = some run') :
    (run'.moves = run.moves ∧ run'.floor = run.floor) ∨
      ∃ event, run'.moves = run.moves ++ [event] := by
  rcases followContract?_cases h with
    ⟨-, rfl⟩ | ⟨r, seen, pending, hr, hd, ⟨-, rfl⟩ | ⟨p, -, hroll⟩⟩
  · exact Or.inl ⟨rfl, rfl⟩
  · obtain ⟨-, hevents, -⟩ := Rollover.detect_frame hd
    exact Or.inl ⟨by simp only [moves, hr, Option.map_some, hevents], rfl⟩
  · obtain ⟨-, hevents, -⟩ := Rollover.detect_frame hd
    obtain ⟨r', book, log, event, hexec, rfl⟩ := roll?_cases hroll
    obtain ⟨m, -, -, -, -, rfl⟩ := Rollover.execute?_cases hexec
    refine Or.inr ⟨event, ?_⟩
    simp [moves, hr, Rollover.afterMove, Rollover.activate, hevents]

/-- A tick up to its mark: it is counted, and the bar that it closed is settled. -/
def uptoMark? (run : Run sim) (t : Tick α) : Option (Run sim) := do
  let (bars, closed) ← (run.count t).bars.push? t
  ({ run.count t with bars } : Run sim).onClosed? closed

lemma uptoMark?_cases {t : Tick α} (h : run.uptoMark? t = some run') :
    ∃ bars closed, run.bars.push? t = some (bars, closed) ∧
      ({ run.count t with bars } : Run sim).onClosed? closed = some run' := by
  simp only [uptoMark?, Option.bind_eq_bind, Option.bind_eq_some_iff, Prod.exists] at h
  exact h

lemma arrive?_eq (run : Run sim) (t : Tick α) :
    run.arrive? t = (run.uptoMark? t).map fun mid => mid.mark t := by
  rw [arrive?, uptoMark?]
  simp only [Option.bind_eq_bind, Option.map_eq_bind, Option.bind_assoc]
  rfl

/-- Where orders are filled, the mark follows, and then the contract. -/
lemma onTick?_eq (hdet : sim.deterministic = true) (run : Run sim) (t : Tick α) :
    run.onTick? t = (run.uptoMark? t).bind fun mid => (mid.mark t).followContract? t := by
  simp only [onTick?, uptoMark?, hdet, if_true, Option.bind_eq_bind, Option.bind_assoc]

/-- A bar is closed, by a tick or by the end of the run; the run is the one that takes it. -/
inductive Closes (fed : Run sim) : Bar α → Run sim → Prop
  | tick {t : Tick α} {bars : Bars α} {bar : Bar α} (h : fed.bars.push? t = some (bars, some bar)) :
    Closes fed bar { fed.count t with bars }
  | finish {bar : Bar α} (h : fed.bars.flush.2 = some bar) :
    Closes fed bar { fed with bars := fed.bars.flush.1 }

/-- A bar that is closed was the open one, and closing it touches neither orders nor positions. -/
lemma Closes.cases {fed : Run sim} (h : fed.Closes bar run) :
    (∃ b, fed.bars.current = some b ∧ bar = b.finish) ∧ run.floor = fed.floor ∧
      run.equity = fed.equity := by
  cases h with
  | tick hpush => exact ⟨Bars.push?_closed hpush, rfl, rfl⟩
  | finish hflush =>
    rw [Bars.flush_eq, Option.map_eq_some_iff] at hflush
    obtain ⟨b, hb, rfl⟩ := hflush
    exact ⟨⟨b, hb, rfl⟩, rfl, rfl⟩

/-- A tick is counted and may close a bar; what comes after it tells the strategy nothing. -/
lemma onTick?_frame {t : Tick α} (h : run.onTick? t = some run') :
    ∃ bars closed mid floor rollover, run.bars.push? t = some (bars, closed) ∧
      ({ run.count t with bars } : Run sim).onClosed? closed = some mid ∧
      run' = { mid with floor, rollover } := by
  simp only [onTick?, Option.bind_eq_bind, Option.bind_eq_some_iff, Prod.exists] at h
  obtain ⟨bars, closed, hpush, mid, hmid, hend⟩ := h
  split at hend
  · obtain ⟨floor, rollover, rfl⟩ := followContract?_frame hend
    exact ⟨bars, closed, mid, floor, rollover, hpush, hmid, rfl⟩
  · obtain rfl := Option.some.inj hend
    exact ⟨bars, closed, mid, mid.floor, mid.rollover, hpush, hmid, rfl⟩

/-- The end of a run up to its last bar: the open bar is taken. -/
def closing? (run : Run sim) : Option (Run sim) :=
  ({ run with bars := run.bars.flush.1 } : Run sim).onClosed? run.bars.flush.2

lemma finish?_eq (run : Run sim) :
    run.finish? = run.closing?.map fun last => last.shutdown.dropWaiting := rfl

/-- A run that came to its end took its last bar, told the strategy that it is over, and dropped
what still waited. -/
lemma through_closing (h : through sim ticks = .ok run') :
    ∃ fed last, (Run.start sim).feed ticks = .ok fed ∧ fed.closing? = some last ∧
      run' = last.shutdown.dropWaiting := by
  obtain ⟨fed, hfed, hfinish⟩ := through_cases h
  rw [finish?_eq, Option.map_eq_some_iff] at hfinish
  obtain ⟨last, hlast, hrun⟩ := hfinish
  exact ⟨fed, last, hfed, hlast, hrun.symm⟩

/-! ## Whole runs -/

/-- The bars that the strategy was shown are those that were counted, the ticks are in them and in
the open bar, every bar is a point of the equity curve, and the run is not over. -/
structure Shown (run : Run sim) : Prop where
  bars : run.barsShown.length = run.barsEmitted
  ticks : (run.barsShown.map (·.tickCount)).sum + run.bars.held = run.ticksRead
  points : sim.deterministic = true → run.equity.points.size = run.barsEmitted
  running : .shutdown ∉ run.calls.toList

lemma shown_start (sim : Simulation α) : (Run.start sim).Shown :=
  ⟨rfl, rfl, fun _ => rfl, by simp [Run.start]⟩

/-- A bar that is taken may have held ticks that are not in the open bar any more. -/
lemma Shown.closed {closed : Option (Bar α)} {held : Nat}
    (h : run.onClosed? closed = some run') (hbars : run.barsShown.length = run.barsEmitted)
    (hticks : (run.barsShown.map (·.tickCount)).sum + held = run.ticksRead)
    (hheld : run.bars.held + (closed.map (·.tickCount)).getD 0 = held)
    (hpoints : sim.deterministic = true → run.equity.points.size = run.barsEmitted)
    (hrunning : .shutdown ∉ run.calls.toList) : run'.Shown := by
  cases closed with
  | none =>
    obtain rfl := Option.some.inj h
    rw [Option.map_none, Option.getD_none, Nat.add_zero] at hheld
    exact ⟨hbars, hheld ▸ hticks, hpoints, hrunning⟩
  | some bar =>
    have hbar : run.onBar? bar = some run' := h
    obtain ⟨hemitted, early, s, late, -, hcalls⟩ := onBar?_calls hbar
    have hsame := onBar?_sameTape hbar
    have hshown := barsShown_onBar? hbar
    rw [Option.map_some, Option.getD_some] at hheld
    refine ⟨?_, ?_, ?_, ?_⟩
    · rw [hshown, hemitted, List.length_append, hbars, List.length_singleton]
    · rw [hshown, hsame.bars, hsame.ticksRead, ← hticks, ← hheld, List.map_append, List.sum_append,
        List.map_singleton, List.sum_singleton]
      omega
    · intro hdet
      rw [onBar?_equity hdet hbar, EquityCurve.size_record, hpoints hdet, hemitted]
    · simp [hcalls, hrunning]

lemma Shown.tick {t : Tick α} (hrun : run.Shown) (h : run.onTick? t = some run') :
    run'.Shown := by
  obtain ⟨bars, closed, mid, floor, rollover, hpush, hmid, rfl⟩ := onTick?_frame h
  have hticks : (run.barsShown.map (·.tickCount)).sum + (run.bars.held + 1) =
      run.ticksRead + 1 := by
    rw [← Nat.add_assoc, hrun.ticks]
  have hshown : mid.Shown := Shown.closed hmid hrun.bars hticks (Bars.held_push? hpush) hrun.points
    hrun.running
  exact ⟨hshown.bars, hshown.ticks, hshown.points, hshown.running⟩

lemma shown_feed (h : (Run.start sim).feed ticks = .ok run) : run.Shown :=
  feed_induct (P := fun _ run => run.Shown) (shown_start sim) (fun _ hrun ht => hrun.tick ht) h

lemma Shown.closing (hrun : run.Shown) (h : run.closing? = some run') :
    run'.Shown ∧ run'.bars.held = 0 := by
  have hempty : run.bars.flush.1.held = 0 := by
    rw [Bars.flush]
    split
    · rename_i hcurrent
      rw [Bars.held, hcurrent]
      rfl
    · rfl
  have hheld : run.bars.flush.1.held + (run.bars.flush.2.map (·.tickCount)).getD 0 =
      run.bars.held := by
    rw [hempty, Bars.held_flush, Nat.zero_add]
  have hbars : run'.bars = run.bars.flush.1 := (onClosed?_sameTape h).bars
  exact ⟨Shown.closed h hrun.bars hrun.ticks hheld hrun.points hrun.running, hbars ▸ hempty⟩

end Run

end MarketTape
