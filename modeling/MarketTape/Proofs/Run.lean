import Mathlib.Data.List.Induction
import MarketTape.Proofs.Desk
import MarketTape.Simulation
import MarketTape.Strategy.Scripted

/-!
# Taking a run apart

A run is a long chain of steps, and what holds of all runs is proved one step at a time.  This file
takes the chain apart once: for every step it says what a successful one has done, in terms of the
steps it is made of.

* `Run.notify_eq` says all that telling a strategy of fills does, and `Run.settleIntent?_cases`,
  `Run.onBar?_cases`, `Run.onTick?_cases`, `Run.finish?_cases` and `Run.through_cases` are the
  steps.
* `Run.arrive?` is the first half of a tick: up to the question whether a contract was switched.
* `Run.feed_induct` is induction over the ticks of a run.
* `Run.onBar?_upholds` and `Run.onClosed?_keeps` carry a property over a closed bar, and
  `Run.SameTape` is what a closed bar leaves alone in any case.
* `Run.ticksRead_through` says that the ticks that a run counts are those that it was given.
* `shortRun` is a run to try results on.
-/

namespace MarketTape

namespace Run

variable {α : Type} {sim : Simulation α} {run run' : Run sim}

/-! ## The strategy -/

/-- The fills that a strategy is told of. -/
def told (sim : Simulation α) (fills : List (Fill α)) : List (Fill α) :=
  if sim.capabilities.orderAware then fills else []

/-- Telling a strategy of fills changes what it remembers and what it was told, nothing else. -/
lemma notify_eq (run : Run sim) (fills : List (Fill α)) :
    run.notify fills =
      { run with
        strategy := (told sim fills).foldl sim.strategy.onFill run.strategy
        calls := run.calls ++ ((told sim fills).map Call.fill).toArray } := by
  have go : ∀ (fills : List (Fill α)) (run : Run sim),
      fills.foldl tell run =
        { run with
          strategy := fills.foldl sim.strategy.onFill run.strategy
          calls := run.calls ++ (fills.map Call.fill).toArray } := by
    intro fills
    induction fills with
    | nil => intro run; simp
    | cons fill rest ih => intro run; simp [ih, tell]
  rw [notify, told]
  split
  · exact go fills run
  · simp

@[simp] lemma floor_notify (run : Run sim) (fills : List (Fill α)) :
    (run.notify fills).floor = run.floor := by rw [notify_eq]

@[simp] lemma rollover_notify (run : Run sim) (fills : List (Fill α)) :
    (run.notify fills).rollover = run.rollover := by rw [notify_eq]

@[simp] lemma bars_notify (run : Run sim) (fills : List (Fill α)) :
    (run.notify fills).bars = run.bars := by rw [notify_eq]

@[simp] lemma floor_name (run : Run sim) (intent : Intent α) :
    (run.name intent).1.floor = run.floor := by
  rw [name]; split <;> rfl

@[simp] lemma rollover_name (run : Run sim) (intent : Intent α) :
    (run.name intent).1.rollover = run.rollover := by
  rw [name]; split <;> rfl

@[simp] lemma bars_name (run : Run sim) (intent : Intent α) :
    (run.name intent).1.bars = run.bars := by
  rw [name]; split <;> rfl

/-! ## Bars -/

lemma describe?_cases {bar : Bar α} {state : MarketState α}
    (h : run.describe? bar = some (run', state)) :
    ∃ detector, sim.detector.observe run.detector bar = some (detector, state) ∧
      run' = { run with detector, barsEmitted := run.barsEmitted + 1 } := by
  simp only [describe?, Option.map_eq_some_iff, Prod.exists, Prod.mk.injEq] at h
  obtain ⟨detector, state', hobs, hrun, rfl⟩ := h
  exact ⟨detector, hobs, hrun.symm⟩

lemma describe?_frame {bar : Bar α} {state : MarketState α}
    (h : run.describe? bar = some (run', state)) :
    run'.floor = run.floor ∧ run'.rollover = run.rollover ∧ run'.bars = run.bars := by
  obtain ⟨detector, -, rfl⟩ := describe?_cases h
  exact ⟨rfl, rfl, rfl⟩

/-- What a strategy is shown of a bar. -/
def shown (run : Run sim) (bar : Bar α) (state : MarketState α) : BarState α :=
  ⟨bar, state, run.floor.book.net bar.instrument⟩

lemma askAbout?_cases {bar : Bar α} {state : MarketState α} {intents : List (Intent α)}
    (h : run.askAbout? bar state = some (run', intents)) :
    ∃ strategy, sim.strategy.onState run.strategy (run.shown bar state) =
        some (strategy, intents) ∧
      run' = { run with
        strategy
        intentsEmitted := run.intentsEmitted + intents.length
        calls := run.calls.push (.state (run.shown bar state)) } := by
  simp only [askAbout?, ask?, Option.map_eq_some_iff, Prod.exists, Prod.mk.injEq] at h
  obtain ⟨strategy, intents', hon, hrun, rfl⟩ := h
  exact ⟨strategy, hon, hrun.symm⟩

lemma askAbout?_frame {bar : Bar α} {state : MarketState α} {intents : List (Intent α)}
    (h : run.askAbout? bar state = some (run', intents)) :
    run'.floor = run.floor ∧ run'.rollover = run.rollover ∧ run'.bars = run.bars := by
  obtain ⟨strategy, -, rfl⟩ := askAbout?_cases h
  exact ⟨rfl, rfl, rfl⟩

variable [Scalar α]

lemma settleWaiting?_cases {bar : Bar α} (h : run.settleWaiting? bar = some run') :
    ∃ floor fills, run.floor.settle? bar = some (floor, fills) ∧
      run' = ({ run with floor } : Run sim).notify fills := by
  simp only [settleWaiting?, Option.map_eq_some_iff, Prod.exists] at h
  obtain ⟨floor, fills, hs, hrun⟩ := h
  exact ⟨floor, fills, hs, hrun.symm⟩

/-- An intent is refused because the strategy may not open positions, or it goes to the desk. -/
lemma settleIntent?_cases {bar : Bar α} {intent : Intent α}
    (h : run.settleIntent? bar intent = some run') :
    run' = { (run.name intent).1 with floor := run.floor.reject (run.name intent).2 bar } ∨
      ∃ floor fill, run.floor.submit? (run.name intent).2 bar = some (floor, fill) ∧
        run' = ({ (run.name intent).1 with floor } : Run sim).notify fill.toList := by
  rw [settleIntent?] at h
  simp only [floor_name] at h
  split at h
  · exact Or.inl (Option.some.inj h).symm
  · simp only [Option.map_eq_some_iff, Prod.exists] at h
    obtain ⟨floor, fill, hs, hrun⟩ := h
    exact Or.inr ⟨floor, fill, hs, hrun.symm⟩

/-- Carries a property through the settling of the intents of a bar; it may speak about the intents
that are still to come. -/
theorem settleIntents?_induct {bar : Bar α} {P : List (Intent α) → Run sim → Prop}
    (step : ∀ {intent rest run run'}, P (intent :: rest) run →
      run.settleIntent? bar intent = some run' → P rest run') :
    ∀ {intents : List (Intent α)} {run run' : Run sim}, P intents run →
      run.settleIntents? bar intents = some run' → P [] run'
  | [], run, run', hP, h => by
    rw [settleIntents?, Option.some.injEq] at h
    exact h ▸ hP
  | intent :: rest, run, run', hP, h => by
    simp only [settleIntents?] at h
    split at h
    · cases h
    · rename_i mid hone
      exact settleIntents?_induct step (step hP hone) h

/-- The steps of taking a closed bar where orders are filled. -/
lemma onBar?_cases {bar : Bar α} (hdet : sim.deterministic = true)
    (h : run.onBar? bar = some run') :
    ∃ described state settled asked intents answered,
      run.describe? bar = some (described, state) ∧
        described.settleWaiting? bar = some settled ∧
        settled.askAbout? bar state = some (asked, intents) ∧
        asked.settleIntents? bar intents = some answered ∧
        run' = answered.recordEquity bar := by
  simp only [onBar?, hdet, if_true, Option.bind_eq_bind, Option.bind_eq_some_iff,
    Option.some.injEq, Prod.exists] at h
  obtain ⟨described, state, hd, settled, hs, asked, intents, ha, answered, hi, hrun⟩ := h
  exact ⟨described, state, settled, asked, intents, answered, hd, hs, ha, hi, hrun.symm⟩

/-! ## What only ticks change -/

/-- A run and a later one between which no tick was counted and no contract followed. -/
structure SameTape (run run' : Run sim) : Prop where
  bars : run'.bars = run.bars
  rollover : run'.rollover = run.rollover
  instruments : run'.instruments = run.instruments
  ticksRead : run'.ticksRead = run.ticksRead
  lastTime : run'.lastTime = run.lastTime

namespace SameTape

variable {run'' : Run sim}

omit [Scalar α] in
@[refl] lemma refl (run : Run sim) : SameTape run run := ⟨rfl, rfl, rfl, rfl, rfl⟩

omit [Scalar α] in
lemma trans (h : SameTape run run') (h' : SameTape run' run'') : SameTape run run'' where
  bars := h'.bars.trans h.bars
  rollover := h'.rollover.trans h.rollover
  instruments := h'.instruments.trans h.instruments
  ticksRead := h'.ticksRead.trans h.ticksRead
  lastTime := h'.lastTime.trans h.lastTime

end SameTape

omit [Scalar α] in
lemma sameTape_name (run : Run sim) (intent : Intent α) : SameTape run (run.name intent).1 := by
  rw [name]; split <;> exact ⟨rfl, rfl, rfl, rfl, rfl⟩

omit [Scalar α] in
lemma sameTape_notify (run : Run sim) (fills : List (Fill α)) :
    SameTape run (run.notify fills) := by
  rw [notify_eq]; exact ⟨rfl, rfl, rfl, rfl, rfl⟩

omit [Scalar α] in
lemma describe?_sameTape {bar : Bar α} {state : MarketState α}
    (h : run.describe? bar = some (run', state)) : SameTape run run' := by
  obtain ⟨detector, -, rfl⟩ := describe?_cases h
  exact ⟨rfl, rfl, rfl, rfl, rfl⟩

omit [Scalar α] in
lemma askAbout?_sameTape {bar : Bar α} {state : MarketState α} {intents : List (Intent α)}
    (h : run.askAbout? bar state = some (run', intents)) : SameTape run run' := by
  obtain ⟨strategy, -, rfl⟩ := askAbout?_cases h
  exact ⟨rfl, rfl, rfl, rfl, rfl⟩

lemma settleWaiting?_sameTape {bar : Bar α} (h : run.settleWaiting? bar = some run') :
    SameTape run run' := by
  obtain ⟨floor, fills, -, rfl⟩ := settleWaiting?_cases h
  have hfloor : SameTape run { run with floor } := ⟨rfl, rfl, rfl, rfl, rfl⟩
  exact hfloor.trans (sameTape_notify _ fills)

lemma settleIntent?_sameTape {bar : Bar α} {intent : Intent α}
    (h : run.settleIntent? bar intent = some run') : SameTape run run' := by
  have hname := sameTape_name run intent
  have hfloor : ∀ floor, SameTape (run.name intent).1 { (run.name intent).1 with floor } :=
    fun _ => ⟨rfl, rfl, rfl, rfl, rfl⟩
  rcases settleIntent?_cases h with rfl | ⟨floor, fill, -, rfl⟩
  · exact hname.trans (hfloor _)
  · exact (hname.trans (hfloor floor)).trans (sameTape_notify _ _)

lemma settleIntents?_sameTape {bar : Bar α} {intents : List (Intent α)}
    (h : run.settleIntents? bar intents = some run') : SameTape run run' :=
  settleIntents?_induct (P := fun _ => SameTape run)
    (fun hbefore hone => hbefore.trans (settleIntent?_sameTape hone)) (SameTape.refl run) h

/-- A closed bar counts no tick and follows no contract, whether orders are filled or not. -/
theorem onBar?_sameTape {bar : Bar α} (h : run.onBar? bar = some run') : SameTape run run' := by
  by_cases hdet : sim.deterministic = true
  · obtain ⟨described, state, settled, asked, intents, answered, hd, hs, ha, hi, rfl⟩ :=
      onBar?_cases hdet h
    have hanswered : SameTape run answered :=
      (((describe?_sameTape hd).trans (settleWaiting?_sameTape hs)).trans
        (askAbout?_sameTape ha)).trans (settleIntents?_sameTape hi)
    exact hanswered.trans ⟨rfl, rfl, rfl, rfl, rfl⟩
  · simp only [onBar?, hdet, Bool.false_eq_true, if_false, Option.bind_eq_bind,
      Option.bind_eq_some_iff, Option.some.injEq, Prod.exists] at h
    obtain ⟨described, state, hd, asked, intents, ha, rfl⟩ := h
    exact (describe?_sameTape hd).trans (askAbout?_sameTape ha)

/-- The same, whether a bar was closed or not. -/
theorem onClosed?_sameTape {closed : Option (Bar α)} (h : run.onClosed? closed = some run') :
    SameTape run run' := by
  cases closed with
  | none =>
    rw [onClosed?, Option.some.injEq] at h
    exact h ▸ SameTape.refl run
  | some bar => exact onBar?_sameTape h

/-! ## What a bar does to the floor -/

section Upholds

variable {Q : Floor α → Prop} {bar : Bar α}

/-- Settling an intent on a bar upholds what the floor upholds. -/
lemma settleIntent?_upholds (k : Floor.Upholds Q bar) (hQ : Q run.floor) {intent : Intent α}
    (h : run.settleIntent? bar intent = some run') : Q run'.floor := by
  rcases settleIntent?_cases h with rfl | ⟨floor, fill, hs, rfl⟩
  · exact k.reject hQ _
  · rw [floor_notify]
    exact k.submit hQ hs

/-- Settling the orders that waited for a bar upholds what the floor upholds. -/
lemma settleWaiting?_upholds (k : Floor.Upholds Q bar) (hQ : Q run.floor)
    (h : run.settleWaiting? bar = some run') : Q run'.floor := by
  obtain ⟨floor, fills, hs, rfl⟩ := settleWaiting?_cases h
  rw [floor_notify]
  exact k.settle hQ hs

/-- A closed bar upholds what the floor upholds. -/
theorem onBar?_upholds (k : Floor.Upholds Q bar) (hdet : sim.deterministic = true)
    (hQ : Q run.floor) (h : run.onBar? bar = some run') : Q run'.floor := by
  obtain ⟨described, state, settled, asked, intents, answered, hd, hs, ha, hi, rfl⟩ :=
    onBar?_cases hdet h
  -- the detector and the strategy do not touch the desk; the orders and the intents do
  have hdescribed : Q described.floor := (describe?_frame hd).1 ▸ hQ
  have hasked : Q asked.floor := (askAbout?_frame ha).1 ▸ settleWaiting?_upholds k hdescribed hs
  have hanswered : Q answered.floor :=
    settleIntents?_induct (P := fun _ r => Q r.floor)
      (fun hbefore hone => settleIntent?_upholds k hbefore hone) hasked hi
  exact hanswered

/-- The same, whether a bar was closed or not. -/
theorem onClosed?_upholds {closed : Option (Bar α)}
    (k : ∀ bar, closed = some bar → Floor.Upholds Q bar) (hdet : sim.deterministic = true)
    (hQ : Q run.floor) (h : run.onClosed? closed = some run') : Q run'.floor := by
  cases closed with
  | none =>
    rw [onClosed?, Option.some.injEq] at h
    exact h ▸ hQ
  | some bar => exact onBar?_upholds (k bar rfl) hdet hQ h

end Upholds

/-- A bar that may have been closed keeps what the desk keeps, and it moves neither contracts nor
bars. -/
theorem onClosed?_keeps {Q : Book α → AuditLog α → Prop} {closed : Option (Bar α)}
    (k : ∀ bar, closed = some bar → Floor.Keeps Q bar.instrument bar.lastTime)
    (hdet : sim.deterministic = true) (hQ : Q run.floor.book run.floor.log)
    (h : run.onClosed? closed = some run') :
    Q run'.floor.book run'.floor.log ∧ run'.rollover = run.rollover ∧ run'.bars = run.bars :=
  have hsame := onClosed?_sameTape h
  ⟨onClosed?_upholds (fun bar hbar => (k bar hbar).upholds) hdet hQ h, hsame.rollover, hsame.bars⟩

/-! ## Ticks -/

/-- A tick up to the question whether it switches a contract: a bar that it closed is settled, and
its price is the mark of its instrument. -/
def arrive? (run : Run sim) (t : Tick α) : Option (Run sim) := do
  let run := run.count t
  let (bars, closed) ← run.bars.push? t
  let run ← { run with bars }.onClosed? closed
  some (run.mark t)

lemma arrive?_cases {t : Tick α} (h : run.arrive? t = some run') :
    ∃ bars closed mid, run.bars.push? t = some (bars, closed) ∧
      ({ run.count t with bars } : Run sim).onClosed? closed = some mid ∧ run' = mid.mark t := by
  simp only [arrive?, Option.bind_eq_bind, Option.bind_eq_some_iff, Option.some.injEq,
    Prod.exists] at h
  obtain ⟨bars, closed, hpush, mid, hmid, hrun⟩ := h
  exact ⟨bars, closed, mid, hpush, hmid, hrun.symm⟩

/-- A tick that arrives moves nothing between contracts yet. -/
lemma rollover_arrive? {t : Tick α} (h : run.arrive? t = some run') :
    run'.rollover = run.rollover := by
  obtain ⟨bars, closed, mid, -, hmid, rfl⟩ := arrive?_cases h
  exact (onClosed?_sameTape hmid).rollover

/-- Where orders are filled, a tick arrives and then its contract is followed. -/
lemma onTick?_cases {t : Tick α} (hdet : sim.deterministic = true)
    (h : run.onTick? t = some run') :
    ∃ arrived, run.arrive? t = some arrived ∧ arrived.followContract? t = some run' := by
  simp only [onTick?, hdet, if_true, Option.bind_eq_bind, Option.bind_eq_some_iff,
    Prod.exists] at h
  obtain ⟨bars, closed, hpush, mid, hmid, hfollow⟩ := h
  refine ⟨mid.mark t, ?_, hfollow⟩
  simp only [arrive?, Option.bind_eq_bind, Option.bind_eq_some_iff, Prod.exists]
  exact ⟨bars, closed, hpush, mid, hmid, rfl⟩

/-- Following the contract of a tick does nothing without rollovers; with them the tick is noticed,
and a position moves if it has to. -/
lemma followContract?_cases {t : Tick α} (h : run.followContract? t = some run') :
    (run.rollover = none ∧ run' = run) ∨
      ∃ r seen pending, run.rollover = some r ∧ r.detect t run.floor.book = (seen, pending) ∧
        ((pending = none ∧ run' = { run with rollover := some seen }) ∨
          ∃ p, pending = some p ∧ run.roll? seen p t = some run') := by
  rw [followContract?] at h
  split at h
  · rename_i hr
    exact Or.inl ⟨hr, (Option.some.inj h).symm⟩
  · rename_i r hr
    split at h
    · rename_i seen hdetect
      exact Or.inr ⟨r, seen, none, hr, hdetect, Or.inl ⟨rfl, (Option.some.inj h).symm⟩⟩
    · rename_i seen p hdetect
      exact Or.inr ⟨r, seen, some p, hr, hdetect, Or.inr ⟨p, rfl, h⟩⟩

/-- A switch drops the orders that wait for the old contract and then moves the position. -/
lemma roll?_cases {r : Rollover α} {p : PendingRollover} {t : Tick α}
    (h : run.roll? r p t = some run') :
    ∃ r' book log event,
      r.execute? p t (run.floor.cancel p.source t.time).1.book
          (run.floor.cancel p.source t.time).1.log (run.floor.cancel p.source t.time).2 =
        some (r', book, log, event) ∧
      run' = { run with
        floor := { (run.floor.cancel p.source t.time).1 with book, log }
        rollover := some r' } := by
  simp only [roll?, Option.map_eq_some_iff, Prod.exists] at h
  obtain ⟨r', book, log, event, hexec, hrun⟩ := h
  exact ⟨r', book, log, event, hexec, hrun.symm⟩

/-- Following a contract counts no tick. -/
lemma followContract?_ticksRead {t : Tick α} (h : run.followContract? t = some run') :
    run'.ticksRead = run.ticksRead := by
  rcases followContract?_cases h with
    ⟨-, rfl⟩ | ⟨r, seen, pending, -, -, ⟨-, rfl⟩ | ⟨p, -, hroll⟩⟩
  · rfl
  · rfl
  · obtain ⟨r', book, log, event, -, rfl⟩ := roll?_cases hroll
    rfl

/-- A tick that was taken is counted once. -/
lemma ticksRead_onTick? {t : Tick α} (h : run.onTick? t = some run') :
    run'.ticksRead = run.ticksRead + 1 := by
  simp only [onTick?, Option.bind_eq_bind, Option.bind_eq_some_iff, Prod.exists] at h
  obtain ⟨bars, closed, -, mid, hmid, hend⟩ := h
  have hcount : mid.ticksRead = run.ticksRead + 1 := (onClosed?_sameTape hmid).ticksRead
  split at hend
  · exact (followContract?_ticksRead hend).trans hcount
  · exact Option.some.inj hend ▸ hcount

/-! ## Whole runs -/

lemma feed_append (run : Run sim) : ∀ (ticks more : List (Tick α)),
    run.feed (ticks ++ more) =
      match run.feed ticks with
      | .error run => .error run
      | .ok run => run.feed more
  | [], more => rfl
  | t :: rest, more => by
    simp only [List.cons_append, feed]
    cases run.onTick? t with
    | none => rfl
    | some next => exact feed_append next rest more

lemma feed_concat {ticks : List (Tick α)} {t : Tick α} (h : run.feed (ticks ++ [t]) = .ok run') :
    ∃ before, run.feed ticks = .ok before ∧ before.onTick? t = some run' := by
  rw [feed_append] at h
  cases hf : run.feed ticks with
  | error stopped => simp [hf] at h
  | ok before =>
    simp only [hf, feed] at h
    split at h
    · cases h
    · rename_i next hnext
      exact ⟨before, rfl, hnext.trans (congrArg some (Except.ok.inj h))⟩

/-- Induction over the ticks of a run. -/
theorem feed_induct {P : List (Tick α) → Run sim → Prop} (start : P [] (Run.start sim))
    (step : ∀ {ticks run t run'}, (Run.start sim).feed ticks = .ok run → P ticks run →
      run.onTick? t = some run' → P (ticks ++ [t]) run') :
    ∀ {ticks run}, (Run.start sim).feed ticks = .ok run → P ticks run := by
  intro ticks
  induction ticks using List.reverseRecOn with
  | nil =>
    intro run h
    rw [feed, Except.ok.injEq] at h
    exact h ▸ start
  | append_singleton ticks t ih =>
    intro run h
    obtain ⟨before, hbefore, ht⟩ := feed_concat h
    exact step hbefore (ih hbefore) ht

/-- The end of a run: the open bar is taken, and what still waits is dropped. -/
lemma finish?_cases (h : run.finish? = some run') :
    ∃ mid, ({ run with bars := run.bars.flush.1 } : Run sim).onClosed? run.bars.flush.2 =
      some mid ∧ run' = mid.shutdown.dropWaiting := by
  simp only [finish?, Option.map_eq_some_iff] at h
  obtain ⟨mid, hmid, hrun⟩ := h
  exact ⟨mid, hmid, hrun.symm⟩

omit [Scalar α] in
lemma dropWaiting_eq (hdet : sim.deterministic = true) (run : Run sim) :
    run.dropWaiting = { run with floor := (run.floor.cancelAll run.lastTime).1 } := by
  rw [dropWaiting, if_pos hdet]

lemma through_cases {ticks : List (Tick α)} (h : through sim ticks = .ok run') :
    ∃ fed, (Run.start sim).feed ticks = .ok fed ∧ fed.finish? = some run' := by
  rw [through] at h
  split at h
  · cases h
  · rename_i fed hfed
    split at h
    · cases h
    · rename_i finished hfinish
      exact ⟨fed, hfed, hfinish.trans (congrArg some (Except.ok.inj h))⟩

/-- Where a tick makes a count leave its range, the run is the one over the ticks before it. -/
lemma feed_error_cases {stopped : Run sim} : ∀ {ticks : List (Tick α)} {run : Run sim},
    run.feed ticks = .error stopped → ∃ before, before <+: ticks ∧ run.feed before = .ok stopped
  | [], run, h => by cases h
  | t :: rest, run, h => by
    simp only [feed] at h
    split at h
    · obtain rfl := Except.error.inj h
      exact ⟨[], List.nil_prefix, rfl⟩
    · rename_i next hnext
      obtain ⟨before, hprefix, hbefore⟩ := feed_error_cases h
      refine ⟨t :: before, List.cons_prefix_cons.mpr ⟨rfl, hprefix⟩, ?_⟩
      simp only [feed, hnext, hbefore]

/-- A run that stops early was a run over some of the first ticks. -/
lemma through_error_cases {ticks : List (Tick α)} (h : through sim ticks = .error run') :
    ∃ before, before <+: ticks ∧ (Run.start sim).feed before = .ok run' := by
  rw [through] at h
  split at h
  · rename_i stopped hfed
    obtain rfl := Except.error.inj h
    exact feed_error_cases hfed
  · rename_i fed hfed
    split at h
    · obtain rfl := Except.error.inj h
      exact ⟨ticks, List.prefix_refl ticks, hfed⟩
    · cases h

omit [Scalar α] in
/-- What is computed from where a run got to is computed from a run that got there. -/
lemma exists_of_ok {β : Type} {end_ : Except (Run sim) (Run sim)} {f : Run sim → β} {value : β}
    (h : end_.toOption.map f = some value) : ∃ run, end_ = .ok run ∧ f run = value := by
  cases end_ with
  | error stopped => cases h
  | ok run => exact ⟨run, rfl, Option.some.inj h⟩

/-- The same at the end of a run. -/
lemma exists_of_through {β : Type} {ticks : List (Tick α)} {f : Run sim → β} {value : β}
    (h : (through sim ticks).toOption.map f = some value) :
    ∃ run, through sim ticks = .ok run ∧ f run = value := exists_of_ok h

/-- The ticks that a run counts are the ticks that it was given. -/
theorem ticksRead_feed {ticks : List (Tick α)} {run : Run sim}
    (h : (Run.start sim).feed ticks = .ok run) : run.ticksRead = ticks.length := by
  refine feed_induct (P := fun ticks run => run.ticksRead = ticks.length) rfl ?_ h
  intro ticks run t run' _ hrun ht
  rw [ticksRead_onTick? ht, hrun, List.length_append, List.length_singleton]

/-- The same for a run that came to its end. -/
theorem ticksRead_through {ticks : List (Tick α)} (h : through sim ticks = .ok run') :
    run'.ticksRead = ticks.length := by
  obtain ⟨fed, hfed, hfinish⟩ := through_cases h
  obtain ⟨mid, hmid, rfl⟩ := finish?_cases hfinish
  have hcount : mid.ticksRead = fed.ticksRead := (onClosed?_sameTape hmid).ticksRead
  rw [← ticksRead_feed hfed, ← hcount, dropWaiting]
  split <;> rfl

end Run

/-! ## A short run

Five ticks close five bars.  Among the six intents of the script there is one for every way an order
can go, and the last tick is the first of another contract while a lot is held. -/

/-- A detector that has nothing to say. -/
def silentDetector : Detector Float where
  State := Unit
  start := ()
  observe _ _ := some ((), ⟨0, 0, 0, 0, 0, 0, 0, .warmup⟩)

/-- The script of the short run. -/
def shortScript : Script :=
  [("1", [⟨.buy, .opening, 2, none, ""⟩, ⟨.buy, .opening, 0, none, ""⟩]),
    ("2", [⟨.sell, .opening, 1, none, ""⟩]),
    ("3", [⟨.sell, .opening, 1, none, ""⟩, ⟨.sell, .closing, 5, none, ""⟩]),
    ("4", [⟨.buy, .opening, 3, none, ""⟩])]

/-- What is simulated in the short run. -/
def shortSimulation (mode : RolloverMode) : Simulation Float where
  deterministic := true
  bucketWidth := 60
  rollover := some ⟨mode, ⟨.quote, 10⟩⟩
  logging := true
  strategyName := "trial"
  capabilities := { opening := true, orderAware := true, traceProvider := false }
  strategy := scripted shortScript
  detector := silentDetector

/-- The ticks of the short run. -/
def shortTicks : List (Tick Float) :=
  [⟨"rb2405", 0, 100, 0, 99, 1, 101, 1⟩, ⟨"rb2405", 60, 101, 0, 100, 1, 102, 1⟩,
    ⟨"rb2405", 120, 102, 0, 101, 1, 103, 1⟩, ⟨"rb2405", 180, 103, 0, 102, 1, 104, 1⟩,
    ⟨"rb2410", 240, 110, 0, 109, 1, 111, 1⟩]

/-- The short run. -/
def shortRun (mode : RolloverMode) : Run (shortSimulation mode) :=
  match Run.through (shortSimulation mode) shortTicks with
  | .error run => run
  | .ok run => run

/-- The short run comes to its end. -/
lemma through_shortSimulation (mode : RolloverMode) :
    Run.through (shortSimulation mode) shortTicks = .ok (shortRun mode) := by
  have hok : (Run.through (shortSimulation mode) shortTicks).isOk = true := by
    cases mode <;> decide
  rw [shortRun]
  cases hrun : Run.through (shortSimulation mode) shortTicks with
  | error run => simp [hrun, Except.isOk, Except.toBool] at hok
  | ok run => rfl

end MarketTape
