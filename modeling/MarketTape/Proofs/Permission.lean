import MarketTape.Proofs.Following
import MarketTape.Proofs.Transparency

/-!
# Without permission nothing trades

A strategy declares whether it may open positions.  The intents of one that may not are refused in
two places that know nothing of each other: the run refuses those that open, and the desk refuses
those that close, because there is nothing to close.  The second refusal rests on the first, and on
nothing else bringing lots into the book; so what a run has to keep true is that the book is empty
and that no order waits.

A run that refuses everything does to its strategy what a run does that fills nothing at all.  In
particular no intent, whatever it asks for, makes it stop.

* `Floor.Idle` is a floor on which some intents were refused and nothing else happened.
* `Run.refuse` is what becomes of an intent; `Run.onBar?_eq_refuse` says that nothing else becomes
  of a closed bar, and `Run.followContract?_of_empty` that a switch of contracts moves nothing.
* `Run.Barred` is the invariant of a run, `Run.AllRefused` what it comes to.
* `Simulation.watching` is the simulation that fills nothing, and `Run.through_watched` compares the
  two.
* `nothing_trades_without_permission` is the result.
-/

namespace MarketTape

variable {α : Type}

/-! ## An idle floor -/

/-- A record that an intent was refused. -/
def Intent.RefusedIn (o : Intent α) (e : AuditEvent α) : Prop :=
  ∃ time price, e = .settled o time price .rejected

lemma Book.net_of_empty {b : Book α} (h : b.positions = Table.empty) (instrument : String) :
    b.net instrument = 0 := by
  rw [net, get?, h]
  rfl

/-- A floor on which some intents were refused, one after the other, and nothing else happened.  The
log has the refusals and nothing else, if there is one. -/
structure Floor.Idle (f : Floor α) (logging : Bool) (refused : List (Intent α)) : Prop where
  positions : f.book.positions = Table.empty
  waiting : f.desk.waiting = Table.empty
  statuses : f.desk.statuses = ⟨0, 0, 0, refused.length, 0⟩
  enabled : f.log.enabled = logging
  logged : List.Forall₂ Intent.RefusedIn (if logging then refused else []) f.log.events.toList

namespace Floor

variable {f : Floor α} {o : Intent α} {bar : Bar α} {logging : Bool} {refused : List (Intent α)}

lemma idle_start (logging : Bool) : (start logging : Floor α).Idle logging [] where
  positions := rfl
  waiting := rfl
  statuses := rfl
  enabled := rfl
  logged := by
    rw [ite_self]
    exact .nil

/-- One more intent is refused. -/
lemma Idle.reject (h : f.Idle logging refused) (o : Intent α) (bar : Bar α) :
    (f.reject o bar).Idle logging (refused ++ [o]) where
  positions := h.positions
  waiting := h.waiting
  statuses := by
    simp only [Floor.reject, transition, h.statuses, StatusCounts.increment, List.length_append,
      List.length_singleton]
  enabled := (f.log.enabled_append _).trans h.enabled
  logged := by
    have hlogged := h.logged
    have hrecord : (f.reject o bar).log.events.toList =
        if f.log.enabled then
          f.log.events.toList ++ [.settled o bar.lastTime bar.close .rejected]
        else f.log.events.toList := f.log.toList_append _
    rw [hrecord, h.enabled]
    split
    · next hlog =>
      rw [if_pos hlog] at hlogged
      exact List.rel_append hlogged (.cons ⟨bar.lastTime, bar.close, rfl⟩ .nil)
    · next hlog => rwa [if_neg hlog] at hlogged

/-- A mark moves no lots. -/
lemma Idle.mark (h : f.Idle logging refused) (instrument : String) (price : α) :
    ({ f with book := f.book.mark instrument price } : Floor α).Idle logging refused :=
  { h with positions := h.positions }

/-- With no lots there is nothing to close. -/
lemma submit?_of_empty [Scalar α] (h : f.book.positions = Table.empty) (ho : o.offset ≠ .opening)
    (bar : Bar α) : f.submit? o bar = some (f.reject o bar, none) := by
  have hoffset : o.offset = .closing := by
    cases hcase : o.offset with
    | opening => exact absurd hcase ho
    | closing => rfl
  have hdecide : decide? o bar (f.book.net o.instrument) = some .reject := by
    rw [decide?, Book.net_of_empty h, hoffset]
    split
    · rfl
    · exact if_neg fun hheld => hheld.1 rfl
  rw [submit?, hdecide]

end Floor

/-- Contracts that were followed without moving a position. -/
structure Rollover.Still [Scalar α] (r : Rollover α) : Prop where
  events : r.events = #[]
  actions : r.actions = #[]
  slippageTotal : r.slippageTotal = Scalar.zero

/-- Noticing a tick moves no position. -/
lemma Rollover.Still.detect [Scalar α] {r : Rollover α} (h : r.Still) (t : Tick α)
    (book : Book α) : (r.detect t book).1.Still := by
  cases hd : r.detect t book with
  | mk seen pending =>
    rcases detect_cases hd with ⟨-, rfl, -⟩ | ⟨-, rfl, -⟩ | ⟨source, -, -, -, rfl, -⟩ <;>
      exact ⟨h.events, h.actions, h.slippageTotal⟩

/-! ## Names -/

namespace Simulation

variable {sim : Simulation α}

/-- Intents under the names by which they are known: those that the strategy gave them, or those
that the run gave them. -/
def named (sim : Simulation α) (intents : List (Intent α)) : List (Intent α) :=
  if sim.capabilities.traceProvider then intents else sim.placed intents

/-- The number of the next order after so many intents. -/
def nextTrace (sim : Simulation α) (intents : Nat) : Nat :=
  if sim.capabilities.traceProvider then 1 else intents + 1

lemma length_named (sim : Simulation α) (intents : List (Intent α)) :
    (sim.named intents).length = intents.length := by
  rw [named]
  split
  · rfl
  · exact List.length_mapIdx

end Simulation

/-- An intent is given the next name, unless it has one. -/
lemma Run.name_eq_named {sim : Simulation α} {run : Run sim} {done : List (Intent α)}
    (hnext : run.nextTrace = sim.nextTrace done.length) (o : Intent α) :
    ∃ placed, sim.named (done ++ [o]) = sim.named done ++ [placed] ∧
      run.name o = ({ run with nextTrace := sim.nextTrace (done ++ [o]).length }, placed) := by
  rw [Simulation.nextTrace] at hnext
  rw [List.length_append, List.length_singleton, Simulation.nextTrace, Simulation.named,
    Simulation.named]
  cases htrace : sim.capabilities.traceProvider with
  | true =>
    rw [htrace, if_pos rfl] at hnext
    refine ⟨o, rfl, ?_⟩
    rw [name, htrace, if_pos rfl, if_pos rfl, ← hnext]
  | false =>
    rw [htrace, if_neg Bool.false_ne_true] at hnext
    exact ⟨_, sim.placed_concat done o, name_eq htrace hnext o⟩

/-! ## Refusing -/

/-- A simulation in which orders are filled, with a strategy that may not open positions. -/
structure Simulation.Restricted (sim : Simulation α) : Prop where
  deterministic : sim.deterministic = true
  opening : sim.capabilities.opening = false

namespace Run

variable {sim : Simulation α} {run run' : Run sim} {done pending rest : List (Intent α)}
  {o : Intent α} {bar : Bar α} {t : Tick α} {ticks : List (Tick α)}

/-- Refuses an intent on a bar, under the name by which it is known. -/
def refuse (bar : Bar α) (run : Run sim) (o : Intent α) : Run sim :=
  { (run.name o).1 with floor := run.floor.reject (run.name o).2 bar }

/-- Refusing intents counts names and writes to the floor. -/
lemma refuse_frame (bar : Bar α) : ∀ (os : List (Intent α)) (run : Run sim),
    ∃ nextTrace floor, os.foldl (refuse bar) run = { run with nextTrace, floor }
  | [], run => ⟨run.nextTrace, run.floor, rfl⟩
  | o :: os, run => by
    obtain ⟨nextTrace, floor, hrest⟩ := refuse_frame bar os (refuse bar run o)
    refine ⟨nextTrace, floor, hrest.trans ?_⟩
    rw [refuse, name]
    split <;> rfl

variable [Scalar α]

/-- An intent of a strategy that may not open positions is refused, whatever it asks for: by the run
if it opens, and by the desk if it closes. -/
lemma settleIntent?_eq_refuse (hsim : sim.Restricted) (h : run.floor.book.positions = Table.empty)
    (bar : Bar α) (o : Intent α) : run.settleIntent? bar o = some (run.refuse bar o) := by
  rw [settleIntent?]
  simp only [floor_name, hsim.opening, and_true]
  split
  · rfl
  · next ho =>
    -- a closing intent gets as far as the desk
    rw [Floor.submit?_of_empty h ho]
    exact congrArg some (notify_nil (run.refuse bar o))

/-- So are all intents of a bar. -/
lemma settleIntents?_eq_refuse (hsim : sim.Restricted) (bar : Bar α) :
    ∀ (os : List (Intent α)) (run : Run sim), run.floor.book.positions = Table.empty →
      run.settleIntents? bar os = some (os.foldl (refuse bar) run)
  | [], _, _ => rfl
  | o :: os, run, h => by
    rw [settleIntents?, settleIntent?_eq_refuse hsim h bar o]
    exact settleIntents?_eq_refuse hsim bar os (run.refuse bar o) h

/-! ## The invariant -/

/-- All intents so far but those still to come were refused; no position was moved, and the strategy
was told of no fill. -/
structure Barred (run : Run sim) (done pending : List (Intent α)) : Prop where
  floor : run.floor.Idle sim.logging (sim.named done)
  heard : sim.strategy.after run.calls.toList = (run.strategy, done ++ pending)
  emitted : run.intentsEmitted = (done ++ pending).length
  told : fillsIn run.calls.toList = []
  next : run.nextTrace = sim.nextTrace done.length
  still : ∀ r, run.rollover = some r → r.Still

lemma barred_start (sim : Simulation α) : (Run.start sim).Barred [] [] where
  floor := by
    have hnone : sim.named [] = [] := List.length_eq_zero_iff.mp (sim.length_named [])
    rw [hnone]
    exact Floor.idle_start sim.logging
  heard := rfl
  emitted := rfl
  told := rfl
  next := (ite_self 1).symm
  still := by
    intro r hr
    simp only [Run.start] at hr
    split at hr
    · obtain ⟨terms, -, rfl⟩ := Option.map_eq_some_iff.mp hr
      exact ⟨rfl, rfl, rfl⟩
    · cases hr

/-- The next intent is refused. -/
lemma Barred.refuse (h : run.Barred done (o :: rest)) (bar : Bar α) :
    (run.refuse bar o).Barred (done ++ [o]) rest := by
  obtain ⟨placed, hnamed, hname⟩ := name_eq_named h.next o
  have hheard := h.heard
  have hemitted := h.emitted
  rw [List.append_cons] at hheard hemitted
  rw [Run.refuse, hname]
  exact { h with
    floor := hnamed ▸ h.floor.reject placed bar
    heard := hheard
    emitted := hemitted
    next := rfl }

/-- All intents of a bar are. -/
lemma Barred.refuseAll (bar : Bar α) :
    ∀ {os : List (Intent α)} {run : Run sim} {done : List (Intent α)}, run.Barred done os →
      (os.foldl (Run.refuse bar) run).Barred (done ++ os) []
  | [], run, done, h => by rwa [List.append_nil]
  | o :: os, run, done, h => by
    rw [List.append_cons]
    exact (h.refuse bar).refuseAll bar

lemma Barred.ask {asked : Run sim} {state : MarketState α} {intents : List (Intent α)}
    (h : run.Barred done []) (ha : run.askAbout? bar state = some (asked, intents)) :
    asked.Barred done intents := by
  obtain ⟨hheard, hemitted⟩ := after_askAbout? ha h.heard h.emitted
  obtain ⟨strategy, -, rfl⟩ := askAbout?_cases ha
  have htold : fillsIn (run.calls.push (.state (run.shown bar state))).toList = [] := by
    rw [Array.toList_push, fillsIn_append, h.told]
    rfl
  exact { h with heard := hheard, emitted := hemitted, told := htold }

/-! ## On a bar -/

/-- On a closed bar the strategy is asked, and its intents are refused. -/
lemma onBar?_eq_refuse (hsim : sim.Restricted) (h : run.Barred done []) (bar : Bar α) :
    run.onBar? bar = (run.describe? bar).bind fun described =>
      (described.1.askAbout? bar described.2).map fun asked =>
        (asked.2.foldl (Run.refuse bar) asked.1).recordEquity bar := by
  simp only [onBar?, hsim.deterministic, if_true, Option.bind_eq_bind]
  cases hdescribed : run.describe? bar with
  | none => rfl
  | some described =>
    have hfloor : described.1.floor = run.floor := (describe?_frame hdescribed).1
    have hwaiting : described.1.floor.desk.waiting = Table.empty := hfloor ▸ h.floor.waiting
    -- nothing waits, so that the strategy is asked at once
    simp only [Option.bind_some, settleWaiting?_of_empty hwaiting]
    cases hasked : described.1.askAbout? bar described.2 with
    | none => rfl
    | some asked =>
      have hasked' : asked.1.floor = run.floor := (askAbout?_frame hasked).1.trans hfloor
      have hempty : asked.1.floor.book.positions = Table.empty := hasked' ▸ h.floor.positions
      simp only [Option.bind_some, Option.map_some, settleIntents?_eq_refuse hsim bar _ _ hempty]

/-- A closed bar leaves nothing behind but refusals. -/
lemma Barred.closed {closed : Option (Bar α)} (hsim : sim.Restricted) (h : run.Barred done [])
    (hc : run.onClosed? closed = some run') : ∃ done', run'.Barred done' [] := by
  cases closed with
  | none =>
    rw [onClosed?, Option.some.injEq] at hc
    exact ⟨done, hc ▸ h⟩
  | some bar =>
    rw [onClosed?, onBar?_eq_refuse hsim h] at hc
    simp only [Option.bind_eq_some_iff, Option.map_eq_some_iff, Prod.exists] at hc
    obtain ⟨described, state, hdescribed, asked, os, hasked, rfl⟩ := hc
    obtain ⟨detector, -, rfl⟩ := describe?_cases hdescribed
    have hcounted : ({ run with detector, barsEmitted := run.barsEmitted + 1 } :
        Run sim).Barred done [] := { h with floor := h.floor }
    have hanswered := (hcounted.ask hasked).refuseAll bar
    exact ⟨done ++ os, { hanswered with floor := hanswered.floor }⟩

/-! ## On a tick -/

/-- Where no lots are held, a tick of another contract moves nothing. -/
lemma followContract?_of_empty (h : run.floor.book.positions = Table.empty) (t : Tick α) :
    run.followContract? t =
      some { run with rollover := run.rollover.map fun r => (r.detect t run.floor.book).1 } := by
  rw [followContract?]
  split
  · next hr => rw [hr, Option.map_none, ← hr]
  · next r hr =>
    rw [hr, Option.map_some]
    split
    · next seen hd => rw [hd]
    · next seen p hd =>
      -- a switch is made for the sake of lots in the old contract
      obtain ⟨source, -, -, hheld, -⟩ := Rollover.switch_of_detect hd
      exact absurd (Book.net_of_empty h source) hheld

/-- A tick marks a price and moves no lots. -/
lemma Barred.tick (hsim : sim.Restricted) (h : run.Barred done [])
    (ht : run.onTick? t = some run') : ∃ done', run'.Barred done' [] := by
  rw [onTick?_eq hsim.deterministic, Option.bind_eq_some_iff] at ht
  obtain ⟨mid, hmid, hfollow⟩ := ht
  obtain ⟨bars, closed, -, hclosed⟩ := uptoMark?_cases hmid
  have hcounted : ({ run.count t with bars } : Run sim).Barred done [] :=
    { h with floor := h.floor }
  obtain ⟨done', hbar⟩ := hcounted.closed hsim hclosed
  have hmarked : (mid.mark t).floor.Idle sim.logging (sim.named done') :=
    hbar.floor.mark t.instrument t.last
  rw [followContract?_of_empty hmarked.positions] at hfollow
  obtain rfl := Option.some.inj hfollow
  refine ⟨done', { hbar with floor := hmarked, still := ?_ }⟩
  intro r hr
  obtain ⟨before, hbefore, rfl⟩ := Option.map_eq_some_iff.mp hr
  exact (hbar.still before hbefore).detect t _

/-! ## Whole runs -/

lemma barred_feed (hsim : sim.Restricted) (h : (Run.start sim).feed ticks = .ok run) :
    ∃ done, run.Barred done [] := by
  refine feed_induct (P := fun _ run => ∃ done, run.Barred done []) ⟨[], barred_start sim⟩ ?_ h
  rintro ticks run t run' - ⟨done, hrun⟩ ht
  exact hrun.tick hsim ht

/-- At the end of a run there is nothing to drop. -/
lemma Barred.finish (hsim : sim.Restricted) (h : run.Barred done [])
    (hf : run.finish? = some run') : ∃ done', run'.Barred done' [] := by
  obtain ⟨mid, hmid, rfl⟩ := finish?_cases hf
  have hflushed : ({ run with bars := run.bars.flush.1 } : Run sim).Barred done [] :=
    { h with floor := h.floor }
  obtain ⟨done', hclosed⟩ := hflushed.closed hsim hmid
  have hnothing : mid.shutdown.dropWaiting = mid.shutdown :=
    dropWaiting_of_empty hsim.deterministic hclosed.floor.waiting
  rw [hnothing]
  exact ⟨done', { hclosed with
    heard := (after_shutdown mid).trans hclosed.heard
    told := (fillsIn_shutdown mid).trans hclosed.told }⟩

/-- A run in which every intent was refused and nothing else happened: nothing is held, nothing
waits, no position was moved, and the strategy was told of no fill. -/
structure AllRefused (run : Run sim) : Prop where
  emitted : run.intents.length = run.intentsEmitted
  floor : run.floor.Idle sim.logging (sim.named run.intents)
  told : fillsIn run.calls.toList = []
  still : ∀ r, run.rollover = some r → r.Still

lemma Barred.allRefused (h : run.Barred done []) : run.AllRefused := by
  have hintents : run.intents = done := by rw [intents, h.heard, List.append_nil]
  exact ⟨by rw [hintents, h.emitted, List.append_nil], hintents ▸ h.floor, h.told, h.still⟩

lemma allRefused_feed (hsim : sim.Restricted) (h : (Run.start sim).feed ticks = .ok run) :
    run.AllRefused := by
  obtain ⟨done, hrun⟩ := barred_feed hsim h
  exact hrun.allRefused

lemma allRefused_through (hsim : sim.Restricted) (h : through sim ticks = .ok run) :
    run.AllRefused := by
  obtain ⟨fed, hfed, hfinish⟩ := through_cases h
  obtain ⟨done, hrun⟩ := barred_feed hsim hfed
  obtain ⟨done', hend⟩ := hrun.finish hsim hfinish
  exact hend.allRefused

end Run

/-! ## Watching -/

/-- The simulation that shows the same bars and fills nothing. -/
def Simulation.watching (sim : Simulation α) : Simulation α := { sim with deterministic := false }

namespace Run

variable {sim : Simulation α} {run run' : Run sim} {done : List (Intent α)} {bar : Bar α}

/-- What the strategy and the detector know after a run, and nothing of the desk. -/
def watched [Scalar α] (run : Run sim) : Run sim.watching where
  bars := run.bars
  detector := run.detector
  strategy := run.strategy
  nextTrace := 1
  floor := Floor.start sim.logging
  rollover := none
  equity := EquityCurve.start
  instruments := run.instruments
  ticksRead := run.ticksRead
  barsEmitted := run.barsEmitted
  intentsEmitted := run.intentsEmitted
  lastTime := run.lastTime
  calls := run.calls

variable [Scalar α]

/-- A run that stopped early or came to its end, as one that fills nothing. -/
def watchedEnd : Except (Run sim) (Run sim) → Except (Run sim.watching) (Run sim.watching)
  | .ok run => .ok run.watched
  | .error run => .error run.watched

lemma start_watched (sim : Simulation α) : (Run.start sim).watched = Run.start sim.watching := rfl

lemma describe?_watched (run : Run sim) (bar : Bar α) :
    run.watched.describe? bar = (run.describe? bar).map (Prod.map watched id) := by
  simp only [describe?, Option.map_map]
  rfl

/-- A strategy whose book is empty is shown what one is shown that has none. -/
lemma askAbout?_watched (h : run.floor.book.positions = Table.empty) (bar : Bar α)
    (state : MarketState α) :
    run.watched.askAbout? bar state = (run.askAbout? bar state).map (Prod.map watched id) := by
  have hnet : run.floor.book.net bar.instrument = run.watched.floor.book.net bar.instrument :=
    Book.net_of_empty h bar.instrument
  simp only [askAbout?, ask?, hnet, Option.map_map]
  rfl

lemma refuse_watched (bar : Bar α) (os : List (Intent α)) (run : Run sim) :
    ((os.foldl (refuse bar) run).recordEquity bar).watched = run.watched := by
  obtain ⟨nextTrace, floor, hrefused⟩ := refuse_frame bar os run
  rw [hrefused]
  rfl

lemma Barred.onClosed?_watched (hsim : sim.Restricted) (h : run.Barred done [])
    (closed : Option (Bar α)) :
    run.watched.onClosed? closed = (run.onClosed? closed).map watched := by
  cases closed with
  | none => rfl
  | some bar =>
    have hwatching : sim.watching.deterministic = false := rfl
    rw [onClosed?, onClosed?, onBar?_eq_refuse hsim h]
    simp only [onBar?, hwatching, Bool.false_eq_true, if_false, Option.bind_eq_bind,
      describe?_watched]
    cases hdescribed : run.describe? bar with
    | none => rfl
    | some described =>
      have hfloor : described.1.floor = run.floor := (describe?_frame hdescribed).1
      have hempty : described.1.floor.book.positions = Table.empty := hfloor ▸ h.floor.positions
      simp only [Option.map_some, Option.bind_some, Prod.map_fst, Prod.map_snd, id_eq,
        askAbout?_watched hempty]
      cases described.1.askAbout? bar described.2 with
      | none => rfl
      | some asked => exact congrArg some (refuse_watched bar asked.2 asked.1).symm

/-- A tick does to the strategy and the detector what it does where nothing is filled. -/
lemma Barred.onTick?_watched (hsim : sim.Restricted) (h : run.Barred done []) (t : Tick α) :
    run.watched.onTick? t = (run.onTick? t).map watched := by
  have hwatching : sim.watching.deterministic = false := rfl
  have hbars : (run.watched.count t).bars = (run.count t).bars := rfl
  rw [onTick?_eq hsim.deterministic, uptoMark?]
  simp only [onTick?, hwatching, Bool.false_eq_true, if_false, hbars, Option.bind_eq_bind]
  cases (run.count t).bars.push? t with
  | none => rfl
  | some pushed =>
    have hcounted : ({ run.count t with bars := pushed.1 } : Run sim).Barred done [] :=
      { h with floor := h.floor }
    have hclosed := hcounted.onClosed?_watched hsim pushed.2
    simp only [Option.bind_some]
    refine (congrArg (Option.bind · _) hclosed).trans ?_
    cases hmid : ({ run.count t with bars := pushed.1 } : Run sim).onClosed? pushed.2 with
    | none => rfl
    | some mid =>
      obtain ⟨done', hbar⟩ := hcounted.closed hsim hmid
      simp only [Option.map_some, Option.bind_some]
      have hmarked : (mid.mark t).floor.book.positions = Table.empty := hbar.floor.positions
      rw [followContract?_of_empty hmarked]
      rfl

lemma feed_watched (hsim : sim.Restricted) :
    ∀ (ticks : List (Tick α)) {run : Run sim} {done : List (Intent α)}, run.Barred done [] →
      run.watched.feed ticks = watchedEnd (run.feed ticks)
  | [], _, _, _ => rfl
  | t :: rest, run, done, h => by
    rw [feed, feed, h.onTick?_watched hsim]
    cases ht : run.onTick? t with
    | none => rfl
    | some next =>
      obtain ⟨done', hnext⟩ := h.tick hsim ht
      exact feed_watched hsim rest hnext

lemma Barred.finish?_watched (hsim : sim.Restricted) (h : run.Barred done []) :
    run.watched.finish? = run.finish?.map watched := by
  have hbars : run.watched.bars = run.bars := rfl
  have hflushed : ({ run with bars := run.bars.flush.1 } : Run sim).Barred done [] :=
    { h with floor := h.floor }
  have hclosed := hflushed.onClosed?_watched hsim run.bars.flush.2
  simp only [finish?, hbars, Option.map_map]
  refine (congrArg (Option.map _) hclosed).trans ?_
  rw [Option.map_map]
  refine congrFun (congrArg _ (funext fun mid => ?_)) _
  rw [Function.comp_apply, Function.comp_apply, dropWaiting_eq hsim.deterministic]
  rfl

/-- A run that may not open positions tells its strategy and its detector what a run tells them that
fills nothing, and stops where that run stops. -/
theorem through_watched (hsim : sim.Restricted) (ticks : List (Tick α)) :
    through sim.watching ticks = watchedEnd (through sim ticks) := by
  rw [through, through, ← start_watched, feed_watched hsim ticks (barred_start sim)]
  cases hfed : (Run.start sim).feed ticks with
  | error run => rfl
  | ok run =>
    obtain ⟨done, hrun⟩ := barred_feed hsim hfed
    simp only [watchedEnd, hrun.finish?_watched hsim]
    cases run.finish? <;> rfl

end Run

/-! ## Reports -/

/-- Where all that happened is that intents were refused, nothing else is counted. -/
lemma StatusCounts.histogram_rejected (n : Nat) : (StatusCounts.mk 0 0 0 n 0).histogram =
    if n = 0 then [] else [("REJECTED", n)] := by
  cases n <;> rfl

/-- A report of intents that were refused, and of nothing else.  The histogram has as many refusals
as there were intents, and each of them is one step and one record. -/
structure Report.OnlyRefusals [Scalar α] (report : Report α) (p : PositionReport α)
    (logging : Bool) : Prop where
  status : p.performance.orderStatus =
    if report.intentsEmitted = 0 then [] else [("REJECTED", report.intentsEmitted)]
  fills : p.performance.fillCount = 0
  snapshots : p.snapshots = Table.empty
  moves : p.rolloverEvents = []
  parts : p.rolloverActions = []
  slippage : p.rolloverSlippage = Scalar.zero
  steps : report.orderEvents = report.intentsEmitted
  records : report.logRecords = if logging then report.intentsEmitted else 0

lemma Run.AllRefused.report [Scalar α] {sim : Simulation α} {run : Run sim} (h : run.AllRefused)
    (source : String) (signatures : Signatures) (scan : ScanMetrics) :
    (Report.of run source signatures scan).OnlyRefusals (PositionReport.of run) sim.logging := by
  have hcount : (sim.named run.intents).length = run.intentsEmitted :=
    (sim.length_named run.intents).trans h.emitted
  have hstatuses := h.floor.statuses
  have hrecords := h.floor.logged.length_eq
  rw [hcount] at hstatuses
  refine ⟨?_, ?_, ?_, ?_, ?_, ?_, ?_, ?_⟩
  · simp only [PositionReport.of, Performance.of, Report.of, hstatuses]
    exact StatusCounts.histogram_rejected run.intentsEmitted
  · simp only [PositionReport.of, Performance.of, hstatuses]
    rfl
  · simp only [PositionReport.of, Book.snapshots, h.floor.positions]
    rfl
  · simp only [PositionReport.of]
    split
    · next r hr => rw [(h.still r hr).events]
    · rfl
  · simp only [PositionReport.of]
    split
    · next r hr => rw [(h.still r hr).actions]
    · rfl
  · simp only [PositionReport.of]
    split
    · next r hr => exact (h.still r hr).slippageTotal
    · rfl
  · simp only [Report.of, hstatuses, StatusCounts.total, Nat.zero_add, Nat.add_zero]
  · simp only [Report.of, AuditLog.size]
    rw [← Array.length_toList, ← hrecords]
    split
    · exact hcount
    · rfl

/-- A strategy that may not open positions, in a run over any ticks, whatever intents it gives.

After every tick, where the run stops early, and at the end every intent so far has been refused,
and nothing else has happened: nothing is held, no order waits, no position was moved, and the
strategy was told of no fill.  The report of a run that came to its end counts refusals, one for
every intent, and nothing else.  The log has one refusal for every intent, if there is one, and so
has the log of the twin that keeps one.

The strategy and the detector are told what they would be told if nothing was filled at all, and the
run stops where that run stops: an intent never makes it stop. -/
theorem nothing_trades_without_permission [Scalar α] {sim : Simulation α}
    (hdet : sim.deterministic = true) (hbarred : sim.capabilities.opening = false)
    (ticks : List (Tick α)) :
    Run.through sim.watching ticks = Run.watchedEnd (Run.through sim ticks) ∧
      (∀ fed, (Run.start sim).feed ticks = .ok fed → fed.AllRefused) ∧
      (∀ stopped, Run.through sim ticks = .error stopped → stopped.AllRefused) ∧
      ∀ run, Run.through sim ticks = .ok run →
        run.AllRefused ∧
          (∃ twin : Run sim.audited, Run.through sim.audited ticks = .ok twin ∧
            twin.silent = run.silent ∧ twin.AllRefused) ∧
          ∀ source signatures scan, ∃ p,
            (Report.of run source signatures scan).positions = some p ∧
              (Report.of run source signatures scan).OnlyRefusals p sim.logging := by
  have hsim : sim.Restricted := ⟨hdet, hbarred⟩
  refine ⟨Run.through_watched hsim ticks, ?_, ?_, ?_⟩
  · intro fed hfed
    exact Run.allRefused_feed hsim hfed
  · intro stopped h
    obtain ⟨before, -, hbefore⟩ := Run.through_error_cases h
    exact Run.allRefused_feed hsim hbefore
  · intro run h
    obtain ⟨twin, htwin, hsilent⟩ := Run.exists_twin_of_through h
    have hsimTwin : sim.audited.Restricted := ⟨hdet, hbarred⟩
    have hrun := Run.allRefused_through hsim h
    refine ⟨hrun, ⟨twin, htwin, hsilent, Run.allRefused_through hsimTwin htwin⟩, ?_⟩
    intro source signatures scan
    exact ⟨_, if_pos hdet, hrun.report source signatures scan⟩

/-! ## Eight intents that are refused -/

/-- Opens and closes either side, in this contract and in others, for some lots, none, and less than
none. -/
def refusedScript : Script :=
  [("1", [⟨.buy, .opening, 2, none, ""⟩, ⟨.sell, .closing, 1, none, ""⟩]),
    ("2", [⟨.sell, .opening, 0, none, ""⟩, ⟨.buy, .opening, -3, none, ""⟩]),
    ("3", [⟨.sell, .closing, 5, some "cu2401", ""⟩, ⟨.buy, .closing, 1, none, ""⟩]),
    ("4", [⟨.sell, .opening, 1, some "cu2401", ""⟩]),
    ("5", [⟨.sell, .closing, 2, some "rb2405", ""⟩])]

/-- The short run, with that script and without permission to open positions. -/
def refusedSimulation : Simulation Float :=
  { shortSimulation .strict with
    capabilities := { opening := false, orderAware := true, traceProvider := false }
    strategy := scripted refusedScript }

/-- All eight intents are refused, and the switch of contracts moves nothing. -/
theorem nothing_trades_without_permission_refusedScript :
    ∃ run, Run.through refusedSimulation shortTicks = .ok run ∧
      (run.intentsEmitted = 8 ∧ run.instruments.names = ["rb2405", "rb2410"]) ∧
      run.AllRefused ∧
      ∃ p, (Report.of run "" ⟨"", ""⟩ .none).positions = some p ∧
        (Report.of run "" ⟨"", ""⟩ .none).OnlyRefusals p true := by
  have hvalues : (Run.through refusedSimulation shortTicks).toOption.map
      (fun run => (run.intentsEmitted, run.instruments.names)) =
        some (8, ["rb2405", "rb2410"]) := by decide +kernel
  obtain ⟨run, hrun, hvalues⟩ := Run.exists_of_through hvalues
  simp only [Prod.mk.injEq] at hvalues
  have hdet : refusedSimulation.deterministic = true := rfl
  have hbarred : refusedSimulation.capabilities.opening = false := rfl
  obtain ⟨-, -, -, hend⟩ := nothing_trades_without_permission hdet hbarred shortTicks
  obtain ⟨hrefused, -, hreport⟩ := hend run hrun
  exact ⟨run, hrun, hvalues, hrefused, hreport "" ⟨"", ""⟩ .none⟩

end MarketTape
