import MarketTape.Proofs.Counters
import MarketTape.Proofs.Neutrality
import MarketTape.Proofs.Told

/-!
# What is told and what is logged

A fill is made in one place, told in another and logged in a third.  Orders that waited for a bar
are settled all together and told of together; an answer to a bar is settled and told of before the
next one.  The log has a record of every trade, and records of much else: refused orders, dropped
ones, and the parts of a move between contracts, of which a strategy is never told.

That both streams are the same is not true while an order is settled.  It is true again whenever the
program pauses: between ticks, before a bar is shown, and before each answer to it is settled.

* `AuditEvent.fill?` is the fill that a record of the log tells of, `AuditLog.fills` are those of a
  whole log.
* `Floor.Books` says which fills a log has in addition, and there is one lemma about it for every
  operation of the floor.
* `Run.Passes` says that the fills that were logged were told, in the same order, and nothing else;
  `Run.onBar?_tells` is what happens on a bar.
* `Run.Pause` are the moments at which nothing is outstanding.
* `fills_told_are_logged` is the result.
-/

namespace MarketTape

variable {α : Type} [Scalar α]

/-! ## The fills in a log -/

/-- The fill that a record tells of, if it is the record of a trade.  Trades at the close of a bar
lose nothing to slippage. -/
def AuditEvent.fill? : AuditEvent α → Option (Fill α)
  | .order .. => none
  | .trade time instrument side offset volume price _ _ _ traceId =>
    some ⟨time, instrument, side, offset, volume, price, Scalar.zero, traceId⟩
  | .rollover .. => none

/-- The fills that a log tells of. -/
def AuditLog.fills (log : AuditLog α) : List (Fill α) :=
  log.events.toList.filterMap AuditEvent.fill?

lemma AuditLog.fills_append {log : AuditLog α} (h : log.enabled = true) (e : AuditEvent α) :
    (log.append e).fills = log.fills ++ e.fill?.toList := by
  rw [fills, toList_append, if_pos h, List.filterMap_append, ← fills]
  cases e <;> rfl

lemma AuditLog.fills_extend {log : AuditLog α} (h : log.enabled = true)
    {more : List (AuditEvent α)} (hmore : ∀ e ∈ more, e.fill? = none) :
    (log.extend more).fills = log.fills := by
  rw [fills, toList_extend h, List.filterMap_append, List.filterMap_eq_nil_iff.mpr hmore,
    List.append_nil, ← fills]

namespace Floor

/-- A floor and a later one whose log has just these fills in addition, if it is kept. -/
structure Books (f f' : Floor α) (fills : List (Fill α)) : Prop where
  enabled : f'.log.enabled = f.log.enabled
  fills : f.log.enabled = true → f'.log.fills = f.log.fills ++ fills

namespace Books

variable {f f' f'' : Floor α} {fills more : List (Fill α)}

lemma refl (f : Floor α) : Books f f [] := ⟨rfl, fun _ => (List.append_nil _).symm⟩

lemma trans (h : Books f f' fills) (h' : Books f' f'' more) : Books f f'' (fills ++ more) where
  enabled := h'.enabled.trans h.enabled
  fills := by
    intro hf
    rw [h'.fills (h.enabled.trans hf), h.fills hf, List.append_assoc]

/-- A step that adds no fill. -/
lemma trans_nil (h : Books f f' []) (h' : Books f' f'' []) : Books f f'' [] := h.trans h'

end Books

variable {f f' : Floor α} {intent : Intent α} {bar : Bar α}

lemma books_transition (f : Floor α) (intent : Intent α) (time : Int) (price : α)
    (status : OrderStatus) : Books f (f.transition intent time price status) [] where
  enabled := f.log.enabled_append _
  fills h := AuditLog.fills_append h _

lemma books_reject (f : Floor α) (intent : Intent α) (bar : Bar α) :
    Books f (f.reject intent bar) [] := books_transition f intent bar.lastTime bar.close .rejected

/-- A trade leaves two records, and one of them is that of the fill. -/
lemma books_afterFill (f : Floor α) (intent : Intent α) (bar : Bar α) (volume : Int)
    (book : Book α) :
    Books f (f.afterFill intent bar volume book) [fillAtClose intent bar volume] where
  enabled := by simp only [afterFill, AuditLog.enabled_append]
  fills h := by
    have haccepted := AuditLog.fills_append h (.accepted intent bar volume)
    have henabled : (f.log.append (.accepted intent bar volume)).enabled = true :=
      (f.log.enabled_append _).trans h
    have htraded := AuditLog.fills_append henabled
      (.traded intent bar volume (book.position bar.instrument))
    rw [haccepted] at htraded
    exact htraded.trans (by rw [List.append_assoc]; rfl)

/-- What is settled of an intent and what is logged of it are the same. -/
lemma submit?_books {fill : Option (Fill α)} (h : f.submit? intent bar = some (f', fill)) :
    Books f f' fill.toList := by
  rcases submit?_cases h with
    ⟨-, rfl, rfl⟩ | ⟨-, rfl, rfl⟩ | ⟨volume, book, profit, -, -, rfl, rfl⟩
  · exact books_reject f intent bar
  · have hwaits := books_transition f intent bar.lastTime bar.close .deferred
    exact ⟨hwaits.enabled, hwaits.fills⟩
  · exact books_afterFill f intent bar volume book

lemma settleOne?_books {fill : Option (Fill α)}
    (h : f.settleOne? intent bar = some (f', fill)) : Books f f' fill.toList := by
  rcases settleOne?_cases h with ⟨-, book, profit, -, rfl, rfl⟩ | ⟨-, rfl, rfl⟩
  · exact books_afterFill f intent bar intent.volume book
  · exact books_reject f intent bar

lemma settleEach?_books : ∀ {due : List (Waiting α)} {f f' : Floor α} {fills : List (Fill α)},
    f.settleEach? bar due = some (f', fills) → Books f f' fills
  | [], f, f', fills, h => by
    simp only [settleEach?, Option.some.injEq, Prod.mk.injEq] at h
    obtain ⟨rfl, rfl⟩ := h
    exact Books.refl f
  | w :: rest, f, f', fills, h => by
    obtain ⟨g, fill, more, hone, heach, rfl⟩ := settleEach?_cons h
    exact (settleOne?_books hone).trans (settleEach?_books heach)

/-- What is settled of the orders that waited and what is logged of them are the same, in the same
order. -/
lemma settle?_books {fills : List (Fill α)} (h : f.settle? bar = some (f', fills)) :
    Books f f' fills := by
  have heach : Books (f.without bar.instrument) f' fills := settleEach?_books h
  exact ⟨heach.enabled, heach.fills⟩

/-- Dropping orders trades nothing. -/
lemma books_cancel (f : Floor α) (instrument : String) (time : Int) :
    Books f (f.cancel instrument time).1 [] :=
  cancel_induct (Q := fun _ g => Books f g [])
    (fun hg => hg.trans_nil (books_transition _ _ time _ .canceled)) ⟨rfl, (Books.refl f).fills⟩

lemma books_cancelAll (f : Floor α) (time : Int) : Books f (f.cancelAll time).1 [] :=
  cancelAll_induct (Q := fun _ g => Books f g [])
    (fun hg => hg.trans_nil (books_cancel _ _ time)) (Books.refl f)

end Floor

/-- The parts of a move between contracts are logged, and none of them is the fill of an order. -/
lemma Rollover.execute?_books {r r' : Rollover α} {p : PendingRollover} {t : Tick α}
    {f : Floor α} {book : Book α} {log : AuditLog α} {canceled : Nat} {event : RolloverEvent α}
    (h : r.execute? p t f.book f.log canceled = some (r', book, log, event)) :
    Floor.Books f { f with book, log } [] := by
  obtain ⟨m, -, rfl, -, rfl, -⟩ := execute?_cases h
  refine ⟨AuditLog.enabled_extend _ _, fun hf => ?_⟩
  have hparts : ∀ e ∈ m.actions.map (·.audit (r.modeFor f.book p.target)), e.fill? = none := by
    intro e he
    obtain ⟨a, -, rfl⟩ := List.mem_map.mp he
    rfl
  exact (AuditLog.fills_extend hf hparts).trans (List.append_nil _).symm

/-! ## On a bar -/

omit [Scalar α] in
@[simp] lemma fillsIn_fills (fills : List (Fill α)) : fillsIn (fills.map Call.fill) = fills := by
  induction fills with
  | nil => rfl
  | cons fill rest ih => exact congrArg (fill :: ·) ih

namespace Run

variable {sim : Simulation α} {run run' run'' : Run sim} {bar : Bar α} {t : Tick α}

section Told

omit [Scalar α]

@[simp] lemma told_nil (sim : Simulation α) : told sim [] = [] := by simp [told]

lemma told_append (sim : Simulation α) (fills more : List (Fill α)) :
    told sim (fills ++ more) = told sim fills ++ told sim more := by
  rw [told, told, told]
  split <;> rfl

end Told

/-- A run and a later one between which some fills were logged, and the strategy was told of just
these, if it takes notice. -/
structure Passes (run run' : Run sim) (fills : List (Fill α)) : Prop where
  calls : run'.calls.toList = run.calls.toList ++ (told sim fills).map Call.fill
  books : run.floor.Books run'.floor fills

lemma Passes.refl (run : Run sim) : Passes run run [] := ⟨by simp, Floor.Books.refl _⟩

lemma Passes.trans {fills more : List (Fill α)} (h : Passes run run' fills)
    (h' : Passes run' run'' more) : Passes run run'' (fills ++ more) where
  calls := by rw [h'.calls, h.calls, told_append, List.map_append, List.append_assoc]
  books := h.books.trans h'.books

lemma settleWaiting?_passes (h : run.settleWaiting? bar = some run') :
    ∃ floor fills, run.floor.settle? bar = some (floor, fills) ∧ Passes run run' fills := by
  obtain ⟨floor, fills, hs, rfl⟩ := settleWaiting?_cases h
  refine ⟨floor, fills, hs, calls_notify _ fills, ?_⟩
  rw [floor_notify]
  exact Floor.settle?_books hs

/-- An intent is settled, and the strategy is told at once. -/
lemma settleIntent?_passes {intent : Intent α} (h : run.settleIntent? bar intent = some run') :
    ∃ fills, Passes run run' fills := by
  rcases settleIntent?_cases h with rfl | ⟨floor, fill, hs, rfl⟩
  · exact ⟨[], by simp, Floor.books_reject run.floor _ bar⟩
  · refine ⟨fill.toList, ?_, ?_⟩
    · rw [calls_notify, calls_name]
    · rw [floor_notify]
      exact Floor.submit?_books hs

lemma settleIntents?_passes {intents : List (Intent α)}
    (h : run.settleIntents? bar intents = some run') : ∃ fills, Passes run run' fills := by
  refine settleIntents?_induct (P := fun _ r => ∃ fills, Passes run r fills) ?_
    ⟨[], Passes.refl run⟩ h
  rintro intent rest before after ⟨fills, hbefore⟩ hone
  obtain ⟨more, hafter⟩ := settleIntent?_passes hone
  exact ⟨fills ++ more, hbefore.trans hafter⟩

/-- What a bar tells the strategy and what it logs: first the orders that had waited for it, which
are the early fills, then the bar, then the answers, which are the late ones. -/
structure Tells (run : Run sim) (bar : Bar α) (run' : Run sim) (early late : List (Fill α)) :
    Prop where
  settled : sim.deterministic = true →
    ∃ floor, run.floor.settle? bar = some (floor, early)
  calls : ∃ s : BarState α, s.bar = bar ∧ run'.calls.toList = run.calls.toList ++
    ((told sim early).map Call.fill ++ .state s :: (told sim late).map Call.fill)
  books : run.floor.Books run'.floor (early ++ late)

theorem onBar?_tells (h : run.onBar? bar = some run') :
    ∃ early late, run.Tells bar run' early late := by
  by_cases hdet : sim.deterministic = true
  · obtain ⟨described, state, settled, asked, intents, answered, hd, hs, ha, hi, rfl⟩ :=
      onBar?_cases hdet h
    obtain ⟨detector, -, rfl⟩ := describe?_cases hd
    obtain ⟨floor, early, hsettle, hearly⟩ := settleWaiting?_passes hs
    obtain ⟨strategy, -, rfl⟩ := askAbout?_cases ha
    obtain ⟨late, hlate⟩ := settleIntents?_passes hi
    refine ⟨early, late, fun _ => ⟨floor, hsettle⟩, ⟨settled.shown bar state, rfl, ?_⟩,
      hearly.books.trans hlate.books⟩
    have hcalls : (answered.recordEquity bar).calls = answered.calls := rfl
    rw [hcalls, hlate.calls, Array.toList_push, hearly.calls, List.append_assoc,
      List.append_assoc, List.singleton_append]
  · simp only [onBar?, hdet, Bool.false_eq_true, if_false, Option.bind_eq_bind,
      Option.bind_eq_some_iff, Option.some.injEq, Prod.exists] at h
    obtain ⟨described, state, hd, asked, intents, ha, rfl⟩ := h
    obtain ⟨detector, -, rfl⟩ := describe?_cases hd
    obtain ⟨strategy, -, rfl⟩ := askAbout?_cases ha
    refine ⟨[], [], fun hdet' => absurd hdet' hdet, ⟨run.shown bar state, rfl, ?_⟩,
      Floor.Books.refl _⟩
    rw [told_nil]
    exact Array.toList_push

/-! ## Through a run -/

/-- What was told is what was logged: the same fills, which the strategy was told of, if it takes
notice, and which are in the log, if there is one. -/
structure Even (run : Run sim) (fills : List (Fill α)) : Prop where
  told : fillsIn run.calls.toList = told sim fills
  enabled : run.floor.log.enabled = sim.logging
  logged : sim.logging = true → run.floor.log.fills = fills

namespace Even

variable {fills more : List (Fill α)}

lemma start (sim : Simulation α) : (Run.start sim).Even [] :=
  ⟨by simp [fillsIn, Run.start], rfl, fun _ => rfl⟩

/-- What passes is told and logged. -/
lemma passes (h : run.Even fills) (hpasses : Passes run run' more) : run'.Even (fills ++ more) where
  told := by rw [hpasses.calls, fillsIn_append, fillsIn_fills, h.told, told_append]
  enabled := hpasses.books.enabled.trans h.enabled
  logged hlog := by
    rw [hpasses.books.fills (h.enabled.trans hlog), h.logged hlog]

/-- Showing a bar tells of no fill and logs none. -/
lemma asked {state : MarketState α} {intents : List (Intent α)} (h : run.Even fills)
    (ha : run.askAbout? bar state = some (run', intents)) : run'.Even fills := by
  obtain ⟨strategy, -, rfl⟩ := askAbout?_cases ha
  refine ⟨?_, h.enabled, h.logged⟩
  rw [Array.toList_push, fillsIn_append, h.told]
  exact List.append_nil _

lemma tells (h : run.Even fills) {early late : List (Fill α)}
    (htells : run.Tells bar run' early late) : run'.Even (fills ++ (early ++ late)) where
  told := by
    obtain ⟨s, -, hcalls⟩ := htells.calls
    have hlate : fillsIn (.state s :: (Run.told sim late).map Call.fill) = Run.told sim late :=
      fillsIn_fills _
    rw [hcalls, fillsIn_append, fillsIn_append, fillsIn_fills, hlate, h.told, told_append,
      told_append]
  enabled := htells.books.enabled.trans h.enabled
  logged hlog := by
    rw [htells.books.fills (h.enabled.trans hlog), h.logged hlog]

lemma onClosed? {closed : Option (Bar α)} (h : run.Even fills)
    (hclosed : run.onClosed? closed = some run') : ∃ fills, run'.Even fills := by
  cases closed with
  | none =>
    obtain rfl := Option.some.inj hclosed
    exact ⟨fills, h⟩
  | some bar =>
    obtain ⟨early, late, htells⟩ := onBar?_tells hclosed
    exact ⟨_, h.tells htells⟩

end Even

/-- Following a contract tells the strategy nothing, and what it logs is no fill. -/
lemma followContract?_passes (h : run.followContract? t = some run') : Passes run run' [] := by
  rcases followContract?_cases h with
    ⟨-, rfl⟩ | ⟨r, seen, pending, -, -, ⟨-, rfl⟩ | ⟨p, -, hroll⟩⟩
  · exact Passes.refl run'
  · exact ⟨by simp, Floor.Books.refl _⟩
  · obtain ⟨r', book, log, event, hexec, rfl⟩ := roll?_cases hroll
    exact ⟨by simp, (Floor.books_cancel run.floor p.source t.time).trans_nil
      (Rollover.execute?_books hexec)⟩

namespace Even

variable {fills : List (Fill α)}

lemma onTick? (h : run.Even fills) (ht : run.onTick? t = some run') :
    ∃ fills, run'.Even fills := by
  simp only [Run.onTick?, Option.bind_eq_bind, Option.bind_eq_some_iff, Prod.exists] at ht
  obtain ⟨bars, closed, -, mid, hmid, hend⟩ := ht
  have hcounted : ({ run.count t with bars } : Run sim).Even fills :=
    ⟨h.told, h.enabled, h.logged⟩
  obtain ⟨more, hmid'⟩ := hcounted.onClosed? hmid
  split at hend
  · have hmarked : (mid.mark t).Even more := ⟨hmid'.told, hmid'.enabled, hmid'.logged⟩
    exact ⟨_, hmarked.passes (followContract?_passes hend)⟩
  · obtain rfl := Option.some.inj hend
    exact ⟨more, hmid'⟩

/-- What is dropped at the end was not filled, and the last call tells of no fill. -/
lemma ended (h : run.Even fills) : run.shutdown.dropWaiting.Even fills := by
  have hshutdown : run.shutdown.Even fills :=
    ⟨(fillsIn_shutdown run).trans h.told, h.enabled, h.logged⟩
  rw [dropWaiting]
  split
  · have hdropped := Floor.books_cancelAll run.shutdown.floor run.shutdown.lastTime
    have hall : Passes run.shutdown
        { run.shutdown with floor := (run.shutdown.floor.cancelAll run.shutdown.lastTime).1 } [] :=
      ⟨by simp, hdropped⟩
    simpa using hshutdown.passes hall
  · exact hshutdown

end Even

lemma even_feed {ticks : List (Tick α)} (h : (Run.start sim).feed ticks = .ok run) :
    ∃ fills, run.Even fills :=
  feed_induct (P := fun _ run => ∃ fills, run.Even fills) ⟨[], Even.start sim⟩
    (fun _ ⟨_, hrun⟩ ht => hrun.onTick? ht) h

lemma even_through {ticks : List (Tick α)} (h : through sim ticks = .ok run) :
    ∃ fills, run.Even fills := by
  obtain ⟨fed, last, hfed, hlast, rfl⟩ := through_closing h
  obtain ⟨fills, hfed'⟩ := even_feed hfed
  have hflushed : ({ fed with bars := fed.bars.flush.1 } : Run sim).Even fills :=
    ⟨hfed'.told, hfed'.enabled, hfed'.logged⟩
  obtain ⟨more, hlast'⟩ := hflushed.onClosed? hlast
  exact ⟨more, hlast'.ended⟩

/-- The moments of a run at which nothing is outstanding: some ticks were taken, a bar was closed
and the orders that waited for it are settled while it is about to be shown, or some of the answers
to a bar are settled while the next one is about to be. -/
inductive Pause (ticks : List (Tick α)) : Run sim → Prop
  | between {before : List (Tick α)} {fed : Run sim} (taken : before <+: ticks)
    (fed_eq : (Run.start sim).feed before = .ok fed) : Pause ticks fed
  | asking {before : List (Tick α)} {fed closing described settled : Run sim} {bar : Bar α}
    {state : MarketState α} (taken : before <+: ticks)
    (fed_eq : (Run.start sim).feed before = .ok fed) (closes : fed.Closes bar closing)
    (described_eq : closing.describe? bar = some (described, state))
    (settled_eq : described.settleWaiting? bar = some settled) : Pause ticks settled
  | answering {before : List (Tick α)} {fed closing described settled asked answered : Run sim}
    {bar : Bar α} {state : MarketState α} {done rest : List (Intent α)} {intent : Intent α}
    (taken : before <+: ticks) (fed_eq : (Run.start sim).feed before = .ok fed)
    (closes : fed.Closes bar closing)
    (described_eq : closing.describe? bar = some (described, state))
    (settled_eq : described.settleWaiting? bar = some settled)
    (asked_eq : settled.askAbout? bar state = some (asked, done ++ intent :: rest))
    (answered_eq : asked.settleIntents? bar done = some answered) : Pause ticks answered

/-- The orders that waited for a bar are settled: what was told is what was logged. -/
lemma Even.settled {fed closing described settled : Run sim} {state : MarketState α}
    {fills : List (Fill α)} (h : fed.Even fills) (closes : fed.Closes bar closing)
    (hd : closing.describe? bar = some (described, state))
    (hs : described.settleWaiting? bar = some settled) : ∃ fills, settled.Even fills := by
  have hclosing : closing.Even fills := by
    cases closes <;> exact ⟨h.told, h.enabled, h.logged⟩
  obtain ⟨detector, -, rfl⟩ := describe?_cases hd
  obtain ⟨floor, early, -, hearly⟩ := settleWaiting?_passes hs
  have hdescribed :
      ({ closing with detector, barsEmitted := closing.barsEmitted + 1 } : Run sim).Even fills :=
    ⟨hclosing.told, hclosing.enabled, hclosing.logged⟩
  exact ⟨_, hdescribed.passes hearly⟩

/-- Whenever a run pauses, what was told is what was logged. -/
theorem Pause.even {ticks : List (Tick α)} (h : Pause ticks run) : ∃ fills, run.Even fills := by
  cases h with
  | between taken fed_eq => exact even_feed fed_eq
  | asking taken fed_eq closes hd hs =>
    obtain ⟨fills, hfed⟩ := even_feed fed_eq
    exact hfed.settled closes hd hs
  | answering taken fed_eq closes hd hs ha hi =>
    obtain ⟨fills, hfed⟩ := even_feed fed_eq
    obtain ⟨more, hsettled⟩ := hfed.settled closes hd hs
    obtain ⟨late, hlate⟩ := settleIntents?_passes hi
    exact ⟨_, (hsettled.asked ha).passes hlate⟩

lemma Even.fillsIn_eq {fills : List (Fill α)} (h : run.Even fills)
    (haware : sim.capabilities.orderAware = true) (hlog : sim.logging = true) :
    fillsIn run.calls.toList = run.floor.log.fills := by
  rw [h.told, h.logged hlog]
  exact if_pos haware

lemma Even.fillsIn_eq_nil {fills : List (Fill α)} (h : run.Even fills)
    (haware : sim.capabilities.orderAware = false) : fillsIn run.calls.toList = [] := by
  rw [h.told, Run.told, haware, if_neg Bool.false_ne_true]

end Run

/-- **The fills that are told are the trades that are logged.**  A strategy that takes notice of its
fills is told of just those that the log has a record of, in the order of the records, over the
whole run and whenever the run pauses: so the orders that waited for a bar are told of before it is
shown, and an answer before the next one is settled.  Moves between contracts tell it nothing, and a
strategy that takes no notice is told of no fill. -/
theorem fills_told_are_logged (sim : Simulation α) (ticks : List (Tick α)) :
    (sim.deterministic = true → sim.logging = true → sim.capabilities.orderAware = true →
      (∀ run, Run.through sim ticks = .ok run →
          fillsIn run.calls.toList = run.floor.log.fills) ∧
        (∀ run : Run sim, run.Pause ticks → fillsIn run.calls.toList = run.floor.log.fills) ∧
        (∀ (run run' : Run sim) (bar : Bar α), run.onBar? bar = some run' →
          ∃ floor early s late, run.floor.settle? bar = some (floor, early) ∧ s.bar = bar ∧
            run'.calls.toList =
              run.calls.toList ++ (early.map Call.fill ++ .state s :: late.map Call.fill) ∧
            run.floor.Books run'.floor (early ++ late)) ∧
        ∀ (run run' : Run sim) (t : Tick α), run.followContract? t = some run' →
          run'.calls = run.calls) ∧
      (sim.capabilities.orderAware = false →
        ∀ run : Run sim, run.Pause ticks ∨ Run.through sim ticks = .ok run →
          fillsIn run.calls.toList = []) := by
  refine ⟨fun hdet hlog haware => ⟨?_, ?_, ?_, ?_⟩, fun haware => ?_⟩
  · intro run h
    obtain ⟨fills, hrun⟩ := Run.even_through h
    exact hrun.fillsIn_eq haware hlog
  · intro run h
    obtain ⟨fills, hrun⟩ := h.even
    exact hrun.fillsIn_eq haware hlog
  · intro run run' bar h
    obtain ⟨early, late, htells⟩ := Run.onBar?_tells h
    obtain ⟨floor, hsettle⟩ := htells.settled hdet
    obtain ⟨s, hs, hcalls⟩ := htells.calls
    have htold : ∀ fills, Run.told sim fills = fills := fun fills => if_pos haware
    rw [htold, htold] at hcalls
    exact ⟨floor, early, s, late, hsettle, hs, hcalls, htells.books⟩
  · intro run run' t h
    obtain ⟨floor, rollover, rfl⟩ := Run.followContract?_frame h
    rfl
  · rintro run (h | h)
    · obtain ⟨fills, hrun⟩ := h.even
      exact hrun.fillsIn_eq_nil haware
    · obtain ⟨fills, hrun⟩ := Run.even_through h
      exact hrun.fillsIn_eq_nil haware

/-- The short run is told of three fills, of which one had waited, and logs two parts of a move
besides.  The round trip is told of none, though it trades. -/
theorem fills_told_are_logged_shortRun :
    (fillsIn (shortRun .strict).calls.toList = (shortRun .strict).floor.log.fills ∧
        (shortRun .strict).floor.log.fills.map (fun fill => (fill.traceId, fill.volume)) =
          [("trial-1", 2), ("trial-5", 2), ("trial-4", 1)] ∧
        (shortRun .strict).floor.log.size = 14) ∧
      ∃ run, Run.through roundTrip roundTripTicks = .ok run ∧
        run.floor.desk.statuses.filled = 3 ∧ fillsIn run.calls.toList = [] := by
  have hvalues : (shortRun .strict).floor.log.fills.map (fun fill => (fill.traceId, fill.volume)) =
        [("trial-1", 2), ("trial-5", 2), ("trial-4", 1)] ∧
      (shortRun .strict).floor.log.size = 14 ∧
      (Run.through roundTrip roundTripTicks).toOption.map (·.floor.desk.statuses.filled) =
        some 3 := by decide +kernel
  obtain ⟨hfills, hsize, htrades⟩ := hvalues
  obtain ⟨run, hrun, hfilled⟩ := Run.exists_of_through htrades
  obtain ⟨hshort, -⟩ := (fills_told_are_logged (shortSimulation .strict) shortTicks).1 rfl rfl rfl
  have hdeaf := (fills_told_are_logged roundTrip roundTripTicks).2 rfl
  exact ⟨⟨hshort _ (through_shortSimulation .strict), hfills, hsize⟩, run, hrun, hfilled,
    hdeaf run (Or.inr hrun)⟩

end MarketTape
