import Mathlib.Algebra.BigOperators.Ring.Finset
import MarketTape.Proofs.Orders
import MarketTape.Proofs.Rollover
import MarketTape.Proofs.Told
import MarketTape.Proofs.Transparency
import MarketTape.Report

/-!
# The counters of a report

A report counts the same things in many places.  The desk counts how often each status was reached,
the log how many records it has, the rollovers how many orders they dropped, and the run how many
bars and intents there were.  None of the counters looks at another one, so a step that counts here
and forgets to count there would only show in a run that takes it.

What ties them together is a balance that every single step keeps.  An intent that was given is in
hand, waits, or has come to one of three ends; every status is a record; and a trade is two statuses
and two records, of which one is the trade.

* `AuditLog.Accounts` is the balance of a log, `Floor.Balanced` that of desk and log together.
* `Run.balanced_feed` and `Run.Balanced.finish` carry it through a run.
* `Report.Reconciles` says how the counters of a report agree.
* `counters_reconcile` is the result.
-/

namespace MarketTape

variable {α : Type}

/-! ## Orders that wait -/

namespace Desk

lemma waitingCount_eq (d : Desk α) :
    (d.waitingCount : Int) = d.waiting.total fun _ row => (row.length : Int) := by
  simp [waitingCount, Table.values, Table.total, List.length_flatten, Nat.cast_list_sum,
    Function.comp_def]

lemma waitingFor_length (d : Desk α) (instrument : String) :
    ((d.waitingFor instrument).length : Int) =
      ((d.waiting.get? instrument).map fun row => (row.length : Int)).getD 0 := by
  rw [waitingFor]
  cases d.waiting.get? instrument <;> rfl

/-- An order that is told to wait is one more that waits. -/
lemma waitingCount_defer (d : Desk α) (w : Waiting α) :
    (d.defer w).waitingCount = d.waitingCount + 1 := by
  have hrow := d.waitingFor_length w.intent.instrument
  have hcount : ((d.defer w).waitingCount : Int) = d.waitingCount + 1 := by
    rw [waitingCount_eq, defer, Table.total_insert, ← waitingCount_eq, ← hrow, List.length_append]
    simp only [List.length_singleton, Nat.cast_add, Nat.cast_one]
    omega
  exact_mod_cast hcount

/-- The orders of an instrument that are taken out do not wait any more. -/
lemma waitingCount_without (f : Floor α) (instrument : String) :
    (f.without instrument).desk.waitingCount + (f.desk.waitingFor instrument).length =
      f.desk.waitingCount := by
  have hrow := f.desk.waitingFor_length instrument
  have hcount : ((f.without instrument).desk.waitingCount : Int) +
      (f.desk.waitingFor instrument).length = f.desk.waitingCount := by
    rw [waitingCount_eq, Floor.without, Table.total_erase, ← waitingCount_eq, ← hrow]
    omega
  exact_mod_cast hcount

/-- Where no instrument has waiting orders, nothing waits. -/
lemma waitingCount_eq_zero {d : Desk α} (h : ∀ instrument, d.waitingFor instrument = []) :
    d.waitingCount = 0 := by
  rw [waitingCount, List.length_eq_zero_iff, List.flatten_eq_nil_iff, Table.values]
  intro due hdue
  obtain ⟨row, hrow, rfl⟩ := List.mem_map.mp hdue
  rw [← h row.1, waitingFor, Table.get?_of_mem hrow]
  rfl

end Desk

/-! ## The balance of a log -/

/-- The record of a part of a move is no trade of an order. -/
lemma AuditEvent.kind_audit (a : RolloverAction α) (mode : RolloverMode) :
    (a.audit mode).kind ≠ .trade := by
  intro hkind
  cases hkind

namespace AuditLog

/-- An event is one record more, if there is a log. -/
lemma size_append (log : AuditLog α) (e : AuditEvent α) :
    (log.append e).size = log.size + if log.enabled = true then 1 else 0 := by
  rw [append]
  split
  · exact Array.size_push e
  · rfl

/-- How many trades of orders are recorded. -/
def trades (log : AuditLog α) : Nat := log.events.toList.countP fun e => e.kind = .trade

/-- A log that is kept or not, with a number of records and a number of trades if it is. -/
structure Accounts (log : AuditLog α) (kept : Bool) (steps trades : Nat) : Prop where
  enabled : log.enabled = kept
  size : log.size = if kept = true then steps else 0
  trades : log.trades = if kept = true then trades else 0

namespace Accounts

variable {log : AuditLog α} {kept : Bool} {steps trades : Nat}

lemma append (h : log.Accounts kept steps trades) (e : AuditEvent α) :
    (log.append e).Accounts kept (steps + 1) (trades + if e.kind = .trade then 1 else 0) := by
  refine ⟨(log.enabled_append e).trans h.enabled, ?_, ?_⟩
  · rw [size_append, h.size, h.enabled]
    split <;> rfl
  · rw [AuditLog.trades, toList_append, h.enabled]
    cases kept with
    | false => exact h.trades
    | true =>
      have htrades : log.trades = trades := h.trades
      rw [if_pos rfl, if_pos rfl, List.countP_append, List.countP_singleton, ← htrades]
      simp only [decide_eq_true_eq]
      rfl

/-- Records that are no trades of orders. -/
lemma extend (h : log.Accounts kept steps trades) {more : List (AuditEvent α)}
    (hmore : ∀ e ∈ more, e.kind ≠ .trade) :
    (log.extend more).Accounts kept (steps + more.length) trades := by
  induction more generalizing log steps with
  | nil => exact h
  | cons e rest ih =>
    obtain ⟨he, hrest⟩ := List.forall_mem_cons.mp hmore
    have hone := h.append e
    rw [if_neg he, Nat.add_zero] at hone
    have hall := ih hone hrest
    rw [Nat.add_assoc, Nat.add_comm 1] at hall
    exact hall

end Accounts

end AuditLog

/-! ## The balance of desk and log -/

/-- What a desk and a log have to account for: whether there is a log, the intents given, the
waiting orders that were dropped, and the parts of moves between contracts. -/
structure Tally where
  kept : Bool
  asked : Nat
  dropped : Nat
  parts : Nat

namespace Floor

/-- Every intent has come to an end, waits, or is still in hand, and every status is a record. -/
structure Balanced (f : Floor α) (tally : Tally) (inHand : Nat) : Prop where
  traded : f.desk.statuses.accepted = f.desk.statuses.filled
  settled : f.desk.statuses.filled + f.desk.statuses.rejected + f.desk.statuses.canceled +
    f.desk.waitingCount + inHand = tally.asked
  dropped : f.desk.statuses.canceled = tally.dropped
  logged : f.log.Accounts tally.kept (f.desk.statuses.total + tally.parts) f.desk.statuses.filled

lemma balanced_start (kept : Bool) : (start kept : Floor α).Balanced ⟨kept, 0, 0, 0⟩ 0 where
  traded := rfl
  settled := rfl
  dropped := rfl
  logged := ⟨rfl, (ite_self 0).symm, (ite_self 0).symm⟩

namespace Balanced

variable {f f' : Floor α} {tally : Tally} {inHand : Nat} {intent : Intent α} {bar : Bar α}

/-- A record of an order that reached a status is one record more, and no trade. -/
lemma logged_transition (h : f.Balanced tally inHand) (intent : Intent α) (time : Int) (price : α)
    (status : OrderStatus) : (f.transition intent time price status).log.Accounts tally.kept
      ((f.desk.statuses.increment status).total + tally.parts) f.desk.statuses.filled := by
  have hlog := h.logged.append (.settled intent time price status)
  rw [StatusCounts.total_increment, Nat.add_right_comm]
  exact hlog

lemma reject (h : f.Balanced tally (inHand + 1)) (intent : Intent α) (bar : Bar α) :
    (f.reject intent bar).Balanced tally inHand where
  traded := h.traded
  settled := by
    rw [← h.settled]
    simp only [Floor.reject, transition, StatusCounts.increment, Desk.waitingCount]
    omega
  dropped := h.dropped
  logged := h.logged_transition intent bar.lastTime bar.close .rejected

lemma defer (h : f.Balanced tally (inHand + 1)) (intent : Intent α) (bar : Bar α) :
    (f.defer intent bar).Balanced tally inHand where
  traded := h.traded
  settled := by
    rw [← h.settled, Floor.defer, Desk.waitingCount_defer]
    simp only [transition, StatusCounts.increment, Desk.waitingCount, Desk.defer]
    omega
  dropped := h.dropped
  logged := h.logged_transition intent bar.lastTime bar.close .deferred

lemma drop (h : f.Balanced tally (inHand + 1)) (intent : Intent α) (time : Int) (price : α) :
    (f.transition intent time price .canceled).Balanced
      { tally with dropped := tally.dropped + 1 } inHand where
  traded := h.traded
  settled := by
    rw [← h.settled]
    simp only [transition, StatusCounts.increment, Desk.waitingCount]
    omega
  dropped := congrArg (· + 1) h.dropped
  logged := h.logged_transition intent time price .canceled

lemma without (h : f.Balanced tally inHand) (instrument : String) :
    (f.without instrument).Balanced tally
      (inHand + (f.desk.waitingFor instrument).length) where
  traded := h.traded
  settled := by
    have hcount := Desk.waitingCount_without f instrument
    have hsettled := h.settled
    simp only [Floor.without] at hcount ⊢
    omega
  dropped := h.dropped
  logged := h.logged

/-- The orders that wait for an instrument are dropped one by one. -/
lemma cancel (h : f.Balanced tally 0) (instrument : String) (time : Int) :
    (f.cancel instrument time).1.Balanced
      { tally with dropped := tally.dropped + (f.cancel instrument time).2 } 0 := by
  have hstart := h.without instrument
  rw [Nat.zero_add] at hstart
  have hdropped : ∃ n, n + ([] : List (Waiting α)).length = (f.cancel instrument time).2 ∧
      (f.cancel instrument time).1.Balanced { tally with dropped := tally.dropped + n }
        ([] : List (Waiting α)).length := by
    refine cancel_induct (Q := fun due g => ∃ n, n + due.length = (f.cancel instrument time).2 ∧
      g.Balanced { tally with dropped := tally.dropped + n } due.length) ?_
      ⟨0, Nat.zero_add _, hstart⟩
    rintro w rest g ⟨n, hn, hg⟩
    refine ⟨n + 1, ?_, hg.drop w.intent time w.intent.referencePrice⟩
    rw [← hn, List.length_cons]
    omega
  obtain ⟨n, hn, hbalanced⟩ := hdropped
  exact hn ▸ hbalanced

/-- All orders that wait are dropped, and then none waits. -/
lemma cancelAll (h : f.Balanced tally 0) (time : Int) :
    (f.cancelAll time).1.Balanced
        { tally with dropped := tally.dropped + (f.cancelAll time).2 } 0 ∧
      (f.cancelAll time).1.desk.waitingCount = 0 := by
  refine ⟨?_, Desk.waitingCount_eq_zero (f.waitingFor_cancelAll time)⟩
  refine cancelAll_tally (Q := fun _ g n =>
    g.Balanced { tally with dropped := tally.dropped + n } 0) ?_ h
  intro instrument rest g n hg
  rw [← Nat.add_assoc]
  exact hg.cancel instrument time

variable [Scalar α]

/-- A trade is two statuses and two records, of which one is a trade. -/
lemma afterFill (h : f.Balanced tally (inHand + 1)) (intent : Intent α) (bar : Bar α)
    (volume : Int) (book : Book α) :
    (f.afterFill intent bar volume book).Balanced tally inHand where
  traded := congrArg (· + 1) h.traded
  settled := by
    rw [← h.settled]
    simp only [Floor.afterFill, StatusCounts.increment, Desk.waitingCount]
    omega
  dropped := h.dropped
  logged := by
    have hlog := (h.logged.append (.accepted intent bar volume)).append
      (.traded intent bar volume (book.position bar.instrument))
    have htotal : ((f.desk.statuses.increment .accepted).increment .filled).total + tally.parts =
        f.desk.statuses.total + tally.parts + 1 + 1 := by
      rw [StatusCounts.total_increment, StatusCounts.total_increment]
      omega
    exact htotal ▸ hlog

/-- An intent in hand is refused, waits or trades. -/
lemma submit (h : f.Balanced tally (inHand + 1)) {fill : Option (Fill α)}
    (hs : f.submit? intent bar = some (f', fill)) : f'.Balanced tally inHand := by
  rcases submit?_cases hs with ⟨-, rfl, -⟩ | ⟨-, rfl, -⟩ | ⟨volume, book, profit, -, -, rfl, -⟩
  · exact h.reject intent bar
  · exact h.defer intent bar
  · exact h.afterFill intent bar volume book

/-- The orders that waited for a bar are taken in hand and settled one by one. -/
lemma settle (h : f.Balanced tally 0) {fills : List (Fill α)}
    (hs : f.settle? bar = some (f', fills)) : f'.Balanced tally 0 := by
  have hstart := h.without bar.instrument
  rw [Nat.zero_add] at hstart
  refine settleEach?_induct (Q := fun due f => f.Balanced tally due.length) ?_ hstart hs
  intro w rest g g' fill hg hone
  rcases settleOne?_cases hone with ⟨-, book, profit, -, rfl, -⟩ | ⟨-, rfl, -⟩
  · exact hg.afterFill w.intent bar w.intent.volume book
  · exact hg.reject w.intent bar

end Balanced

end Floor

/-! ## The balance of a run -/

namespace Run

variable {sim : Simulation α} {run run' : Run sim} {ticks : List (Tick α)}

/-- The parts of the moves, in order. -/
def moveParts (run : Run sim) : List (RolloverAction α) :=
  (run.rollover.map fun r => r.actions.toList).getD []

/-- What the desk and the log of a run have to account for. -/
def tally (run : Run sim) : Tally :=
  ⟨sim.logging, run.intentsEmitted, (run.moves.map (·.canceledOrders)).sum, run.moveParts.length⟩

/-- The desk and the log of a run are in balance, with some intents still in hand. -/
def Balanced (run : Run sim) (inHand : Nat) : Prop := run.floor.Balanced run.tally inHand

@[simp] lemma tally_notify (run : Run sim) (fills : List (Fill α)) :
    (run.notify fills).tally = run.tally := by
  rw [notify_eq]
  rfl

@[simp] lemma tally_name (run : Run sim) (intent : Intent α) :
    (run.name intent).1.tally = run.tally := by
  rw [name]; split <;> rfl

/-- Intents that were given are in hand. -/
lemma Balanced.ask {bar : Bar α} {state : MarketState α} {intents : List (Intent α)}
    (h : run.Balanced 0) (ha : run.askAbout? bar state = some (run', intents)) :
    run'.Balanced intents.length := by
  obtain ⟨strategy, -, rfl⟩ := askAbout?_cases ha
  exact
    { traded := h.traded
      settled := congrArg (· + intents.length) h.settled
      dropped := h.dropped
      logged := h.logged }

variable [Scalar α] {bar : Bar α}

lemma Balanced.settleWaiting (h : run.Balanced 0) (hs : run.settleWaiting? bar = some run') :
    run'.Balanced 0 := by
  obtain ⟨floor, fills, hfloor, rfl⟩ := settleWaiting?_cases hs
  rw [Balanced, tally_notify, floor_notify]
  exact h.settle hfloor

lemma Balanced.settleIntent {inHand : Nat} {intent : Intent α} (h : run.Balanced (inHand + 1))
    (hs : run.settleIntent? bar intent = some run') : run'.Balanced inHand := by
  have hnamed : (run.name intent).1.tally = run.tally := tally_name run intent
  rcases settleIntent?_cases hs with rfl | ⟨floor, fill, hfloor, rfl⟩
  · have hrejected := Floor.Balanced.reject h (run.name intent).2 bar
    rw [← hnamed] at hrejected
    exact hrejected
  · have hsettled := Floor.Balanced.submit h hfloor
    rw [← hnamed] at hsettled
    rw [Balanced, tally_notify, floor_notify]
    exact hsettled

lemma Balanced.closed {closed : Option (Bar α)} (hdet : sim.deterministic = true)
    (h : run.Balanced 0) (hclosed : run.onClosed? closed = some run') : run'.Balanced 0 := by
  cases closed with
  | none => exact Option.some.inj hclosed ▸ h
  | some bar =>
    obtain ⟨described, state, settled, asked, intents, answered, hd, hs, ha, hi, rfl⟩ :=
      onBar?_cases hdet hclosed
    obtain ⟨detector, -, rfl⟩ := describe?_cases hd
    have hdescribed : ({ run with detector, barsEmitted := run.barsEmitted + 1 } :
        Run sim).Balanced 0 := h
    have hasked := (hdescribed.settleWaiting hs).ask ha
    have hanswered : answered.Balanced 0 :=
      settleIntents?_induct (P := fun rest r => r.Balanced rest.length)
        (fun hbefore hone => hbefore.settleIntent hone) hasked hi
    exact hanswered

/-- A move drops the orders that wait for the old contract, and its parts are recorded. -/
lemma Balanced.follow {t : Tick α} (h : run.Balanced 0)
    (hfollow : run.followContract? t = some run') : run'.Balanced 0 := by
  rcases followContract?_cases hfollow with
    ⟨-, rfl⟩ | ⟨r, seen, pending, hr, hd, ⟨-, rfl⟩ | ⟨p, -, hroll⟩⟩
  · exact h
  · obtain ⟨-, hevents, hactions⟩ := Rollover.detect_frame hd
    have htally : ({ run with rollover := some seen } : Run sim).tally = run.tally := by
      simp only [tally, moves, moveParts, hr, Option.map_some, hevents, hactions]
    rw [Balanced, htally]
    exact h
  · obtain ⟨-, hevents, hactions⟩ := Rollover.detect_frame hd
    obtain ⟨r', book, log, event, hexec, rfl⟩ := roll?_cases hroll
    obtain ⟨m, -, -, rfl, rfl, rfl⟩ := Rollover.execute?_cases hexec
    have hcanceled := Floor.Balanced.cancel h p.source t.time
    have hparts : ∀ e ∈ m.actions.map (·.audit
        (seen.modeFor (run.floor.cancel p.source t.time).1.book p.target)),
        e.kind ≠ .trade := by
      intro e he
      obtain ⟨a, -, rfl⟩ := List.mem_map.mp he
      exact AuditEvent.kind_audit a _
    have hlogged := hcanceled.logged.extend hparts
    exact
      { traded := hcanceled.traded
        settled := hcanceled.settled
        dropped := by
          rw [hcanceled.dropped]
          simp [tally, moves, hr, Rollover.afterMove, hevents, Rollover.summary,
            Rollover.activate]
        logged := by
          rw [List.length_map, Nat.add_assoc] at hlogged
          simpa [tally, moveParts, hr, Rollover.afterMove, hactions, Rollover.activate]
            using hlogged }

lemma balanced_start (sim : Simulation α) (hdet : sim.deterministic = true) :
    (Run.start sim).Balanced 0 := by
  have htally : (Run.start sim).tally = ⟨sim.logging, 0, 0, 0⟩ := by
    simp only [tally, moves, moveParts, Run.start, hdet, if_true]
    cases sim.rollover <;> rfl
  rw [Balanced, htally]
  exact Floor.balanced_start sim.logging

theorem balanced_feed (hdet : sim.deterministic = true)
    (h : (Run.start sim).feed ticks = .ok run) : run.Balanced 0 := by
  refine feed_induct (P := fun _ run => run.Balanced 0) (balanced_start sim hdet) ?_ h
  intro ticks run t run' _ hrun ht
  obtain ⟨arrived, harrive, hfollow⟩ := onTick?_cases hdet ht
  obtain ⟨bars, closed, mid, -, hmid, rfl⟩ := arrive?_cases harrive
  have hcounted : ({ run.count t with bars } : Run sim).Balanced 0 := hrun
  have hmid' : mid.Balanced 0 := hcounted.closed hdet hmid
  have hmarked : (mid.mark t).Balanced 0 :=
    { traded := hmid'.traded, settled := hmid'.settled, dropped := hmid'.dropped
      logged := hmid'.logged }
  exact hmarked.follow hfollow

/-! ## Runs that fill nothing -/

/-- Where no orders are filled, a bar leaves orders, positions and log alone. -/
lemma onClosed?_floor {closed : Option (Bar α)} (hdet : sim.deterministic = false)
    (h : run.onClosed? closed = some run') : run'.floor = run.floor := by
  cases closed with
  | none => rw [Option.some.inj h]
  | some bar =>
    simp only [onClosed?, onBar?, hdet, Bool.false_eq_true, if_false, Option.bind_eq_bind,
      Option.bind_eq_some_iff, Option.some.injEq, Prod.exists] at h
    obtain ⟨described, state, hd, asked, intents, ha, rfl⟩ := h
    exact (askAbout?_frame ha).1.trans (describe?_frame hd).1

/-- Where no orders are filled, nothing happens on the floor. -/
lemma floor_feed (hdet : sim.deterministic = false) (h : (Run.start sim).feed ticks = .ok run) :
    run.floor = Floor.start sim.logging := by
  refine feed_induct (P := fun _ fed => fed.floor = Floor.start sim.logging) rfl ?_ h
  intro ticks run t run' _ hrun ht
  simp only [onTick?, hdet, Bool.false_eq_true, if_false, Option.bind_eq_bind,
    Option.bind_eq_some_iff, Prod.exists] at ht
  obtain ⟨bars, closed, -, mid, hmid, hend⟩ := ht
  rw [← Option.some.inj hend]
  exact (onClosed?_floor hdet hmid).trans hrun

lemma floor_through (hdet : sim.deterministic = false) (h : through sim ticks = .ok run) :
    run.floor = Floor.start sim.logging := by
  obtain ⟨fed, last, hfed, hlast, rfl⟩ := through_closing h
  rw [dropWaiting, hdet, if_neg Bool.false_ne_true]
  have hfloor : fed.floor = Floor.start sim.logging := floor_feed hdet hfed
  exact (onClosed?_floor hdet hlast).trans hfloor

end Run

/-! ## Reports -/

namespace StatusCounts

/-- The counts of some statuses by their names, without those that were never reached. -/
def named (c : StatusCounts) (statuses : List OrderStatus) : List (String × Nat) :=
  statuses.filterMap fun s => if c.get s = 0 then .none else some (s.label, c.get s)

lemma named_cons (c : StatusCounts) (s : OrderStatus) (rest : List OrderStatus) :
    c.named (s :: rest) =
      if c.get s = 0 then c.named rest else (s.label, c.get s) :: c.named rest := by
  rw [named, List.filterMap_cons]
  split <;> simp_all [named]

lemma lookup_named (c : StatusCounts) (t : OrderStatus) (statuses : List OrderStatus) :
    ((c.named statuses).lookup t.label).getD 0 = if t ∈ statuses then c.get t else 0 := by
  induction statuses with
  | nil => rfl
  | cons s rest ih =>
    rw [named_cons]
    by_cases hsame : t = s
    · subst hsame
      by_cases hzero : c.get t = 0
      · simp [hzero, ih]
      · simp [hzero]
    · have hlabel : (t.label == s.label) = false := by
        cases t <;> cases s <;> first | exact absurd rfl hsame | decide
      by_cases hzero : c.get s = 0
      · simp [hzero, ih, hsame]
      · have hskip : ((s.label, c.get s) :: c.named rest).lookup t.label =
            (c.named rest).lookup t.label := by
          rw [List.lookup_cons, hlabel]
        rw [if_neg hzero, hskip, ih]
        simp [hsame]

lemma sum_named (c : StatusCounts) (statuses : List OrderStatus) :
    ((c.named statuses).map (·.2)).sum = (statuses.map c.get).sum := by
  induction statuses with
  | nil => rfl
  | cons s rest ih =>
    rw [named_cons]
    split
    · rename_i hzero
      rw [ih, List.map_cons, List.sum_cons, hzero, Nat.zero_add]
    · rw [List.map_cons, List.map_cons, List.sum_cons, List.sum_cons, ih]

/-- A histogram names every status that was reached. -/
lemma lookup_histogram (c : StatusCounts) (t : OrderStatus) :
    (c.histogram.lookup t.label).getD 0 = c.get t := by
  have hall : t ∈ [OrderStatus.accepted, .canceled, .deferred, .filled, .rejected] := by
    cases t <;> decide
  exact (c.lookup_named t _).trans (if_pos hall)

/-- A histogram counts every step. -/
lemma sum_histogram (c : StatusCounts) : (c.histogram.map (·.2)).sum = c.total := by
  refine (c.sum_named [.accepted, .canceled, .deferred, .filled, .rejected]).trans ?_
  simp only [List.map_cons, List.map_nil, List.sum_cons, List.sum_nil, get, total]
  omega

end StatusCounts

/-- How often a status was reached according to a summary. -/
def Performance.reached (p : Performance α) (s : OrderStatus) : Nat :=
  (p.orderStatus.lookup s.label).getD 0

/-- The counters of a report with positions agree with each other, with what the strategy was told,
with the number of trades in the log, and with how many orders were dropped at the end.  What is
accepted trades, and every intent has come to one of three ends; orders are dropped by rollovers and
at the end, nowhere else.  A bar is a point of the equity curve and is shown once, and the last
call, and no other one, says that the run is over. -/
structure Report.Reconciles (report : Report α) (p : PositionReport α) (calls : List (Call α))
    (kept : Bool) (droppedAtEnd : Nat) : Prop where
  accepted : p.performance.reached .accepted = p.performance.reached .filled
  fills : p.performance.fillCount = p.performance.reached .filled
  settled : report.intentsEmitted = p.performance.reached .filled +
    p.performance.reached .rejected + p.performance.reached .canceled
  canceled : p.performance.reached .canceled =
    (p.rolloverEvents.map (·.canceledOrders)).sum + droppedAtEnd
  steps : report.orderEvents = (p.performance.orderStatus.map (·.2)).sum
  records : report.logRecords =
    if kept = true then report.orderEvents + p.rolloverActions.length else 0
  points : p.performance.equityPoints = report.barsEmitted
  shown : (shownIn calls).length = report.barsEmitted
  ticks : ((shownIn calls).map (·.tickCount)).sum = report.ticksRead
  ended : ∃ before, calls = before ++ [.shutdown] ∧ .shutdown ∉ before

namespace Run

variable [Scalar α] {sim : Simulation α} {ticks : List (Tick α)} {run last : Run sim}

/-- The last bar is taken and the orders that still wait are dropped. -/
lemma Balanced.finish {fed : Run sim} (hdet : sim.deterministic = true) (h : fed.Balanced 0)
    (hlast : fed.closing? = some last) :
    last.shutdown.dropWaiting.floor.Balanced
        { last.tally with
          dropped := last.tally.dropped + (last.floor.cancelAll last.lastTime).2 } 0 ∧
      last.shutdown.dropWaiting.floor.desk.waitingCount = 0 := by
  have hflushed : ({ fed with bars := fed.bars.flush.1 } : Run sim).Balanced 0 := h
  have hclosed : last.Balanced 0 := hflushed.closed hdet hlast
  rw [dropWaiting_eq hdet]
  exact Floor.Balanced.cancelAll hclosed last.lastTime

/-- A run whose floor is in balance at its end reports counters that agree. -/
lemma reconciles {droppedAtEnd : Nat} (hdet : sim.deterministic = true) (hshown : last.Shown)
    (hheld : last.bars.held = 0)
    (hbalanced : last.shutdown.dropWaiting.floor.Balanced
      { last.tally with dropped := last.tally.dropped + droppedAtEnd } 0)
    (hwaiting : last.shutdown.dropWaiting.floor.desk.waitingCount = 0)
    (source : String) (signatures : Signatures) (scan : ScanMetrics) :
    (Report.of last.shutdown.dropWaiting source signatures scan).Reconciles
      (PositionReport.of last.shutdown.dropWaiting)
      last.shutdown.dropWaiting.calls.toList sim.logging droppedAtEnd := by
  have hreached : ∀ s,
      (PositionReport.of last.shutdown.dropWaiting).performance.reached s =
        last.shutdown.dropWaiting.floor.desk.statuses.get s :=
    fun s => StatusCounts.lookup_histogram _ s
  have hrollover : last.shutdown.dropWaiting.rollover = last.rollover := by
    rw [dropWaiting_eq hdet]
    rfl
  have hevents : (PositionReport.of last.shutdown.dropWaiting).rolloverEvents = last.moves := by
    simp only [PositionReport.of, hrollover, moves]
    cases last.rollover <;> rfl
  have hparts : (PositionReport.of last.shutdown.dropWaiting).rolloverActions =
      last.moveParts := by
    simp only [PositionReport.of, hrollover, moveParts]
    cases last.rollover <;> rfl
  have hcalls : last.shutdown.dropWaiting.calls.toList = last.calls.toList ++ [.shutdown] := by
    rw [dropWaiting_eq hdet]
    exact Array.toList_push
  have hbars : shownIn (last.calls.toList ++ [.shutdown]) = last.barsShown := by
    rw [shownIn_append]
    exact List.append_nil _
  refine ⟨?_, ?_, ?_, ?_, ?_, ?_, ?_, ?_, ?_, ?_⟩
  · rw [hreached, hreached]
    exact hbalanced.traded
  · rw [hreached]
    rfl
  · have hsettled := hbalanced.settled
    rw [hwaiting, Nat.add_zero] at hsettled
    rw [hreached, hreached, hreached]
    refine Eq.trans ?_ hsettled.symm
    simp only [Report.of, dropWaiting_eq hdet]
    rfl
  · rw [hreached, hevents]
    exact hbalanced.dropped
  · exact (StatusCounts.sum_histogram _).symm
  · rw [hparts]
    exact hbalanced.logged.size
  · simp only [Report.of, PositionReport.of, Performance.of, dropWaiting_eq hdet]
    exact hshown.points hdet
  · rw [hcalls, hbars]
    simp only [Report.of, dropWaiting_eq hdet]
    exact hshown.bars
  · rw [hcalls, hbars]
    simp only [Report.of, dropWaiting_eq hdet]
    have hticks := hshown.ticks
    rw [hheld, Nat.add_zero] at hticks
    exact hticks
  · exact ⟨last.calls.toList, hcalls, hshown.running⟩

end Run

/-- The counters of a report agree, over every run that comes to its end.

Where orders are filled, the report has positions; the orders that it counts as dropped are those
that rollovers dropped and those that were dropped after the last bar, when nothing waits any more;
and what traded is in the log, if there is one, and in the log of the twin that keeps one.  Where
none are filled, there are neither statuses nor records. -/
theorem counters_reconcile [Scalar α] {sim : Simulation α} {ticks : List (Tick α)} {run : Run sim}
    (h : Run.through sim ticks = .ok run) (source : String) (signatures : Signatures)
    (scan : ScanMetrics) :
    (sim.deterministic = true →
      ∃ (p : PositionReport α) (fed last : Run sim),
        (Report.of run source signatures scan).positions = some p ∧
          (Run.start sim).feed ticks = .ok fed ∧ fed.closing? = some last ∧
          run = last.shutdown.dropWaiting ∧
          (Report.of run source signatures scan).Reconciles p run.calls.toList sim.logging
            (last.floor.cancelAll last.lastTime).2 ∧
          run.floor.desk.waitingCount = 0 ∧
          (sim.logging = true → run.floor.log.trades = p.performance.fillCount) ∧
          ∃ twin : Run sim.audited, twin.silent = run.silent ∧
            Run.through sim.audited ticks = .ok twin ∧
            twin.floor.log.trades = p.performance.fillCount) ∧
      (sim.deterministic = false →
        (Report.of run source signatures scan).orderEvents = 0 ∧
          (Report.of run source signatures scan).logRecords = 0) := by
  refine ⟨fun hdet => ?_, fun hdet => ?_⟩
  · have finished : ∀ {sim : Simulation α} {run : Run sim}, sim.deterministic = true →
        Run.through sim ticks = .ok run → ∃ fed last : Run sim,
          (Run.start sim).feed ticks = .ok fed ∧ fed.closing? = some last ∧
            run = last.shutdown.dropWaiting ∧
            run.floor.Balanced { last.tally with
              dropped := last.tally.dropped + (last.floor.cancelAll last.lastTime).2 } 0 ∧
            run.floor.desk.waitingCount = 0 := by
      intro sim run hdet h
      obtain ⟨fed, last, hfed, hlast, rfl⟩ := Run.through_closing h
      exact ⟨fed, last, hfed, hlast, rfl, (Run.balanced_feed hdet hfed).finish hdet hlast⟩
    obtain ⟨fed, last, hfed, hlast, rfl, hbalanced, hwaiting⟩ := finished hdet h
    obtain ⟨hshown, hheld⟩ := (Run.shown_feed hfed).closing hlast
    refine ⟨.of last.shutdown.dropWaiting, fed, last, if_pos hdet, hfed, hlast, rfl,
      Run.reconciles hdet hshown hheld hbalanced hwaiting source signatures scan, hwaiting, ?_, ?_⟩
    · intro hlog
      exact hbalanced.logged.trades.trans (if_pos hlog)
    · obtain ⟨twin, htwin, hsilent⟩ := Run.exists_twin_of_through h
      have hdet' : sim.audited.deterministic = true := hdet
      obtain ⟨twinFed, twinLast, -, -, -, htwinBalanced, -⟩ := finished hdet' htwin
      refine ⟨twin, hsilent, htwin, htwinBalanced.logged.trades.trans ?_⟩
      exact congrArg (fun quiet : Run sim.silent => quiet.floor.desk.statuses.filled) hsilent
  · have hfloor := Run.floor_through hdet h
    refine ⟨?_, ?_⟩
    · rw [Report.of, hfloor]
      rfl
    · rw [Report.of, hfloor]
      rfl

/-- Of the six intents of the short run three trade, two are refused and one is dropped by the
rollover, which has two parts; three had to wait. -/
theorem counters_reconcile_shortRun :
    ((PositionReport.of (shortRun .strict)).performance.orderStatus =
          [("ACCEPTED", 3), ("CANCELED", 1), ("DEFERRED", 3), ("FILLED", 3), ("REJECTED", 2)] ∧
        (shortRun .strict).intentsEmitted = 6 ∧ (shortRun .strict).floor.log.size = 12 + 2) ∧
      ∃ (p : PositionReport Float) (dropped : Nat),
        (Report.of (shortRun .strict) "" ⟨"", ""⟩ .none).positions = some p ∧
          (Report.of (shortRun .strict) "" ⟨"", ""⟩ .none).Reconciles p
            (shortRun .strict).calls.toList true dropped := by
  refine ⟨by decide +kernel, ?_⟩
  obtain ⟨p, -, last, hp, -, -, -, hreconciles, -⟩ :=
    (counters_reconcile (through_shortSimulation .strict) "" ⟨"", ""⟩ .none).1 rfl
  exact ⟨p, _, hp, hreconciles⟩

end MarketTape
