import MarketTape.Proofs.Bars
import MarketTape.Proofs.Rollover
import MarketTape.Proofs.Run

/-!
# Time never runs backwards

Three clocks stamp what a run writes down.  Whatever happens on a closed bar is stamped with the
last tick of that bar; dropped orders and moved positions are stamped with the tick that switched
the contract; and what still waits at the end is dropped at the time of the last tick of all.  The
first clock is behind the second one, since it is a later tick that closes a bar.  They agree with
the order of the log because the open bar always holds the tick that came last: closing it writes no
time before the ones already written, and the tick that closed it acts only after that.

* `AuditLog.GoesOn` is a log that goes on with events of a single time, which is what every step of
  a run does to it: `Run.onClosed?_goesOn` and `Run.followContract?_goesOn`.
* `Run.InTime` is the invariant over the ticks of a run, `Run.InTime.tick` its step.
* `log_in_time` is the result, for runs that come to their end and for those that stop early.
-/

namespace MarketTape

variable {α : Type}

/-! ## Time stamps -/

/-- When a recorded event took place. -/
def AuditEvent.time : AuditEvent α → Int
  | .order time .. => time
  | .trade time .. => time
  | .rollover time .. => time

/-- The times of a log, in the order of its records. -/
def AuditLog.times (log : AuditLog α) : List Int := log.events.toList.map (·.time)

/-- Records stand in the order of their numbers. -/
lemma AuditLog.pairwise_records {log : AuditLog α} {R : AuditEvent α → AuditEvent α → Prop}
    (h : log.events.toList.Pairwise R) :
    log.records.Pairwise fun a b => a.seq < b.seq ∧ R a.event b.event := by
  simp only [List.pairwise_iff_getElem, records, List.length_map, List.length_zipIdx,
    List.getElem_map, List.getElem_zipIdx] at h ⊢
  exact fun i j hi hj hij => ⟨by omega, h i j hi hj hij⟩

lemma AuditLog.time_mem_of_record {log : AuditLog α} {r : AuditRecord α} (h : r ∈ log.records) :
    r.event.time ∈ log.times := by
  obtain ⟨⟨e, i⟩, he, rfl⟩ := List.mem_map.mp h
  exact List.mem_map_of_mem (List.fst_mem_of_mem_zipIdx he)

/-- The times of the points of an equity curve. -/
def EquityCurve.times (c : EquityCurve α) : List Int := c.points.toList.map (·.time)

/-- Times that never decrease, each of them that of a tick. -/
structure Stamped (ticks : List (Tick α)) (times : List Int) : Prop where
  sorted : times.Pairwise (· ≤ ·)
  known : ∀ time ∈ times, ∃ t ∈ ticks, t.time = time

lemma stamped_nil (ticks : List (Tick α)) : Stamped ticks [] := ⟨List.Pairwise.nil, by simp⟩

lemma Stamped.mono {ticks more : List (Tick α)} {times : List Int} (h : Stamped ticks times)
    (hsub : ticks ⊆ more) : Stamped more times := by
  refine ⟨h.sorted, fun time htime => ?_⟩
  obtain ⟨u, hu, rfl⟩ := h.known time htime
  exact ⟨u, hsub hu, rfl⟩

/-- Times that go on with the time of a tick that no other tick lies behind. -/
lemma Stamped.append {ticks : List (Tick α)} {times more : List Int} (h : Stamped ticks times)
    {t : Tick α} (ht : t ∈ ticks) (hlast : ∀ u ∈ ticks, u.time ≤ t.time)
    (hmore : ∀ time ∈ more, time = t.time) : Stamped ticks (times ++ more) := by
  constructor
  · refine List.pairwise_append.mpr ⟨h.sorted, ?_, ?_⟩
    · refine List.pairwise_of_forall_mem_list fun a ha b hb => ?_
      exact Int.le_of_eq ((hmore a ha).trans (hmore b hb).symm)
    · intro a ha b hb
      obtain ⟨u, hu, rfl⟩ := h.known a ha
      rw [hmore b hb]
      exact hlast u hu
  · intro time htime
    rcases List.mem_append.mp htime with htime | htime
    · exact h.known time htime
    · exact ⟨t, ht, (hmore time htime).symm⟩

/-! ## A log that goes on -/

/-- A log that went on with events of one time. -/
def AuditLog.GoesOn (log : AuditLog α) (time : Int) (log' : AuditLog α) : Prop :=
  ∃ more, log'.times = log.times ++ more ∧ ∀ s ∈ more, s = time

namespace AuditLog.GoesOn

variable {log log' log'' : AuditLog α} {time : Int}

lemma refl (log : AuditLog α) (time : Int) : log.GoesOn time log := ⟨[], by simp, by simp⟩

lemma trans (h : log.GoesOn time log') (h' : log'.GoesOn time log'') : log.GoesOn time log'' := by
  obtain ⟨more, hlog', hmore⟩ := h
  obtain ⟨more', hlog'', hmore'⟩ := h'
  refine ⟨more ++ more', by rw [hlog'', hlog', List.append_assoc], fun s hs => ?_⟩
  exact (List.mem_append.mp hs).elim (hmore s) (hmore' s)

lemma append (h : log.GoesOn time log') {e : AuditEvent α} (he : e.time = time) :
    log.GoesOn time (log'.append e) := by
  refine h.trans ?_
  cases henabled : log'.enabled with
  | true => exact ⟨[e.time], by simp [times, toList_append, henabled], by simp [he]⟩
  | false => exact ⟨[], by simp [times, toList_append, henabled], by simp⟩

lemma extend (h : log.GoesOn time log') {more : List (AuditEvent α)}
    (hmore : ∀ e ∈ more, e.time = time) : log.GoesOn time (log'.extend more) := by
  induction more generalizing log' with
  | nil => exact h
  | cons e rest ih =>
    obtain ⟨he, hrest⟩ := List.forall_mem_cons.mp hmore
    exact ih (h.append he) hrest

/-- Everything the desk does on a bar is stamped with the last tick of the bar. -/
lemma keeps [Scalar α] (log : AuditLog α) (instrument : String) (time : Int) :
    Floor.Keeps (fun _ log' => log.GoesOn time log') instrument time where
  order h _ _ _ := h.append rfl
  fill h _ _ _ _ _ _ htime _ := (h.append (e := .accepted ..) htime).append (e := .traded ..) htime

/-- The times of a log that goes on at the time of the last tick are those of ticks. -/
lemma stamped (h : log.GoesOn time log') {ticks : List (Tick α)} {t : Tick α} (ht : t ∈ ticks)
    (htime : t.time = time) (hlast : ∀ u ∈ ticks, u.time ≤ t.time)
    (hs : Stamped ticks log.times) : Stamped ticks log'.times := by
  obtain ⟨more, hlog', hmore⟩ := h
  rw [hlog']
  exact hs.append ht hlast fun s hmem => (hmore s hmem).trans htime.symm

end AuditLog.GoesOn

/-! ## The open bar -/

variable [Scalar α]

namespace Bars

/-- After a tick the open bar was last changed by it, and a bar that it closed by the tick before.
-/
lemma push?_lastTime {s s' : Bars α} {t : Tick α} {closed : Option (Bar α)}
    (h : s.push? t = some (s', closed)) :
    s'.current.map (·.lastTime) = some t.time ∧
      ∀ bar, closed = some bar → s.current.map (·.lastTime) = some bar.lastTime := by
  obtain ⟨b, hb, hends⟩ := push?_endsWith h
  refine ⟨by rw [hb]; exact congrArg some hends.lastTime, ?_⟩
  rintro bar rfl
  obtain ⟨b, hb, rfl⟩ := push?_closed h
  rw [hb]
  rfl

lemma flush_lastTime {s : Bars α} {bar : Bar α} (h : s.flush.2 = some bar) :
    s.current.map (·.lastTime) = some bar.lastTime := by
  rw [flush_eq, Option.map_eq_some_iff] at h
  obtain ⟨b, hb, rfl⟩ := h
  rw [hb]
  rfl

end Bars

/-! ## The steps of a run -/

namespace Run

variable {sim : Simulation α} {run run' : Run sim} {ticks : List (Tick α)} {t : Tick α}

omit [Scalar α] in
@[simp] lemma equity_notify (run : Run sim) (fills : List (Fill α)) :
    (run.notify fills).equity = run.equity := by rw [notify_eq]

omit [Scalar α] in
@[simp] lemma equity_name (run : Run sim) (intent : Intent α) :
    (run.name intent).1.equity = run.equity := by
  rw [name]; split <;> rfl

lemma settleIntent?_equity {bar : Bar α} {intent : Intent α}
    (h : run.settleIntent? bar intent = some run') : run'.equity = run.equity := by
  rcases settleIntent?_cases h with rfl | ⟨floor, fill, -, rfl⟩ <;> simp

/-- A closed bar adds one point to the equity curve, at the time of its last tick. -/
lemma onBar?_equity {bar : Bar α} (hdet : sim.deterministic = true)
    (h : run.onBar? bar = some run') :
    run'.equity = run.equity.record bar.lastTime run'.floor.book.totalPnl := by
  obtain ⟨described, state, settled, asked, intents, answered, hd, hs, ha, hi, rfl⟩ :=
    onBar?_cases hdet h
  obtain ⟨detector, -, rfl⟩ := describe?_cases hd
  obtain ⟨floor, fills, -, rfl⟩ := settleWaiting?_cases hs
  obtain ⟨strategy, -, rfl⟩ := askAbout?_cases ha
  have hanswered : answered.equity = run.equity := by
    refine settleIntents?_induct (P := fun _ r => r.equity = run.equity) ?_ ?_ hi
    · intro intent rest before after hbefore hone
      exact (settleIntent?_equity hone).trans hbefore
    · simp
  simp only [recordEquity, hanswered]

/-- What happens on a closed bar is stamped with the last tick of the bar. -/
lemma onClosed?_goesOn {closed : Option (Bar α)} {now : Int} (hdet : sim.deterministic = true)
    (hnow : ∀ bar, closed = some bar → bar.lastTime = now) (h : run.onClosed? closed = some run') :
    run.floor.log.GoesOn now run'.floor.log ∧
      ∃ more, run'.equity.times = run.equity.times ++ more ∧ ∀ s ∈ more, s = now := by
  constructor
  · have keeps : ∀ bar, closed = some bar → Floor.Keeps
        (fun (_ : Book α) log => run.floor.log.GoesOn now log) bar.instrument bar.lastTime := by
      rintro bar hbar
      rw [← hnow bar hbar]
      exact AuditLog.GoesOn.keeps _ _ _
    exact (onClosed?_keeps keeps hdet (AuditLog.GoesOn.refl _ now) h).1
  · cases closed with
    | none =>
      rw [onClosed?, Option.some.injEq] at h
      exact ⟨[], by simp [h], by simp⟩
    | some bar =>
      refine ⟨[bar.lastTime], ?_, by simp [hnow bar rfl]⟩
      simp [EquityCurve.times, onBar?_equity hdet h, EquityCurve.record]

/-- What a switch of contracts does is stamped with the tick that made it. -/
lemma followContract?_goesOn (h : run.followContract? t = some run') :
    run.floor.log.GoesOn t.time run'.floor.log ∧ run'.equity = run.equity ∧
      run'.bars = run.bars ∧ run'.lastTime = run.lastTime := by
  rcases followContract?_cases h with
    ⟨-, rfl⟩ | ⟨r, seen, pending, -, -, ⟨-, rfl⟩ | ⟨p, -, hroll⟩⟩
  · exact ⟨.refl _ _, rfl, rfl, rfl⟩
  · exact ⟨.refl _ _, rfl, rfl, rfl⟩
  · obtain ⟨r', book, log, event, hexec, rfl⟩ := roll?_cases hroll
    obtain ⟨m, hm, -, -, rfl, -⟩ := Rollover.execute?_cases hexec
    refine ⟨?_, rfl, rfl, rfl⟩
    have hcanceled : run.floor.log.GoesOn t.time (run.floor.cancel p.source t.time).1.log :=
      (AuditLog.GoesOn.keeps run.floor.log p.source t.time).cancel (.refl _ _) p.source
    refine hcanceled.extend fun e he => ?_
    obtain ⟨a, ha, rfl⟩ := List.mem_map.mp he
    -- every leg of a move takes the time of the tick
    obtain ⟨volume, -, ⟨-, mid, closed, opened, -, -, hactions, -⟩ | ⟨-, -, hactions, -⟩⟩ :=
      Rollover.move?_cases hm
    · rw [hactions] at ha
      rcases List.mem_cons.mp ha with rfl | ha
      · rfl
      · obtain rfl := List.mem_singleton.mp ha
        rfl
    · rw [hactions] at ha
      obtain rfl := List.mem_singleton.mp ha
      rfl

/-! ## Whole runs -/

/-- All that was written down is stamped with ticks, in their order, and the open bar holds the tick
that came last. -/
structure InTime (ticks : List (Tick α)) (run : Run sim) : Prop where
  log : Stamped ticks run.floor.log.times
  equity : Stamped ticks run.equity.times
  bar : run.bars.current.map (·.lastTime) = ticks.getLast?.map (·.time)
  last : ∀ t, ticks.getLast? = some t → run.lastTime = t.time

lemma inTime_start (sim : Simulation α) : InTime [] (Run.start sim) where
  log := stamped_nil []
  equity := stamped_nil []
  bar := rfl
  last t ht := by simp at ht

omit [Scalar α] in
lemma time_le_of_getLast? (hticks : ticks.Pairwise fun a b => a.time ≤ b.time)
    (ht : ticks.getLast? = some t) : ∀ u ∈ ticks, u.time ≤ t.time := by
  obtain ⟨before, rfl⟩ := List.getLast?_eq_some_iff.mp ht
  intro u hu
  rcases List.mem_append.mp hu with hu | hu
  · exact (List.pairwise_append.mp hticks).2.2 u hu t (by simp)
  · exact Int.le_of_eq (congrArg Tick.time (List.mem_singleton.mp hu))

/-- A bar that is closed holds the tick that came last, so the times go on. -/
lemma onClosed?_stamped {closed : Option (Bar α)} (hdet : sim.deterministic = true)
    (hticks : ticks.Pairwise fun a b => a.time ≤ b.time)
    (hlog : Stamped ticks run.floor.log.times) (hequity : Stamped ticks run.equity.times)
    (hbar : ∀ bar, closed = some bar → ticks.getLast?.map (·.time) = some bar.lastTime)
    (h : run.onClosed? closed = some run') :
    Stamped ticks run'.floor.log.times ∧ Stamped ticks run'.equity.times := by
  cases closed with
  | none =>
    rw [onClosed?, Option.some.injEq] at h
    exact h ▸ ⟨hlog, hequity⟩
  | some bar =>
    obtain ⟨last, hlast, htime⟩ := Option.map_eq_some_iff.mp (hbar bar rfl)
    have hmem : last ∈ ticks := List.mem_of_getLast? hlast
    have hmax := time_le_of_getLast? hticks hlast
    have hnow : ∀ b, some bar = some b → b.lastTime = bar.lastTime := by
      rintro b ⟨⟩
      rfl
    obtain ⟨hgoes, more, hmore, hstamps⟩ := onClosed?_goesOn hdet hnow h
    refine ⟨hgoes.stamped hmem htime hmax hlog, ?_⟩
    rw [hmore]
    exact hequity.append hmem hmax fun s hs => (hstamps s hs).trans htime.symm

lemma InTime.tick (hdet : sim.deterministic = true) (hrun : run.InTime ticks)
    (hticks : (ticks ++ [t]).Pairwise fun a b => a.time ≤ b.time)
    (h : run.onTick? t = some run') : run'.InTime (ticks ++ [t]) := by
  obtain ⟨arrived, harrive, hfollow⟩ := onTick?_cases hdet h
  obtain ⟨bars, closed, mid, hpush, hmid, rfl⟩ := arrive?_cases harrive
  obtain ⟨hopen, hclosed⟩ := Bars.push?_lastTime hpush
  have hbefore := (List.pairwise_append.mp hticks).1
  have hcounted : Stamped ticks ({ run.count t with bars } : Run sim).floor.log.times := hrun.log
  obtain ⟨hlog, hequity⟩ := onClosed?_stamped hdet hbefore hcounted hrun.equity
    (fun bar hbar => hrun.bar.symm.trans (hclosed bar hbar)) hmid
  have hsame := onClosed?_sameTape hmid
  obtain ⟨hgoes, hequity', hbars, hlast⟩ := followContract?_goesOn hfollow
  have hmax := time_le_of_getLast? hticks List.getLast?_concat
  constructor
  · exact hgoes.stamped (by simp) rfl hmax (hlog.mono (List.subset_append_left ticks [t]))
  · rw [hequity']
    exact hequity.mono (List.subset_append_left ticks [t])
  · have hcurrent : run'.bars = bars := hbars.trans hsame.bars
    rw [hcurrent, hopen, List.getLast?_concat]
    rfl
  · intro last ht
    rw [List.getLast?_concat, Option.some.injEq] at ht
    have htime : run'.lastTime = t.time := hlast.trans hsame.lastTime
    rw [htime, ht]

lemma inTime_feed (hdet : sim.deterministic = true)
    (h : (Run.start sim).feed ticks = .ok run)
    (hticks : ticks.Pairwise fun a b => a.time ≤ b.time) : run.InTime ticks := by
  refine feed_induct (P := fun ticks run => ticks.Pairwise (fun a b => a.time ≤ b.time) →
    run.InTime ticks) (fun _ => inTime_start sim) ?_ h hticks
  intro ticks run t run' _ ih ht hsorted
  exact InTime.tick hdet (ih (List.pairwise_append.mp hsorted).1) hsorted ht

/-- The end of a run adds what happens on the last bar and the orders that are dropped, all at the
time of the last tick. -/
lemma InTime.finish (hdet : sim.deterministic = true)
    (hticks : ticks.Pairwise fun a b => a.time ≤ b.time) (hlast : ticks.getLast? = some t)
    (hrun : run.InTime ticks) (h : run.finish? = some run') :
    Stamped ticks run'.floor.log.times ∧ Stamped ticks run'.equity.times := by
  obtain ⟨mid, hmid, rfl⟩ := finish?_cases h
  have hflushed : Stamped ticks ({ run with bars := run.bars.flush.1 } : Run sim).floor.log.times :=
    hrun.log
  obtain ⟨hlog, hequity⟩ := onClosed?_stamped hdet hticks hflushed hrun.equity
    (fun bar hbar => hrun.bar.symm.trans (Bars.flush_lastTime hbar)) hmid
  have hnow : mid.lastTime = t.time :=
    (onClosed?_sameTape hmid).lastTime.trans (hrun.last t hlast)
  have hgoes : mid.floor.log.GoesOn mid.lastTime (mid.floor.cancelAll mid.lastTime).1.log :=
    (AuditLog.GoesOn.keeps mid.floor.log "" mid.lastTime).cancelAll (.refl _ _)
  rw [dropWaiting_eq hdet]
  exact ⟨hgoes.stamped (List.mem_of_getLast? hlast) hnow.symm
    (time_le_of_getLast? hticks hlast) hlog, hequity⟩

/-- Without ticks nothing is written down. -/
lemma times_of_through_nil (hdet : sim.deterministic = true) (h : through sim [] = .ok run) :
    run.floor.log.times = [] ∧ run.equity.times = [] := by
  obtain ⟨fed, hfed, hfinish⟩ := through_cases h
  obtain rfl := Except.ok.inj hfed
  obtain ⟨mid, hmid, rfl⟩ := finish?_cases hfinish
  obtain rfl := Option.some.inj hmid
  rw [dropWaiting_eq hdet]
  exact ⟨rfl, rfl⟩

lemma stamped_through (hdet : sim.deterministic = true)
    (hticks : ticks.Pairwise fun a b => a.time ≤ b.time) (h : through sim ticks = .ok run) :
    Stamped ticks run.floor.log.times ∧ Stamped ticks run.equity.times := by
  cases hlast : ticks.getLast? with
  | none =>
    obtain rfl := List.getLast?_eq_none_iff.mp hlast
    obtain ⟨hlog, hequity⟩ := times_of_through_nil hdet h
    exact ⟨hlog ▸ stamped_nil [], hequity ▸ stamped_nil []⟩
  | some t =>
    obtain ⟨fed, hfed, hfinish⟩ := through_cases h
    exact InTime.finish hdet hticks hlast (inTime_feed hdet hfed hticks) hfinish

end Run

/-- Over ticks whose times do not decrease, neither the times of the records of the log decrease, in
the order of their numbers, nor those of the points of the equity curve, and each of them is the
time of a tick; whether the run comes to its end or a count leaves its range before. -/
theorem log_in_time {sim : Simulation α} (hdet : sim.deterministic = true)
    {ticks : List (Tick α)} (hticks : ticks.Pairwise fun a b => a.time ≤ b.time) {run : Run sim}
    (h : Run.through sim ticks = .ok run ∨ Run.through sim ticks = .error run) :
    (run.floor.log.records.Pairwise fun a b => a.seq < b.seq ∧ a.event.time ≤ b.event.time) ∧
      (run.equity.points.toList.Pairwise fun p q => p.time ≤ q.time) ∧
      (∀ r ∈ run.floor.log.records, ∃ t ∈ ticks, t.time = r.event.time) ∧
      ∀ p ∈ run.equity.points.toList, ∃ t ∈ ticks, t.time = p.time := by
  have hstamped : Stamped ticks run.floor.log.times ∧ Stamped ticks run.equity.times := by
    rcases h with hend | hstop
    · exact Run.stamped_through hdet hticks hend
    · obtain ⟨before, ⟨rest, rfl⟩, hfed⟩ := Run.through_error_cases hstop
      have hintime := Run.inTime_feed hdet hfed (List.pairwise_append.mp hticks).1
      exact ⟨hintime.log.mono (List.subset_append_left before rest),
        hintime.equity.mono (List.subset_append_left before rest)⟩
  obtain ⟨hlog, hequity⟩ := hstamped
  refine ⟨?_, List.pairwise_map.mp hequity.sorted, ?_, ?_⟩
  · exact AuditLog.pairwise_records (R := fun a b => a.time ≤ b.time)
      (List.pairwise_map.mp hlog.sorted)
  · intro r hr
    exact hlog.known r.event.time (AuditLog.time_mem_of_record hr)
  · exact fun p hp => hequity.known p.time (List.mem_map_of_mem hp)

/-- In the short run the orders of a bar wait until a tick of another contract closes it, and that
tick then drops one of them and moves a position: the log has records of both times. -/
theorem log_in_time_shortRun :
    ((shortRun .strict).floor.log.times =
          [0, 0, 0, 60, 120, 120, 120, 120, 180, 180, 180, 240, 240, 240] ∧
        (shortRun .strict).equity.times = [0, 60, 120, 180, 240]) ∧
      ((shortRun .strict).floor.log.records.Pairwise fun a b =>
          a.seq < b.seq ∧ a.event.time ≤ b.event.time) ∧
        (shortRun .strict).equity.points.toList.Pairwise fun p q => p.time ≤ q.time := by
  have hticks : shortTicks.Pairwise fun a b => a.time ≤ b.time := by decide
  obtain ⟨hlog, hequity, -⟩ :=
    log_in_time rfl hticks (.inl (through_shortSimulation .strict))
  exact ⟨by decide +kernel, hlog, hequity⟩

end MarketTape
