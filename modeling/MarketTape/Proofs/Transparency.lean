import MarketTape.Proofs.Run

/-!
# A run does not read its log

The log is written and never read.  So a run stays what it is when its log is taken away, but for
the log itself: taking the log away commutes with every operation, from a single record up to a
whole run.  A run that keeps no log therefore has a twin that does, and the log of the twin tells
what the run did.

* `Floor.silent` and `Run.silent` take the log away; `Simulation.silent` and `Simulation.audited`
  are the simulation without a log and with one.
* `Run.feed_silent` and `Run.through_silent` say that a run without a log is the run with its log
  taken away.
* `Run.exists_twin_of_feed` and `Run.exists_twin_of_through` give the twin.
-/

namespace MarketTape

variable {α : Type}

/-! ## The floor -/

namespace Floor

/-- The floor without its log. -/
def silent (f : Floor α) : Floor α := { f with log := AuditLog.start false }

@[simp] lemma book_silent (f : Floor α) : f.silent.book = f.book := rfl

lemma cancel_silent (f : Floor α) (instrument : String) (time : Int) :
    f.silent.cancel instrument time =
      ((f.cancel instrument time).1.silent, (f.cancel instrument time).2) := by
  have go : ∀ (due : List (Waiting α)) (g : Floor α),
      (due.foldl (fun g w => g.transition w.intent time w.intent.referencePrice .canceled)
          g).silent =
        due.foldl (fun g w => g.transition w.intent time w.intent.referencePrice .canceled)
          g.silent := by
    intro due
    induction due with
    | nil => exact fun _ => rfl
    | cons w rest ih => exact fun g => ih _
  exact Prod.ext (go (f.desk.waitingFor instrument) (f.without instrument)).symm rfl

lemma cancelAll_silent (f : Floor α) (time : Int) :
    f.silent.cancelAll time = ((f.cancelAll time).1.silent, (f.cancelAll time).2) := by
  have go : ∀ (names : List String) (g : Floor α × Nat),
      names.foldl (fun g instrument =>
          ((g.1.cancel instrument time).1, g.2 + (g.1.cancel instrument time).2))
          (g.1.silent, g.2) =
        Prod.map silent id (names.foldl (fun g instrument =>
          ((g.1.cancel instrument time).1, g.2 + (g.1.cancel instrument time).2)) g) := by
    intro names
    induction names with
    | nil => exact fun _ => rfl
    | cons name rest ih =>
      intro g
      rw [List.foldl_cons, List.foldl_cons, ← ih, cancel_silent]
  exact go _ (f, 0)

variable [Scalar α]

lemma fill?_silent (f : Floor α) (intent : Intent α) (bar : Bar α) (volume : Int) :
    f.silent.fill? intent bar volume =
      (f.fill? intent bar volume).map (Prod.map silent id) := by
  simp only [fill?, Option.map_map]
  rfl

lemma submit?_silent (f : Floor α) (intent : Intent α) (bar : Bar α) :
    f.silent.submit? intent bar = (f.submit? intent bar).map (Prod.map silent id) := by
  simp only [submit?, book_silent]
  split
  · rfl
  · rfl
  · rfl
  · rw [fill?_silent, Option.map_map, Option.map_map]
    rfl

lemma settleOne?_silent (f : Floor α) (intent : Intent α) (bar : Bar α) :
    f.silent.settleOne? intent bar = (f.settleOne? intent bar).map (Prod.map silent id) := by
  have hbook : f.silent.book.net intent.instrument = f.book.net intent.instrument := rfl
  rw [settleOne?, settleOne?]
  by_cases h : f.book.net intent.instrument = 0 ∧ Scalar.zero < bar.close
  · rw [if_pos (hbook ▸ h), if_pos h, fill?_silent, Option.map_map, Option.map_map]
    rfl
  · rw [if_neg (hbook ▸ h), if_neg h]
    rfl

lemma settleEach?_silent (bar : Bar α) : ∀ (due : List (Waiting α)) (f : Floor α),
    f.silent.settleEach? bar due = (f.settleEach? bar due).map (Prod.map silent id)
  | [], _ => rfl
  | w :: rest, f => by
    rw [settleEach?, settleEach?, settleOne?_silent]
    cases f.settleOne? w.intent bar with
    | none => rfl
    | some settled =>
      simp only [Option.map_some, Prod.map_fst, settleEach?_silent bar rest settled.1,
        Option.map_map]
      rfl

lemma settle?_silent (f : Floor α) (bar : Bar α) :
    f.silent.settle? bar = (f.settle? bar).map (Prod.map silent id) :=
  settleEach?_silent bar (f.desk.waitingFor bar.instrument) (f.without bar.instrument)

end Floor

/-- A move writes to the log and does not read it. -/
lemma Rollover.execute?_silent [Scalar α] (r : Rollover α) (p : PendingRollover) (t : Tick α)
    (book : Book α) (log : AuditLog α) (canceled : Nat) :
    r.execute? p t book (AuditLog.start false) canceled =
      (r.execute? p t book log canceled).map fun (r, book, _, event) =>
        (r, book, AuditLog.start false, event) := by
  have hlog : ∀ (actions : List (RolloverAction α)) (mode : RolloverMode),
      actions.foldl (fun log a => log.append (a.audit mode)) (AuditLog.start false) =
        AuditLog.start false := by
    intro actions mode
    induction actions with
    | nil => rfl
    | cons a rest ih => exact ih
  simp only [execute?, Option.map_map, hlog]
  rfl

/-! ## Runs -/

namespace Simulation

/-- The simulation without a log. -/
def silent (sim : Simulation α) : Simulation α := { sim with logging := false }

/-- The simulation with a log. -/
def audited (sim : Simulation α) : Simulation α := { sim with logging := true }

end Simulation

namespace Run

variable {sim : Simulation α}

/-- The run without its log. -/
def silent (run : Run sim) : Run sim.silent where
  bars := run.bars
  detector := run.detector
  strategy := run.strategy
  nextTrace := run.nextTrace
  floor := run.floor.silent
  rollover := run.rollover
  equity := run.equity
  instruments := run.instruments
  ticksRead := run.ticksRead
  barsEmitted := run.barsEmitted
  intentsEmitted := run.intentsEmitted
  lastTime := run.lastTime
  calls := run.calls

/-- A run that stopped early or came to its end, without its log. -/
def silentEnd : Except (Run sim) (Run sim) → Except (Run sim.silent) (Run sim.silent)
  | .ok run => .ok run.silent
  | .error run => .error run.silent

lemma name_silent (run : Run sim) (intent : Intent α) :
    run.silent.name intent = ((run.name intent).1.silent, (run.name intent).2) := by
  have hsim : sim.silent.capabilities = sim.capabilities := rfl
  rw [name, name, hsim]
  split <;> rfl

lemma notify_silent (run : Run sim) (fills : List (Fill α)) :
    run.silent.notify fills = (run.notify fills).silent := by
  rw [notify_eq, notify_eq]
  rfl

lemma describe?_silent (run : Run sim) (bar : Bar α) :
    run.silent.describe? bar = (run.describe? bar).map (Prod.map silent id) := by
  simp only [describe?, Option.map_map]
  rfl

lemma askAbout?_silent (run : Run sim) (bar : Bar α) (state : MarketState α) :
    run.silent.askAbout? bar state = (run.askAbout? bar state).map (Prod.map silent id) := by
  simp only [askAbout?, ask?, Option.map_map]
  rfl

variable [Scalar α]

lemma start_silent (sim : Simulation α) : (Run.start sim).silent = Run.start sim.silent := rfl

lemma settleIntent?_silent (run : Run sim) (bar : Bar α) (intent : Intent α) :
    run.silent.settleIntent? bar intent = (run.settleIntent? bar intent).map silent := by
  have hsim : sim.silent.capabilities = sim.capabilities := rfl
  rw [settleIntent?, settleIntent?, name_silent, hsim]
  simp only
  split
  · rfl
  · have hfloor : (run.name intent).1.silent.floor = (run.name intent).1.floor.silent := rfl
    rw [hfloor, Floor.submit?_silent, Option.map_map, Option.map_map]
    refine congrFun (congrArg _ (funext fun settled => ?_)) _
    exact notify_silent { (run.name intent).1 with floor := settled.1 } settled.2.toList

lemma settleIntents?_silent (bar : Bar α) : ∀ (intents : List (Intent α)) (run : Run sim),
    run.silent.settleIntents? bar intents = (run.settleIntents? bar intents).map silent
  | [], _ => rfl
  | intent :: rest, run => by
    rw [settleIntents?, settleIntents?, settleIntent?_silent]
    cases run.settleIntent? bar intent with
    | none => rfl
    | some next => exact settleIntents?_silent bar rest next

lemma settleWaiting?_silent (run : Run sim) (bar : Bar α) :
    run.silent.settleWaiting? bar = (run.settleWaiting? bar).map silent := by
  have hfloor : run.silent.floor = run.floor.silent := rfl
  rw [settleWaiting?, settleWaiting?, hfloor, Floor.settle?_silent, Option.map_map, Option.map_map]
  refine congrFun (congrArg _ (funext fun settled => ?_)) _
  exact notify_silent { run with floor := settled.1 } settled.2

lemma onBar?_silent (run : Run sim) (bar : Bar α) :
    run.silent.onBar? bar = (run.onBar? bar).map silent := by
  have hdet : sim.silent.deterministic = sim.deterministic := rfl
  simp only [onBar?, describe?_silent, hdet]
  cases run.describe? bar with
  | none => rfl
  | some described =>
    simp only [Option.map_some, Option.bind_eq_bind, Option.bind_some, Prod.map_fst, Prod.map_snd,
      id_eq]
    split
    · rw [settleWaiting?_silent]
      cases described.1.settleWaiting? bar with
      | none => rfl
      | some settled =>
        simp only [Option.map_some, Option.bind_some, askAbout?_silent]
        cases settled.askAbout? bar described.2 with
        | none => rfl
        | some asked =>
          simp only [Option.map_some, Option.bind_some, Prod.map_fst, Prod.map_snd, id_eq,
            settleIntents?_silent]
          cases asked.1.settleIntents? bar asked.2 with
          | none => rfl
          | some answered => rfl
    · rw [askAbout?_silent]
      cases described.1.askAbout? bar described.2 with
      | none => rfl
      | some asked => rfl

lemma onClosed?_silent (run : Run sim) (closed : Option (Bar α)) :
    run.silent.onClosed? closed = (run.onClosed? closed).map silent := by
  cases closed with
  | none => rfl
  | some bar => exact onBar?_silent run bar

lemma roll?_silent (run : Run sim) (r : Rollover α) (p : PendingRollover) (t : Tick α) :
    run.silent.roll? r p t = (run.roll? r p t).map silent := by
  have hfloor : run.silent.floor = run.floor.silent := rfl
  simp only [roll?, hfloor, Floor.cancel_silent, Floor.book_silent, Option.map_map]
  have hexec := r.execute?_silent p t (run.floor.cancel p.source t.time).1.book
    (run.floor.cancel p.source t.time).1.log (run.floor.cancel p.source t.time).2
  have hlog : (run.floor.cancel p.source t.time).1.silent.log = AuditLog.start false := rfl
  rw [hlog, hexec, Option.map_map]
  rfl

lemma followContract?_silent (run : Run sim) (t : Tick α) :
    run.silent.followContract? t = (run.followContract? t).map silent := by
  have hrollover : run.silent.rollover = run.rollover := rfl
  have hbook : run.silent.floor.book = run.floor.book := rfl
  simp only [followContract?, hrollover, hbook]
  cases run.rollover with
  | none => rfl
  | some r =>
    cases hdetect : r.detect t run.floor.book with
    | mk seen pending =>
      simp only [hdetect]
      cases pending with
      | none => rfl
      | some p => exact roll?_silent run seen p t

lemma onTick?_silent (run : Run sim) (t : Tick α) :
    run.silent.onTick? t = (run.onTick? t).map silent := by
  have hdet : sim.silent.deterministic = sim.deterministic := rfl
  have hbars : (run.silent.count t).bars = (run.count t).bars := rfl
  simp only [onTick?, hdet, hbars, Option.bind_eq_bind]
  cases (run.count t).bars.push? t with
  | none => rfl
  | some pushed =>
    have hclosed := onClosed?_silent { run.count t with bars := pushed.1 } pushed.2
    simp only [Option.bind_some]
    refine (congrArg (Option.bind · _) hclosed).trans ?_
    cases ({ run.count t with bars := pushed.1 } : Run sim).onClosed? pushed.2 with
    | none => rfl
    | some mid =>
      simp only [Option.map_some, Option.bind_some]
      split
      · exact followContract?_silent (mid.mark t) t
      · rfl

/-- A run without a log goes through its ticks as the run with one does. -/
theorem feed_silent : ∀ (ticks : List (Tick α)) (run : Run sim),
    run.silent.feed ticks = silentEnd (run.feed ticks)
  | [], _ => rfl
  | t :: rest, run => by
    rw [feed, feed, onTick?_silent]
    cases run.onTick? t with
    | none => rfl
    | some next => exact feed_silent rest next

omit [Scalar α] in
lemma dropWaiting_silent (run : Run sim) : run.silent.dropWaiting = run.dropWaiting.silent := by
  have hdet : sim.silent.deterministic = sim.deterministic := rfl
  have hcancel : (run.silent.floor.cancelAll run.silent.lastTime).1 =
      (run.floor.cancelAll run.lastTime).1.silent :=
    congrArg Prod.fst (run.floor.cancelAll_silent run.lastTime)
  rw [dropWaiting, dropWaiting, hdet]
  split
  · rw [hcancel]
    rfl
  · rfl

lemma finish?_silent (run : Run sim) : run.silent.finish? = run.finish?.map silent := by
  have hbars : run.silent.bars = run.bars := rfl
  have hclosed := onClosed?_silent { run with bars := run.bars.flush.1 } run.bars.flush.2
  simp only [finish?, hbars, Option.map_map]
  refine (congrArg (Option.map _) hclosed).trans ?_
  rw [Option.map_map]
  refine congrFun (congrArg _ (funext fun mid => ?_)) _
  exact dropWaiting_silent mid.shutdown

/-- A run without a log ends as the run with one does. -/
theorem through_silent (sim : Simulation α) (ticks : List (Tick α)) :
    through sim.silent ticks = silentEnd (through sim ticks) := by
  rw [through, through, ← start_silent, feed_silent]
  cases (Run.start sim).feed ticks with
  | error run => rfl
  | ok run =>
    simp only [silentEnd, finish?_silent]
    cases run.finish? <;> rfl

/-! ## The twin that keeps a log -/

omit [Scalar α] in
lemma eq_ok_of_silentEnd {end_ : Except (Run sim) (Run sim)} {run : Run sim.silent}
    (h : silentEnd end_ = .ok run) : ∃ twin, end_ = .ok twin ∧ twin.silent = run := by
  cases end_ with
  | error stopped => cases h
  | ok twin => exact ⟨twin, rfl, Except.ok.inj h⟩

/-- A run has a twin that keeps a log and is the same in everything else. -/
theorem exists_twin_of_feed {ticks : List (Tick α)} {run : Run sim}
    (h : (Run.start sim).feed ticks = .ok run) :
    ∃ twin : Run sim.audited, (Run.start sim.audited).feed ticks = .ok twin ∧
      twin.silent = run.silent := by
  have hsilent : (Run.start sim.silent).feed ticks = .ok run.silent := by
    rw [← start_silent, feed_silent, h]
    rfl
  have haudited := feed_silent ticks (Run.start sim.audited)
  exact eq_ok_of_silentEnd (haudited.symm.trans hsilent)

/-- The same for a run that came to its end. -/
theorem exists_twin_of_through {ticks : List (Tick α)} {run : Run sim}
    (h : through sim ticks = .ok run) :
    ∃ twin : Run sim.audited, through sim.audited ticks = .ok twin ∧ twin.silent = run.silent := by
  have hsilent : through sim.silent ticks = .ok run.silent := by
    rw [through_silent, h]
    rfl
  have haudited := through_silent sim.audited ticks
  exact eq_ok_of_silentEnd (haudited.symm.trans hsilent)

end Run

end MarketTape
