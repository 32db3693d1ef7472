import MarketTape.Proofs.Spectator
import MarketTape.Proofs.Transparency

/-!
# A replay with a log and a replay without

The log is there to be read afterwards.  Whoever turns it on wants to know what the run did, and not
to have another run: the strategy should be told the same, and the report should be the same but for
the number of records and for the digest of the settings, which name the log.

Inside a run this always holds, since a run writes its log and never reads it.  Before the run it
hangs on where the log is put.  The log is created before the source is read, so a log in the place
of the ticks leaves nothing to replay.

* `Replay.unlogged` is the replay without a log, and `Outcome.unlogged` what it makes of an outcome.
* `Replay.execute_unlogged` compares the two, step by step.
* `logging_unnoticed` is the result, and `log_in_place_of_ticks` the replay that shows what it rests
  on.
-/

namespace MarketTape

/-! ## Without a log -/

/-- The settings without a log. -/
def Settings.unlogged (s : Settings) : Settings :=
  { s with backtest := { s.backtest with logPath := none } }

/-- The replay without a log. -/
def Replay.unlogged (r : Replay) : Replay := { r with settings := r.settings.unlogged }

/-- The report without the records, and with another digest of the settings. -/
def Report.unlogged {α : Type} (report : Report α) (input : String) : Report α :=
  { report with logRecords := 0, signatures := { report.signatures with input } }

/-- The outcome with such a report; what the strategy was told stays. -/
def Outcome.unlogged (input : String) : Outcome → Outcome
  | .finished report calls => .finished (report.unlogged input) calls
  | .overflowed => .overflowed

/-- What the strategy was told.  Where a count left its range, at a tick or at the end, it is what
was told before that, without what the tick or the end had already told. -/
def Run.callsOf {α : Type} {sim : Simulation α} : Except (Run sim) (Run sim) → List (Call α)
  | .ok run => run.calls.toList
  | .error run => run.calls.toList

namespace Replay

variable {r : Replay} {files created : FileTree} {source : TickSource}

/-- The same strategy is made, and it runs in the same simulation, but for the log. -/
lemma prepare_unlogged (r : Replay) : r.unlogged.prepare = r.prepare.map Simulation.silent := by
  have hterms : checkTerms r.unlogged.settings = checkTerms r.settings := rfl
  have hmade : r.unlogged.registry.create r.unlogged.settings.backtest.strategy.name
      r.unlogged.settings.backtest.strategy.params =
        r.registry.create r.settings.backtest.strategy.name
          r.settings.backtest.strategy.params := rfl
  simp only [prepare, hmade, hterms]
  cases r.registry.create r.settings.backtest.strategy.name
    r.settings.backtest.strategy.params with
  | error e => rfl
  | ok handle =>
    cases checkTerms r.settings with
    | error e => rfl
    | ok _ => rfl

/-- The report of a run does not show its log, but for the number of records. -/
lemma outcome_silentEnd {sim : Simulation Float} (name input input' data : String)
    (scan : ScanMetrics) (end_ : Except (Run sim) (Run sim)) :
    outcome name ⟨input', data⟩ scan (Run.silentEnd end_) =
      (outcome name ⟨input, data⟩ scan end_).unlogged input' := by
  cases end_ with
  | error stopped => rfl
  | ok run => rfl

/-- A replay whose log can be created, and is nothing that the source reads, does what it does
without a log. -/
lemma execute_unlogged (hcreated : writeLog files r.settings "" = .ok created)
    (hblind : source.Blind r.settings files) (data : Option String) :
    (r.unlogged.execute files source data).2 =
      (r.execute files source data).2.map
        (Outcome.unlogged r.unlogged.settings.inputSignature) := by
  have hrequest : r.unlogged.settings.data.request = r.settings.data.request := rfl
  have hunwritten : ∀ text, writeLog files r.unlogged.settings text = .ok files := fun _ => rfl
  simp only [execute, hrequest, prepare_unlogged, hunwritten, hcreated]
  cases r.settings.data.request with
  | error e => rfl
  | ok request =>
    cases r.prepare with
    | error e => rfl
    | ok sim =>
      simp only [Except.map, hblind created hcreated]
      cases source.scan files request with
      | error e => rfl
      | ok scans =>
        have hmerge : merge r.unlogged.settings.data scans = merge r.settings.data scans := rfl
        obtain ⟨written, hwritten⟩ := exists_writeLog hcreated
          (logText (Run.through sim (merge r.settings.data scans).ticks))
        simp only [hmerge, Run.through_silent, hwritten]
        exact congrArg Except.ok (outcome_silentEnd ..)

end Replay

/-- **Nobody notices the log.**  A replay that keeps a log tells its strategy what the same replay
without one tells it, and reports the same but for the number of records and the digest of the
settings.  Both come to an end, or neither does; and where a count leaves its range, the strategy
has been told the same before the tick at which that happens.  The log has to be nothing that the
source reads. -/
theorem logging_unnoticed {r : Replay} {files created : FileTree} {source : TickSource}
    (hcreated : Replay.writeLog files r.settings "" = .ok created)
    (hblind : source.Blind r.settings files) :
    (r.unlogged.runOn files source).2 =
        (r.runOn files source).2.map (Outcome.unlogged r.unlogged.settings.inputSignature) ∧
      ∀ (handle : StrategyHandle Float) (ticks : List (Tick Float)),
        Run.callsOf (Run.through (Replay.simulation r.unlogged.settings handle) ticks) =
          Run.callsOf (Run.through (Replay.simulation r.settings handle) ticks) := by
  refine ⟨Replay.execute_unlogged hcreated hblind none, ?_⟩
  intro handle ticks
  have hsilent : Replay.simulation r.unlogged.settings handle =
      (Replay.simulation r.settings handle).silent := rfl
  rw [hsilent, Run.through_silent]
  cases Run.through (Replay.simulation r.settings handle) ticks with
  | error stopped => rfl
  | ok run => rfl

/-- The replay that trades has fourteen records, and without its log it has the same report but for
them. -/
theorem logging_unnoticed_traded :
    ∃ created report calls,
      Replay.writeLog noFiles tradingReplay.settings "" = .ok created ∧
        (tradingReplay.runOn noFiles (.memory [shortTicks])).2 = .ok (.finished report calls) ∧
        report.logRecords = 14 ∧
        (tradingReplay.unlogged.runOn noFiles (.memory [shortTicks])).2 =
          .ok (.finished
            (report.unlogged tradingReplay.unlogged.settings.inputSignature) calls) := by
  have htraded : finishedWith (fun report _ => report.logRecords = 14)
      (tradingReplay.runOn noFiles (.memory [shortTicks])).2 = true := by decide +kernel
  obtain ⟨report, calls, h, hreport⟩ := exists_of_finishedWith htraded
  obtain ⟨created, hcreated⟩ : ∃ created,
      Replay.writeLog noFiles tradingReplay.settings "" = .ok created := ⟨_, rfl⟩
  obtain ⟨hunlogged, -⟩ := logging_unnoticed hcreated (TickSource.blind_memory [shortTicks])
  rw [h] at hunlogged
  exact ⟨created, report, calls, hcreated, h, of_decide_eq_true hreport, hunlogged⟩

/-- A log in the place of the ticks: it can be created, and then there is nothing to replay.
Without a log the strategy is shown a bar. -/
theorem log_in_place_of_ticks :
    ∃ created report calls e,
      Replay.writeLog recordedFiles loggingOver "" = .ok created ∧
        ((Replay.unlogged ⟨loggingOver, builtins⟩).runOn recordedFiles (.file "data/a.csv")).2 =
          .ok (.finished report calls) ∧
        (sightsIn calls).length = 1 ∧
        (Replay.runOn ⟨loggingOver, builtins⟩ recordedFiles (.file "data/a.csv")).2 =
          .error e := by
  have hunlogged : finishedWith (fun _ calls => (sightsIn calls).length = 1)
      ((Replay.unlogged ⟨loggingOver, builtins⟩).runOn recordedFiles (.file "data/a.csv")).2 =
        true := by
    decide +kernel
  have hlogged : (Replay.runOn ⟨loggingOver, builtins⟩ recordedFiles
      (.file "data/a.csv")).2.isOk = false := by
    decide +kernel
  obtain ⟨report, calls, h, hsights⟩ := exists_of_finishedWith hunlogged
  obtain ⟨created, hcreated⟩ : ∃ created,
      Replay.writeLog recordedFiles loggingOver "" = .ok created := ⟨_, rfl⟩
  cases hfails : (Replay.runOn ⟨loggingOver, builtins⟩ recordedFiles (.file "data/a.csv")).2 with
  | error e => exact ⟨created, report, calls, e, hcreated, h, of_decide_eq_true hsights, rfl⟩
  | ok outcome => simp [hfails, Except.isOk, Except.toBool] at hlogged

end MarketTape
