import MarketTape.Proofs.Inputs
import MarketTape.Proofs.Pruning
import MarketTape.Proofs.Told

/-!
# The market does not notice who trades

A strategy is shown bars and descriptions of the market.  Neither depends on what the strategy does
with them, nor on how its orders are filled, how positions are moved between contracts, or whether a
log is kept: a run shows what someone would see who watches the ticks and does nothing else.

That the log plays no part needs one thing that nobody checks.  The log is created before the source
is read, and a source may read files.

* `Spectator` watches the ticks; it has the width of the bars and the detector of a simulation and
  nothing else of it.
* `Run.spectator` is what a run knows of the market, and `Run.onTick?_spectator` says that a tick
  does to it what it does to a spectator, whatever else the run does.
* `Run.through_spectator` is this for whole runs.
* `TickSource.Ordered` is what is asked of all sources, and `TickSource.Blind` says that a source
  does not read the log.
* `market_data_independent` compares two replays, and `log_over_description` is a pair of replays
  that differ because one of them has its log in the place of something the source reads.
-/

namespace MarketTape

variable {α : Type}

/-! ## Spectators -/

/-- Someone who watches the market and does nothing else: the open bar, what the detector remembers,
and the bars that were closed, each with the market after it. -/
structure Spectator (d : Detector α) where
  bars : Bars α
  memory : d.State
  seen : List (Bar α × MarketState α)
  barsEmitted : Nat
  instruments : Table Unit
  ticksRead : Nat

namespace Spectator

variable {d : Detector α}

/-- Before the first tick. -/
def start (d : Detector α) (width : Int) : Spectator d :=
  ⟨Bars.start width, d.start, [], 0, Table.empty, 0⟩

/-- Sees a closed bar. -/
def onBar? (v : Spectator d) (bar : Bar α) : Option (Spectator d) :=
  (d.observe v.memory bar).map fun (memory, state) =>
    { v with memory, seen := v.seen ++ [(bar, state)], barsEmitted := v.barsEmitted + 1 }

/-- Sees the bar that was closed, if one was. -/
def onClosed? (v : Spectator d) : Option (Bar α) → Option (Spectator d)
  | none => some v
  | some bar => v.onBar? bar

/-- Counts a tick. -/
def count (v : Spectator d) (t : Tick α) : Spectator d :=
  { v with
    ticksRead := v.ticksRead + 1
    instruments := v.instruments.insert t.instrument () }

variable [Scalar α]

/-- Sees a tick. -/
def onTick? (v : Spectator d) (t : Tick α) : Option (Spectator d) := do
  let (bars, closed) ← v.bars.push? t
  ({ v.count t with bars } : Spectator d).onClosed? closed

/-- Sees the last bar. -/
def finish? (v : Spectator d) : Option (Spectator d) :=
  ({ v with bars := v.bars.flush.1 } : Spectator d).onClosed? v.bars.flush.2

/-- Watches all ticks. -/
def through? (d : Detector α) (width : Int) (ticks : List (Tick α)) : Option (Spectator d) :=
  (ticks.foldlM onTick? (start d width)).bind finish?

end Spectator

/-! ## What a run knows of the market -/

/-- What a call shows of the market, if it shows something. -/
def Call.sight? : Call α → Option (Bar α × MarketState α)
  | .state s => some (s.bar, s.state)
  | .fill _ => none
  | .shutdown => none

/-- What some calls show of the market. -/
def sightsIn (calls : List (Call α)) : List (Bar α × MarketState α) := calls.filterMap Call.sight?

@[simp] lemma sightsIn_append (calls more : List (Call α)) :
    sightsIn (calls ++ more) = sightsIn calls ++ sightsIn more := List.filterMap_append

@[simp] lemma sightsIn_fills (fills : List (Fill α)) : sightsIn (fills.map Call.fill) = [] := by
  simp [sightsIn, Call.sight?]

namespace Run

variable {sim : Simulation α} {run run' : Run sim} {bar : Bar α}

/-- What a run knows of the market. -/
def spectator (run : Run sim) : Spectator sim.detector where
  bars := run.bars
  memory := run.detector
  seen := sightsIn run.calls.toList
  barsEmitted := run.barsEmitted
  instruments := run.instruments
  ticksRead := run.ticksRead

@[simp] lemma spectator_notify (run : Run sim) (fills : List (Fill α)) :
    (run.notify fills).spectator = run.spectator := by
  rw [notify_eq]
  simp only [spectator, Array.toList_append, sightsIn_append, sightsIn_fills, List.append_nil]

@[simp] lemma spectator_name (run : Run sim) (intent : Intent α) :
    (run.name intent).1.spectator = run.spectator := by
  rw [name]; split <;> rfl

lemma describe?_spectator {state : MarketState α} (h : run.describe? bar = some (run', state)) :
    ∃ memory, sim.detector.observe run.detector bar = some (memory, state) ∧
      run'.spectator = { run.spectator with memory, barsEmitted := run.barsEmitted + 1 } := by
  obtain ⟨memory, hobserve, rfl⟩ := describe?_cases h
  exact ⟨memory, hobserve, rfl⟩

lemma askAbout?_spectator {state : MarketState α} {intents : List (Intent α)}
    (h : run.askAbout? bar state = some (run', intents)) :
    run'.spectator = { run.spectator with seen := run.spectator.seen ++ [(bar, state)] } := by
  obtain ⟨strategy, -, rfl⟩ := askAbout?_cases h
  simp only [spectator, Array.toList_push, sightsIn_append]
  rfl

variable [Scalar α]

lemma settleWaiting?_spectator (h : run.settleWaiting? bar = some run') :
    run'.spectator = run.spectator := by
  obtain ⟨floor, fills, -, rfl⟩ := settleWaiting?_cases h
  exact spectator_notify _ fills

lemma settleIntent?_spectator {intent : Intent α} (h : run.settleIntent? bar intent = some run') :
    run'.spectator = run.spectator := by
  rcases settleIntent?_cases h with rfl | ⟨floor, fill, -, rfl⟩
  · exact spectator_name run intent
  · rw [spectator_notify]
    exact spectator_name run intent

lemma settleIntents?_spectator {intents : List (Intent α)}
    (h : run.settleIntents? bar intents = some run') : run'.spectator = run.spectator :=
  settleIntents?_induct (P := fun _ r => r.spectator = run.spectator)
    (fun hbefore hone => (settleIntent?_spectator hone).trans hbefore) rfl h

/-- A closed bar does to what a run knows of the market what it does to a spectator, whether orders
are filled or not. -/
lemma onBar?_spectator (h : run.onBar? bar = some run') :
    run.spectator.onBar? bar = some run'.spectator := by
  by_cases hdet : sim.deterministic = true
  · obtain ⟨described, state, settled, asked, intents, answered, hd, hs, ha, hi, rfl⟩ :=
      onBar?_cases hdet h
    obtain ⟨memory, hobserve, hdescribed⟩ := describe?_spectator hd
    have hrun : (answered.recordEquity bar).spectator =
        { described.spectator with seen := described.spectator.seen ++ [(bar, state)] } := by
      calc (answered.recordEquity bar).spectator
          = answered.spectator := rfl
        _ = asked.spectator := settleIntents?_spectator hi
        _ = { settled.spectator with seen := settled.spectator.seen ++ [(bar, state)] } :=
          askAbout?_spectator ha
        _ = _ := by rw [settleWaiting?_spectator hs]
    rw [hrun, hdescribed, Spectator.onBar?]
    exact congrArg (Option.map _) hobserve
  · simp only [onBar?, hdet, Bool.false_eq_true, if_false, Option.bind_eq_bind,
      Option.bind_eq_some_iff, Option.some.injEq, Prod.exists] at h
    obtain ⟨described, state, hd, asked, intents, ha, rfl⟩ := h
    obtain ⟨memory, hobserve, hdescribed⟩ := describe?_spectator hd
    rw [askAbout?_spectator ha, hdescribed, Spectator.onBar?]
    exact congrArg (Option.map _) hobserve

lemma onClosed?_spectator {closed : Option (Bar α)} (h : run.onClosed? closed = some run') :
    run.spectator.onClosed? closed = some run'.spectator := by
  cases closed with
  | none =>
    obtain rfl := Option.some.inj h
    rfl
  | some bar => exact onBar?_spectator h

/-- A tick does to what a run knows of the market what it does to a spectator.  Marks and moves
between contracts come after the bar, and they are no part of the market. -/
theorem onTick?_spectator {t : Tick α} (h : run.onTick? t = some run') :
    run.spectator.onTick? t = some run'.spectator := by
  obtain ⟨bars, closed, mid, floor, rollover, hpush, hmid, rfl⟩ := onTick?_frame h
  have hpush' : run.spectator.bars.push? t = some (bars, closed) := hpush
  simp only [Spectator.onTick?, hpush', Option.bind_eq_bind, Option.bind_some]
  exact onClosed?_spectator hmid

lemma feed_spectator : ∀ {ticks : List (Tick α)} {run : Run sim}, run.feed ticks = .ok run' →
    ticks.foldlM Spectator.onTick? run.spectator = some run'.spectator
  | [], run, h => by
    obtain rfl := Except.ok.inj h
    rfl
  | t :: rest, run, h => by
    simp only [feed] at h
    split at h
    · cases h
    · rename_i next hnext
      rw [List.foldlM_cons, onTick?_spectator hnext]
      exact feed_spectator h

omit [Scalar α] in
lemma spectator_end (run : Run sim) : run.shutdown.dropWaiting.spectator = run.spectator := by
  have hshutdown : run.shutdown.spectator = run.spectator := by
    simp only [spectator, shutdown, Array.toList_push, sightsIn_append]
    exact congrArg (Spectator.mk _ _ · _ _ _) (List.append_nil _)
  rw [← hshutdown, dropWaiting]
  split <;> rfl

/-- What a run knows of the market at its end is what a spectator knows. -/
theorem through_spectator {ticks : List (Tick α)} (h : through sim ticks = .ok run) :
    Spectator.through? sim.detector sim.bucketWidth ticks = some run.spectator := by
  obtain ⟨fed, last, hfed, hlast, rfl⟩ := through_closing h
  have hwatched : ticks.foldlM Spectator.onTick? (Spectator.start sim.detector sim.bucketWidth) =
      some fed.spectator := feed_spectator hfed
  rw [Spectator.through?, hwatched, spectator_end]
  exact onClosed?_spectator hlast

end Run

/-! ## Sources -/

namespace TickSource

variable {source : TickSource} {s : Settings} {files : FileTree}

/-- A source that gives every partition in order, as the merge expects. -/
def Ordered (source : TickSource) : Prop :=
  ∀ files request scans, source.scan files request = .ok scans →
    ∀ scan ∈ scans, Tick.inOrder scan.ticks = true

lemma ordered_memory (partitions : List (List (Tick Float))) : (memory partitions).Ordered := by
  intro files request scans h scan hscan
  obtain rfl := Except.ok.inj h
  have hmem : scan.ticks ∈ (scanMemory partitions request).map (·.ticks) :=
    List.mem_map_of_mem hscan
  rw [map_ticks_scanMemory] at hmem
  exact ScanRequest.selected_inOrder _ hmem

lemma inOrder_select (request : ScanRequest) (ticks : List (Tick Float)) :
    Tick.inOrder (request.select ticks).1 = true := by
  have hselected : (request.select ticks).1 ∈ request.selected [ticks] := List.mem_singleton_self _
  exact ScanRequest.selected_inOrder _ hselected

lemma inOrder_scanFile {path : String} {partition : Nat} {request : ScanRequest}
    {scan : PartitionScan Float} (h : scanFile files path partition request = .ok scan) :
    Tick.inOrder scan.ticks = true := by
  obtain ⟨-, -, -, hselect⟩ := scanFile_cases h
  rw [(Prod.mk.inj hselect).1]
  exact inOrder_select request _

lemma ordered_file (path : String) : (file path).Ordered := by
  intro files request scans h scan hscan
  cases hfile : scanFile files path 0 request with
  | error e => simp [file, hfile, Except.map] at h
  | ok only =>
    simp only [file, hfile, Except.map, Except.ok.injEq] at h
    rw [← h, List.mem_singleton] at hscan
    exact hscan ▸ inOrder_scanFile hfile

lemma ordered_dataset (path : String) (policy : SidecarPolicy) : (dataset path policy).Ordered := by
  intro files request scans h scan hscan
  obtain ⟨paths, -, hscans⟩ := scanDataset_eq_ok_iff.mp h
  have horder : List.Forall₂ (fun scan _ => Tick.inOrder scan.ticks = true ∧ True) scans
      paths.zipIdx := by
    refine (hscans.imp fun row scan hrow => And.intro ?_ trivial).flip
    rcases scanPartition_cases hrow with ⟨sidecar, -, -, rfl⟩ | ⟨-, hfile⟩
    · rfl
    · exact inOrder_scanFile hfile
  exact ((List.forall₂_and_left _ _).mp horder).1 scan hscan

/-- A source that answers alike before and after the log was created: the log is nothing that it
reads. -/
def Blind (source : TickSource) (s : Settings) (files : FileTree) : Prop :=
  ∀ created, Replay.writeLog files s "" = .ok created →
    ∀ request, source.scan created request = source.scan files request

/-- Ticks at hand are in no file. -/
lemma blind_memory (partitions : List (List (Tick Float))) : (memory partitions).Blind s files :=
  fun _ _ _ => rfl

/-- Without a log there is nothing to read. -/
lemma blind_of_unlogged (h : s.backtest.logPath = none) : source.Blind s files := by
  intro created hcreated request
  rw [Replay.writeLog, h] at hcreated
  obtain rfl := Except.ok.inj hcreated
  rfl

/-- A file is not read differently because of a log that is another file. -/
lemma blind_file {path : String} {content : List UInt8} {modified : Int}
    (hfile : files.find path = .ok (.file content modified))
    (hapart : ∀ log ∈ s.backtest.logPath, ∀ names, files.target log = .ok names →
      files.locate path ≠ .ok names) : (file path).Blind s files := by
  intro created hcreated request
  rcases Replay.writeLog_cases hcreated with ⟨-, rfl⟩ | ⟨log, names, hlog, htarget, rfl⟩
  · rfl
  · have hwritable := FileTree.writable_of_target htarget
    have hfind : (files.put names (Node.bytesOf "")).find path = .ok (.file content modified) :=
      FileTree.find_put hwritable hfile (hapart log hlog names htarget)
    simp only [file, scanFile, FileTree.read, hfind, hfile]

end TickSource

/-! ## Replays -/

namespace Replay

variable {r r' : Replay} {files files' : FileTree} {source : TickSource}

/-- What is simulated are the settings with the strategy that they name. -/
lemma prepare_cases {sim : Simulation Float} (h : r.prepare = .ok sim) :
    ∃ handle, sim = simulation r.settings handle := by
  unfold prepare at h
  dsimp only at h
  split at h
  · cases h
  · next handle _ =>
    split at h
    · cases h
    · exact ⟨handle, (Except.ok.inj h).symm⟩

/-- A replay that finished went through the merged ticks of its scan, made after the log was
created. -/
lemma runOn_finished {report : Report Float} {calls : List (Call Float)}
    (h : (r.runOn files source).2 = .ok (.finished report calls)) :
    ∃ request created scans handle, ∃ run : Run (simulation r.settings handle),
      r.settings.data.request = .ok request ∧ writeLog files r.settings "" = .ok created ∧
        source.scan created request = .ok scans ∧
        Run.through (simulation r.settings handle) (merge r.settings.data scans).ticks = .ok run ∧
        calls = run.calls.toList ∧
        report = .of run source.name (signatures r.settings scans none)
          (metrics scans (merge r.settings.data scans)) := by
  unfold runOn execute at h
  dsimp only at h
  split at h
  · cases h
  next request hrequest =>
  split at h
  · cases h
  next sim hsim =>
  split at h
  · cases h
  next created hcreated =>
  split at h
  · cases h
  next scans hscans =>
  split at h
  · cases h
  obtain ⟨handle, rfl⟩ := prepare_cases hsim
  simp only [Except.ok.injEq] at h
  cases hrun : Run.through (simulation r.settings handle) (merge r.settings.data scans).ticks with
  | error stopped =>
    rw [hrun] at h
    cases h
  | ok run =>
    rw [hrun] at h
    obtain ⟨rfl, rfl⟩ := Outcome.finished.inj h
    exact ⟨request, created, scans, handle, run, hrequest, hcreated, hscans, hrun, rfl, rfl⟩

/-- What a finished replay shows and reports of the market is what a spectator of the merged ticks
knows. -/
lemma runOn_spectator (hordered : source.Ordered) {terms : DetectorTerms Float}
    (hterms : r.settings.detector = terms) {report : Report Float} {calls : List (Call Float)}
    (h : (r.runOn files source).2 = .ok (.finished report calls)) :
    ∃ request created scans, r.settings.data.request = .ok request ∧
      writeLog files r.settings "" = .ok created ∧ source.scan created request = .ok scans ∧
      report.scan =
        metrics scans (mergeBySorting (scans.map (·.ticks)) r.settings.data.maxRows) ∧
      ∃ v, Spectator.through? (regimeDetector terms) r.settings.bucketWidth
          (mergeBySorting (scans.map (·.ticks)) r.settings.data.maxRows).ticks = some v ∧
        sightsIn calls = v.seen ∧ report.ticksRead = v.ticksRead ∧
        report.barsEmitted = v.barsEmitted ∧ report.instruments = v.instruments.names := by
  obtain ⟨request, created, scans, handle, run, hrequest, hcreated, hscans, hrun, rfl, rfl⟩ :=
    runOn_finished h
  subst hterms
  have hmerge : merge r.settings.data scans =
      mergeBySorting (scans.map (·.ticks)) r.settings.data.maxRows := by
    refine merge_eq fun ticks hticks => ?_
    obtain ⟨scan, hscan, rfl⟩ := List.mem_map.mp hticks
    exact hordered created request scans hscans scan hscan
  rw [hmerge] at hrun ⊢
  exact ⟨request, created, scans, hrequest, hcreated, hscans, rfl, run.spectator,
    Run.through_spectator hrun, rfl, rfl, rfl, rfl⟩

end Replay

/-- **The market does not notice who trades.**  Two replays of one source with the same data but for
the way of merging, the same bars and the same detector show the same bars with the same
descriptions, and report the same ticks, bars, instruments and scan.  Their strategies, their
rollovers, whether orders are filled and whether there is a log make no difference, as long as
neither log is something that the source reads. -/
theorem market_data_independent {r r' : Replay} {files files' : FileTree} {source : TickSource}
    {report report' : Report Float} {calls calls' : List (Call Float)}
    (hdata : r'.settings.data =
      { r.settings.data with preloadMaxRows := r'.settings.data.preloadMaxRows })
    (hwidth : r'.settings.bucketWidth = r.settings.bucketWidth)
    (hdetector : r'.settings.detector = r.settings.detector)
    (hordered : source.Ordered) (hsame : source.scan files' = source.scan files)
    (hblind : source.Blind r.settings files) (hblind' : source.Blind r'.settings files')
    (h : (r.runOn files source).2 = .ok (.finished report calls))
    (h' : (r'.runOn files' source).2 = .ok (.finished report' calls')) :
    sightsIn calls' = sightsIn calls ∧ report'.ticksRead = report.ticksRead ∧
      report'.barsEmitted = report.barsEmitted ∧ report'.instruments = report.instruments ∧
      report'.scan = report.scan := by
  obtain ⟨request, created, scans, hrequest, hcreated, hscans, hscan, v, hv, hseen, hticks, hbars,
    hinstruments⟩ := Replay.runOn_spectator hordered rfl h
  obtain ⟨request', created', scans', hrequest', hcreated', hscans', hscan', v', hv', hseen',
    hticks', hbars', hinstruments'⟩ := Replay.runOn_spectator hordered hdetector h'
  -- the way of merging is in neither the request nor the cap
  have hcap : r'.settings.data.maxRows = r.settings.data.maxRows := by rw [hdata]
  have hasked : r'.settings.data.request = r.settings.data.request := by rw [hdata]; rfl
  obtain rfl : request = request' :=
    Except.ok.inj (hrequest.symm.trans (hasked.symm.trans hrequest'))
  obtain rfl : scans = scans' := by
    have hanswers : (.ok scans : Except Error (List (PartitionScan Float))) = .ok scans' := by
      calc Except.ok scans
          = source.scan files request := by rw [← hscans, hblind created hcreated]
        _ = source.scan files' request := by rw [hsame]
        _ = .ok scans' := by rw [← hscans', hblind' created' hcreated']
    exact Except.ok.inj hanswers
  rw [hwidth, hcap, hv] at hv'
  obtain rfl := Option.some.inj hv'
  refine ⟨hseen'.trans hseen.symm, hticks'.trans hticks.symm, hbars'.trans hbars.symm,
    hinstruments'.trans hinstruments.symm, ?_⟩
  rw [hscan', hscan, hcap]

/-! ## Two replays of the same ticks -/

/-- Whether a replay finished, with a report and calls that pass a test. -/
def finishedWith (test : Report Float → List (Call Float) → Bool) :
    Except Error Outcome → Bool
  | .ok (.finished report calls) => test report calls
  | _ => false

lemma exists_of_finishedWith {test : Report Float → List (Call Float) → Bool}
    {result : Except Error Outcome} (h : finishedWith test result = true) :
    ∃ report calls, result = .ok (.finished report calls) ∧ test report calls = true := by
  unfold finishedWith at h
  split at h
  · exact ⟨_, _, rfl, h⟩
  · cases h

/-- A replay that trades by the short script, moves positions and keeps a log. -/
def tradingReplay : Replay where
  settings :=
    { Settings.initial with
      data := { Settings.initial.data with csvPath := some "ticks.csv", preloadMaxRows := 2 }
      bucketWidth := 60
      backtest := ⟨true, some "run.wal", ⟨"trial", .obj []⟩⟩ }
  registry := builtins.insert "trial" fun _ => .ok ⟨scripted shortScript, ⟨true, true, false⟩⟩

/-- A replay that only watches, and that takes its ticks from the queue. -/
def watchingReplay : Replay where
  settings :=
    { Settings.initial with
      data := { Settings.initial.data with csvPath := some "ticks.csv", preloadMaxRows := 0 }
      bucketWidth := 60
      rollover := { Settings.initial.rollover with enabled := false }
      backtest := ⟨false, none, ⟨idleName, .obj []⟩⟩ }
  registry := builtins

/-- A tree without files. -/
def noFiles : FileTree := ⟨.dir [], []⟩

/-- Both replays show five bars, and only one of them has orders. -/
theorem market_data_independent_traded :
    ∃ report calls report' calls',
      (tradingReplay.runOn noFiles (.memory [shortTicks])).2 = .ok (.finished report calls) ∧
        (watchingReplay.runOn noFiles (.memory [shortTicks])).2 =
          .ok (.finished report' calls') ∧
        report.orderEvents = 12 ∧ report'.orderEvents = 0 ∧ (sightsIn calls).length = 5 ∧
        sightsIn calls' = sightsIn calls ∧ report'.scan = report.scan := by
  have htraded : finishedWith
      (fun report calls => report.orderEvents = 12 ∧ (sightsIn calls).length = 5)
      (tradingReplay.runOn noFiles (.memory [shortTicks])).2 = true := by decide +kernel
  have hwatched : finishedWith (fun report _ => report.orderEvents = 0)
      (watchingReplay.runOn noFiles (.memory [shortTicks])).2 = true := by decide +kernel
  obtain ⟨report, calls, h, hreport⟩ := exists_of_finishedWith htraded
  obtain ⟨report', calls', h', hreport'⟩ := exists_of_finishedWith hwatched
  obtain ⟨horders, hsights⟩ := of_decide_eq_true hreport
  have hdata : watchingReplay.settings.data =
      { tradingReplay.settings.data with
        preloadMaxRows := watchingReplay.settings.data.preloadMaxRows } := rfl
  have hwidth : watchingReplay.settings.bucketWidth = tradingReplay.settings.bucketWidth := rfl
  have hdetector : watchingReplay.settings.detector = tradingReplay.settings.detector := rfl
  obtain ⟨hseen, -, -, -, hscan⟩ := market_data_independent hdata hwidth hdetector
    (TickSource.ordered_memory _) rfl (TickSource.blind_memory _) (TickSource.blind_memory _) h h'
  exact ⟨report, calls, report', calls', h, h', horders, of_decide_eq_true hreport', hsights, hseen,
    hscan⟩

/-- A directory with one file of ticks of the second day, and its description. -/
def secondDay : FileTree where
  top := .dir [("data", .dir [("b.csv", ticksAt ["86400000000011"]),
    ("b.meta.json", describing 86400000000011 86400000000011 1)])]
  here := []

/-- A replay of the first day, which keeps its log where it is told. -/
def firstDayReplay (logPath : Option String) : Replay where
  settings :=
    { Settings.initial with
      data :=
        { Settings.initial.data with
          datasetRoot := some "data", validation := .lenient
          endDate := some ⟨1970, 1, 1, by decide⟩, preloadMaxRows := 0 }
      backtest := { Settings.initial.backtest with logPath } }
  registry := builtins

/-- A log that is put in the place of a description: the file that would be left alone is read, and
of two replays that differ in nothing but their logs one says that it read a file more. -/
theorem log_over_description :
    (firstDayReplay (some "data/b.meta.json")).settings.data =
        (firstDayReplay none).settings.data ∧
      ∃ report calls report' calls',
        ((firstDayReplay none).runOn secondDay (.dataset "data" .lenient)).2 =
            .ok (.finished report calls) ∧
          ((firstDayReplay (some "data/b.meta.json")).runOn secondDay
            (.dataset "data" .lenient)).2 = .ok (.finished report' calls') ∧
          report.scan = ⟨0, 1, 0, 0, 0, false⟩ ∧ report'.scan = ⟨1, 0, 1, 1, 117, false⟩ := by
  have hunlogged : finishedWith (fun report _ => report.scan = ⟨0, 1, 0, 0, 0, false⟩)
      ((firstDayReplay none).runOn secondDay (.dataset "data" .lenient)).2 = true := by
    decide +kernel
  have hlogged : finishedWith (fun report _ => report.scan = ⟨1, 0, 1, 1, 117, false⟩)
      ((firstDayReplay (some "data/b.meta.json")).runOn secondDay
        (.dataset "data" .lenient)).2 = true := by
    decide +kernel
  obtain ⟨report, calls, h, hscan⟩ := exists_of_finishedWith hunlogged
  obtain ⟨report', calls', h', hscan'⟩ := exists_of_finishedWith hlogged
  exact ⟨rfl, report, calls, report', calls', h, h', of_decide_eq_true hscan,
    of_decide_eq_true hscan'⟩

end MarketTape
