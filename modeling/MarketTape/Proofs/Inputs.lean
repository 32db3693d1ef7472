import Mathlib.Data.List.Forall2
import MarketTape.Proofs.Admission
import MarketTape.Proofs.Overwriting

/-!
# A run and its inputs

A run writes one file, the log, and the settings may put it anywhere.  As long as it is no file of
ticks, the data is after the run what it was before, and the signature in the report is that of the
data that was scanned.  The settings are not checked for it: a log that is put in the place of the
data empties it, after the data was signed and before it is read.

* `DataSettings.dataPaths` are the files of ticks that a run reads, and `DataSettings.Free` are the
  names that none of them has or would have; `LogApart` asks this of the log.
* `Replay.run_files` says that a run leaves the files alone but for one write of the log, and
  `Replay.run_finished` what a report was made from.
* `run_keeps_data` is the result, and `log_over_data` the run that shows what it rests on.
-/

namespace MarketTape

/-! ## Files of ticks -/

namespace DataSettings

/-- The paths of the files of ticks. -/
def dataPaths (s : DataSettings) (files : FileTree) : List String :=
  match s.csvPath, s.datasetRoot with
  | some path, _ => [path]
  | none, some root =>
    match listDataFiles files root with
    | .ok paths => paths.map (Path.join root)
    | .error _ => []
  | none, none => []

/-- Names that no file of ticks has, and under which none would be listed. -/
structure Free (s : DataSettings) (files : FileTree) (names : List String) : Prop where
  unread : ∀ file ∈ s.dataPaths files, files.locate file ≠ .ok names
  unlisted : ∀ root ∈ s.datasetRoot, ∀ above rest, files.locate root = .ok above →
    names = above ++ rest → endsInDataName rest = false

end DataSettings

lemma mapM_eq_ok_iff {α β ε : Type} {f : α → Except ε β} : ∀ {xs : List α} {ys : List β},
    xs.mapM f = .ok ys ↔ List.Forall₂ (fun x y => f x = .ok y) xs ys
  | [], ys => by
    rw [List.mapM_nil, List.forall₂_nil_left_iff]
    exact ⟨fun h => (Except.ok.inj h).symm, fun h => congrArg Except.ok h.symm⟩
  | x :: xs, ys => by
    rw [List.mapM_cons, List.forall₂_cons_left_iff]
    cases hx : f x with
    | error e => simp [bind, Except.bind]
    | ok y =>
      cases hxs : xs.mapM f with
      | error e => simp [bind, Except.bind, ← mapM_eq_ok_iff, hxs]
      | ok rest =>
        simp [bind, Except.bind, pure, Except.pure, ← mapM_eq_ok_iff, hxs, eq_comm]

lemma exists_mapM_iff {α β ε : Type} {f : α → Except ε β} : ∀ {xs : List α},
    (∃ ys, xs.mapM f = .ok ys) ↔ ∀ x ∈ xs, ∃ y, f x = .ok y
  | [] => by simp [pure, Except.pure]
  | x :: xs => by
    rw [List.forall_mem_cons, ← exists_mapM_iff]
    simp only [mapM_eq_ok_iff, List.forall₂_cons_left_iff]
    constructor
    · rintro ⟨_, y, ys, hy, hys, rfl⟩
      exact ⟨⟨y, hy⟩, ys, hys⟩
    · rintro ⟨⟨y, hy⟩, ys, hys⟩
      exact ⟨_, y, ys, hy, hys, rfl⟩

lemma exists_of_mapM {α β ε : Type} {f : α → Except ε β} {xs : List α} {ys : List β}
    (h : xs.mapM f = .ok ys) : ∀ x ∈ xs, ∃ y, f x = .ok y := exists_mapM_iff.mp ⟨ys, h⟩

/-- What was made comes from one of the things it was made from. -/
lemma mem_mapM_iff {α β ε : Type} {f : α → Except ε β} {xs : List α} {ys : List β}
    (h : xs.mapM f = .ok ys) {y : β} : y ∈ ys ↔ ∃ x ∈ xs, f x = .ok y := by
  induction mapM_eq_ok_iff.mp h with
  | nil => simp
  | cons hx _ ih => simp [ih (mapM_eq_ok_iff.mpr ‹_›), hx, eq_comm]

lemma mapM_congr {α β ε : Type} {f g : α → Except ε β} : ∀ {xs : List α},
    (∀ x ∈ xs, f x = g x) → xs.mapM f = xs.mapM g
  | [], _ => rfl
  | x :: xs, h => by
    rw [List.mapM_cons, List.mapM_cons, h x (by simp), mapM_congr fun z hz => h z (by simp [hz])]

lemma bytes_of_read {files : FileTree} {path : String} {content : List UInt8}
    (h : files.read path = .bytes content) :
    ∃ modified, files.find path = .ok (.file content modified) := by
  unfold FileTree.read at h
  split at h
  · cases h
  · next modified hfind =>
    cases h
    exact ⟨modified, hfind⟩
  · cases h

namespace DataSettings

variable {s : DataSettings} {files : FileTree} {names : List String} {content : List UInt8}

/-- What was digested to sign the data. -/
lemma signature_cases {signature : String} (h : s.signature files = .ok signature) :
    (∃ path content, s.csvPath = some path ∧ files.read path = .bytes content ∧
      signature = Digest.hex (Digest.of content)) ∨
    ∃ root paths stamps, s.csvPath = none ∧ s.datasetRoot = some root ∧
      listDataFiles files root = .ok paths ∧ paths.mapM (fileStamp files root) = .ok stamps ∧
      signature = Digest.hex (Digest.of (datasetBytes stamps)) := by
  unfold DataSettings.signature at h
  split at h
  · next path hcsv =>
    unfold fileDigest at h
    split at h
    · cases h
    · cases h
    · next content hread =>
      rw [Except.map, Except.ok.injEq] at h
      exact .inl ⟨path, content, hcsv, hread, h.symm⟩
  · next root hcsv hroot =>
    unfold datasetDigest at h
    split at h
    · cases h
    · next paths hpaths =>
      cases hstamps : paths.mapM (fileStamp files root) with
      | error e => simp [hstamps, Except.map] at h
      | ok stamps =>
        rw [hstamps, Except.map, Except.map, Except.ok.injEq] at h
        exact .inr ⟨root, paths, stamps, hcsv, hroot, hpaths, hstamps, h.symm⟩
  · cases h

lemma dataPaths_file {path : String} (hcsv : s.csvPath = some path) :
    s.dataPaths files = [path] := by
  simp only [dataPaths, hcsv]

lemma dataPaths_dataset {root : String} {paths : List String} (hcsv : s.csvPath = none)
    (hroot : s.datasetRoot = some root) (hpaths : listDataFiles files root = .ok paths) :
    s.dataPaths files = paths.map (Path.join root) := by
  simp only [dataPaths, hcsv, hroot, hpaths]

/-- Data that was signed lies in files that can be found. -/
lemma find_of_signature {signature : String} (h : s.signature files = .ok signature) :
    ∀ file ∈ s.dataPaths files,
      ∃ content modified, files.find file = .ok (.file content modified) := by
  intro file hfile
  rcases signature_cases h with ⟨path, content, hcsv, hread, -⟩ |
    ⟨root, paths, stamps, hcsv, hroot, hpaths, hstamps, -⟩
  · rw [dataPaths_file hcsv, List.mem_singleton] at hfile
    subst hfile
    exact ⟨content, bytes_of_read hread⟩
  · rw [dataPaths_dataset hcsv hroot hpaths] at hfile
    obtain ⟨path, hpath, rfl⟩ := List.mem_map.mp hfile
    obtain ⟨stamp, hstamp⟩ := exists_of_mapM hstamps path hpath
    unfold fileStamp at hstamp
    split at hstamp
    · cases hstamp
    · next content modified hfind => exact ⟨content, modified, hfind⟩
    · cases hstamp

/-- Neither signed data nor its signature notices a file that is put elsewhere. -/
lemma put_of_free (hfree : s.Free files names) (hwritable : files.top.Writable names)
    {signature : String} (h : s.signature files = .ok signature) :
    s.dataPaths (files.put names content) = s.dataPaths files ∧
      (∀ file ∈ s.dataPaths files, (files.put names content).find file = files.find file) ∧
      s.signature (files.put names content) = .ok signature := by
  have hfind : ∀ file ∈ s.dataPaths files,
      (files.put names content).find file = files.find file := by
    intro file hfile
    obtain ⟨old, modified, hold⟩ := find_of_signature h file hfile
    rw [hold, FileTree.find_put hwritable hold (hfree.unread file hfile)]
  refine ⟨?_, hfind, ?_⟩
  all_goals
    rcases signature_cases h with ⟨path, old, hcsv, hread, rfl⟩ |
      ⟨root, paths, stamps, hcsv, hroot, hpaths, hstamps, rfl⟩
  · rw [dataPaths_file hcsv, dataPaths_file hcsv]
  · have hpaths' :=
      FileTree.listDataFiles_put hwritable hpaths (hfree.unlisted root hroot) content
    rw [dataPaths_dataset hcsv hroot hpaths, dataPaths_dataset hcsv hroot hpaths']
  · have hread' : (files.put names content).read path = .bytes old := by
      rw [← hread, FileTree.read, FileTree.read,
        hfind path (by rw [dataPaths_file hcsv]; exact List.mem_cons_self)]
    simp only [DataSettings.signature, hcsv, fileDigest, hread']
    rfl
  · have hpaths' :=
      FileTree.listDataFiles_put hwritable hpaths (hfree.unlisted root hroot) content
    -- a stamp is read off the entry itself, and the entries are the same
    have hstamp : ∀ path ∈ paths,
        fileStamp (files.put names content) root path = fileStamp files root path := by
      intro path hpath
      have hmem : Path.join root path ∈ s.dataPaths files := by
        rw [dataPaths_dataset hcsv hroot hpaths]
        exact List.mem_map_of_mem hpath
      rw [fileStamp, fileStamp, hfind _ hmem]
    simp only [DataSettings.signature, hcsv, hroot, datasetDigest, hpaths', mapM_congr hstamp,
      hstamps]
    rfl

end DataSettings

/-! ## What a run writes -/

/-- The log does not take the place of a file of ticks. -/
def LogApart (s : Settings) (files : FileTree) : Prop :=
  ∀ path ∈ s.backtest.logPath, ∀ names, files.target path = .ok names → s.data.Free files names

namespace Replay

variable {s : Settings} {r : Replay} {files files' : FileTree} {text : String}

/-- Writing the log puts one file into the tree, or does nothing. -/
lemma writeLog_cases (h : writeLog files s text = .ok files') :
    (s.backtest.logPath = none ∧ files' = files) ∨
    ∃ path names, s.backtest.logPath = some path ∧ files.target path = .ok names ∧
      files' = files.put names (Node.bytesOf text) := by
  unfold writeLog at h
  split at h
  · next hnone =>
    cases h
    exact .inl ⟨hnone, rfl⟩
  · next path hsome =>
    split at h
    · next hwrite =>
      cases h
      obtain ⟨names, htarget, rfl⟩ := FileTree.write_eq_ok_iff.mp hwrite
      exact .inr ⟨path, names, hsome, htarget, rfl⟩
    · cases h

/-- The log that is written at the end takes the place of the empty one. -/
lemma writeLog_writeLog {second : String} {files'' : FileTree}
    (hfirst : writeLog files s text = .ok files')
    (hsecond : writeLog files' s second = .ok files'') : writeLog files s second = .ok files'' := by
  unfold writeLog at hfirst hsecond ⊢
  split at hfirst
  · next hnone =>
    cases hfirst
    simpa [hnone] using hsecond
  · next path hsome =>
    simp only [hsome] at hsecond ⊢
    split at hfirst
    · next hwrite =>
      cases hfirst
      split at hsecond
      · next hwrite' =>
        cases hsecond
        rw [FileTree.write_write hwrite hwrite']
      · cases hsecond
    · cases hfirst

/-- A log that could be written can be written again. -/
lemma exists_writeLog (h : writeLog files s text = .ok files') (again : String) :
    ∃ files'', writeLog files' s again = .ok files'' := by
  rcases writeLog_cases h with ⟨hnone, -⟩ | ⟨path, names, hpath, htarget, rfl⟩
  · refine ⟨files', ?_⟩
    rw [writeLog, hnone]
  · have hwrite : (files.put names (Node.bytesOf text)).write path (Node.bytesOf again) =
        .ok ((files.put names (Node.bytesOf text)).put names (Node.bytesOf again)) :=
      FileTree.write_eq_ok_iff.mpr ⟨names, FileTree.target_put htarget, rfl⟩
    refine ⟨(files.put names (Node.bytesOf text)).put names (Node.bytesOf again), ?_⟩
    simp only [writeLog, hpath, hwrite]

/-- A replay leaves the files alone but for one write of the log. -/
lemma execute_files (r : Replay) (files : FileTree) (source : TickSource) (data : Option String) :
    (r.execute files source data).1 = files ∨
      ∃ text, writeLog files r.settings text = .ok (r.execute files source data).1 := by
  unfold execute
  dsimp only
  split
  · exact .inl rfl
  · split
    · exact .inl rfl
    · split
      · exact .inl rfl
      · next hopen =>
        split
        · exact .inr ⟨"", hopen⟩
        · split
          · exact .inr ⟨"", hopen⟩
          · next hclose => exact .inr ⟨_, writeLog_writeLog hopen hclose⟩

/-- What the report of a finished replay was made from. -/
lemma execute_finished {source : TickSource} {data : String} {report : Report Float}
    {calls : List (Call Float)}
    (h : (r.execute files source (some data)).2 = .ok (.finished report calls)) :
    ∃ request scanned scans, r.settings.data.request = .ok request ∧
      writeLog files r.settings "" = .ok scanned ∧ source.scan scanned request = .ok scans ∧
      report.scan = metrics scans (merge r.settings.data scans) ∧
      report.signatures.data = data := by
  unfold execute at h
  dsimp only at h
  split at h
  · cases h
  · next request hrequest =>
    split at h
    · cases h
    · next sim _ =>
      split at h
      · cases h
      · next scanned hopen =>
        split at h
        · cases h
        · next scans hscan =>
          refine ⟨request, scanned, scans, hrequest, hopen, hscan, ?_⟩
          split at h
          · cases h
          · dsimp only at h
            unfold outcome at h
            split at h
            · cases h
              exact ⟨rfl, rfl⟩
            · cases h

/-- A run that wrote anything has signed the data before. -/
lemma run_files (r : Replay) (files : FileTree) :
    (r.run files).1 = files ∨
      ∃ signature text, r.settings.data.signature files = .ok signature ∧
        writeLog files r.settings text = .ok (r.run files).1 := by
  unfold run
  split
  · exact .inl rfl
  · next source _ =>
    split
    · exact .inl rfl
    · next signature hsignature =>
      rcases execute_files r files source (some signature) with hsame | ⟨text, hwrite⟩
      · exact .inl hsame
      · exact .inr ⟨signature, text, hsignature, hwrite⟩

lemma run_finished {r : Replay} {files : FileTree} {report : Report Float}
    {calls : List (Call Float)} (h : (r.run files).2 = .ok (.finished report calls)) :
    ∃ source request scanned scans, TickSource.ofSettings r.settings.data = .ok source ∧
      r.settings.data.request = .ok request ∧ writeLog files r.settings "" = .ok scanned ∧
      source.scan scanned request = .ok scans ∧
      report.scan = metrics scans (merge r.settings.data scans) ∧
      r.settings.data.signature files = .ok report.signatures.data := by
  unfold run at h
  split at h
  · cases h
  · next source hsource =>
    split at h
    · cases h
    · next signature hsignature =>
      obtain ⟨request, scanned, scans, hrequest, hopen, hscan, hmetrics, hdata⟩ :=
        execute_finished h
      exact ⟨source, request, scanned, scans, hsource, hrequest, hopen, hscan, hmetrics,
        hdata ▸ hsignature⟩

end Replay

/-! ## The data after a run -/

/-- Data, signature and all, does not notice a log that lies apart. -/
lemma writeLog_keeps {s : Settings} {files files' : FileTree} {text signature : String}
    (hapart : LogApart s files) (hsigned : s.data.signature files = .ok signature)
    (hwrite : Replay.writeLog files s text = .ok files') :
    s.data.dataPaths files' = s.data.dataPaths files ∧
      (∀ file ∈ s.data.dataPaths files, files'.find file = files.find file) ∧
      s.data.signature files' = .ok signature := by
  rcases Replay.writeLog_cases hwrite with ⟨-, rfl⟩ | ⟨path, names, hpath, htarget, rfl⟩
  · exact ⟨rfl, fun _ _ => rfl, hsigned⟩
  · exact DataSettings.put_of_free (hapart path hpath names htarget)
      (FileTree.writable_of_target htarget) hsigned

/-- **A run keeps its data.**  However a run ends, the files of ticks are those that they were and
hold what they held, as long as the log is none of them.  A report is signed with the signature of
the files as they were when they were scanned. -/
theorem run_keeps_data {s : Settings} {registry : Registry Float} {r : Replay}
    (hmake : Replay.make s registry = .ok r) {files : FileTree} (hapart : LogApart s files) :
    s.data.dataPaths (r.run files).1 = s.data.dataPaths files ∧
      (∀ file ∈ s.data.dataPaths files, (r.run files).1.read file = files.read file) ∧
      ∀ report calls, (r.run files).2 = .ok (.finished report calls) →
        ∃ source request scanned scans, TickSource.ofSettings s.data = .ok source ∧
          s.data.request = .ok request ∧ Replay.writeLog files s "" = .ok scanned ∧
          source.scan scanned request = .ok scans ∧
          report.scan = Replay.metrics scans (Replay.merge s.data scans) ∧
          s.data.signature scanned = .ok report.signatures.data := by
  obtain ⟨rfl, -, -⟩ := Replay.make_cases hmake
  -- the two writes of the log count as one, so a single file was put into the tree
  have hkept : s.data.dataPaths (Replay.run ⟨s, registry⟩ files).1 = s.data.dataPaths files ∧
      ∀ file ∈ s.data.dataPaths files,
        (Replay.run ⟨s, registry⟩ files).1.find file = files.find file := by
    rcases Replay.run_files ⟨s, registry⟩ files with hsame | ⟨signature, text, hsigned, hwrite⟩
    · rw [hsame]
      exact ⟨rfl, fun _ _ => rfl⟩
    · obtain ⟨hpaths, hfind, -⟩ := writeLog_keeps hapart hsigned hwrite
      exact ⟨hpaths, hfind⟩
  refine ⟨hkept.1, fun file hfile => ?_, fun report calls hfinished => ?_⟩
  · rw [FileTree.read, FileTree.read, hkept.2 file hfile]
  · obtain ⟨source, request, scanned, scans, hsource, hrequest, hopen, hscan, hmetrics, hsigned⟩ :=
      Replay.run_finished hfinished
    obtain ⟨-, -, hscanned⟩ := writeLog_keeps hapart hsigned hopen
    exact ⟨source, request, scanned, scans, hsource, hrequest, hopen, hscan, hmetrics, hscanned⟩

/-- A header and one tick. -/
def oneTick : List UInt8 :=
  Node.bytesOf ("InstrumentID,ts_ns,LastPrice,Volume,BidPrice1,BidVolume1,AskPrice1,AskVolume1\n" ++
    "rb2405,1704067200000000000,100,1,99,1,101,1\n")

/-- A directory with one file of ticks, and another file beside it. -/
def recordedFiles : FileTree where
  top := .dir [("data", .dir [("a.csv", .file oneTick 7), ("notes.txt", .file [] 8)])]
  here := []

/-- Settings that replay the directory and keep their log in it. -/
def loggingInside : Settings :=
  { Settings.initial with
    data := { Settings.initial.data with datasetRoot := some "data", validation := .lenient }
    backtest := { Settings.initial.backtest with logPath := some "data/run.wal" } }

lemma dataPaths_loggingInside :
    loggingInside.data.dataPaths recordedFiles = ["data/a.csv"] := by
  decide +kernel

lemma logApart_loggingInside : LogApart loggingInside recordedFiles := by
  have htarget : recordedFiles.target "data/run.wal" = .ok ["data", "run.wal"] := rfl
  have hfile : recordedFiles.locate "data/a.csv" = .ok ["data", "a.csv"] := rfl
  have hroot : recordedFiles.locate "data" = .ok ["data"] := rfl
  rintro path ⟨⟩ names hnames
  cases htarget.symm.trans hnames
  refine ⟨fun file hmem => ?_, fun root hmem above rest habove hrest => ?_⟩
  · rw [dataPaths_loggingInside, List.mem_singleton] at hmem
    rw [hmem, hfile]
    decide
  · cases hmem
    cases hroot.symm.trans habove
    obtain rfl : ["run.wal"] = rest := by simpa using hrest
    decide

theorem run_keeps_data_loggingInside :
    Replay.make loggingInside builtins = .ok ⟨loggingInside, builtins⟩ ∧
      LogApart loggingInside recordedFiles ∧
      (Replay.run ⟨loggingInside, builtins⟩ recordedFiles).1.readText "data/run.wal" = .ok "" ∧
      (Replay.run ⟨loggingInside, builtins⟩ recordedFiles).1.read "data/a.csv" =
        recordedFiles.read "data/a.csv" := by
  have hmake : Replay.make loggingInside builtins = .ok ⟨loggingInside, builtins⟩ := rfl
  obtain ⟨-, hread, -⟩ := run_keeps_data hmake logApart_loggingInside
  refine ⟨hmake, logApart_loggingInside, by decide +kernel, hread "data/a.csv" ?_⟩
  rw [dataPaths_loggingInside]
  exact List.mem_cons_self

/-- Settings that put the log where the ticks are. -/
def loggingOver : Settings :=
  { Settings.initial with
    data := { Settings.initial.data with csvPath := some "data/a.csv" }
    backtest := { Settings.initial.backtest with logPath := some "data/a.csv" } }

/-- The signed file is empty when it is scanned, and it stays empty. -/
theorem log_over_data :
    Replay.make loggingOver builtins = .ok ⟨loggingOver, builtins⟩ ∧
      recordedFiles.readText "data/a.csv" ≠ .ok "" ∧
      (Replay.run ⟨loggingOver, builtins⟩ recordedFiles).1.readText "data/a.csv" = .ok "" := by
  exact ⟨rfl, by decide +kernel, by decide +kernel⟩

end MarketTape
