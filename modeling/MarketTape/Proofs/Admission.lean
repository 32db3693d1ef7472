import Mathlib.Tactic.Common
import MarketTape.Replay

/-!
# What setting a replay up promises

Errors in the settings are to be found before anything is read.  For all sections but one that is
so: the window, the source, the terms of the detector and of the rollover and the name of the
strategy are looked at again when the replay runs, by the same checks, and these pass.  The
parameters of the regime follower are looked at only when the strategy is made, and by then the data
has been signed.

* `StrategySettings.refusal?` is the error of the settings that setting up does not find.
* `Settings.validate_cases` takes the checks of the settings apart, and `Replay.prepare_error_iff`
  says what is left to go wrong before a log is opened.
* `TickSource.Impartial` says of a source that it never blames the settings; those of the program
  are of that kind.
* `settings_errors_of_run` is the result, and `late_refusal` a run that ends with such an error.
-/

namespace MarketTape

/-! ## The settings once more -/

lemma exists_of_bind_ok {α β : Type} {x : Except Error α} {f : α → Except Error β} {y : β}
    (h : (x >>= f) = .ok y) : ∃ a, x = .ok a ∧ f a = .ok y := by
  cases x with
  | error e => cases h
  | ok a => exact ⟨a, rfl, h⟩

/-- Settings that are admissible have admissible parts. -/
lemma Settings.validate_cases {s : Settings} (h : s.validate = .ok ()) :
    s.data.validate = .ok () ∧ s.detector.validate = .ok () ∧
      s.rollover.terms.validate = .ok () := by
  obtain ⟨⟨⟩, hdata, h⟩ := exists_of_bind_ok h
  obtain ⟨⟨⟩, -, h⟩ := exists_of_bind_ok h
  obtain ⟨⟨⟩, hdetector, h⟩ := exists_of_bind_ok h
  obtain ⟨⟨⟩, hterms, -⟩ := exists_of_bind_ok h
  exact ⟨hdata, hdetector, hterms⟩

/-- Data that is admissible has a source and a window. -/
lemma DataSettings.validate_cases {s : DataSettings} (h : s.validate = .ok ()) :
    s.checkSource = .ok () ∧ ∃ request, s.request = .ok request := by
  obtain ⟨⟨⟩, hsource, h⟩ := exists_of_bind_ok h
  obtain ⟨⟨⟩, -, h⟩ := exists_of_bind_ok h
  obtain ⟨window, hwindow, -⟩ := exists_of_bind_ok h
  exact ⟨hsource, ⟨window.1, window.2, s.maxRows⟩, by rw [request, hwindow]; rfl⟩

namespace StrategySettings

/-- What is wrong with the parameters of the regime follower, if that is the strategy. -/
def refusal? (s : StrategySettings) : Option Error :=
  if s.name = followerName then
    match followerVolume? s.params with
    | none => some .followerParams
    | some volume => if volume ≤ 0 then some (.followerVolume volume) else none
  else none

lemma name_of_contains {s : StrategySettings}
    (h : (builtins : Registry Float).contains s.name = true) :
    s.name = followerName ∨ s.name = idleName := by
  by_contra hnot
  obtain ⟨hfollower, hidle⟩ := not_or.mp hnot
  simp [Registry.contains, Table.contains, builtins, Registry.insert, Registry.empty,
    Table.get?_insert, hfollower, hidle] at h

/-- A strategy of the program is made unless its parameters are refused. -/
lemma create_error_iff {s : StrategySettings} {e : Error}
    (h : (builtins : Registry Float).contains s.name = true) :
    (builtins : Registry Float).create s.name s.params = .error e ↔ s.refusal? = some e := by
  rcases name_of_contains h with hname | hname
  · have hget : (builtins : Registry Float).factories.get? followerName = some followerFactory := by
      simp [builtins, Registry.insert, Table.get?_insert]
    simp only [Registry.create, refusal?, hname, hget, if_pos]
    unfold followerFactory makeFollower
    cases hvolume : followerVolume? s.params with
    | none => simp
    | some volume =>
      dsimp only
      split <;> simp [Except.map]
  · have hget : (builtins : Registry Float).factories.get? idleName =
        some (idleFactory { opening := false, orderAware := false, traceProvider := false }) := by
      have hne : idleName ≠ followerName := by decide
      simp [builtins, Registry.insert, Table.get?_insert, hne]
    have hne : ¬ idleName = followerName := by decide
    simp [Registry.create, refusal?, hname, hget, hne, idleFactory]

end StrategySettings

/-! ## Errors of files and data -/

lemma exists_of_mapM_error {α β : Type} {f : α → Except Error β} {e : Error} : ∀ {xs : List α},
    xs.mapM f = .error e → ∃ x ∈ xs, f x = .error e
  | [], h => by cases h
  | x :: xs, h => by
    rw [List.mapM_cons] at h
    cases hx : f x with
    | error e' =>
      rw [hx] at h
      cases h
      exact ⟨x, by simp, hx⟩
    | ok y =>
      cases hxs : xs.mapM f with
      | error e' =>
        rw [hx, hxs] at h
        cases h
        obtain ⟨z, hz, hfz⟩ := exists_of_mapM_error hxs
        exact ⟨z, by simp [hz], hfz⟩
      | ok ys =>
        rw [hx, hxs] at h
        cases h

lemma error_of_map {α β : Type} {f : α → β} {e : Error} : ∀ {x : Except Error α},
    x.map f = .error e → x = .error e
  | .error _, rfl => rfl

/-- A source that never blames the settings. -/
def TickSource.Impartial (source : TickSource) : Prop :=
  ∀ files request e, source.scan files request = .error e → e.kind ≠ .settings

section Errors

variable {files : FileTree} {path : String} {request : ScanRequest} {e : Error}

lemma kind_of_scanFile {partition : Nat} (h : scanFile files path partition request = .error e) :
    e.kind ≠ .settings := by
  unfold scanFile at h
  split at h
  · cases h
    simp [Error.kind]
  · cases h
    simp [Error.kind]
  · split at h
    · cases h
      simp [Error.kind]
    · split at h
      · cases h
      · cases h
        simp [Error.kind]

lemma kind_of_loadSidecar (h : loadSidecar files path = .error e) : e.kind ≠ .settings := by
  unfold loadSidecar at h
  split at h
  · cases h
    simp [Error.kind]
  · split at h
    · cases h
      simp [Error.kind]
    · split at h
      · cases h
        simp [Error.kind]
      · cases h

lemma kind_of_scanPartition {policy : SidecarPolicy} {partition : Nat}
    (h : scanPartition files policy request path partition = .error e) : e.kind ≠ .settings := by
  unfold scanPartition sidecarFor at h
  split at h
  · next hsidecar =>
    cases h
    split at hsidecar
    · cases hsidecar
    · next hload =>
      cases hsidecar
      exact kind_of_loadSidecar hload
    · cases hsidecar
  · split at h
    · exact kind_of_scanFile h
    · cases h
  · exact kind_of_scanFile h

lemma kind_of_listDataFiles (h : listDataFiles files path = .error e) : e.kind ≠ .settings := by
  unfold listDataFiles at h
  split at h
  · cases h
    simp [Error.kind]
  · split at h
    · cases h
      simp [Error.kind]
    · cases h

lemma kind_of_fileDigest (h : fileDigest files path = .error e) : e.kind ≠ .settings := by
  unfold fileDigest at h
  split at h
  · cases h
    simp [Error.kind]
  · cases h
    simp [Error.kind]
  · cases h

lemma kind_of_datasetDigest (h : datasetDigest files path = .error e) : e.kind ≠ .settings := by
  unfold datasetDigest at h
  split at h
  · next hlist =>
    cases h
    exact kind_of_listDataFiles hlist
  · obtain ⟨file, -, hstamp⟩ := exists_of_mapM_error (error_of_map h)
    unfold fileStamp at hstamp
    split at hstamp
    · cases hstamp
      simp [Error.kind]
    · cases hstamp
    · cases hstamp
      simp [Error.kind]

end Errors

namespace TickSource

lemma impartial_memory (partitions : List (List (Tick Float))) : (memory partitions).Impartial := by
  intro files request e h
  cases h

lemma impartial_file (path : String) : (file path).Impartial := by
  intro files request e h
  exact kind_of_scanFile (error_of_map h)

lemma impartial_dataset (path : String) (policy : SidecarPolicy) :
    (dataset path policy).Impartial := by
  intro files request e h
  simp only [dataset, scanDataset] at h
  split at h
  · next hlist =>
    cases h
    exact kind_of_listDataFiles hlist
  · obtain ⟨⟨file, partition⟩, -, hscan⟩ := exists_of_mapM_error h
    exact kind_of_scanPartition hscan

end TickSource

/-! ## Running -/

namespace Replay

variable {s : Settings} {r : Replay} {files : FileTree} {e : Error}

lemma make_cases {registry : Registry Float} (h : make s registry = .ok r) :
    r = ⟨s, registry⟩ ∧ s.validate = .ok () ∧
      registry.contains s.backtest.strategy.name = true := by
  unfold make at h
  split at h
  · cases h
  · next hvalid =>
    dsimp only at h
    split at h
    · next hcontains => exact ⟨(Except.ok.inj h).symm, hvalid, hcontains⟩
    · cases h

lemma checkTerms_of_validate (h : s.validate = .ok ()) : checkTerms s = .ok () := by
  obtain ⟨-, hdetector, hterms⟩ := Settings.validate_cases h
  unfold checkTerms
  rw [hdetector]
  simp only [hterms, bind, Except.bind]
  split <;> rfl

/-- Before a log is opened, only making the strategy can go wrong. -/
lemma prepare_error_iff (hvalid : s.validate = .ok ())
    (hname : (builtins : Registry Float).contains s.backtest.strategy.name = true) :
    prepare ⟨s, builtins⟩ = .error e ↔ s.backtest.strategy.refusal? = some e := by
  rw [← StrategySettings.create_error_iff hname]
  unfold prepare
  dsimp only
  split
  · next hcreate => simp [hcreate]
  · next handle hcreate => simp [hcreate, checkTerms_of_validate hvalid]

lemma kind_of_writeLog {text : String} (h : writeLog files s text = .error e) :
    e.kind ≠ .settings := by
  unfold writeLog at h
  split at h
  · cases h
  · split at h
    · cases h
    · cases h
      simp [Error.kind]

/-- Once a log is open, nothing that goes wrong is the fault of the settings. -/
lemma execute_error_iff {request : ScanRequest} {source : TickSource} {data : Option String}
    {files' : FileTree} (hrequest : r.settings.data.request = .ok request)
    (hsource : source.Impartial) (hkind : e.kind = .settings) :
    r.execute files source data = (files', .error e) ↔ files' = files ∧ r.prepare = .error e := by
  unfold execute
  simp only [hrequest]
  cases hprepare : r.prepare with
  | error e' =>
    simp only [Prod.mk.injEq, Except.error.injEq]
    exact and_congr_left' eq_comm
  | ok sim =>
    simp only [reduceCtorEq, and_false, iff_false]
    intro h
    split at h
    · next hopen =>
      cases h
      exact kind_of_writeLog hopen hkind
    · split at h
      · next hscan =>
        cases h
        exact hsource _ _ _ hscan hkind
      · split at h
        · next hclose =>
          cases h
          exact kind_of_writeLog hclose hkind
        · cases h

/-- Admissible data has a source of the program, and can be signed unless files or data are wrong.
-/
lemma source_of_validate (h : s.data.validate = .ok ()) :
    (∃ source, TickSource.ofSettings s.data = .ok source ∧ source.Impartial) ∧
      ∀ files e, s.data.signature files = .error e → e.kind ≠ .settings := by
  obtain ⟨hsource, -⟩ := DataSettings.validate_cases h
  unfold DataSettings.checkSource at hsource
  unfold TickSource.ofSettings DataSettings.signature
  cases hcsv : s.data.csvPath with
  | some path =>
    exact ⟨⟨_, rfl, TickSource.impartial_file path⟩,
      fun files e hdigest => kind_of_fileDigest (error_of_map hdigest)⟩
  | none =>
    cases hroot : s.data.datasetRoot with
    | none => simp [hcsv, hroot] at hsource
    | some root =>
      exact ⟨⟨_, rfl, TickSource.impartial_dataset root _⟩,
        fun files e hdigest => kind_of_datasetDigest (error_of_map hdigest)⟩

end Replay

/-- **Only the parameters of the strategy are refused late.**  A replay that was set up ends with an
error of the settings exactly if the regime follower cannot be made with its parameters: for the
data that the settings name after that data was signed, for a source that is given at once.  The
files are then as they were, so no log was made. -/
theorem settings_errors_of_run {s : Settings} {r : Replay}
    (hmake : Replay.make s builtins = .ok r) (files files' : FileTree) {e : Error}
    (hkind : e.kind = .settings) :
    (r.run files = (files', .error e) ↔
        files' = files ∧ (∃ signature, s.data.signature files = .ok signature) ∧
          s.backtest.strategy.refusal? = some e) ∧
      ∀ source : TickSource, source.Impartial →
        (r.runOn files source = (files', .error e) ↔
          files' = files ∧ s.backtest.strategy.refusal? = some e) := by
  obtain ⟨rfl, hvalid, hname⟩ := Replay.make_cases hmake
  have hdata := (Settings.validate_cases hvalid).1
  obtain ⟨-, request, hrequest⟩ := DataSettings.validate_cases hdata
  obtain ⟨⟨source, hsource, himpartial⟩, hsigning⟩ := Replay.source_of_validate hdata
  have hexecute {source : TickSource} (himpartial : source.Impartial) (data : Option String) :
      Replay.execute ⟨s, builtins⟩ files source data = (files', .error e) ↔
        files' = files ∧ s.backtest.strategy.refusal? = some e := by
    rw [Replay.execute_error_iff hrequest himpartial hkind, Replay.prepare_error_iff hvalid hname]
  refine ⟨?_, fun source himpartial => hexecute himpartial none⟩
  rw [Replay.run]
  simp only [hsource]
  cases hsignature : s.data.signature files with
  | error e' =>
    -- the run is over before the strategy is made, and files or data are to blame
    have hne : e' ≠ e := by
      rintro rfl
      exact hsigning files e' hsignature hkind
    simp [hne]
  | ok signature => simpa using hexecute himpartial (some signature)

/-- Settings for the regime follower with a number of lots. -/
def following (volume : Int) : Settings :=
  { Settings.initial with
    data := { Settings.initial.data with csvPath := some "t.csv" }
    backtest :=
      { Settings.initial.backtest with
        strategy := ⟨followerName, .obj [("volume", .int volume)]⟩ } }

theorem settings_errors_of_run_following :
    Replay.make (following 0) builtins = .ok ⟨following 0, builtins⟩ ∧
      (Error.followerVolume 0).kind = .settings ∧
      Replay.runOn ⟨following 0, builtins⟩ ⟨.dir [], []⟩ (.memory []) =
        (⟨.dir [], []⟩, .error (.followerVolume 0)) := by
  have hmake : Replay.make (following 0) builtins = .ok ⟨following 0, builtins⟩ := rfl
  obtain ⟨-, hrunOn⟩ :=
    settings_errors_of_run hmake ⟨.dir [], []⟩ ⟨.dir [], []⟩ (e := .followerVolume 0) rfl
  exact ⟨hmake, rfl, (hrunOn _ (TickSource.impartial_memory [])).mpr ⟨rfl, rfl⟩⟩

/-- No lots are refused when the data has been signed already. -/
theorem late_refusal :
    Replay.make (following 0) builtins = .ok ⟨following 0, builtins⟩ ∧
      (Replay.run ⟨following 0, builtins⟩ ⟨.dir [("t.csv", .file [] 0)], []⟩).2 =
        .error (.followerVolume 0) ∧
      (Error.followerVolume 0).kind = .settings :=
  ⟨rfl, rfl, rfl⟩

end MarketTape
