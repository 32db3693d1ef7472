import MarketTape.Proofs.Inputs
import MarketTape.Proofs.Intake

/-!
# Files that are left alone

The description of a file declares its first and its last time, both of which belong to it, and a
request has a window whose last time does not.  A scan leaves a file alone if the two cannot meet.
As long as the descriptions are true this is never seen in the ticks: the scan gives what reading
every file from end to end gives, and the flags for a cut are the same.

* `ScanRequest.overlaps_iff_exists` says that the test of a scan is exact.
* `FileTree.ticksIn` are the ticks of a file that a scan accepts, and `FileTree.DescribedTruly` asks
  of a dataset that every description holds them all.
* `readDataset` reads all files, whatever their descriptions say; `scanDataset_undescribed` says
  that this is the scan of a dataset without descriptions.
* `scanPartition_cases` takes the scan of a file apart.  `PartitionScan.Justified` says which files
  are left alone, and `PartitionScan.Agrees` what is the same as if the file had been read.
* `pruning_harmless` is the result.
-/

namespace MarketTape

/-! ## Windows -/

namespace ScanRequest

variable {r : ScanRequest} {first last time : Int}

/-- A window that starts before it ends, if it has both ends. -/
def Proper (r : ScanRequest) : Prop := ∀ start ∈ r.start, ∀ stop ∈ r.stop, start < stop

lemma contains_iff : r.contains time = true ↔
    (∀ start ∈ r.start, start ≤ time) ∧ ∀ stop ∈ r.stop, time < stop := by
  simp [contains, Option.all_eq_true]

lemma overlaps_iff : r.overlaps first last = true ↔
    (∀ start ∈ r.start, start ≤ last) ∧ ∀ stop ∈ r.stop, first < stop := by
  simp [overlaps, Option.all_eq_true]

/-- A stretch of time and a window can meet exactly if they have a time in common. -/
theorem overlaps_iff_exists (hr : r.Proper) (hle : first ≤ last) :
    r.overlaps first last = true ↔
      ∃ time, first ≤ time ∧ time ≤ last ∧ r.contains time = true := by
  rw [overlaps_iff]
  constructor
  · rintro ⟨hstart, hstop⟩
    cases hs : r.start with
    | none =>
      refine ⟨first, le_rfl, hle, contains_iff.mpr ⟨?_, hstop⟩⟩
      rw [hs]
      rintro start ⟨⟩
    | some start =>
      -- the first time that both have
      refine ⟨max first start, le_max_left _ _, max_le hle (hstart start hs),
        contains_iff.mpr ⟨?_, fun stop hmem => max_lt (hstop stop hmem) (hr start hs stop hmem)⟩⟩
      rw [hs]
      rintro _ ⟨⟩
      exact le_max_right _ _
  · rintro ⟨time, hfirst, hlast, htime⟩
    obtain ⟨hstart, hstop⟩ := contains_iff.mp htime
    exact ⟨fun start hmem => (hstart start hmem).trans hlast,
      fun stop hmem => hfirst.trans_lt (hstop stop hmem)⟩

/-- Where no tick lies in the window, nothing is given and nothing is cut off. -/
lemma select_of_outside {α : Type} {ticks : List (Tick α)}
    (h : ∀ t ∈ ticks, r.contains t.time = false) : r.select ticks = ([], false) := by
  have hnone : ticks.filter (fun t => r.contains t.time) = [] :=
    List.filter_eq_nil_iff.mpr fun t ht => by simp [h t ht]
  have hsorted : Tick.sorted ([] : List (Tick α)) = [] := rfl
  rw [select, hnone, hsorted]
  cases r.maxRows <;> simp [capped]

end ScanRequest

/-! ## Reading a file -/

/-- The ticks of a file that a scan accepts, in the order of the rows. -/
def FileTree.ticksIn (files : FileTree) (file : String) : List (Tick Float) :=
  match files.read file with
  | .bytes content =>
    match splitHeader? (Records.ofBytes content) with
    | some (header, rows) => rows.filterMap (readRecord? header)
    | none => []
  | .unopened _ => []
  | .unread _ => []

variable {files : FileTree} {root file : String} {partition : Nat} {request : ScanRequest}
  {policy : SidecarPolicy} {scan whole : PartitionScan Float}

lemma scanFile_cases (h : scanFile files file partition request = .ok scan) :
    scan.partition = partition ∧ scan.path = some file ∧ scan.pruned = false ∧
      (scan.ticks, scan.earlyStop) = request.select (files.ticksIn file) := by
  rw [FileTree.ticksIn]
  unfold scanFile at h
  split at h
  · cases h
  · cases h
  · split at h
    · cases h
    · split at h
      · cases h
        simp only [*]
        exact ⟨rfl, rfl, rfl, rfl⟩
      · cases h

/-! ## Descriptions -/

/-- A valid description has its times in order. -/
lemma le_of_loadSidecar {s : Sidecar} (h : loadSidecar files file = .ok s) :
    s.firstTime ≤ s.lastTime := by
  unfold loadSidecar at h
  split at h
  · cases h
  · split at h
    · cases h
    · split at h
      · cases h
      · next hflaw =>
        cases h
        by_contra hreversed
        rw [Sidecar.flaw?] at hflaw
        split at hflaw
        · cases hflaw
        · rw [if_pos (by omega)] at hflaw
          cases hflaw

/-- The policy matters only where there is no valid description. -/
lemma sidecarFor_cases {described : Option Sidecar}
    (h : sidecarFor files policy file = .ok described) :
    (∃ s, loadSidecar files file = .ok s ∧ described = some s) ∨
      policy = .lenient ∧ described = none ∧ ∀ s, loadSidecar files file ≠ .ok s := by
  unfold sidecarFor at h
  split at h
  · next s hload =>
    cases h
    exact Or.inl ⟨s, hload, rfl⟩
  · cases h
  · next e hload =>
    cases h
    exact Or.inr ⟨rfl, rfl, fun s hs => by rw [hload] at hs; cases hs⟩

lemma sidecarFor_of_load {s : Sidecar} (h : loadSidecar files file = .ok s) :
    sidecarFor files policy file = .ok (some s) := by simp only [sidecarFor, h]

lemma sidecarFor_lenient (h : ∀ s, loadSidecar files file ≠ .ok s) :
    sidecarFor files .lenient file = .ok none := by
  cases hload : loadSidecar files file with
  | ok s => exact absurd hload (h s)
  | error e => simp only [sidecarFor, hload]

/-! ## Scanning a file -/

/-- A scan leaves a file alone if its description misses the window, and reads it otherwise. -/
lemma scanPartition_cases (h : scanPartition files policy request file partition = .ok scan) :
    (∃ s, loadSidecar files file = .ok s ∧ s.overlaps request = false ∧
        scan = .leftAlone partition file) ∨
      (∀ s, loadSidecar files file = .ok s → s.overlaps request = true) ∧
        scanFile files file partition request = .ok scan := by
  unfold scanPartition at h
  split at h
  · cases h
  · next s hsidecar =>
    obtain ⟨s', hload, hs⟩ | ⟨-, hnone, -⟩ := sidecarFor_cases hsidecar
    · cases hs
      split at h
      · next hmeets =>
        refine Or.inr ⟨fun s' hload' => ?_, h⟩
        cases hload.symm.trans hload'
        exact hmeets
      · next hmisses =>
        cases h
        exact Or.inl ⟨s, hload, by simpa using hmisses, rfl⟩
    · cases hnone
  · next hsidecar =>
    obtain ⟨s, -, hs⟩ | ⟨-, -, hload⟩ := sidecarFor_cases hsidecar
    · cases hs
    · exact Or.inr ⟨fun s hs => absurd hs (hload s), h⟩

/-- Being lenient changes nothing where being strict did not stop the scan. -/
lemma scanPartition_lenient (h : scanPartition files .strict request file partition = .ok scan) :
    scanPartition files .lenient request file partition = .ok scan := by
  have hsame : sidecarFor files .lenient file = sidecarFor files .strict file := by
    cases hsidecar : sidecarFor files .strict file with
    | error e =>
      rw [scanPartition, hsidecar] at h
      cases h
    | ok described =>
      obtain ⟨s, hload, rfl⟩ | ⟨hpolicy, -⟩ := sidecarFor_cases hsidecar
      · exact sidecarFor_of_load hload
      · cases hpolicy
  rw [scanPartition, hsame]
  exact h

/-- A file that can be read can be scanned, unless it lacks a description that is asked for. -/
lemma exists_scanPartition_iff (hwhole : scanFile files file partition request = .ok whole) :
    (∃ scan, scanPartition files policy request file partition = .ok scan) ↔
      (policy = .strict → ∃ s, loadSidecar files file = .ok s) := by
  constructor
  · rintro ⟨scan, hscan⟩ rfl
    cases hsidecar : sidecarFor files .strict file with
    | error e =>
      rw [scanPartition, hsidecar] at hscan
      cases hscan
    | ok described =>
      obtain ⟨s, hload, -⟩ | ⟨hpolicy, -⟩ := sidecarFor_cases hsidecar
      · exact ⟨s, hload⟩
      · cases hpolicy
  · intro h
    by_cases hload : ∃ s, loadSidecar files file = .ok s
    · obtain ⟨s, hs⟩ := hload
      rw [scanPartition, sidecarFor_of_load hs]
      by_cases hmeets : s.overlaps request = true
      · exact ⟨whole, by simp only [if_pos hmeets]; exact hwhole⟩
      · exact ⟨.leftAlone partition file, by simp only [if_neg hmeets]⟩
    · have hlenient : policy = .lenient := by
        cases policy with
        | strict => exact absurd (h rfl) hload
        | lenient => rfl
      refine ⟨whole, ?_⟩
      rw [hlenient, scanPartition, sidecarFor_lenient (not_exists.mp hload)]
      exact hwhole

/-- The scan of a file says which file it is of.  The file was left alone exactly if it has a valid
description and no time that is declared there lies in the window. -/
structure PartitionScan.Justified (scan : PartitionScan Float) (files : FileTree)
    (request : ScanRequest) (file : String) (partition : Nat) : Prop where
  partition : scan.partition = partition
  path : scan.path = some file
  described : ∀ s, loadSidecar files file = .ok s → (scan.pruned = true ↔
    ∀ time, s.firstTime ≤ time → time ≤ s.lastTime → request.contains time = false)
  undescribed : (∀ s, loadSidecar files file ≠ .ok s) → scan.pruned = false

lemma justified_scanPartition (hr : request.Proper)
    (h : scanPartition files policy request file partition = .ok scan) :
    scan.Justified files request file partition := by
  have hexact : ∀ {s : Sidecar}, loadSidecar files file = .ok s → (s.overlaps request = false ↔
      ∀ time, s.firstTime ≤ time → time ≤ s.lastTime → request.contains time = false) := by
    intro s hload
    have hiff := ScanRequest.overlaps_iff_exists hr (le_of_loadSidecar hload)
    rw [Sidecar.overlaps, ← Bool.not_eq_true, hiff]
    simp only [not_exists, not_and, Bool.not_eq_true]
  obtain ⟨s, hload, hmisses, rfl⟩ | ⟨hmeets, hread⟩ := scanPartition_cases h
  · refine ⟨rfl, rfl, fun s' hload' => ?_, fun hnone => absurd hload (hnone s)⟩
    cases hload.symm.trans hload'
    exact ⟨fun _ => (hexact hload).mp hmisses, fun _ => rfl⟩
  · obtain ⟨hpartition, hpath, hpruned, -⟩ := scanFile_cases hread
    refine ⟨hpartition, hpath, fun s hload => ?_, fun _ => hpruned⟩
    rw [hpruned, ← hexact hload, hmeets s hload]
    simp

/-- Two scans of one file that gave the same. -/
structure PartitionScan.Agrees (a b : PartitionScan Float) : Prop where
  partition : a.partition = b.partition
  path : a.path = b.path
  ticks : a.ticks = b.ticks
  earlyStop : a.earlyStop = b.earlyStop

/-- A true description does not change what a file gives. -/
lemma agrees_scanPartition (hr : request.Proper)
    (htrue : ∀ s, loadSidecar files file = .ok s →
      ∀ t ∈ files.ticksIn file, s.firstTime ≤ t.time ∧ t.time ≤ s.lastTime)
    (h : scanPartition files policy request file partition = .ok scan)
    (hwhole : scanFile files file partition request = .ok whole) : scan.Agrees whole := by
  obtain ⟨s, hload, hmisses, rfl⟩ | ⟨-, hread⟩ := scanPartition_cases h
  · obtain ⟨hpartition, hpath, -, hselect⟩ := scanFile_cases hwhole
    have houtside : ∀ t ∈ files.ticksIn file, request.contains t.time = false := by
      intro t ht
      obtain ⟨hfirst, hlast⟩ := htrue s hload t ht
      by_contra hinside
      have hmeets := (ScanRequest.overlaps_iff_exists hr (le_of_loadSidecar hload)).mpr
        ⟨t.time, hfirst, hlast, by simpa using hinside⟩
      rw [Sidecar.overlaps, hmeets] at hmisses
      cases hmisses
    rw [ScanRequest.select_of_outside houtside, Prod.mk.injEq] at hselect
    exact ⟨hpartition.symm, hpath.symm, hselect.1.symm, hselect.2.symm⟩
  · cases hwhole.symm.trans hread
    exact ⟨rfl, rfl, rfl, rfl⟩

/-! ## Scanning a dataset -/

/-- A file of ticks at or below a path. -/
def FileTree.IsDataFile (files : FileTree) (root file : String) : Prop :=
  ∃ paths path, listDataFiles files root = .ok paths ∧ path ∈ paths ∧ file = Path.join root path

/-- Every valid description of a file of ticks holds the times of all its accepted ticks. -/
def FileTree.DescribedTruly (files : FileTree) (root : String) : Prop :=
  ∀ file, files.IsDataFile root file → ∀ s, loadSidecar files file = .ok s →
    ∀ t ∈ files.ticksIn file, s.firstTime ≤ t.time ∧ t.time ≤ s.lastTime

lemma toOption_eq_some_iff {ε α : Type} {e : Except ε α} {a : α} :
    e.toOption = some a ↔ e = .ok a := by
  cases e <;> simp [Except.toOption]

/-- What is to be checked of the descriptions. -/
lemma describedTruly_iff : files.DescribedTruly root ↔
    ∀ path ∈ (listDataFiles files root).toOption.getD [],
      ∀ s ∈ (loadSidecar files (Path.join root path)).toOption,
        ∀ t ∈ files.ticksIn (Path.join root path), s.firstTime ≤ t.time ∧ t.time ≤ s.lastTime := by
  constructor
  · intro h path hpath s hs
    cases hpaths : listDataFiles files root with
    | error e =>
      rw [hpaths] at hpath
      cases hpath
    | ok paths =>
      rw [hpaths] at hpath
      exact h _ ⟨paths, path, hpaths, hpath, rfl⟩ s (toOption_eq_some_iff.mp hs)
  · rintro h file ⟨paths, path, hpaths, hpath, rfl⟩ s hs
    rw [hpaths] at h
    exact h path hpath s (toOption_eq_some_iff.mpr hs)

/-- Reads all files of a dataset, whatever their descriptions say. -/
def readDataset (files : FileTree) (root : String) (request : ScanRequest) :
    Except Error (List (PartitionScan Float)) :=
  match listDataFiles files root with
  | .error e => .error e
  | .ok paths =>
    paths.zipIdx.mapM fun (path, partition) =>
      scanFile files (Path.join root path) partition request

variable {scans wholes : List (PartitionScan Float)}

lemma scanDataset_eq_ok_iff : scanDataset files root policy request = .ok scans ↔
    ∃ paths, listDataFiles files root = .ok paths ∧
      List.Forall₂ (fun row scan =>
        scanPartition files policy request (Path.join root row.1) row.2 = .ok scan)
        paths.zipIdx scans := by
  rw [scanDataset]
  cases hpaths : listDataFiles files root with
  | error e => simp
  | ok paths => simp only [Except.ok.injEq, exists_eq_left', ← mapM_eq_ok_iff]

lemma readDataset_eq_ok_iff : readDataset files root request = .ok wholes ↔
    ∃ paths, listDataFiles files root = .ok paths ∧
      List.Forall₂ (fun row whole =>
        scanFile files (Path.join root row.1) row.2 request = .ok whole)
        paths.zipIdx wholes := by
  rw [readDataset]
  cases hpaths : listDataFiles files root with
  | error e => simp
  | ok paths => simp only [Except.ok.injEq, exists_eq_left', ← mapM_eq_ok_iff]

/-- A tree with the same files of ticks, and with no valid description of any of them. -/
structure FileTree.Undescribed (bare files : FileTree) (root : String) : Prop where
  paths : listDataFiles bare root = listDataFiles files root
  read : ∀ file, files.IsDataFile root file → bare.read file = files.read file
  undescribed : ∀ file, files.IsDataFile root file → ∀ s, loadSidecar bare file ≠ .ok s

/-- Without descriptions all files are read. -/
lemma scanDataset_undescribed {bare : FileTree} (h : bare.Undescribed files root) :
    scanDataset bare root .lenient request = readDataset files root request := by
  rw [scanDataset, readDataset, h.paths]
  cases hpaths : listDataFiles files root with
  | error e => rfl
  | ok paths =>
    refine mapM_congr fun row hrow => ?_
    have hfile : files.IsDataFile root (Path.join root row.1) :=
      ⟨paths, row.1, hpaths, List.fst_mem_of_mem_zipIdx hrow, rfl⟩
    simp only [scanPartition, sidecarFor_lenient (h.undescribed _ hfile), scanFile, h.read _ hfile]

/-- A scan that goes through although it is strict is the lenient scan. -/
lemma scanDataset_lenient (h : scanDataset files root .strict request = .ok scans) :
    scanDataset files root .lenient request = .ok scans := by
  rw [scanDataset_eq_ok_iff] at h ⊢
  obtain ⟨paths, hpaths, hrows⟩ := h
  exact ⟨paths, hpaths, hrows.imp fun _ _ hscan => scanPartition_lenient hscan⟩

/-- A dataset that can be read can be scanned, unless it lacks descriptions that are asked for. -/
lemma exists_scanDataset_iff (hwhole : readDataset files root request = .ok wholes) :
    (∃ scans, scanDataset files root policy request = .ok scans) ↔
      (policy = .strict → ∀ file, files.IsDataFile root file →
        ∃ s, loadSidecar files file = .ok s) := by
  obtain ⟨paths, hpaths, hrows⟩ := readDataset_eq_ok_iff.mp hwhole
  have hread := exists_mapM_iff.mp ⟨wholes, mapM_eq_ok_iff.mpr hrows⟩
  rw [scanDataset, hpaths]
  simp only
  rw [exists_mapM_iff]
  constructor
  · rintro h hstrict file ⟨paths', path, hpaths', hpath, rfl⟩
    cases hpaths.symm.trans hpaths'
    rw [← List.zipIdx_map_fst 0 paths, List.mem_map] at hpath
    obtain ⟨row, hrow, rfl⟩ := hpath
    obtain ⟨whole, hw⟩ := hread row hrow
    exact (exists_scanPartition_iff hw).mp (h _ hrow) hstrict
  · intro h row hrow
    obtain ⟨whole, hw⟩ := hread row hrow
    refine (exists_scanPartition_iff hw).mpr fun hstrict => h hstrict _ ?_
    exact ⟨paths, row.1, hpaths, List.fst_mem_of_mem_zipIdx hrow, rfl⟩

/-- Lists that one list is related to, element by element, are related to each other. -/
lemma forall₂_of_common {α β γ : Type} {R : α → β → Prop} {S : α → γ → Prop} {T : β → γ → Prop} :
    ∀ {xs : List α} {ys : List β} {zs : List γ}, List.Forall₂ R xs ys → List.Forall₂ S xs zs →
      (∀ x ∈ xs, ∀ y z, R x y → S x z → T y z) → List.Forall₂ T ys zs
  | [], _, _, .nil, .nil, _ => .nil
  | _ :: _, _, _, .cons hy hys, .cons hz hzs, h =>
    .cons (h _ List.mem_cons_self _ _ hy hz)
      (forall₂_of_common hys hzs fun x hx => h x (List.mem_cons_of_mem _ hx))

/-- Where the descriptions are true, a scan gives what reading all files gives. -/
lemma agrees_scanDataset (hr : request.Proper) (htrue : files.DescribedTruly root)
    (h : scanDataset files root policy request = .ok scans)
    (hwhole : readDataset files root request = .ok wholes) :
    List.Forall₂ PartitionScan.Agrees scans wholes := by
  obtain ⟨paths, hpaths, hscans⟩ := scanDataset_eq_ok_iff.mp h
  obtain ⟨paths', hpaths', hwholes⟩ := readDataset_eq_ok_iff.mp hwhole
  cases hpaths.symm.trans hpaths'
  refine forall₂_of_common hscans hwholes fun row hrow scan whole hscan hread => ?_
  refine agrees_scanPartition hr (htrue _ ?_) hscan hread
  exact ⟨paths, row.1, hpaths, List.fst_mem_of_mem_zipIdx hrow, rfl⟩

/-- A dataset whose descriptions are true, scanned for a window that starts before it ends.

Where all files can be read, a lenient scan goes through, a strict one does so exactly if every file
has a valid description, and either gives for every partition the same ticks and the same early stop
as reading all files, which is what the scan is where there are no descriptions.  A partition with a
valid description is left alone exactly if no time that is declared there lies in the window, and
one without is read.  And where the strict scan goes through, the lenient one is the same. -/
theorem pruning_harmless (hwindow : request.Proper) (htrue : files.DescribedTruly root) :
    (∀ bare : FileTree, bare.Undescribed files root →
        scanDataset bare root .lenient request = readDataset files root request) ∧
      (∀ wholes, readDataset files root request = .ok wholes →
      (∃ scans, scanDataset files root .lenient request = .ok scans) ∧
        ((∃ scans, scanDataset files root .strict request = .ok scans) ↔
          ∀ file, files.IsDataFile root file → ∃ s, loadSidecar files file = .ok s) ∧
        ∀ policy scans, scanDataset files root policy request = .ok scans →
          List.Forall₂ PartitionScan.Agrees scans wholes) ∧
      (∀ policy scans, scanDataset files root policy request = .ok scans →
        ∃ paths, listDataFiles files root = .ok paths ∧
          List.Forall₂ (fun row scan =>
            scan.Justified files request (Path.join root row.1) row.2) paths.zipIdx scans) ∧
      ∀ scans, scanDataset files root .strict request = .ok scans →
        scanDataset files root .lenient request = .ok scans := by
  refine ⟨fun bare h => scanDataset_undescribed h, fun wholes hwhole => ⟨?_, ?_, ?_⟩, ?_,
    fun scans h => scanDataset_lenient h⟩
  · refine (exists_scanDataset_iff hwhole).mpr ?_
    rintro ⟨⟩
  · rw [exists_scanDataset_iff hwhole]
    exact forall_prop_of_true rfl
  · intro policy scans h
    exact agrees_scanDataset hwindow htrue h hwhole
  · intro policy scans h
    obtain ⟨paths, hpaths, hscans⟩ := scanDataset_eq_ok_iff.mp h
    exact ⟨paths, hpaths, hscans.imp fun _ _ hscan => justified_scanPartition hwindow hscan⟩

/-! ## Two described files -/

/-- A file of ticks at the given times. -/
def ticksAt (times : List String) : Node :=
  .file (Node.bytesOf
    ("InstrumentID,ts_ns,LastPrice,Volume,BidPrice1,BidVolume1,AskPrice1,AskVolume1\n" ++
      String.join (times.map fun time => "rb2405," ++ time ++ ",100,1,99,1,101,1\n"))) 0

/-- A description of ticks from one time to another. -/
def describing (firstTime lastTime : Int) (rowCount : Nat) : Node :=
  .file (Node.bytesOf (Sidecar.toJson ⟨firstTime, lastTime, rowCount, "v2", "cut"⟩).compactText) 0

/-- Two files with their descriptions. -/
def describedFiles : FileTree where
  top := .dir [("data", .dir
    [("a.csv", ticksAt ["10"]), ("a.meta.json", describing 5 10 1),
      ("b.csv", ticksAt ["11", "29"]), ("b.meta.json", describing 11 30 2)])]
  here := []

lemma listDataFiles_describedFiles :
    listDataFiles describedFiles "data" = .ok ["a.csv", "b.csv"] := by
  have hpaths : dataPathsIn
      [("a.csv", ticksAt ["10"]), ("a.meta.json", describing 5 10 1),
        ("b.csv", ticksAt ["11", "29"]), ("b.meta.json", describing 11 30 2)] =
      ["a.csv", "b.csv"] := List.mergeSort_of_pairwise (by decide +kernel)
  exact congrArg Except.ok hpaths

/-- A window that starts right after the first file, for one tick from each. -/
def laterWindow : ScanRequest := ⟨some 11, some 30, some 1⟩

/-- The first file is left alone, the first tick of the second one in the window is given, and there
are more: just what reading both files gives. -/
theorem pruning_harmless_laterWindow :
    laterWindow.Proper ∧ describedFiles.DescribedTruly "data" ∧
      ∃ scans wholes, readDataset describedFiles "data" laterWindow = .ok wholes ∧
        scanDataset describedFiles "data" .strict laterWindow = .ok scans ∧
        scanDataset describedFiles "data" .lenient laterWindow = .ok scans ∧
        scans.map (·.pruned) = [true, false] ∧
        wholes.map (fun whole => (whole.ticks.map (·.time), whole.earlyStop)) =
          [([], false), ([11], true)] ∧
        List.Forall₂ PartitionScan.Agrees scans wholes := by
  have hproper : laterWindow.Proper := by
    rintro start ⟨⟩ stop ⟨⟩
    decide
  have hvalues : describedFiles.DescribedTruly "data" ∧
      (readDataset describedFiles "data" laterWindow).toOption.map
          (·.map fun whole => (whole.ticks.map (·.time), whole.earlyStop)) =
        some [([], false), ([11], true)] ∧
      (scanDataset describedFiles "data" .strict laterWindow).toOption.map (·.map (·.pruned)) =
        some [true, false] := by
    rw [describedTruly_iff, readDataset, scanDataset, listDataFiles_describedFiles]
    decide +kernel
  obtain ⟨htrue, hwholes, hscans⟩ := hvalues
  obtain ⟨-, hread, -, hsame⟩ := pruning_harmless hproper htrue
  obtain ⟨wholes, hwhole, hgiven⟩ := Option.map_eq_some_iff.mp hwholes
  obtain ⟨scans, hscan, hpruned⟩ := Option.map_eq_some_iff.mp hscans
  rw [toOption_eq_some_iff] at hwhole hscan
  obtain ⟨-, -, hagrees⟩ := hread wholes hwhole
  exact ⟨hproper, htrue, scans, wholes, hwhole, hscan, hsame scans hscan, hpruned, hgiven,
    hagrees .strict scans hscan⟩

end MarketTape
