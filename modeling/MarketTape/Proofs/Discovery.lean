import MarketTape.Proofs.Reordering
import MarketTape.Replay

/-!
# Finding the files of a dataset

The files of a dataset are found by a search with a stack: it takes a directory from the stack, goes
through its entries in whichever order they come, puts the directories among them on the stack and
notes the files of ticks.  What it notes in the end depends on no order, since it is sorted.

* `isDataName_iff` and `mem_dataFilesIn_iff` say what the files of ticks are, `nodup_dataFilesIn`
  that a walk gives each once.
* `FileSearch` is a search that is under way, and `FileSearch.Step` a step, whose entries may come
  in any order.
* `FileSearch.all` are the files that a search has found or will find, and `FileSearch.left` is the
  number of directories it has yet to look into.  `FileSearch.Sound` is the invariant,
  `FileSearch.Sound.step` the lemma about a step, and `FileSearch.After.sound` that about all steps.
* `discovery_complete` is the result.
-/

namespace MarketTape

/-! ## What the files of ticks are -/

/-- A file of ticks has the extension of one, and something before it. -/
lemma isDataName_iff {name : String} :
    isDataName name = true ↔ ∃ stem, stem ≠ "" ∧ name = stem ++ ".csv" := by
  have hcsv : Path.extension? name = some "csv" ↔
      (Path.splitName name.toList).2 = some ['c', 's', 'v'] := by
    rw [Path.extension?, Option.map_eq_some_iff]
    constructor
    · rintro ⟨extension, hsplit, heq⟩
      rw [hsplit, ← String.toList_ofList (l := extension), heq]
      rfl
    · exact fun hsplit => ⟨_, hsplit, rfl⟩
  rw [isDataName, beq_iff_eq, hcsv, Path.splitName_eq_some_iff (by simp)]
  constructor
  · rintro ⟨stem, hstem, -, hname⟩
    refine ⟨String.ofList stem, fun hempty => hstem ?_, ?_⟩
    · simpa using hempty
    · rw [← String.toList_inj, hname]
      simp
  · rintro ⟨stem, hstem, rfl⟩
    exact ⟨stem.toList, fun hnil => hstem (String.toList_eq_nil_iff.mp hnil), by decide, by simp⟩

lemma endsInDataName_iff {names : List String} : endsInDataName names = true ↔
    ∃ above stem, stem ≠ "" ∧ names = above ++ [stem ++ ".csv"] := by
  rw [endsInDataName, Option.any_eq_true]
  constructor
  · rintro ⟨last, hlast, hname⟩
    obtain ⟨stem, hstem, rfl⟩ := isDataName_iff.mp hname
    obtain ⟨above, rfl⟩ := List.getLast?_eq_some_iff.mp hlast
    exact ⟨above, stem, hstem, rfl⟩
  · rintro ⟨above, stem, hstem, rfl⟩
    exact ⟨_, List.getLast?_concat, isDataName_iff.mpr ⟨stem, hstem, rfl⟩⟩

lemma dataFilesIn_eq_flatMap (entries : List (String × Node)) :
    dataFilesIn entries = entries.flatMap fun entry => entry.2.dataFiles entry.1 := by
  induction entries with
  | nil => rfl
  | cons entry rest ih => rw [← Prod.mk.eta (p := entry), dataFilesIn, ih, List.flatMap_cons]

lemma directoriesIn_eq_flatMap (entries : List (String × Node)) :
    directoriesIn entries = entries.flatMap fun entry => entry.2.directories entry.1 := by
  induction entries with
  | nil => rfl
  | cons entry rest ih => rw [← Prod.mk.eta (p := entry), directoriesIn, ih, List.flatMap_cons]

lemma exists_cons_of_mem_dataFiles {name : String} {node : Node} {names : List String}
    (h : names ∈ node.dataFiles name) : ∃ rest, names = name :: rest := by
  cases node with
  | file content modified =>
    rw [Node.dataFiles] at h
    split_ifs at h
    · exact ⟨[], List.mem_singleton.mp h⟩
    · cases h
  | dir below =>
    obtain ⟨rest, -, rfl⟩ := List.mem_map.mp h
    exact ⟨rest, rfl⟩

lemma cons_mem_dataFilesIn_iff {first : String} {rest : List String}
    {entries : List (String × Node)} (hproper : properIn entries = true) :
    first :: rest ∈ dataFilesIn entries ↔
      ∃ node, Node.child? first entries = some node ∧ first :: rest ∈ node.dataFiles first := by
  rw [dataFilesIn_eq_flatMap, List.mem_flatMap]
  constructor
  · rintro ⟨⟨name, node⟩, hentry, hmem⟩
    obtain ⟨_, heq⟩ := exists_cons_of_mem_dataFiles hmem
    obtain ⟨rfl, -⟩ := List.cons.inj heq
    exact ⟨node, (Node.child?_eq_some_iff hproper).mpr hentry, hmem⟩
  · rintro ⟨node, hchild, hmem⟩
    exact ⟨(first, node), Node.child?_mem hchild, hmem⟩

/-- A walk finds exactly the files that have the extension, under the names that lead to them. -/
theorem mem_dataFilesIn_iff : ∀ {names : List String} {entries : List (String × Node)},
    properIn entries = true → (names ∈ dataFilesIn entries ↔ endsInDataName names = true ∧
      ∃ content modified, (Node.dir entries).get? names = some (.file content modified))
  | [], entries, _ => by
    have hnot : [] ∉ dataFilesIn entries := fun hmem => by
      rw [dataFilesIn_eq_flatMap, List.mem_flatMap] at hmem
      obtain ⟨entry, -, hmem⟩ := hmem
      obtain ⟨_, heq⟩ := exists_cons_of_mem_dataFiles hmem
      cases heq
    simp [hnot, endsInDataName]
  | first :: rest, entries, hproper => by
    rw [cons_mem_dataFilesIn_iff hproper, Node.get?_cons]
    cases hchild : Node.child? first entries with
    | none => simp
    | some node =>
      obtain ⟨-, hnode⟩ := Node.proper_of_mem hproper (Node.child?_mem hchild)
      simp only [Option.some.injEq, exists_eq_left', Option.bind_some]
      cases node with
      | file content modified =>
        cases rest with
        | nil => simp [Node.dataFiles, Node.get?, endsInDataName]
        | cons second more => by_cases h : isDataName first <;> simp [Node.dataFiles, Node.get?, h]
      | dir below =>
        rw [Node.proper] at hnode
        have hbelow : first :: rest ∈ (Node.dir below).dataFiles first ↔ rest ∈ dataFilesIn below :=
          List.mem_map_of_injective (List.cons_injective (a := first))
        rw [hbelow, mem_dataFilesIn_iff hnode]
        cases rest with
        | nil => simp [Node.get?, endsInDataName]
        | cons second more => rw [endsInDataName_cons]

mutual

/-- A walk finds no file twice. -/
lemma nodup_dataFiles (name : String) : ∀ {node : Node}, node.proper = true →
    (node.dataFiles name).Nodup
  | .file _ _, _ => by
    rw [Node.dataFiles]
    split_ifs <;> simp
  | .dir entries, h => (nodup_dataFilesIn h).map (List.cons_injective (a := name))

lemma nodup_dataFilesIn : ∀ {entries : List (String × Node)}, properIn entries = true →
    (dataFilesIn entries).Nodup
  | [], _ => List.nodup_nil
  | (name, node) :: rest, h => by
    obtain ⟨-, hname, hnode, hrest⟩ := Node.properIn_cons.mp h
    refine (nodup_dataFiles name hnode).append (nodup_dataFilesIn hrest) fun _ hmem hrestMem => ?_
    -- the first name tells the two apart
    obtain ⟨more, rfl⟩ := exists_cons_of_mem_dataFiles hmem
    obtain ⟨other, hother, -⟩ := (cons_mem_dataFilesIn_iff hrest).mp hrestMem
    rw [hname] at hother
    cases hother

end

/-- Every directory below is one that a walk comes to. -/
lemma mem_directoriesIn : ∀ {names : List String} {entries below : List (String × Node)},
    names ≠ [] → (Node.dir entries).get? names = some (.dir below) →
      names ∈ directoriesIn entries
  | first :: rest, entries, below, _, hget => by
    rw [Node.get?_cons] at hget
    obtain ⟨node, hchild, hget⟩ := Option.bind_eq_some_iff.mp hget
    rw [directoriesIn_eq_flatMap, List.mem_flatMap]
    refine ⟨(first, node), Node.child?_mem hchild, ?_⟩
    cases node with
    | file content modified => cases rest <;> cases hget
    | dir inner =>
      rw [Node.directories, List.mem_cons]
      cases rest with
      | nil => exact .inl rfl
      | cons second more =>
        exact .inr (List.mem_map_of_mem (mem_directoriesIn (List.cons_ne_nil _ _) hget))

/-! ## The search -/

/-- A search for the files of ticks below a directory, while it is under way: the directories that
are still to be looked into, the next one first, and the files that were found, in the order in
which they came, both as the names that lead there. -/
structure FileSearch where
  pending : List (List String)
  found : List (List String)

namespace FileSearch

/-- The search before its first step. -/
def start : FileSearch := ⟨[[]], []⟩

/-- Takes note of an entry: a directory is put on the stack, a file of ticks is found. -/
def note (above : List String) (s : FileSearch) : String × Node → FileSearch
  | (name, .dir _) => { s with pending := (above ++ [name]) :: s.pending }
  | (name, .file _ _) =>
    if isDataName name then { s with found := s.found ++ [above ++ [name]] } else s

/-- One step: a directory is taken from the stack and read by its path, and its entries are taken
note of in some order. -/
inductive Step (files : FileTree) (root : String) : FileSearch → FileSearch → Prop where
  | look {above : List String} {pending found : List (List String)}
    {entries listed : List (String × Node)}
    (hlist : files.list (above.foldl Path.join root) = .ok entries)
    (horder : listed.Perm entries) :
    Step files root ⟨above :: pending, found⟩ (listed.foldl (note above) ⟨pending, found⟩)

/-- What a search can have come to after a number of steps. -/
inductive After (files : FileTree) (root : String) : Nat → FileSearch → Prop where
  | start : After files root 0 start
  | step {steps : Nat} {s s' : FileSearch} (hbefore : After files root steps s)
    (hstep : Step files root s s') : After files root (steps + 1) s'

/-- The paths of the files that were found, in order. -/
def result (s : FileSearch) : List String :=
  (s.found.map Path.ofNames).mergeSort fun a b => a ≤ b

end FileSearch

/-- The files of ticks below the directory at these names, as the names that lead there. -/
def Node.filesAt (top : Node) (names : List String) : List (List String) :=
  match top.get? names with
  | some (.dir entries) => (dataFilesIn entries).map (names ++ ·)
  | _ => []

/-- How many directories there are at and below these names. -/
def Node.directoriesAt (top : Node) (names : List String) : Nat :=
  match top.get? names with
  | some (.dir entries) => (directoriesIn entries).length + 1
  | _ => 0

namespace FileSearch

variable {files : FileTree} {root : String} {entries below listed : List (String × Node)}
  {top : Node} {above : List String} {s s' : FileSearch} {steps : Nat}

/-- The files that a search has found or will find. -/
def all (top : Node) (s : FileSearch) : List (List String) :=
  s.found ++ s.pending.flatMap top.filesAt

/-- The number of directories that a search has yet to look into. -/
def left (top : Node) (s : FileSearch) : Nat := (s.pending.map top.directoriesAt).sum

/-- Taking note of an entry adds the files and the directories at and below it. -/
lemma note_spec {name : String} {node : Node} (hget : top.get? (above ++ [name]) = some node)
    (s : FileSearch) :
    ((note above s (name, node)).all top).Perm
        (s.all top ++ (node.dataFiles name).map (above ++ ·)) ∧
      (note above s (name, node)).left top = s.left top + (node.directories name).length ∧
      ∀ names ∈ (note above s (name, node)).pending,
        names ∈ s.pending ∨ ∃ below, top.get? names = some (.dir below) := by
  cases node with
  | file content modified =>
    rw [note, Node.dataFiles, Node.directories]
    split_ifs
    · refine ⟨?_, rfl, fun names hmem => .inl hmem⟩
      simp only [all, List.append_assoc, List.map_cons, List.map_nil]
      exact List.perm_append_comm.append_left _
    · exact ⟨by simp, rfl, fun names hmem => .inl hmem⟩
  | dir below =>
    refine ⟨?_, ?_, fun names hmem => ?_⟩
    · have hfiles : top.filesAt (above ++ [name]) =
          ((Node.dir below).dataFiles name).map (above ++ ·) := by
        simp [Node.filesAt, hget, Node.dataFiles]
      simp only [note, all, List.flatMap_cons, hfiles, List.append_assoc]
      exact List.perm_append_comm.append_left _
    · simp only [note, left, List.map_cons, List.sum_cons, Node.directoriesAt, hget,
        Node.directories, List.length_cons, List.length_map]
      omega
    · rcases List.mem_cons.mp hmem with rfl | hmem
      · exact .inr ⟨below, hget⟩
      · exact .inl hmem

/-- Taking note of entries, one after the other. -/
lemma foldl_note_spec : ∀ {listed : List (String × Node)} (s : FileSearch),
    (∀ entry ∈ listed, top.get? (above ++ [entry.1]) = some entry.2) →
      ((listed.foldl (note above) s).all top).Perm
          (s.all top ++ (dataFilesIn listed).map (above ++ ·)) ∧
        (listed.foldl (note above) s).left top = s.left top + (directoriesIn listed).length ∧
        ∀ names ∈ (listed.foldl (note above) s).pending,
          names ∈ s.pending ∨ ∃ below, top.get? names = some (.dir below)
  | [], s, _ => ⟨by simp [dataFilesIn], rfl, fun names hmem => .inl hmem⟩
  | (name, node) :: rest, s, h => by
    obtain ⟨hentry, hrest⟩ := List.forall_mem_cons.mp h
    obtain ⟨hfiles, hleft, hpending⟩ := note_spec hentry s
    obtain ⟨hfiles', hleft', hpending'⟩ := foldl_note_spec (note above s (name, node)) hrest
    refine ⟨?_, ?_, fun names hmem => ?_⟩
    · rw [dataFilesIn, List.map_append, ← List.append_assoc]
      exact hfiles'.trans (hfiles.append_right _)
    · rw [List.foldl_cons, hleft', hleft, directoriesIn, List.length_append, Nat.add_assoc]
    · exact (hpending' names hmem).elim (hpending names) .inr

/-- The invariant of a search: its stack holds directories, and all in all it finds each file and
looks into each directory. -/
structure Sound (entries : List (String × Node)) (steps : Nat) (s : FileSearch) : Prop where
  there : ∀ names ∈ s.pending, ∃ below, (Node.dir entries).get? names = some (.dir below)
  files : (s.all (.dir entries)).Perm (dataFilesIn entries)
  left : steps + s.left (.dir entries) = (directoriesIn entries).length + 1

lemma sound_start : Sound entries 0 start where
  there names hmem := by
    obtain rfl := List.mem_singleton.mp hmem
    exact ⟨entries, by rw [Node.get?]⟩
  files := by simp [all, start, Node.filesAt, Node.get?]
  left := by simp [FileSearch.left, start, Node.directoriesAt, Node.get?]

/-- Every directory can be read by the path that leads to it. -/
lemma list_above (hroot : files.list root = .ok entries) (hproper : properIn entries = true)
    (hreach : outOfReach? root entries = none)
    (hget : (Node.dir entries).get? above = some (.dir below)) :
    files.list (above.foldl Path.join root) = .ok below := by
  cases above with
  | nil =>
    rw [Node.get?] at hget
    cases hget
    exact hroot
  | cons first rest =>
    obtain ⟨-, hnames⟩ := Node.proper_of_get? (Node.proper_dir.mpr hproper) hget
    refine FileTree.list_below hroot hproper hget ?_
    rw [Path.foldl_join root (List.cons_ne_nil _ _) hnames]
    rw [outOfReach?, List.findSome?_eq_none_iff] at hreach
    exact hreach _ (mem_directoriesIn (List.cons_ne_nil _ _) hget)

section

variable (hroot : files.list root = .ok entries) (hproper : properIn entries = true)
  (hreach : outOfReach? root entries = none)

include hroot hproper hreach

/-- A step looks into one directory, and finds what lies in it. -/
lemma Sound.step (h : Sound entries steps s) (hstep : Step files root s s') :
    Sound entries (steps + 1) s' := by
  obtain @⟨above, pending, found, given, listed, hlist, horder⟩ := hstep
  obtain ⟨below, hget⟩ := h.there above List.mem_cons_self
  rw [list_above hroot hproper hreach hget] at hlist
  obtain rfl := Except.ok.inj hlist
  obtain ⟨hbelow, -⟩ := Node.proper_of_get? (Node.proper_dir.mpr hproper) hget
  have hlisted : ∀ entry ∈ listed,
      (Node.dir entries).get? (above ++ [entry.1]) = some entry.2 := fun entry hentry => by
    have hchild := (Node.child?_eq_some_iff hbelow).mpr (horder.mem_iff.mp hentry)
    rw [Node.get?_append, hget, Option.bind_some, Node.get?_cons, hchild, Option.bind_some,
      Node.get?]
  obtain ⟨hfiles, hleft, hpending⟩ := foldl_note_spec ⟨pending, found⟩ hlisted
  have hsame := Reordered.of_perm horder
  refine ⟨fun names hmem => ?_, ?_, ?_⟩
  · exact (hpending names hmem).elim (fun hold => h.there names (List.mem_cons_of_mem _ hold)) id
  · have hbefore : (all (.dir entries) ⟨above :: pending, found⟩).Perm
        (all (.dir entries) ⟨pending, found⟩ ++ (dataFilesIn below).map (above ++ ·)) := by
      simp only [all, List.flatMap_cons, Node.filesAt, hget, List.append_assoc]
      exact List.perm_append_comm.append_left _
    exact hfiles.trans (((hsame.dataFilesIn.map _).append_left _).trans
      (hbefore.symm.trans h.files))
  · have hbefore : steps + ((directoriesIn below).length + 1 + FileSearch.left (.dir entries)
        ⟨pending, found⟩) = (directoriesIn entries).length + 1 := by
      simpa only [FileSearch.left, List.map_cons, List.sum_cons, Node.directoriesAt, hget]
        using h.left
    rw [hleft, hsame.directoriesIn.length_eq]
    omega

/-- The invariant holds after any number of steps. -/
theorem After.sound (h : After files root steps s) : Sound entries steps s := by
  induction h with
  | start => exact sound_start
  | step _ hstep ih => exact ih.step hroot hproper hreach hstep

/-- A search goes on as long as there is a directory left. -/
lemma Sound.exists_step_iff (h : Sound entries steps s) :
    (∃ s', Step files root s s') ↔ s.pending ≠ [] := by
  constructor
  · rintro ⟨_, ⟨_, _⟩⟩
    exact List.cons_ne_nil _ _
  · intro hne
    obtain ⟨pending, found⟩ := s
    obtain ⟨above, rest, rfl⟩ := List.exists_cons_of_ne_nil hne
    obtain ⟨below, hget⟩ := h.there above List.mem_cons_self
    exact ⟨_, .look (list_above hroot hproper hreach hget) (List.Perm.refl below)⟩

end

/-- A search that has come to its end found the files of the walk. -/
lemma Sound.result_eq (h : Sound entries steps s) (hend : s.pending = []) :
    s.result = dataPathsIn entries := by
  have hfiles := h.files
  rw [all, hend, List.flatMap_nil, List.append_nil] at hfiles
  exact sorted_eq_of_perm (hfiles.map _)

end FileSearch

/-! ## The list of files -/

lemma mem_dataPathsIn_iff {path : String} {entries : List (String × Node)}
    (hproper : properIn entries = true) : path ∈ dataPathsIn entries ↔
      ∃ above stem content modified, stem ≠ "" ∧
        (Node.dir entries).get? (above ++ [stem ++ ".csv"]) = some (.file content modified) ∧
        path = Path.ofNames (above ++ [stem ++ ".csv"]) := by
  rw [dataPathsIn, List.mem_mergeSort, List.mem_map]
  constructor
  · rintro ⟨names, hmem, rfl⟩
    obtain ⟨hname, content, modified, hget⟩ := (mem_dataFilesIn_iff hproper).mp hmem
    obtain ⟨above, stem, hstem, rfl⟩ := endsInDataName_iff.mp hname
    exact ⟨above, stem, content, modified, hstem, hget, rfl⟩
  · rintro ⟨above, stem, content, modified, hstem, hget, rfl⟩
    exact ⟨_, (mem_dataFilesIn_iff hproper).mpr
      ⟨endsInDataName_iff.mpr ⟨above, stem, hstem, rfl⟩, content, modified, hget⟩, rfl⟩

/-- Different entries have different paths. -/
lemma names_eq_of_ofNames {entries : List (String × Node)} {names names' : List String}
    {node node' : Node} (hproper : properIn entries = true)
    (hget : (Node.dir entries).get? names = some node)
    (hget' : (Node.dir entries).get? names' = some node')
    (heq : Path.ofNames names = Path.ofNames names') : names = names' :=
  Path.ofNames_injective (Node.proper_of_get? (Node.proper_dir.mpr hproper) hget).2
    (Node.proper_of_get? (Node.proper_dir.mpr hproper) hget').2 heq

/-- The list of files is in strict order. -/
lemma pairwise_dataPathsIn {entries : List (String × Node)} (hproper : properIn entries = true) :
    (dataPathsIn entries).Pairwise (· < ·) := by
  have hnodup : ((dataFilesIn entries).map Path.ofNames).Nodup := by
    refine (nodup_dataFilesIn hproper).map_on fun names hmem names' hmem' heq => ?_
    obtain ⟨-, _, _, hget⟩ := (mem_dataFilesIn_iff hproper).mp hmem
    obtain ⟨-, _, _, hget'⟩ := (mem_dataFilesIn_iff hproper).mp hmem'
    exact names_eq_of_ofNames hproper hget hget' heq
  have hnodup' : (dataPathsIn entries).Nodup := (List.mergeSort_perm _ _).nodup_iff.mpr hnodup
  exact ((pairwise_sorted _).and hnodup').imp fun h => lt_of_le_of_ne h.1 h.2

/-- The files of a dataset are numbered in the order of the list. -/
lemma numbered_of_scanDataset {files : FileTree} {root : String} {policy : SidecarPolicy}
    {request : ScanRequest} {paths : List String} {scans : List (PartitionScan Float)}
    (hlist : listDataFiles files root = .ok paths)
    (h : scanDataset files root policy request = .ok scans) :
    scans.map (fun scan => (scan.path, scan.partition)) =
      paths.zipIdx.map fun (path, partition) => (some (Path.join root path), partition) := by
  obtain ⟨paths', hlist', hscans⟩ := scanDataset_eq_ok_iff.mp h
  rw [hlist] at hlist'
  obtain rfl := Except.ok.inj hlist'
  clear h
  generalize paths.zipIdx = numbered at hscans ⊢
  induction hscans with
  | nil => rfl
  | cons hscan _ ih =>
    rw [List.map_cons, List.map_cons, ih]
    obtain ⟨_, _, _, rfl⟩ | ⟨_, hfile⟩ := scanPartition_cases hscan
    · rfl
    · obtain ⟨hpartition, hpath, -⟩ := scanFile_cases hfile
      rw [hpartition, hpath]

/-- **Finding the files of a dataset.**  Let the names in a tree be proper, and let every directory
below the given one be within reach.  Then the files of ticks are listed: exactly those that have
the extension and a name before it, at any depth, each once, and in the order of their paths.  A
directory is never listed, whatever its name.  A scan numbers the files in this order.

A search with a stack finds the same.  Whatever the order in which directories give their entries,
it goes on until its stack is empty, which takes as many steps as there are directories, and it has
then found these files.  In a tree that differs in the order of entries only, the list is the same,
and so are the digest of the dataset, the scans with their numbers, and what they are merged to. -/
theorem discovery_complete {files : FileTree} {root : String} {entries : List (String × Node)}
    (hproper : files.top.proper = true) (hroot : files.list root = .ok entries)
    (hreach : outOfReach? root entries = none) :
    ∃ paths, listDataFiles files root = .ok paths ∧
      (∀ path, path ∈ paths ↔ ∃ above stem content modified, stem ≠ "" ∧
        (Node.dir entries).get? (above ++ [stem ++ ".csv"]) = some (.file content modified) ∧
        path = Path.ofNames (above ++ [stem ++ ".csv"])) ∧
      paths.Pairwise (· < ·) ∧
      (∀ names below, (Node.dir entries).get? names = some (.dir below) →
        Path.ofNames names ∉ paths) ∧
      (∀ policy request scans, scanDataset files root policy request = .ok scans →
        scans.map (fun scan => (scan.path, scan.partition)) =
          paths.zipIdx.map fun (path, partition) => (some (Path.join root path), partition)) ∧
      (∀ steps s, FileSearch.After files root steps s →
        ((∃ s', FileSearch.Step files root s s') ↔ s.pending ≠ []) ∧
        steps ≤ (directoriesIn entries).length + 1 ∧
        (s.pending = [] → steps = (directoriesIn entries).length + 1 ∧ s.result = paths)) ∧
      ∀ files', files.Reordered files' →
        listDataFiles files' root = .ok paths ∧
        datasetDigest files' root = datasetDigest files root ∧
        ∀ policy request,
          scanDataset files' root policy request = scanDataset files root policy request ∧
          ∀ s, (scanDataset files' root policy request).map (Replay.merge s) =
            (scanDataset files root policy request).map (Replay.merge s) := by
  have hentries : properIn entries = true := by
    obtain ⟨names, -, hget⟩ := FileTree.find_eq_ok_iff.mp (FileTree.list_eq_ok_iff.mp hroot)
    exact Node.proper_dir.mp (Node.proper_of_get? hproper hget).1
  have hlist : listDataFiles files root = .ok (dataPathsIn entries) := by
    simp only [listDataFiles, hroot, hreach]
  refine ⟨dataPathsIn entries, hlist, fun path => mem_dataPathsIn_iff hentries,
    pairwise_dataPathsIn hentries, ?_, fun policy request scans => numbered_of_scanDataset hlist,
    ?_, ?_⟩
  · intro names below hget hmem
    obtain ⟨above, stem, content, modified, -, hfile, heq⟩ := (mem_dataPathsIn_iff hentries).mp hmem
    rw [names_eq_of_ofNames hentries hget hfile heq, hfile] at hget
    cases hget
  · intro steps s hafter
    have hsound := hafter.sound hroot hentries hreach
    have hleft := hsound.left
    refine ⟨hsound.exists_step_iff hroot hentries hreach, by omega, fun hend => ?_⟩
    rw [FileSearch.left, hend] at hleft
    exact ⟨hleft, hsound.result_eq hend⟩
  · intro files' hsame
    obtain ⟨entries', hroot', hreordered⟩ := hsame.list hproper hroot
    have hlist' : listDataFiles files' root = .ok (dataPathsIn entries) := by
      simp only [listDataFiles, hroot', hreordered.outOfReach? hreach, hreordered.dataPathsIn]
    have hscan (policy : SidecarPolicy) (request : ScanRequest) :
        scanDataset files' root policy request = scanDataset files root policy request := by
      simp only [scanDataset, hlist, hlist', hsame.scanPartition hproper]
    refine ⟨hlist', ?_, fun policy request => ⟨hscan policy request, fun s => ?_⟩⟩
    · simp only [datasetDigest, hlist, hlist', funext (hsame.fileStamp hproper root)]
    · rw [hscan]

/-! ## A directory with the name of a file -/

/-- A file of ticks, and a directory that is named like one. -/
def nestedEntries : List (String × Node) :=
  [("x.csv", .dir [("notes.txt", .file [] 3), ("b.csv", .file [98] 2)]), ("a.csv", .file [97] 1)]

/-- These entries in a tree. -/
def nestedFiles : FileTree := ⟨.dir [("data", .dir nestedEntries)], []⟩

/-- The same tree with all entries the other way round. -/
def nestedBackwards : FileTree :=
  ⟨.dir [("data", .dir [("a.csv", .file [97] 1),
    ("x.csv", .dir [("b.csv", .file [98] 2), ("notes.txt", .file [] 3)])])], []⟩

/-- The file in the directory is found, the directory is not listed, and a search that comes upon
the files in their order ends after two steps. -/
theorem discovery_complete_nestedFiles :
    nestedFiles.top.proper = true ∧ nestedFiles.list "data" = .ok nestedEntries ∧
      outOfReach? "data" nestedEntries = none ∧ nestedFiles.Reordered nestedBackwards ∧
      listDataFiles nestedFiles "data" = .ok ["a.csv", "x.csv/b.csv"] ∧
      listDataFiles nestedBackwards "data" = .ok ["a.csv", "x.csv/b.csv"] ∧
      datasetDigest nestedBackwards "data" = datasetDigest nestedFiles "data" ∧
      ∃ s, FileSearch.After nestedFiles "data" 2 s ∧
        s.found = [["a.csv"], ["x.csv", "b.csv"]] ∧ s.pending = [] ∧
        s.result = ["a.csv", "x.csv/b.csv"] := by
  have hproper : nestedFiles.top.proper = true := by decide
  have hroot : nestedFiles.list "data" = .ok nestedEntries := rfl
  have hreach : outOfReach? "data" nestedEntries = none := by decide +kernel
  have hsame : nestedFiles.Reordered nestedBackwards := by
    refine ⟨.dir (.dir "data" ?_ .nil), rfl⟩
    exact .trans (.swap _ _ _) (.file _ _ _ (.dir _ (.swap _ _ _) .nil))
  have hpaths : dataPathsIn nestedEntries = ["a.csv", "x.csv/b.csv"] :=
    (sorted_eq_of_perm (List.Perm.swap "a.csv" "x.csv/b.csv" [])).trans
      (List.mergeSort_of_pairwise (by decide))
  obtain ⟨paths, hlist, -, -, -, -, hsearch, hturned⟩ := discovery_complete hproper hroot hreach
  have hlisted : listDataFiles nestedFiles "data" = .ok ["a.csv", "x.csv/b.csv"] := by
    simp only [listDataFiles, hroot, hreach, hpaths]
  obtain rfl := Except.ok.inj (hlist.symm.trans hlisted)
  obtain ⟨hlist', hdigest, -⟩ := hturned nestedBackwards hsame
  have hfirst : FileSearch.Step nestedFiles "data" .start ⟨[["x.csv"]], [["a.csv"]]⟩ :=
    .look hroot (List.Perm.refl nestedEntries)
  have hsecond : FileSearch.Step nestedFiles "data" ⟨[["x.csv"]], [["a.csv"]]⟩
      ⟨[], [["a.csv"], ["x.csv", "b.csv"]]⟩ :=
    .look (FileSearch.list_above hroot (by decide) hreach rfl)
      (List.Perm.refl [("notes.txt", .file [] 3), ("b.csv", .file [98] 2)])
  have hafter := FileSearch.After.step (.step .start hfirst) hsecond
  obtain ⟨-, -, hend⟩ := hsearch 2 _ hafter
  exact ⟨hproper, hroot, hreach, hsame, hlist, hlist', hdigest, _, hafter, rfl, rfl, (hend rfl).2⟩

end MarketTape
