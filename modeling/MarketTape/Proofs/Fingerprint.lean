import Mathlib.Data.List.Sort
import MarketTape.Proofs.Discovery
import MarketTape.Proofs.Encoding

/-!
# Telling datasets apart by their bytes

The signature of a dataset digests one sequence of bytes: for every file its path and a zero byte,
its size, and its time, one file behind the other.  Nothing says how many files there are or how
long a path is.  It need not: a path ends at the first zero byte, since no name holds the zero
character, and what follows has a fixed width, so that a file ends where it says it does.  The bytes
then give back every file, and two datasets have the same bytes only if they are the same, file by
file.

* `FileStamp.Sealed` are the stamps that files can have, and `FileStamp.prefixFree_bytes` says that
  one can be taken off the front of a sequence of bytes; `datasetBytes_inj` is what follows for all
  files of a dataset.
* `stampAt?` is the stamp of the file of ticks under some names, and `datasetStamps` are the stamps
  that a signature is made of.  `Stamping.mem_iff` says that they are those of all files of ticks.
* `dataset_bytes_unambiguous` is the result.
-/

namespace MarketTape

/-! ## Stamps as bytes -/

namespace FileStamp

/-- A stamp as a file can have it: no zero character in the path, a size of 64 bits and a time of
128. -/
structure Sealed (s : FileStamp) : Prop where
  path : '\x00' ∉ s.path.toList
  size : s.size < 2 ^ 64
  modified : -2 ^ 127 ≤ s.modified ∧ s.modified < 2 ^ 127

/-- What follows the path of a file. -/
def fixedBytes (s : FileStamp) : List UInt8 :=
  Digest.littleEndian 8 s.size ++ Digest.signed 16 s.modified

lemma bytes_eq (s : FileStamp) : s.bytes = Node.bytesOf s.path ++ 0 :: s.fixedBytes := rfl

lemma length_fixedBytes (s : FileStamp) : s.fixedBytes.length = 24 := by
  simp [fixedBytes]

/-- A stamp can be taken off the front of a sequence of bytes in one way only. -/
theorem prefixFree_bytes : PrefixFree Sealed bytes where
  nonempty s _ := List.append_ne_nil_of_right_ne_nil _ (List.cons_ne_nil _ _)
  append_inj s s' rest rest' hs hs' h := by
    rw [bytes_eq, bytes_eq] at h
    obtain ⟨hpath, hfixed, hrest⟩ := framed_append_inj hs.path hs'.path
      (by rw [length_fixedBytes, length_fixedBytes]) h
    obtain ⟨hsize, htime⟩ := List.append_inj hfixed (by
      rw [Digest.length_littleEndian, Digest.length_littleEndian])
    have hsizes := Digest.littleEndian_inj hs.size hs'.size hsize
    have htimes : s.modified = s'.modified := by
      have hrange := hs.modified
      have hrange' := hs'.modified
      exact Digest.signed_inj_of_near (by omega) htime
    obtain ⟨path, size, modified⟩ := s
    obtain ⟨path', size', modified'⟩ := s'
    simp only at hpath hsizes htimes
    subst hpath hsizes htimes
    exact ⟨rfl, hrest⟩

end FileStamp

/-- The bytes of stamps give back the stamps. -/
lemma datasetBytes_inj {stamps stamps' : List FileStamp} (h : ∀ s ∈ stamps, s.Sealed)
    (h' : ∀ s ∈ stamps', s.Sealed) (heq : datasetBytes stamps = datasetBytes stamps') :
    stamps = stamps' :=
  FileStamp.prefixFree_bytes.flatMap_inj h h' heq

/-! ## The files of a dataset -/

/-- The stamp of the file of ticks under these names, if there is one. -/
def stampAt? (entries : List (String × Node)) (names : List String) : Option FileStamp :=
  match endsInDataName names, (Node.dir entries).get? names with
  | true, some (.file content modified) => some ⟨Path.ofNames names, content.length, modified⟩
  | _, _ => none

/-- The stamps of all files of ticks of a dataset. -/
def stampsOf (entries : List (String × Node)) : Set FileStamp :=
  {s | ∃ names, stampAt? entries names = some s}

/-- The stamps that the signature of a dataset is made of, in their order. -/
def datasetStamps (files : FileTree) (root : String) : Except Error (List FileStamp) :=
  match listDataFiles files root with
  | .error e => .error e
  | .ok paths => paths.mapM (fileStamp files root)

/-- The signature digests the bytes of the stamps. -/
lemma datasetDigest_eq (files : FileTree) (root : String) : datasetDigest files root =
    (datasetStamps files root).map fun stamps => Digest.of (datasetBytes stamps) := by
  unfold datasetDigest datasetStamps
  cases listDataFiles files root <;> rfl

variable {files files' : FileTree} {root root' path : String} {names : List String}
  {entries entries' : List (String × Node)} {stamps stamps' : List FileStamp} {s : FileStamp}

lemma stampAt?_eq_some_iff : stampAt? entries names = some s ↔ endsInDataName names = true ∧
    ∃ content modified, (Node.dir entries).get? names = some (.file content modified) ∧
      s = ⟨Path.ofNames names, content.length, modified⟩ := by
  unfold stampAt?
  split
  · next content modified hname hget => simp [hname, hget, eq_comm]
  · next hnot =>
    simp only [reduceCtorEq, false_iff, not_and, not_exists]
    rintro hname content modified hget rfl
    exact hnot content modified hname hget

lemma fileStamp_eq_ok_iff : fileStamp files root path = .ok s ↔ ∃ content modified,
    files.find (Path.join root path) = .ok (.file content modified) ∧
      s = ⟨path, content.length, modified⟩ := by
  unfold fileStamp
  split
  · next hfind => simp [hfind]
  · next content modified hfind => simp [hfind, eq_comm]
  · next hfind => simp [hfind]

lemma FileTree.flawOf?_of_find {node : Node} (h : files.find path = .ok node) :
    FileTree.flawOf? path = none := by
  obtain ⟨names, hlocate, -⟩ := FileTree.find_eq_ok_iff.mp h
  unfold FileTree.locate at hlocate
  split at hlocate
  · cases hlocate
  · assumption

/-- A path that leads to a file holds no zero character. -/
lemma zero_not_mem_of_find {node : Node} (hhead : path.toList.head? ≠ some '/')
    (h : files.find (Path.join root path) = .ok node) : '\x00' ∉ path.toList := by
  have hflaw := FileTree.flawOf?_of_find h
  rw [Path.join_eq hhead] at hflaw
  intro hzero
  unfold FileTree.flawOf? at hflaw
  split_ifs at hflaw with hempty hnul hlong
  refine hnul ?_
  rw [List.contains_eq_mem, decide_eq_true_eq, String.toList_append]
  exact List.mem_append_right _ hzero

/-- A dataset that was stamped: its files have names of their own, sizes of 64 bits and times of
128. -/
structure Stamping (files : FileTree) (root : String) (entries : List (String × Node))
    (stamps : List FileStamp) : Prop where
  proper : files.top.proper = true
  list : files.list root = .ok entries
  stamped : datasetStamps files root = .ok stamps
  inRange : ∀ s ∈ stamps, s.size < 2 ^ 64 ∧ -2 ^ 127 ≤ s.modified ∧ s.modified < 2 ^ 127

namespace Stamping

lemma entries_proper (h : Stamping files root entries stamps) : properIn entries = true := by
  obtain ⟨names, -, hget⟩ := FileTree.find_eq_ok_iff.mp (FileTree.list_eq_ok_iff.mp h.list)
  exact Node.proper_dir.mp (Node.proper_of_get? h.proper hget).1

lemma mapM_eq (h : Stamping files root entries stamps) :
    (dataPathsIn entries).mapM (fileStamp files root) = .ok stamps := by
  have hstamps := h.stamped
  unfold datasetStamps listDataFiles at hstamps
  rw [h.list] at hstamps
  cases hreach : outOfReach? root entries with
  | some problem => simp [hreach] at hstamps
  | none => simpa [hreach] using hstamps

/-- The names that lead to a file of ticks are written as a path that does not start at the root. -/
lemma names_of_stampAt? (hproper : properIn entries = true)
    (hstamp : stampAt? entries names = some s) : names ≠ [] ∧ ∀ name ∈ names, EntryName name := by
  obtain ⟨hname, content, modified, hget, -⟩ := stampAt?_eq_some_iff.mp hstamp
  refine ⟨?_, (Node.proper_of_get? (Node.proper_dir.mpr hproper) hget).2⟩
  rintro rfl
  cases hname

/-- What is stamped under a path is the file that its names lead to. -/
lemma stamp_eq (h : Stamping files root entries stamps) {s' : FileStamp}
    (hstamp : stampAt? entries names = some s')
    (hfile : fileStamp files root (Path.ofNames names) = .ok s) : s = s' := by
  obtain ⟨hne, hnames⟩ := names_of_stampAt? h.entries_proper hstamp
  obtain ⟨-, content, modified, hget, rfl⟩ := stampAt?_eq_some_iff.mp hstamp
  obtain ⟨content', modified', hfind, rfl⟩ := fileStamp_eq_ok_iff.mp hfile
  have hroot := FileTree.list_eq_ok_iff.mp h.list
  have hreach := FileTree.flawOf?_of_find hfind
  rw [← Path.foldl_join root hne hnames] at hfind hreach
  have hbelow :=
    FileTree.find_below hroot (Node.proper_dir.mpr h.entries_proper) hget hreach
  rw [hfind] at hbelow
  obtain ⟨rfl, rfl⟩ := Node.file.inj (Except.ok.inj hbelow)
  rfl

/-- The stamps are those of the files of ticks. -/
theorem mem_iff (h : Stamping files root entries stamps) : s ∈ stamps ↔ s ∈ stampsOf entries := by
  rw [mem_mapM_iff h.mapM_eq]
  constructor
  · rintro ⟨path, hpath, hfile⟩
    obtain ⟨above, stem, content, modified, hstem, hget, rfl⟩ :=
      (mem_dataPathsIn_iff h.entries_proper).mp hpath
    have hstamp : stampAt? entries (above ++ [stem ++ ".csv"]) = some _ :=
      stampAt?_eq_some_iff.mpr
        ⟨endsInDataName_iff.mpr ⟨above, stem, hstem, rfl⟩, content, modified, hget, rfl⟩
    exact ⟨_, h.stamp_eq hstamp hfile ▸ hstamp⟩
  · rintro ⟨names, hstamp⟩
    obtain ⟨hname, content, modified, hget, -⟩ := stampAt?_eq_some_iff.mp hstamp
    obtain ⟨above, stem, hstem, rfl⟩ := endsInDataName_iff.mp hname
    have hpath := (mem_dataPathsIn_iff h.entries_proper).mpr
      ⟨above, stem, content, modified, hstem, hget, rfl⟩
    obtain ⟨s', hfile⟩ := exists_of_mapM h.mapM_eq _ hpath
    exact ⟨_, hpath, h.stamp_eq hstamp hfile ▸ hfile⟩

/-- The stamps are in the order of their paths. -/
lemma pairwise (h : Stamping files root entries stamps) :
    stamps.Pairwise fun a b => a.path < b.path := by
  have hpaths : dataPathsIn entries = stamps.map (·.path) := by
    rw [← List.forall₂_eq_eq_eq, List.forall₂_map_right_iff]
    refine (mapM_eq_ok_iff.mp h.mapM_eq).imp fun path s hfile => ?_
    obtain ⟨content, modified, -, rfl⟩ := fileStamp_eq_ok_iff.mp hfile
    rfl
  rw [← List.pairwise_map (f := FileStamp.path), ← hpaths]
  exact pairwise_dataPathsIn h.entries_proper

/-- No path of a stamp holds the zero character, and all numbers are in range. -/
lemma sealed (h : Stamping files root entries stamps) : ∀ s ∈ stamps, s.Sealed := by
  intro s hs
  obtain ⟨hsize, hmodified⟩ := h.inRange s hs
  obtain ⟨names, hstamp⟩ := h.mem_iff.mp hs
  obtain ⟨-, hnames⟩ := names_of_stampAt? h.entries_proper hstamp
  obtain ⟨path, -, hfile⟩ := (mem_mapM_iff h.mapM_eq).mp hs
  obtain ⟨content, modified, hfind, rfl⟩ := fileStamp_eq_ok_iff.mp hfile
  obtain ⟨-, _, _, -, heq⟩ := stampAt?_eq_some_iff.mp hstamp
  obtain rfl : path = Path.ofNames names := congrArg FileStamp.path heq
  exact ⟨zero_not_mem_of_find (Path.head?_ofNames hnames) hfind, hsize, hmodified⟩

/-- Datasets with the same stamps have the same stamp under all names. -/
lemma stampAt?_of_subset (hproper : properIn entries = true) (hproper' : properIn entries' = true)
    (hsub : stampsOf entries ⊆ stampsOf entries') (hstamp : stampAt? entries names = some s) :
    stampAt? entries' names = some s := by
  obtain ⟨names', hstamp'⟩ := hsub ⟨names, hstamp⟩
  obtain ⟨-, _, _, -, heq⟩ := stampAt?_eq_some_iff.mp hstamp
  obtain ⟨-, _, _, -, heq'⟩ := stampAt?_eq_some_iff.mp hstamp'
  have hpath : Path.ofNames names = Path.ofNames names' :=
    (congrArg FileStamp.path heq).symm.trans (congrArg FileStamp.path heq')
  rw [Path.ofNames_injective (names_of_stampAt? hproper hstamp).2
    (names_of_stampAt? hproper' hstamp').2 hpath]
  exact hstamp'

/-- Bytes are the same exactly if the stamps of all files are. -/
theorem bytes_eq_iff (h : Stamping files root entries stamps)
    (h' : Stamping files' root' entries' stamps') :
    datasetBytes stamps = datasetBytes stamps' ↔ stampsOf entries = stampsOf entries' := by
  constructor
  · intro hbytes
    obtain rfl := datasetBytes_inj h.sealed h'.sealed hbytes
    ext s
    exact h.mem_iff.symm.trans h'.mem_iff
  · intro hset
    have hmem : ∀ s, s ∈ stamps ↔ s ∈ stamps' := by
      intro s
      rw [h.mem_iff, h'.mem_iff, hset]
    have : Std.Irrefl fun a b : FileStamp => a.path < b.path := ⟨fun a => lt_irrefl a.path⟩
    have : Std.Antisymm fun a b : FileStamp => a.path < b.path :=
      ⟨fun _ _ hab hba => absurd hba (lt_asymm hab)⟩
    rw [h.pairwise.eq_of_mem_iff h'.pairwise hmem]

end Stamping

/-- **The bytes of a dataset are its files.**  Stamps whose paths hold no zero character, with sizes
of 64 bits and times of 128, have the same bytes only if they are the same stamps.  What is digested
for a dataset are the bytes of its stamps; so two datasets are digested by the same bytes exactly if
they have the same files of ticks, each with the same path, size and time.  Where there is a file in
one of them under some names and none in the other, or one of another size or with another time,
the bytes differ. -/
theorem dataset_bytes_unambiguous :
    (∀ stamps stamps' : List FileStamp, (∀ s ∈ stamps ++ stamps', s.Sealed) →
        (datasetBytes stamps = datasetBytes stamps' ↔ stamps = stamps')) ∧
      ∀ files files' root root' entries entries' stamps stamps',
        Stamping files root entries stamps → Stamping files' root' entries' stamps' →
        datasetDigest files root = .ok (Digest.of (datasetBytes stamps)) ∧
        (datasetBytes stamps = datasetBytes stamps' ↔ stampsOf entries = stampsOf entries') ∧
        ∀ names, stampAt? entries names ≠ stampAt? entries' names →
          datasetBytes stamps ≠ datasetBytes stamps' := by
  refine ⟨fun stamps stamps' hsealed => ⟨fun h => ?_, fun h => h ▸ rfl⟩,
    fun files files' root root' entries entries' stamps stamps' h h' => ?_⟩
  · rw [List.forall_mem_append] at hsealed
    exact datasetBytes_inj hsealed.1 hsealed.2 h
  · refine ⟨?_, h.bytes_eq_iff h', fun names hne hbytes => hne ?_⟩
    · rw [datasetDigest_eq, h.stamped]
      rfl
    · have hset := (h.bytes_eq_iff h').mp hbytes
      refine Option.ext fun s => ⟨fun hstamp => ?_, fun hstamp => ?_⟩
      · exact Stamping.stampAt?_of_subset h.entries_proper h'.entries_proper hset.subset hstamp
      · exact Stamping.stampAt?_of_subset h'.entries_proper h.entries_proper hset.superset hstamp

/-- A dataset of one file that was last changed at some time, beside a file that holds no ticks. -/
def datedEntries (modified : Int) : List (String × Node) :=
  [("a.csv", .file [97] modified), ("notes.txt", .file [] 3)]

/-- The dataset in a tree. -/
def datedFiles (modified : Int) : FileTree := ⟨.dir [("data", .dir (datedEntries modified))], []⟩

lemma stamping_datedFiles (modified : Int) (h : -2 ^ 127 ≤ modified ∧ modified < 2 ^ 127) :
    Stamping (datedFiles modified) "data" (datedEntries modified) [⟨"a.csv", 1, modified⟩] where
  proper := rfl
  list := rfl
  stamped := by
    have hlist : (datedFiles modified).list "data" = .ok (datedEntries modified) := rfl
    have hreach : outOfReach? "data" (datedEntries modified) = none := rfl
    have hpaths : dataPathsIn (datedEntries modified) = ["a.csv"] := List.mergeSort_singleton _
    have hjoin : Path.join "data" "a.csv" = "data/a.csv" := by decide +kernel
    have hfile : fileStamp (datedFiles modified) "data" "a.csv" = .ok ⟨"a.csv", 1, modified⟩ :=
      fileStamp_eq_ok_iff.mpr ⟨[97], modified, hjoin ▸ rfl, rfl⟩
    simp only [datasetStamps, listDataFiles, hlist, hreach, hpaths]
    exact mapM_eq_ok_iff.mpr (.cons hfile .nil)
  inRange := by simpa using h

/-- A file that was changed before the year 1970 and one that was changed after it have bytes that
differ, and so have one file and two. -/
theorem dataset_bytes_unambiguous_datedFiles :
    datasetDigest (datedFiles (-1)) "data" =
        .ok (Digest.of (datasetBytes [⟨"a.csv", 1, -1⟩])) ∧
      stampAt? (datedEntries (-1)) ["a.csv"] ≠ stampAt? (datedEntries 255) ["a.csv"] ∧
      datasetBytes [⟨"a.csv", 1, -1⟩] ≠ datasetBytes [⟨"a.csv", 1, 255⟩] ∧
      datasetBytes [⟨"a.csv", 0, 0⟩] ≠ datasetBytes [⟨"a.csv", 0, 0⟩, ⟨"", 0, 0⟩] := by
  have hne : stampAt? (datedEntries (-1)) ["a.csv"] ≠ stampAt? (datedEntries 255) ["a.csv"] := by
    decide +kernel
  have hsealed : ∀ s ∈ [⟨"a.csv", 0, 0⟩] ++ [⟨"a.csv", 0, 0⟩, ⟨"", 0, 0⟩], FileStamp.Sealed s := by
    intro s hs
    have hall : ∀ s ∈ [⟨"a.csv", 0, 0⟩] ++ [⟨"a.csv", 0, 0⟩, (⟨"", 0, 0⟩ : FileStamp)],
        '\x00' ∉ s.path.toList ∧ s.size = 0 ∧ s.modified = 0 := by decide +kernel
    obtain ⟨hpath, hsize, hmodified⟩ := hall s hs
    exact ⟨hpath, by omega, by omega⟩
  obtain ⟨hlists, htrees⟩ := dataset_bytes_unambiguous
  obtain ⟨hdigest, -, hbytes⟩ := htrees _ _ _ _ _ _ _ _
    (stamping_datedFiles (-1) (by decide))
    (stamping_datedFiles 255 (by decide))
  refine ⟨hdigest, hne, hbytes _ hne, ?_⟩
  rw [Ne, hlists _ _ hsealed]
  decide +kernel

end MarketTape
