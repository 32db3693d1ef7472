import Mathlib.Data.List.Infix
import Mathlib.Tactic.Common
import MarketTape.Dataset

/-!
# What writing a file leaves alone

Writing a file puts it at the names that its path leads to, and those lead through directories that
are there and not to a directory.  Everything that could be reached before can still be reached, and
every other file has the content it had.

* `Node.Writable` are the names that a file can be put at.
* `Node.Writable.get?_file` and `Node.Writable.get?_dir` compare what lies at any names before and
  after; `FileTree.locate_put` and `FileTree.find_put` do it for paths.
* `listDataFiles_put` compares the files of a dataset: the list stays as it is unless the written
  file is one of them.
* `FileTree.write_write` makes two writes to one path into one.
-/

namespace MarketTape

/-! ## Following names -/

namespace Node

/-- A file can be put at these names: they lead through directories, and not to a directory. -/
inductive Writable : Node → List String → Prop where
  | here {entries : List (String × Node)} {name : String}
    (hchild : ∀ sub, child? name entries ≠ some (dir sub)) : Writable (dir entries) [name]
  | inside {entries : List (String × Node)} {name : String} {node : Node} {rest : List String}
    (hchild : child? name entries = some node) (hrest : Writable node rest) :
    Writable (dir entries) (name :: rest)

variable {node new : Node} {target names : List String}

lemma Writable.exists_cons (h : node.Writable target) :
    ∃ entries name rest, node = dir entries ∧ target = name :: rest := by
  cases h with
  | here => exact ⟨_, _, _, rfl, rfl⟩
  | inside => exact ⟨_, _, _, rfl, rfl⟩

lemma get?_cons (entries : List (String × Node)) (name : String) (rest : List String) :
    (dir entries).get? (name :: rest) = (child? name entries).bind (·.get? rest) := by
  rw [get?]
  cases child? name entries <;> rfl

lemma writable_of_get? {name : String} {entries : List (String × Node)}
    (hchild : ∀ sub, child? name entries ≠ some (dir sub)) : ∀ (parent : List String) (node : Node),
    node.get? parent = some (dir entries) → node.Writable (parent ++ [name])
  | [], node, h => by
    rw [get?] at h
    obtain rfl := Option.some.inj h
    exact .here hchild
  | first :: parent, file _ _, h => by cases h
  | first :: parent, dir _, h => by
    rw [get?_cons] at h
    obtain ⟨node, hnode, hget⟩ := Option.bind_eq_some_iff.mp h
    exact .inside hnode (writable_of_get? hchild parent node hget)

lemma set_dir (entries : List (String × Node)) (name : String) (rest : List String) (new : Node) :
    (dir entries).set (name :: rest) new =
      dir (setChild name (((child? name entries).getD (dir [])).set rest new) entries) := rfl

/-- Every other file keeps its content. -/
lemma Writable.get?_file (h : node.Writable target) {content : List UInt8} {modified : Int}
    (hfile : node.get? names = some (file content modified)) (hne : names ≠ target) :
    (node.set target new).get? names = some (file content modified) := by
  induction h generalizing names with
  | @here entries name hchild =>
    cases names with
    | nil => cases hfile
    | cons first rest =>
      rw [get?_cons] at hfile
      rw [set_dir, get?_cons, child?_setChild]
      split
      · next heq =>
        subst heq
        obtain ⟨sub, hsub, hget⟩ := Option.bind_eq_some_iff.mp hfile
        -- nothing lies below what the written file replaces
        cases sub with
        | dir entries => exact absurd hsub (hchild entries)
        | file _ _ =>
          cases rest with
          | nil => exact absurd rfl hne
          | cons _ _ => cases hget
      · exact hfile
  | @inside entries name sub rest hchild hrest ih =>
    cases names with
    | nil => cases hfile
    | cons first names =>
      rw [get?_cons] at hfile
      rw [set_dir, get?_cons, child?_setChild, hchild]
      split
      · next heq =>
        subst heq
        rw [hchild] at hfile
        exact ih hfile fun heq => hne (by rw [heq])
      · exact hfile

/-- Every directory stays a directory, and only those on the way to the written file change. -/
lemma Writable.get?_dir (h : node.Writable target) {entries : List (String × Node)}
    (hdir : node.get? names = some (dir entries)) (new : Node) :
    (∃ rest, target = names ++ rest ∧ (dir entries).Writable rest ∧
      (node.set target new).get? names = some ((dir entries).set rest new)) ∨
    ¬ names <+: target ∧ (node.set target new).get? names = some (dir entries) := by
  induction h generalizing names with
  | @here others name hchild =>
    cases names with
    | nil =>
      cases hdir
      exact .inl ⟨[name], rfl, .here hchild, rfl⟩
    | cons first rest =>
      rw [get?_cons] at hdir
      rw [set_dir, get?_cons, child?_setChild]
      split
      · next heq =>
        subst heq
        obtain ⟨sub, hsub, hget⟩ := Option.bind_eq_some_iff.mp hdir
        cases sub with
        | dir entries => exact absurd hsub (hchild entries)
        | file _ _ => cases rest <;> cases hget
      · next hne =>
        refine .inr ⟨fun hprefix => hne ?_, hdir⟩
        exact (List.cons_prefix_cons.mp hprefix).1
  | @inside others name sub rest hchild hrest ih =>
    cases names with
    | nil =>
      cases hdir
      exact .inl ⟨name :: rest, rfl, .inside hchild hrest, rfl⟩
    | cons first names =>
      rw [get?_cons] at hdir
      rw [set_dir, get?_cons, child?_setChild, hchild]
      split
      · next heq =>
        subst heq
        rw [hchild] at hdir
        rcases ih hdir with ⟨more, rfl, hmore, hget⟩ | ⟨hnot, hget⟩
        · exact .inl ⟨more, rfl, hmore, hget⟩
        · exact .inr ⟨fun hprefix => hnot (List.cons_prefix_cons.mp hprefix).2, hget⟩
      · next hne =>
        exact .inr ⟨fun hprefix => hne (List.cons_prefix_cons.mp hprefix).1, hdir⟩

/-- No entry of a directory goes away. -/
lemma Writable.get?_dir_more (h : node.Writable target) {entries : List (String × Node)}
    (hdir : node.get? names = some (dir entries)) (new : Node) :
    ∃ entries', (node.set target new).get? names = some (dir entries') ∧
      ∀ name, (child? name entries).isSome → (child? name entries').isSome := by
  rcases h.get?_dir hdir new with ⟨rest, -, hrest, hget⟩ | ⟨-, hget⟩
  · obtain ⟨_, name, more, hnode, rfl⟩ := hrest.exists_cons
    cases hnode
    rw [set_dir] at hget
    refine ⟨_, hget, fun other hother => ?_⟩
    rw [child?_setChild]
    split
    · rfl
    · exact hother
  · exact ⟨_, hget, fun _ hother => hother⟩

lemma setChild_setChild (name : String) (first second : Node) (entries : List (String × Node)) :
    setChild name second (setChild name first entries) = setChild name second entries := by
  induction entries with
  | nil => simp [setChild]
  | cons entry rest ih =>
    by_cases h : entry.1 = name <;> simp [setChild, h, ih]

lemma Writable.set_set (h : node.Writable target) (first second : Node) :
    (node.set target first).set target second = node.set target second := by
  induction h with
  | here hchild =>
    rw [set_dir, set_dir, set_dir, setChild_setChild]
    rfl
  | inside hchild hrest ih =>
    rw [set_dir, set_dir, set_dir, setChild_setChild, child?_setChild, if_pos rfl, hchild,
      Option.getD_some, Option.getD_some, ih]

end Node

/-! ## Files of a dataset -/

/-- Whether the last of these names is that of a file of ticks. -/
def endsInDataName (names : List String) : Bool := names.getLast?.any isDataName

lemma endsInDataName_cons {name first : String} {rest : List String} :
    endsInDataName (name :: first :: rest) = endsInDataName (first :: rest) := by
  rw [endsInDataName, List.getLast?_cons_cons]
  rfl

/-- An entry that takes the place of one with the same files of ticks. -/
lemma dataFilesIn_setChild {name : String} {new : Node} {entries : List (String × Node)}
    (h : new.dataFiles name = ((Node.child? name entries).map (·.dataFiles name)).getD []) :
    dataFilesIn (Node.setChild name new entries) = dataFilesIn entries := by
  induction entries with
  | nil => simpa [Node.setChild, dataFilesIn, Node.child?] using h
  | cons entry rest ih =>
    obtain ⟨other, old⟩ := entry
    rw [Node.child?] at h
    rw [Node.setChild]
    split at h
    · next heq =>
      subst heq
      rw [if_pos rfl, dataFilesIn, dataFilesIn, h]
      rfl
    · next hne => rw [if_neg hne, dataFilesIn, dataFilesIn, ih h]

lemma directoriesIn_setChild {name : String} {new : Node} {entries : List (String × Node)}
    (h : new.directories name = ((Node.child? name entries).map (·.directories name)).getD []) :
    directoriesIn (Node.setChild name new entries) = directoriesIn entries := by
  induction entries with
  | nil => simpa [Node.setChild, directoriesIn, Node.child?] using h
  | cons entry rest ih =>
    obtain ⟨other, old⟩ := entry
    rw [Node.child?] at h
    rw [Node.setChild]
    split at h
    · next heq =>
      subst heq
      rw [if_pos rfl, directoriesIn, directoriesIn, h]
      rfl
    · next hne => rw [if_neg hne, directoriesIn, directoriesIn, ih h]

namespace Node.Writable

variable {node : Node} {target : List String}

lemma dataFiles_set (h : node.Writable target) (hname : endsInDataName target = false)
    (content : List UInt8) (modified : Int) (name : String) :
    (node.set target (.file content modified)).dataFiles name = node.dataFiles name := by
  induction h generalizing name with
  | @here entries last hchild =>
    have hlast : isDataName last = false := by simpa [endsInDataName] using hname
    rw [set_dir, dataFiles, dataFiles, dataFilesIn_setChild]
    rw [set, dataFiles, hlast]
    cases hold : child? last entries with
    | none => rfl
    | some old =>
      cases old with
      | dir sub => exact absurd hold (hchild sub)
      | file _ _ => simp [dataFiles, hlast]
  | @inside entries first sub rest hchild hrest ih =>
    obtain ⟨_, second, more, -, rfl⟩ := hrest.exists_cons
    rw [endsInDataName_cons] at hname
    rw [set_dir, dataFiles, dataFiles, dataFilesIn_setChild]
    rw [hchild, Option.getD_some, ih hname]
    rfl

lemma directories_set (h : node.Writable target) (content : List UInt8) (modified : Int)
    (name : String) :
    (node.set target (.file content modified)).directories name = node.directories name := by
  induction h generalizing name with
  | @here entries last hchild =>
    rw [set_dir, directories, directories, directoriesIn_setChild]
    rw [set, directories]
    cases hold : child? last entries with
    | none => rfl
    | some old =>
      cases old with
      | dir sub => exact absurd hold (hchild sub)
      | file _ _ => rfl
  | @inside entries first sub rest hchild hrest ih =>
    rw [set_dir, directories, directories, directoriesIn_setChild]
    rw [hchild, Option.getD_some, ih]
    rfl

end Node.Writable

/-! ## Following paths -/

namespace FileTree

/-- The tree with a file put at some names. -/
def put (files : FileTree) (names : List String) (content : List UInt8) : FileTree :=
  { files with top := files.top.set names (.file content 0) }

variable {files : FileTree} {target names : List String} {content : List UInt8}

lemma step_put (h : files.top.Writable target) {part : List Char} {names' : List String}
    (hstep : files.step names part = .ok names') :
    (files.put target content).step names part = .ok names' := by
  unfold step at hstep
  split at hstep
  · cases hstep
  · cases hstep
  · next entries hdir =>
    obtain ⟨entries', hdir', hmore⟩ := h.get?_dir_more hdir (.file content 0)
    dsimp only at hstep
    simp only [step, put, hdir']
    split_ifs at hstep ⊢ with hsame hup hlong
    · exact hstep
    · exact hstep
    · split at hstep
      · next node hchild =>
        obtain ⟨node', hchild'⟩ := Option.isSome_iff_exists.mp (hmore _ (by rw [hchild]; rfl))
        rw [hchild']
        exact hstep
      · cases hstep

lemma follow_put (h : files.top.Writable target) : ∀ (parts : List (List Char)) {names names'},
    files.follow names parts = .ok names' →
      (files.put target content).follow names parts = .ok names'
  | [], _, _, hfollow => hfollow
  | part :: rest, names, names', hfollow => by
    rw [follow] at hfollow ⊢
    split at hfollow
    · next next hstep =>
      rw [step_put h hstep]
      exact follow_put h rest hfollow
    · cases hfollow

lemma locate_put (h : files.top.Writable target) {path : String}
    (hpath : files.locate path = .ok names) :
    (files.put target content).locate path = .ok names := by
  unfold locate at hpath ⊢
  split at hpath
  · cases hpath
  · exact follow_put h _ hpath

lemma find_eq_ok_iff {path : String} {node : Node} :
    files.find path = .ok node ↔
      ∃ names, files.locate path = .ok names ∧ files.top.get? names = some node := by
  unfold find
  cases files.locate path with
  | error e => simp
  | ok names => cases h : files.top.get? names <;> simp [h]

lemma list_eq_ok_iff {path : String} {entries : List (String × Node)} :
    files.list path = .ok entries ↔ files.find path = .ok (.dir entries) := by
  unfold list
  split <;> simp_all

/-- A file that is found and is not the one that was written is found as it was. -/
theorem find_put (h : files.top.Writable target) {path : String} {old : List UInt8} {modified : Int}
    (hfind : files.find path = .ok (.file old modified)) (hapart : files.locate path ≠ .ok target) :
    (files.put target content).find path = .ok (.file old modified) := by
  obtain ⟨names, hlocate, hnode⟩ := find_eq_ok_iff.mp hfind
  have hne : names ≠ target := by
    rintro rfl
    exact hapart hlocate
  exact find_eq_ok_iff.mpr ⟨names, locate_put h hlocate, h.get?_file hnode hne⟩

/-- The entries of a directory keep their files of ticks, unless one was written there. -/
lemma list_put (h : files.top.Writable target) {root : String} {entries : List (String × Node)}
    (hlist : files.list root = .ok entries)
    (hapart : ∀ names rest, files.locate root = .ok names → target = names ++ rest →
      endsInDataName rest = false) (content : List UInt8) :
    ∃ entries', (files.put target content).list root = .ok entries' ∧
      dataFilesIn entries' = dataFilesIn entries ∧
      directoriesIn entries' = directoriesIn entries := by
  obtain ⟨names, hlocate, hnode⟩ := find_eq_ok_iff.mp (list_eq_ok_iff.mp hlist)
  have hlist' {entries'} (hget : (files.put target content).top.get? names = some (.dir entries')) :
      (files.put target content).list root = .ok entries' :=
    list_eq_ok_iff.mpr (find_eq_ok_iff.mpr ⟨names, locate_put h hlocate, hget⟩)
  rcases h.get?_dir hnode (.file content 0) with ⟨rest, htarget, hrest, hget⟩ | ⟨-, hget⟩
  · obtain ⟨_, name, more, hdir, rfl⟩ := hrest.exists_cons
    cases hdir
    have hfiles := hrest.dataFiles_set (hapart names _ hlocate htarget) content 0 ""
    have hdirectories := hrest.directories_set content 0 ""
    rw [Node.set_dir, Node.dataFiles, Node.dataFiles] at hfiles
    rw [Node.set_dir, Node.directories, Node.directories, List.cons.injEq] at hdirectories
    have hinjective := List.map_injective_iff.mpr (List.cons_injective (a := ""))
    exact ⟨_, hlist' hget, hinjective hfiles, hinjective hdirectories.2⟩
  · exact ⟨entries, hlist' hget, rfl, rfl⟩

/-- A file of ticks that is written into a dataset is the only way to change its list. -/
theorem listDataFiles_put (h : files.top.Writable target) {root : String} {paths : List String}
    (hlist : listDataFiles files root = .ok paths)
    (hapart : ∀ names rest, files.locate root = .ok names → target = names ++ rest →
      endsInDataName rest = false) (content : List UInt8) :
    listDataFiles (files.put target content) root = .ok paths := by
  unfold listDataFiles at hlist ⊢
  split at hlist
  · cases hlist
  · next entries hentries =>
    obtain ⟨entries', hentries', hfiles, hdirectories⟩ := list_put h hentries hapart content
    simp only [hentries']
    rw [outOfReach?, hdirectories, dataPathsIn, hfiles]
    exact hlist

/-! ## Writing -/

lemma target_cases {path : String} (h : files.target path = .ok names) :
    ∃ parent entries name, names = parent ++ [name] ∧
      files.top.get? parent = some (.dir entries) ∧
      ∀ sub, Node.child? name entries ≠ some (.dir sub) := by
  unfold target at h
  split at h
  · cases h
  · dsimp only at h
    split at h
    · cases h
    · next parent _ =>
      split at h
      · cases h
      · cases h
      · next entries hdir =>
        split_ifs at h
        split at h
        · cases h
        · next hchild =>
          cases h
          exact ⟨parent, entries, _, rfl, hdir, fun sub hsub => hchild sub hsub⟩

lemma writable_of_target {path : String} (h : files.target path = .ok names) :
    files.top.Writable names := by
  obtain ⟨parent, entries, name, rfl, hdir, hchild⟩ := target_cases h
  exact Node.writable_of_get? hchild parent files.top hdir

lemma write_eq_ok_iff {path : String} {files' : FileTree} :
    files.write path content = .ok files' ↔
      ∃ names, files.target path = .ok names ∧ files' = files.put names content := by
  unfold write
  cases files.target path with
  | error e => simp
  | ok names =>
    simp only [Except.ok.injEq, exists_eq_left']
    exact eq_comm

/-- Once a file is written, its path leads to it. -/
lemma target_put {path : String} (h : files.target path = .ok target) :
    (files.put target content).target path = .ok target := by
  have hwritable := writable_of_target h
  unfold FileTree.target at h ⊢
  split at h
  · cases h
  · dsimp only at h ⊢
    split at h
    · cases h
    · next parent hfollow =>
      have hsplit : (files.put target content).split path = files.split path := rfl
      rw [hsplit, follow_put hwritable _ hfollow]
      split at h
      · cases h
      · cases h
      · next entries hdir =>
        split_ifs at h with hlast hlong
        split at h
        · cases h
        · cases h
          rcases hwritable.get?_dir hdir (.file content 0) with
            ⟨rest, hrest, -, hget⟩ | ⟨hnot, -⟩
          · obtain rfl := List.append_cancel_left hrest
            rw [Node.set_dir, Node.set] at hget
            simp only [put, hget, if_neg hlast, if_neg hlong, Node.child?_setChild, if_pos]
          · exact absurd (List.prefix_append _ _) hnot

/-- The second of two writes to one path is the only one that counts. -/
theorem write_write {path : String} {second : List UInt8} {files' files'' : FileTree}
    (hfirst : files.write path content = .ok files')
    (hsecond : files'.write path second = .ok files'') : files.write path second = .ok files'' := by
  obtain ⟨names, htarget, rfl⟩ := write_eq_ok_iff.mp hfirst
  obtain ⟨names', htarget', rfl⟩ := write_eq_ok_iff.mp hsecond
  rw [target_put htarget] at htarget'
  cases htarget'
  refine write_eq_ok_iff.mpr ⟨names, htarget, ?_⟩
  simp only [put, (writable_of_target htarget).set_set]

end FileTree

end MarketTape
