import MarketTape.Proofs.Paths
import MarketTape.Proofs.Pruning
import MarketTape.Signature

/-!
# The order of entries

A directory gives its entries in some order, and nothing fixes it.  Two trees that differ only in
these orders, in any of their directories, are the same to whoever asks for a path, and they hold
the same files.

* `Reordered` relates the entries of two directories that differ in the order, at any depth, and
  `Node.Reordered` and `FileTree.Reordered` do it for nodes and for trees.
* `Reordered.dataFilesIn` and `Reordered.directoriesIn` say that a walk finds the same.
* `FileTree.Reordered.locate` and `FileTree.Reordered.find` say that a path leads to the same.
-/

namespace MarketTape

/-- The entries of one directory are those of the other in another order, and so on for the entries
below them. -/
inductive Reordered : List (String × Node) → List (String × Node) → Prop where
  | nil : Reordered [] []
  | file {rest rest' : List (String × Node)} (name : String) (content : List UInt8)
    (modified : Int) (hrest : Reordered rest rest') :
    Reordered ((name, .file content modified) :: rest) ((name, .file content modified) :: rest')
  | dir {entries entries' rest rest' : List (String × Node)} (name : String)
    (hentries : Reordered entries entries') (hrest : Reordered rest rest') :
    Reordered ((name, .dir entries) :: rest) ((name, .dir entries') :: rest')
  | swap (first second : String × Node) (rest : List (String × Node)) :
    Reordered (first :: second :: rest) (second :: first :: rest)
  | trans {entries entries' entries'' : List (String × Node)} (h : Reordered entries entries')
    (h' : Reordered entries' entries'') : Reordered entries entries''

/-- The same file, or two directories that differ in the order of entries. -/
inductive Node.Reordered : Node → Node → Prop where
  | file (content : List UInt8) (modified : Int) :
    Node.Reordered (.file content modified) (.file content modified)
  | dir {entries entries' : List (String × Node)} (h : MarketTape.Reordered entries entries') :
    Node.Reordered (.dir entries) (.dir entries')

/-- Two trees that differ in the order of entries, seen from the same directory. -/
structure FileTree.Reordered (files files' : FileTree) : Prop where
  top : files.top.Reordered files'.top
  here : files'.here = files.here

/-! ## What does not depend on the order -/

namespace Reordered

lemma cons {node node' : Node} {rest rest' : List (String × Node)} (name : String)
    (hnode : node.Reordered node') (hrest : Reordered rest rest') :
    Reordered ((name, node) :: rest) ((name, node') :: rest') := by
  cases hnode with
  | file content modified => exact file name content modified hrest
  | dir hentries => exact dir name hentries hrest

mutual

/-- Every node is itself. -/
lemma reordered_self : ∀ node : Node, node.Reordered node
  | .file content modified => .file content modified
  | .dir entries => .dir (refl entries)

lemma refl : ∀ entries : List (String × Node), Reordered entries entries
  | [] => nil
  | (name, node) :: rest => cons name (reordered_self node) (refl rest)

end

variable {entries entries' : List (String × Node)} {name : String}

/-- The entries of two directories in the same order, as far as these are concerned. -/
lemma of_perm (h : entries.Perm entries') : Reordered entries entries' := by
  induction h with
  | nil => exact nil
  | cons entry _ ih => exact cons entry.1 (reordered_self entry.2) ih
  | swap first second rest => exact swap second first rest
  | trans _ _ ih ih' => exact trans ih ih'

lemma dataFilesIn (h : Reordered entries entries') :
    (MarketTape.dataFilesIn entries).Perm (MarketTape.dataFilesIn entries') := by
  induction h with
  | nil => exact List.Perm.refl _
  | file name content modified _ ih => exact ih.append_left _
  | dir name _ _ hbelow ih => exact (hbelow.map _).append ih
  | swap first second rest =>
    simp only [MarketTape.dataFilesIn, ← List.append_assoc]
    exact List.perm_append_comm.append_right _
  | trans _ _ ih ih' => exact ih.trans ih'

lemma directoriesIn (h : Reordered entries entries') :
    (MarketTape.directoriesIn entries).Perm (MarketTape.directoriesIn entries') := by
  induction h with
  | nil => exact List.Perm.refl _
  | file name content modified _ ih => exact ih.append_left _
  | dir name _ _ hbelow ih => exact ((hbelow.map _).cons _).append ih
  | swap first second rest =>
    simp only [MarketTape.directoriesIn, ← List.append_assoc]
    exact List.perm_append_comm.append_right _
  | trans _ _ ih ih' => exact ih.trans ih'

lemma isSome_child? (h : Reordered entries entries') (name : String) :
    (Node.child? name entries).isSome = (Node.child? name entries').isSome := by
  induction h with
  | nil => rfl
  | file other _ _ _ ih => by_cases heq : other = name <;> simp [Node.child?, heq, ih]
  | dir other _ _ _ ih => by_cases heq : other = name <;> simp [Node.child?, heq, ih]
  | swap first second rest =>
    by_cases heq : first.1 = name <;> by_cases heq' : second.1 = name <;>
      simp [Node.child?, heq, heq']
  | trans _ _ ih ih' => exact ih.trans ih'

lemma child?_eq_none_iff (h : Reordered entries entries') :
    Node.child? name entries = none ↔ Node.child? name entries' = none := by
  rw [← Option.not_isSome_iff_eq_none, ← Option.not_isSome_iff_eq_none, h.isSome_child? name]

lemma properIn_iff (h : Reordered entries entries') :
    properIn entries = true ↔ properIn entries' = true := by
  induction h with
  | nil => rfl
  | file name content modified hrest ih =>
    rw [Node.properIn_cons, Node.properIn_cons, ih, hrest.child?_eq_none_iff]
  | dir name _ hrest hbelow ih =>
    rw [Node.properIn_cons, Node.properIn_cons, Node.proper, Node.proper, ih, hbelow,
      hrest.child?_eq_none_iff]
  | swap first second rest =>
    obtain ⟨name, node⟩ := first
    obtain ⟨name', node'⟩ := second
    simp only [Node.properIn_cons, Node.child?]
    by_cases heq : name = name'
    · simp [heq]
    · simp only [heq, Ne.symm heq, if_false]
      tauto
  | trans _ _ ih ih' => exact ih.trans ih'

end Reordered

namespace Node.Reordered

variable {node node' node'' : Node}

lemma trans (h : node.Reordered node') (h' : node'.Reordered node'') : node.Reordered node'' := by
  cases h with
  | file content modified => exact h'
  | dir h =>
    cases h' with
    | dir h' => exact .dir (h.trans h')

lemma rel_self (found : Option Node) : Option.Rel Node.Reordered found found := by
  cases found with
  | none => exact .none
  | some node => exact .some (MarketTape.Reordered.reordered_self node)

lemma rel_trans {found found' found'' : Option Node} (h : Option.Rel Node.Reordered found found')
    (h' : Option.Rel Node.Reordered found' found'') :
    Option.Rel Node.Reordered found found'' := by
  cases h with
  | none => exact h'
  | some h =>
    cases h' with
    | some h' => exact .some (h.trans h')

end Node.Reordered

/-! ## Following names -/

/-- What is found under a name differs in the order only. -/
lemma Reordered.rel_child? {entries entries' : List (String × Node)} (name : String)
    (h : Reordered entries entries') (hproper : properIn entries = true) :
    Option.Rel Node.Reordered (Node.child? name entries) (Node.child? name entries') := by
  induction h with
  | nil => exact .none
  | file other content modified _ ih =>
    rw [Node.child?, Node.child?]
    split
    · exact .some (.file content modified)
    · exact ih (Node.properIn_cons.mp hproper).2.2.2
  | dir other hbelow _ _ ih =>
    rw [Node.child?, Node.child?]
    split
    · exact .some (.dir hbelow)
    · exact ih (Node.properIn_cons.mp hproper).2.2.2
  | swap first second rest =>
    -- at most one of the two has the name
    have hne : second.1 ≠ first.1 := by
      have hfirst := (Node.properIn_cons.mp hproper).2.1
      intro heq
      rw [Node.child?, if_pos heq] at hfirst
      cases hfirst
    simp only [Node.child?]
    split_ifs with hsecond hfirst hfirst
    · exact absurd (hsecond.trans hfirst.symm) (Ne.symm hne)
    all_goals exact Node.Reordered.rel_self _
  | trans h _ ih ih' =>
    exact Node.Reordered.rel_trans (ih hproper) (ih' (h.properIn_iff.mp hproper))

lemma Node.Reordered.rel_get? : ∀ (names : List String) {node node' : Node},
    node.Reordered node' → node.proper = true →
      Option.Rel Node.Reordered (node.get? names) (node'.get? names)
  | [], _, _, h, _ => by
    rw [Node.get?, Node.get?]
    exact .some h
  | _ :: _, _, _, .file _ _, _ => .none
  | first :: rest, .dir entries, .dir entries', .dir h, hproper => by
    rw [Node.proper] at hproper
    rw [Node.get?_cons, Node.get?_cons]
    have hrel := h.rel_child? first hproper
    have hnode : ∀ node ∈ Node.child? first entries, node.proper = true := fun node hchild =>
      (Node.proper_of_mem hproper (Node.child?_mem hchild)).2
    generalize Node.child? first entries = found at hrel hnode ⊢
    generalize Node.child? first entries' = found' at hrel ⊢
    cases hrel with
    | none => exact .none
    | some h => exact h.rel_get? rest (hnode _ rfl)

/-! ## Following paths -/

namespace FileTree.Reordered

variable {files files' : FileTree} {root path : String} {names : List String}

lemma step (h : files.Reordered files') (hproper : files.top.proper = true) (part : List Char) :
    files'.step names part = files.step names part := by
  have hrel := h.top.rel_get? names hproper
  unfold FileTree.step
  generalize files.top.get? names = found at hrel ⊢
  generalize files'.top.get? names = found' at hrel ⊢
  cases hrel with
  | none => rfl
  | some hnode =>
    cases hnode with
    | file content modified => rfl
    | dir hentries =>
      have hsome := hentries.isSome_child? (String.ofList part)
      dsimp only
      split_ifs
      · rfl
      · rfl
      · rfl
      · split <;> split <;> simp_all

lemma follow (h : files.Reordered files') (hproper : files.top.proper = true) :
    ∀ (names : List String) (parts : List (List Char)),
      files'.follow names parts = files.follow names parts
  | _, [] => rfl
  | names, part :: rest => by
    rw [FileTree.follow, FileTree.follow, h.step hproper]
    cases files.step names part with
    | error e => rfl
    | ok names => exact h.follow hproper names rest

/-- A path leads to the same names. -/
theorem locate (h : files.Reordered files') (hproper : files.top.proper = true) (path : String) :
    files'.locate path = files.locate path := by
  have hsplit : files'.split path = files.split path := by
    unfold FileTree.split
    rw [h.here]
  unfold FileTree.locate
  rw [hsplit]
  cases flawOf? path with
  | some problem => rfl
  | none => exact h.follow hproper _ _

/-- A path leads to the same, but for the order of entries. -/
theorem find (h : files.Reordered files') (hproper : files.top.proper = true) (path : String) :
    (∃ problem, files.find path = .error problem ∧ files'.find path = .error problem) ∨
      ∃ node node', files.find path = .ok node ∧ files'.find path = .ok node' ∧
        node.Reordered node' := by
  unfold FileTree.find
  rw [h.locate hproper path]
  cases files.locate path with
  | error problem => exact .inl ⟨problem, rfl, rfl⟩
  | ok names =>
    have hrel := h.top.rel_get? names hproper
    dsimp only
    generalize files.top.get? names = found at hrel ⊢
    generalize files'.top.get? names = found' at hrel ⊢
    cases hrel with
    | none => exact .inl ⟨.missing, rfl, rfl⟩
    | some hnode => exact .inr ⟨_, _, rfl, rfl, hnode⟩

/-- A file is the same. -/
theorem read (h : files.Reordered files') (hproper : files.top.proper = true) (path : String) :
    files'.read path = files.read path := by
  unfold FileTree.read
  rcases h.find hproper path with ⟨problem, hfind, hfind'⟩ | ⟨node, node', hfind, hfind', hnode⟩
  · rw [hfind, hfind']
  · rw [hfind, hfind']
    cases hnode <;> rfl

lemma list {entries : List (String × Node)} (h : files.Reordered files')
    (hproper : files.top.proper = true) (hlist : files.list path = .ok entries) :
    ∃ entries', files'.list path = .ok entries' ∧ MarketTape.Reordered entries entries' := by
  rw [list_eq_ok_iff] at hlist
  rcases h.find hproper path with ⟨problem, hfind, -⟩ | ⟨node, node', hfind, hfind', hnode⟩
  · rw [hfind] at hlist
    cases hlist
  · rw [hfind] at hlist
    cases hlist
    cases hnode with
    | dir hentries => exact ⟨_, list_eq_ok_iff.mpr hfind', hentries⟩

/-! ## Datasets -/

lemma fileStamp (h : files.Reordered files') (hproper : files.top.proper = true)
    (root file : String) :
    MarketTape.fileStamp files' root file = MarketTape.fileStamp files root file := by
  unfold MarketTape.fileStamp
  rcases h.find hproper (Path.join root file) with
    ⟨problem, hfind, hfind'⟩ | ⟨node, node', hfind, hfind', hnode⟩
  · rw [hfind, hfind']
  · rw [hfind, hfind']
    cases hnode <;> rfl

lemma scanPartition (h : files.Reordered files') (hproper : files.top.proper = true)
    (policy : SidecarPolicy) (request : ScanRequest) (file : String) (partition : Nat) :
    MarketTape.scanPartition files' policy request file partition =
      MarketTape.scanPartition files policy request file partition := by
  simp only [MarketTape.scanPartition, sidecarFor, loadSidecar, FileTree.readText, scanFile,
    h.read hproper]

end FileTree.Reordered

lemma pairwise_sorted (paths : List String) :
    (paths.mergeSort fun a b => a ≤ b).Pairwise (· ≤ ·) :=
  (List.pairwise_mergeSort (by simpa using fun a b c => le_trans) (by simpa using le_total)
    paths).imp (by simp)

/-- Sorting does not remember the order in which the paths came. -/
lemma sorted_eq_of_perm {paths paths' : List String} (h : paths.Perm paths') :
    (paths.mergeSort fun a b => a ≤ b) = paths'.mergeSort fun a b => a ≤ b :=
  List.Perm.eq_of_pairwise' (pairwise_sorted paths) (pairwise_sorted paths')
    ((List.mergeSort_perm _ _).trans (h.trans (List.mergeSort_perm _ _).symm))

/-- The same list of files. -/
lemma Reordered.dataPathsIn {entries entries' : List (String × Node)}
    (h : Reordered entries entries') :
    MarketTape.dataPathsIn entries' = MarketTape.dataPathsIn entries :=
  sorted_eq_of_perm (h.dataFilesIn.symm.map _)

/-- What can be reached in one order can be reached in the other. -/
lemma Reordered.outOfReach? {entries entries' : List (String × Node)} {root : String}
    (h : Reordered entries entries') (hreach : MarketTape.outOfReach? root entries = none) :
    MarketTape.outOfReach? root entries' = none := by
  unfold MarketTape.outOfReach? at hreach ⊢
  rw [List.findSome?_eq_none_iff] at hreach ⊢
  exact fun names hmem => hreach names (h.directoriesIn.mem_iff.mpr hmem)

end MarketTape
