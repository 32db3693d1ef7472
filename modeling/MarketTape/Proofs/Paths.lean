import MarketTape.Proofs.Overwriting

/-!
# Paths below a directory

Joining names to the path of a directory, one after the other, gives the path that a walk through
the tree uses.  If the names are ones that entries can have, and if no path gets longer than paths
may be, then the walk sees what lies in the tree at these names.

* `isEntryName` are the names that an entry of a directory can have, and `Node.proper` asks of a
  tree that all entries have such names and no two of one directory the same.
* `Path.splitName_eq_some_iff` says which names have an extension.
* `Path.parts_ofNames` takes a written path apart again, and `Path.ofNames_injective` is what
  follows from it.
* `Path.foldl_join` compares joining names one by one with joining them all at once.
* `FileTree.find_below` is the result, and `FileTree.list_below` its form for directories.
-/

namespace MarketTape

/-! ## Names of entries -/

/-- The names that an entry of a directory can have. -/
def isEntryName (name : String) : Bool :=
  name != "" && name != "." && name != ".." && !name.toList.contains '/' &&
    !name.toList.contains (Char.ofNat 0) && decide (name.utf8ByteSize ≤ FileTree.longestName)

mutual

/-- Whether all entries at and below a node have names of their own. -/
def Node.proper : Node → Bool
  | .file _ _ => true
  | .dir entries => properIn entries

/-- Whether all of these entries, and all entries below them, have names of their own. -/
def properIn : List (String × Node) → Bool
  | [] => true
  | (name, node) :: rest =>
    isEntryName name && (Node.child? name rest).isNone && node.proper && properIn rest

end

/-- A name is a part of a path, and none of those that stand for a directory on the way. -/
structure EntryName (name : String) : Prop where
  nonempty : name ≠ ""
  ordinary : name ≠ "." ∧ name ≠ ".."
  whole : '/' ∉ name.toList
  short : name.utf8ByteSize ≤ FileTree.longestName

lemma entryName_of_isEntryName {name : String} (h : isEntryName name = true) : EntryName name := by
  simp only [isEntryName, Bool.and_eq_true, bne_iff_ne, Bool.not_eq_true', List.contains_eq_mem,
    decide_eq_false_iff_not, decide_eq_true_eq] at h
  obtain ⟨⟨⟨⟨⟨hne, hdot⟩, hdots⟩, hwhole⟩, -⟩, hshort⟩ := h
  exact ⟨hne, ⟨hdot, hdots⟩, hwhole, hshort⟩

namespace Node

variable {node target : Node} {name : String} {names : List String}
  {entries : List (String × Node)}

lemma get?_append : ∀ (above : List String) (node : Node) (names : List String),
    node.get? (above ++ names) = (node.get? above).bind (·.get? names)
  | [], _, _ => by rw [List.nil_append, get?, Option.bind_some]
  | _ :: _, file _ _, _ => rfl
  | first :: above, dir entries, names => by
    rw [List.cons_append, get?_cons, get?_cons]
    cases child? first entries with
    | none => rfl
    | some node => exact get?_append above node names

lemma child?_mem : ∀ {entries : List (String × Node)}, child? name entries = some node →
    (name, node) ∈ entries
  | (other, old) :: rest, h => by
    rw [child?] at h
    split at h
    · next heq =>
      obtain rfl := Option.some.inj h
      rw [heq]
      exact List.mem_cons_self
    · exact List.mem_cons_of_mem _ (child?_mem h)

lemma proper_dir : (dir entries).proper = true ↔ properIn entries = true := by rw [Node.proper]

lemma properIn_cons : properIn ((name, node) :: entries) = true ↔
    isEntryName name = true ∧ child? name entries = none ∧ node.proper = true ∧
      properIn entries = true := by
  rw [properIn]
  simp only [Bool.and_eq_true, Option.isNone_iff_eq_none, and_assoc]

/-- The entries of a directory are found under their names. -/
lemma child?_eq_some_iff : ∀ {entries : List (String × Node)} {name : String} {node : Node},
    properIn entries = true → (child? name entries = some node ↔ (name, node) ∈ entries)
  | [], _, _, _ => by simp [child?]
  | (other, old) :: rest, name, node, h => by
    obtain ⟨-, hother, -, hrest⟩ := properIn_cons.mp h
    rw [child?, List.mem_cons, Prod.mk.injEq]
    split
    · next heq =>
      subst heq
      have hnot : (other, node) ∉ rest := fun hmem => by
        rw [(child?_eq_some_iff hrest).mpr hmem] at hother
        cases hother
      simp [hnot, eq_comm]
    · next hne => simp [child?_eq_some_iff hrest, Ne.symm hne]

lemma proper_of_mem : ∀ {entries : List (String × Node)}, properIn entries = true →
    (name, node) ∈ entries → isEntryName name = true ∧ node.proper = true
  | (other, old) :: rest, h, hmem => by
    obtain ⟨hname, -, hnode, hrest⟩ := properIn_cons.mp h
    rcases List.mem_cons.mp hmem with heq | hmem
    · cases heq
      exact ⟨hname, hnode⟩
    · exact proper_of_mem hrest hmem

/-- What lies below a proper node is proper, and the names that lead there can be written as a
path. -/
lemma proper_of_get? : ∀ {names : List String} {node : Node}, node.proper = true →
    node.get? names = some target → target.proper = true ∧ ∀ name ∈ names, EntryName name
  | [], node, h, hget => by
    rw [get?] at hget
    obtain rfl := Option.some.inj hget
    exact ⟨h, by simp⟩
  | _ :: _, file _ _, _, hget => by cases hget
  | first :: names, dir entries, h, hget => by
    rw [get?_cons] at hget
    obtain ⟨node, hchild, hget⟩ := Option.bind_eq_some_iff.mp hget
    rw [Node.proper] at h
    obtain ⟨hname, hnode⟩ := proper_of_mem h (child?_mem hchild)
    obtain ⟨htarget, hnames⟩ := proper_of_get? hnode hget
    exact ⟨htarget, List.forall_mem_cons.mpr ⟨entryName_of_isEntryName hname, hnames⟩⟩

end Node

namespace Path

/-! ## Extensions -/

/-- A name has an extension if something comes before its last dot. -/
lemma splitName_eq_some_iff {name extension : List Char} (hne : extension ≠ []) :
    (splitName name).2 = some extension ↔
      ∃ stem, stem ≠ [] ∧ '.' ∉ extension ∧ name = stem ++ '.' :: extension := by
  constructor
  · intro h
    have hcut := List.takeWhile_append_dropWhile (p := (· != '.')) (l := name.reverse)
    rw [splitName] at h
    split_ifs at h
    dsimp only at h
    split at h
    · cases h
    · cases h
    · next dot before hbefore hdrop =>
      have hdot : dot = '.' := by
        have hfirst := List.head?_dropWhile_not (· != '.') name.reverse
        rw [hdrop] at hfirst
        simpa using hfirst
      have hkeep : '.' ∉ name.reverse.takeWhile (· != '.') := fun hmem => by
        have hpass := List.all_takeWhile (p := (· != '.')) (l := name.reverse)
        simpa using List.all_eq_true.mp hpass _ hmem
      rw [hdrop, hdot] at hcut
      obtain rfl := Option.some.inj h
      refine ⟨before.reverse, by simpa using hbefore, by simpa using hkeep, ?_⟩
      rw [← List.reverse_inj, List.reverse_append, List.reverse_cons, List.reverse_reverse,
        List.reverse_reverse, List.append_assoc, List.singleton_append]
      exact hcut.symm
  · rintro ⟨stem, hstem, hdot, rfl⟩
    have hkeep : ∀ c ∈ extension.reverse, (c != '.') = true := fun c hc => by
      rw [bne_iff_ne]
      rintro rfl
      exact hdot (List.mem_reverse.mp hc)
    have htwo : stem ++ '.' :: extension ≠ ['.', '.'] := fun heq => by
      have hlength := congrArg List.length heq
      have hstem := List.length_pos_of_ne_nil hstem
      have hextension := List.length_pos_of_ne_nil hne
      simp only [List.length_append, List.length_cons, List.length_nil] at hlength
      omega
    obtain ⟨c, cs, hcs⟩ := List.exists_cons_of_ne_nil (List.reverse_ne_nil_iff.mpr hstem)
    rw [splitName, if_neg htwo]
    simp [List.dropWhile_append_of_pos hkeep, List.takeWhile_append_of_pos hkeep, hcs]

/-! ## Parts of a path -/

variable {name path root : String} {names : List String}

lemma parts_ne_nil (cs : List Char) : parts cs ≠ [] := by
  cases cs with
  | nil => simp [parts]
  | cons c rest =>
    rw [parts]
    split
    · simp
    · split <;> simp

lemma parts_cons (c : Char) (cs : List Char) : ∃ first others, parts cs = first :: others ∧
    parts (c :: cs) = if c = '/' then [] :: first :: others else (c :: first) :: others := by
  obtain ⟨first, others, h⟩ := List.exists_cons_of_ne_nil (parts_ne_nil cs)
  exact ⟨first, others, h, by simp only [parts, h]⟩

/-- Without a slash there is one part. -/
lemma parts_of_whole : ∀ {cs : List Char}, '/' ∉ cs → parts cs = [cs]
  | [], _ => rfl
  | c :: cs, h => by
    rw [List.mem_cons, not_or] at h
    obtain ⟨first, others, hcs, hparts⟩ := parts_cons c cs
    rw [parts_of_whole h.2] at hcs
    cases hcs
    rw [hparts, if_neg (Ne.symm h.1)]

/-- A slash separates parts. -/
lemma parts_append_slash : ∀ (cs ds : List Char), parts (cs ++ '/' :: ds) = parts cs ++ parts ds
  | [], ds => by
    obtain ⟨first, others, hds, hparts⟩ := parts_cons '/' ds
    rw [List.nil_append, hparts, if_pos rfl, ← hds]
    rfl
  | c :: cs, ds => by
    obtain ⟨first, others, hcs, hparts⟩ := parts_cons c cs
    obtain ⟨first', others', hall, hparts'⟩ := parts_cons c (cs ++ '/' :: ds)
    rw [parts_append_slash cs ds, hcs, List.cons_append] at hall
    cases hall
    rw [List.cons_append, hparts, hparts']
    split <;> rfl

lemma toList_ofNames_cons (first second : String) (rest : List String) :
    (ofNames (first :: second :: rest)).toList =
      first.toList ++ '/' :: (ofNames (second :: rest)).toList := by
  simp [ofNames, String.intercalate_cons_cons]

/-- The parts of a written path are the names it was written from. -/
theorem parts_ofNames : ∀ {names : List String}, names ≠ [] → (∀ name ∈ names, '/' ∉ name.toList) →
    parts (ofNames names).toList = names.map String.toList
  | [name], _, h => by
    rw [ofNames, String.intercalate_singleton, parts_of_whole (h name (by simp))]
    rfl
  | first :: second :: rest, _, h => by
    rw [List.forall_mem_cons] at h
    rw [toList_ofNames_cons, parts_append_slash, parts_of_whole h.1, parts_ofNames (by simp) h.2]
    rfl

lemma ofNames_ne_empty (hne : names ≠ []) (h : ∀ name ∈ names, EntryName name) :
    ofNames names ≠ "" := fun heq => by
  have hparts := parts_ofNames hne fun name hmem => (h name hmem).whole
  rw [heq] at hparts
  obtain ⟨first, rest, rfl⟩ := List.exists_cons_of_ne_nil hne
  have hempty : [] = first.toList := (List.cons.inj hparts).1
  exact (h first List.mem_cons_self).nonempty (String.toList_eq_nil_iff.mp hempty.symm)

/-- Different names are written as different paths. -/
theorem ofNames_injective {names' : List String} (h : ∀ name ∈ names, EntryName name)
    (h' : ∀ name ∈ names', EntryName name) (heq : ofNames names = ofNames names') :
    names = names' := by
  by_cases hne : names = [] <;> by_cases hne' : names' = []
  · rw [hne, hne']
  · exact absurd (heq.symm.trans (by rw [hne]; rfl)) (ofNames_ne_empty hne' h')
  · exact absurd (heq.trans (by rw [hne']; rfl)) (ofNames_ne_empty hne h)
  · refine List.map_injective_iff.mpr (fun _ _ => String.toList_injective) ?_
    rw [← parts_ofNames hne fun name hmem => (h name hmem).whole,
      ← parts_ofNames hne' fun name hmem => (h' name hmem).whole, heq]

/-! ## Joining -/

/-- What joining puts between a directory and what lies below it. -/
def separator (root : String) : String := if root = "" ∨ root.endsWith "/" then "" else "/"

lemma endsWith_slash_iff : root.endsWith "/" = true ↔ ['/'] <:+ root.toList := by
  rw [String.endsWith_eq_endsWith_toSlice, String.Slice.endsWith_string_iff]
  simp

lemma join_eq (h : path.toList.head? ≠ some '/') :
    join root path = root ++ separator root ++ path := by
  have hstart : path.startsWith "/" = false := by
    rw [String.startsWith_string_eq_false_iff]
    rintro ⟨rest, hrest⟩
    exact h (by rw [← hrest]; rfl)
  unfold join separator
  rw [hstart]
  split_ifs with hroot hends hboth hboth <;> simp_all

lemma separator_append (h : EntryName name) : separator (root ++ name) = "/" := by
  have hname : name.toList ≠ [] := fun hnil => h.nonempty (String.toList_eq_nil_iff.mp hnil)
  rw [separator, if_neg]
  rintro (hempty | hends)
  · rw [String.append_eq_empty_iff] at hempty
    exact h.nonempty hempty.2
  · rw [endsWith_slash_iff, String.toList_append, List.singleton_suffix_iff_getLast?_eq_some,
      List.getLast?_append_of_ne_nil _ hname] at hends
    exact h.whole (List.mem_of_getLast? hends)

lemma head?_of_entryName (h : EntryName name) : name.toList.head? ≠ some '/' := fun hhead =>
  h.whole (List.mem_of_head? hhead)

lemma join_ne_empty (h : EntryName name) : join root name ≠ "" := by
  rw [join_eq (head?_of_entryName h), Ne, String.append_eq_empty_iff]
  exact fun hempty => h.nonempty hempty.2

lemma head?_ofNames (h : ∀ name ∈ names, EntryName name) :
    (ofNames names).toList.head? ≠ some '/' := by
  match names with
  | [] => simp [ofNames]
  | [name] =>
    rw [ofNames, String.intercalate_singleton]
    exact head?_of_entryName (h name (by simp))
  | first :: second :: rest =>
    have hfirst := h first (by simp)
    rw [toList_ofNames_cons, List.head?_append_of_ne_nil _ fun hnil =>
      hfirst.nonempty (String.toList_eq_nil_iff.mp hnil)]
    exact head?_of_entryName hfirst

/-- Joining names one by one is joining them all at once. -/
theorem foldl_join : ∀ {names : List String} (root : String), names ≠ [] →
    (∀ name ∈ names, EntryName name) → names.foldl join root = join root (ofNames names)
  | [name], root, _, _ => by rw [ofNames, String.intercalate_singleton]; rfl
  | first :: second :: rest, root, _, h => by
    have hfirst := h first (by simp)
    have hrest := List.forall_mem_cons.mp h
    rw [List.foldl_cons, foldl_join _ (by simp) hrest.2, join_eq (head?_ofNames hrest.2),
      join_eq (head?_of_entryName hfirst), separator_append hfirst, join_eq (head?_ofNames h),
      ofNames, ofNames, String.intercalate_cons_cons]
    simp only [String.append_assoc]

lemma exists_foldl_join : ∀ {names : List String} (root : String),
    (∀ name ∈ names, EntryName name) → ∃ more, names.foldl join root = root ++ more
  | [], root, _ => ⟨"", by simp⟩
  | first :: rest, root, h => by
    obtain ⟨hfirst, hrest⟩ := List.forall_mem_cons.mp h
    obtain ⟨more, hmore⟩ := exists_foldl_join (join root first) hrest
    rw [List.foldl_cons, hmore, join_eq (head?_of_entryName hfirst), String.append_assoc,
      String.append_assoc]
    exact ⟨_, rfl⟩

end Path

/-! ## Following joined paths -/

namespace FileTree

variable {files : FileTree} {root path name : String} {node target : Node} {names : List String}
  {entries : List (String × Node)}

lemma follow_append : ∀ (start : List String) (first second : List (List Char)),
    files.follow start (first ++ second) =
      (files.follow start first).bind fun names => files.follow names second
  | _, [], _ => rfl
  | start, part :: rest, second => by
    rw [List.cons_append, follow, follow]
    cases files.step start part with
    | error e => rfl
    | ok names => exact follow_append names rest second

lemma follow_singleton (start : List String) (part : List Char) :
    files.follow start [part] = files.step start part := by
  rw [follow]
  cases files.step start part <;> rfl

/-- Where a path starts, and what its parts are taken from, does not change as it gets longer. -/
lemma exists_split (files : FileTree) (hroot : root ≠ "") : ∃ start body, body <:+ root.toList ∧
    ∀ path more, path.toList = root.toList ++ more →
      files.split path = (start, Path.parts (body ++ more)) := by
  obtain ⟨c, cs, hcs⟩ := List.exists_cons_of_ne_nil fun hnil =>
    hroot (String.toList_eq_nil_iff.mp hnil)
  by_cases hc : c = '/'
  · refine ⟨[], cs, hcs ▸ List.suffix_cons c cs, fun path more hpath => ?_⟩
    simp only [split, hpath, hcs, hc, List.cons_append]
  · refine ⟨files.here, c :: cs, hcs ▸ List.suffix_rfl, fun path more hpath => ?_⟩
    unfold split
    rw [hpath, hcs]
    split
    · next heq => exact absurd (List.cons.inj heq).1 hc
    · rfl

/-- A path below a directory starts where the path of the directory does, and has one part more.
The path of the directory may end in an empty part, which a slash at its end stands for. -/
lemma split_join (files : FileTree) (h : EntryName name) (hroot : root ≠ "") : ∃ start parts,
    files.split (Path.join root name) = (start, parts ++ [name.toList]) ∧
      (files.split root = (start, parts) ∨ files.split root = (start, parts ++ [[]])) := by
  obtain ⟨start, body, hbody, hsplit⟩ := files.exists_split hroot
  have hself := hsplit root [] (List.append_nil _).symm
  have hjoin := hsplit (Path.join root name) ((Path.separator root).toList ++ name.toList) (by
    rw [Path.join_eq (Path.head?_of_entryName h), String.append_assoc]
    simp)
  have hone := Path.parts_of_whole h.whole
  rw [List.append_nil] at hself
  by_cases hends : root.endsWith "/" = true
  · have hsep : (Path.separator root).toList = [] := by simp [Path.separator, hends]
    rw [hsep, List.nil_append] at hjoin
    rcases List.eq_nil_or_concat body with rfl | ⟨init, last, rfl⟩
    · exact ⟨start, [], by rw [hjoin, List.nil_append, hone]; rfl, .inr (by rw [hself]; rfl)⟩
    · rw [Path.endsWith_slash_iff] at hends
      obtain rfl : last = '/' := by
        have hlast := (List.singleton_suffix_iff_getLast?_eq_some.mp hends)
        obtain ⟨before, hbefore⟩ := hbody
        rw [← hbefore] at hlast
        simpa using hlast
      refine ⟨start, Path.parts init, ?_, .inr ?_⟩
      · rw [hjoin, List.concat_eq_append, List.append_assoc, List.singleton_append,
          Path.parts_append_slash, hone]
      · rw [hself, List.concat_eq_append, Path.parts_append_slash]
        rfl
  · have hsep : (Path.separator root).toList = ['/'] := by simp [Path.separator, hends, hroot]
    refine ⟨start, Path.parts body, ?_, .inl hself⟩
    rw [hjoin, hsep, List.singleton_append, Path.parts_append_slash, hone]

lemma flawOf?_append {more : String} (hroot : root ≠ "") (h : flawOf? (root ++ more) = none) :
    flawOf? root = none := by
  unfold flawOf? at h ⊢
  rw [String.toList_append, String.utf8ByteSize_append] at h
  split_ifs at h with hempty hzero hlong
  rw [if_neg hroot, if_neg, if_neg (by omega)]
  simp only [List.contains_eq_mem, List.mem_append, decide_eq_true_eq, not_or] at hzero ⊢
  exact hzero.1

lemma ne_empty_of_find (h : files.find root = .ok node) : root ≠ "" := by
  rintro rfl
  cases h

/-- What a directory holds under a name is found at the path below it. -/
lemma find_join (h : EntryName name) (hroot : files.find root = .ok (.dir entries))
    (hchild : Node.child? name entries = some node)
    (hreach : flawOf? (Path.join root name) = none) :
    files.find (Path.join root name) = .ok node := by
  have hne := ne_empty_of_find hroot
  obtain ⟨names, hlocate, hnode⟩ := find_eq_ok_iff.mp hroot
  obtain ⟨start, parts, hsplit, hsplits⟩ := files.split_join h hne
  have hwhole : flawOf? root = none := by
    rw [Path.join_eq (Path.head?_of_entryName h), String.append_assoc] at hreach
    exact flawOf?_append hne hreach
  have hfollow : files.follow start parts = .ok names := by
    simp only [locate, hwhole] at hlocate
    rcases hsplits with hsplits | hsplits
    · rw [hsplits] at hlocate
      exact hlocate
    · -- the empty part stands for the directory itself
      rw [hsplits, follow_append] at hlocate
      cases hbefore : files.follow start parts with
      | error e =>
        rw [hbefore] at hlocate
        cases hlocate
      | ok before =>
        rw [hbefore] at hlocate
        change files.follow before [[]] = .ok names at hlocate
        rw [follow_singleton, step] at hlocate
        split at hlocate
        · cases hlocate
        · cases hlocate
        · rw [if_pos (.inl rfl)] at hlocate
          exact hlocate
  have hstep : files.step names name.toList = .ok (names ++ [name]) := by
    have hpart : name.toList ≠ [] ∧ name.toList ≠ ['.'] ∧ name.toList ≠ ['.', '.'] := by
      refine ⟨fun heq => h.nonempty ?_, fun heq => h.ordinary.1 ?_, fun heq => h.ordinary.2 ?_⟩ <;>
        exact String.toList_injective heq
    simp only [step, hnode, hpart, or_self, if_false, String.ofList_toList, hchild,
      Nat.not_lt.mpr h.short]
  refine find_eq_ok_iff.mpr ⟨names ++ [name], ?_, ?_⟩
  · simp only [locate, hreach, hsplit, follow_append, hfollow]
    exact (follow_singleton names name.toList).trans hstep
  · rw [Node.get?_append, hnode, Option.bind_some, Node.get?_cons, hchild]
    rfl

/-- What lies below a directory is found at the path that its names give, if no path on the way is
too long. -/
theorem find_below : ∀ {names : List String} {root : String} {node : Node},
    files.find root = .ok node → node.proper = true → node.get? names = some target →
    flawOf? (names.foldl Path.join root) = none →
      files.find (names.foldl Path.join root) = .ok target
  | [], root, node, hroot, _, hget, _ => by
    rw [Node.get?] at hget
    obtain rfl := Option.some.inj hget
    exact hroot
  | _ :: _, _, .file _ _, _, _, hget, _ => by cases hget
  | first :: rest, root, .dir entries, hroot, hproper, hget, hreach => by
    obtain ⟨-, hnames⟩ := Node.proper_of_get? hproper hget
    obtain ⟨hfirst, hrest⟩ := List.forall_mem_cons.mp hnames
    rw [Node.get?_cons] at hget
    obtain ⟨node, hchild, hget⟩ := Option.bind_eq_some_iff.mp hget
    rw [Node.proper] at hproper
    have hnode := (Node.proper_of_mem hproper (Node.child?_mem hchild)).2
    rw [List.foldl_cons] at hreach ⊢
    have hfirstReach : flawOf? (Path.join root first) = none := by
      obtain ⟨more, hmore⟩ := Path.exists_foldl_join (Path.join root first) hrest
      rw [hmore] at hreach
      exact flawOf?_append (Path.join_ne_empty hfirst) hreach
    exact find_below (find_join hfirst hroot hchild hfirstReach) hnode hget hreach

/-- A directory below another one is listed by the path that its names give. -/
lemma list_below {below : List (String × Node)} (hroot : files.list root = .ok entries)
    (hproper : properIn entries = true)
    (hget : (Node.dir entries).get? names = some (.dir below))
    (hreach : flawOf? (names.foldl Path.join root) = none) :
    files.list (names.foldl Path.join root) = .ok below := by
  rw [list_eq_ok_iff] at hroot ⊢
  exact find_below hroot (by rw [Node.proper, hproper]) hget hreach

end FileTree

end MarketTape
