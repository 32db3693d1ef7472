import Mathlib.Data.List.DropRight
import MarketTape.Proofs.Pruning

/-!
# The rows of a file of ticks

A scan goes through the rows of a file once and passes over what gives no tick: rows that are not
text, rows that are too short, rows with a field that is no number, and rows with a number that no
tick has.  What is left is cut to the window, sorted and capped.  So a row can only be passed over
or give its tick, and which of the two it does has nothing to do with the other rows; nor has it to
do with where in the row the needed fields stand, as long as header and row agree about that.

* `fieldOf?` is the field below a name, and `Gives` says of a header and a row that they give a
  tick; `readRow?_eq_some_iff` says that this is how rows are read.
* `FileTree.table?` are the header and the records of a file, and `ticksOf` the ticks that they
  give.  `exists_scanFile` says what the scan of such a file is.
* `Tick.Sound` is what is known of every tick that was read.
* `Column` is a name with the fields below it; `readRecord?_of_perm` says that the order of the
  columns does not matter, and other columns do not either.
* `tick_file_reads` is the result.
-/

namespace MarketTape

/-! ## Blanks -/

namespace Text

/-- A text without blanks at its ends stays as it is. -/
lemma trim_trim (cs : List Char) : trim (trim cs) = trim cs := by
  have hleft : trimLeft (trim cs) = trim cs := by
    cases h : trim cs with
    | nil => rfl
    | cons c rest =>
      -- the first character is the first one of the text without the blanks in front
      obtain ⟨more, hmore⟩ : trim cs <+: trimLeft cs := List.rdropWhile_prefix ..
      rw [h, List.cons_append] at hmore
      rw [trimLeft, List.dropWhile_cons_of_neg (not_isBlank_of_trimLeft hmore.symm)]
  rw [trim, hleft, trim, List.reverse_reverse, trimLeft, trimLeft, List.dropWhile_idempotent]

lemma trimmed_trimmed (s : String) : trimmed (trimmed s) = trimmed s := by
  simp only [trimmed, String.toList_ofList, trim_trim]

end Text

/-! ## Fields -/

/-- The field of a row that stands below a name. -/
def fieldOf? (header fields : List String) (name : String) : Option String :=
  fields[header.idxOf name]?

/-- The number below a name. -/
def numberOf? (header fields : List String) (name : String) : Option Float :=
  (fieldOf? header fields name).bind fun field => Decimal.readFloat? field.toList

/-- The count below a name. -/
def countOf? (header fields : List String) (name : String) : Option Int :=
  (fieldOf? header fields name).bind fun field =>
    (Decimal.readInt? field.toList).bind Count.fit

lemma filter_zip_eq_nil {header : List String} {name : String} (hnone : name ∉ header)
    (fields : List String) : (header.zip fields).filter (·.1 == name) = [] := by
  refine List.filter_eq_nil_iff.mpr fun entry hentry => ?_
  rw [beq_iff_eq]
  rintro rfl
  exact hnone (List.of_mem_zip hentry).1

/-- A name that is in the header once has a single field below it. -/
lemma filter_zip_of_count {header fields : List String} {name : String}
    (honce : header.count name = 1) (hlong : header.length ≤ fields.length) :
    ∃ field, fieldOf? header fields name = some field ∧
      (header.zip fields).filter (·.1 == name) = [(name, field)] := by
  induction header generalizing fields with
  | nil => simp at honce
  | cons first header ih =>
    cases fields with
    | nil => simp at hlong
    | cons field fields =>
      rw [List.zip_cons_cons, List.filter_cons, fieldOf?, List.idxOf_cons]
      by_cases hname : first = name
      · subst hname
        have hnone : first ∉ header := by simpa [List.count_eq_zero] using honce
        exact ⟨field, by simp, by simp [filter_zip_eq_nil hnone]⟩
      · have hother : (first == name) = false := beq_eq_false_iff_ne.mpr hname
        have honce' : header.count name = 1 := by simpa [List.count_cons, hother] using honce
        obtain ⟨field', hfield, hfilter⟩ := ih honce' (Nat.le_of_succ_le_succ hlong)
        exact ⟨field', by simpa [hother, fieldOf?] using hfield,
          by simpa [hother] using hfilter⟩

lemma columnField?_eq {header fields : List String} {name : String}
    (honce : header.count name = 1) (hlong : header.length ≤ fields.length) :
    columnField? header fields name = fieldOf? header fields name := by
  obtain ⟨field, hfield, hfilter⟩ := filter_zip_of_count honce hlong
  rw [columnField?, hfilter, hfield]

/-! ## Rows -/

/-- The columns of numbers, and what they are of a tick. -/
def numberColumns : List (String × (Tick Float → Float)) :=
  [("LastPrice", Tick.last), ("Volume", Tick.volume), ("BidPrice1", Tick.bid),
    ("BidVolume1", Tick.bidSize), ("AskPrice1", Tick.ask), ("AskVolume1", Tick.askSize)]

/-- A tick that can be worked with: it names its instrument without blanks around it, its price is
positive, and its numbers are finite. -/
structure Tick.Sound (t : Tick Float) : Prop where
  named : t.instrument ≠ ""
  trimmed : Text.trimmed t.instrument = t.instrument
  positive : 0.0 < t.last
  finite : ∀ column ∈ numberColumns, (column.2 t).isFinite = true

/-- A row gives a tick below a header: no field is missing, what stands below the names are the
parts of the tick, and the tick is sound. -/
structure Gives (header fields : List String) (t : Tick Float) : Prop where
  long : header.length ≤ fields.length
  instrument : (fieldOf? header fields "InstrumentID").map Text.trimmed = some t.instrument
  time : countOf? header fields "ts_ns" = some t.time
  numbers : ∀ column ∈ numberColumns, numberOf? header fields column.1 = some (column.2 t)
  sound : t.Sound

/-- Every needed column is there, and none of them twice. -/
def Complete (header : List String) : Prop := ∀ name ∈ requiredColumns, header.count name = 1

lemma isSound_iff {t : Tick Float} (htrimmed : Text.trimmed t.instrument = t.instrument) :
    isSound t = true ↔ t.Sound := by
  simp only [isSound, Bool.and_eq_true, bne_iff_ne, decide_eq_true_eq]
  constructor
  · rintro ⟨⟨⟨⟨⟨⟨⟨hnamed, hlast⟩, hpositive⟩, hvolume⟩, hbid⟩, hbidSize⟩, hask⟩, haskSize⟩
    refine ⟨hnamed, htrimmed, hpositive, ?_⟩
    simp [numberColumns, hlast, hvolume, hbid, hbidSize, hask, haskSize]
  · rintro ⟨hnamed, -, hpositive, hfinite⟩
    simp only [numberColumns, List.forall_mem_cons, List.not_mem_nil, false_implies, forall_const,
      and_true] at hfinite
    obtain ⟨hlast, hvolume, hbid, hbidSize, hask, haskSize⟩ := hfinite
    exact ⟨⟨⟨⟨⟨⟨⟨hnamed, hlast⟩, hpositive⟩, hvolume⟩, hbid⟩, hbidSize⟩, hask⟩, haskSize⟩

/-- A row is read as the tick that it gives, and not at all if it gives none. -/
theorem readRow?_eq_some_iff {header fields : List String} (hheader : Complete header)
    {t : Tick Float} : readRow? header fields = some t ↔ Gives header fields t := by
  by_cases hlong : header.length ≤ fields.length
  swap
  · rw [readRow?, if_pos (not_le.mp hlong)]
    exact iff_of_false (fun h => by cases h) fun h => hlong h.long
  have hfield : ∀ name ∈ requiredColumns,
      columnField? header fields name = fieldOf? header fields name := fun name hname =>
    columnField?_eq (hheader name hname) hlong
  have hinstrument := hfield "InstrumentID" (by decide)
  have htime : countField? header fields "ts_ns" = countOf? header fields "ts_ns" := by
    rw [countField?, countOf?, hfield "ts_ns" (by decide)]
  have hnumber : ∀ column ∈ numberColumns,
      floatField? header fields column.1 = numberOf? header fields column.1 := by
    intro column hcolumn
    have hrequired : ∀ column ∈ numberColumns, column.1 ∈ requiredColumns := by
      simp [numberColumns, requiredColumns]
    rw [floatField?, numberOf?, hfield column.1 (hrequired column hcolumn)]
  simp only [numberColumns, List.forall_mem_cons, List.not_mem_nil, false_implies, forall_const,
    and_true] at hnumber
  obtain ⟨hlast, hvolume, hbid, hbidSize, hask, haskSize⟩ := hnumber
  rw [readRow?, if_neg (not_lt.mpr hlong)]
  simp only [hinstrument, htime, hlast, hvolume, hbid, hbidSize, hask, haskSize,
    Option.bind_eq_bind, Option.bind_eq_some_iff]
  constructor
  · rintro ⟨instrument, hinstrument, time, htime, last, hlast, volume, hvolume, bid, hbid,
      bidSize, hbidSize, ask, hask, askSize, haskSize, h⟩
    split at h
    · rename_i hsound
      have ht := Option.some.inj h
      rw [ht] at hsound
      have htrimmed : Text.trimmed t.instrument = t.instrument := by
        rw [← ht]
        exact Text.trimmed_trimmed instrument
      have hsound' := (isSound_iff htrimmed).mp hsound
      subst ht
      refine ⟨hlong, congrArg _ hinstrument, htime, ?_, hsound'⟩
      simp [numberColumns, hlast, hvolume, hbid, hbidSize, hask, haskSize]
    · cases h
  · rintro ⟨-, hinstrument, htime, hnumbers, hsound⟩
    obtain ⟨field, hfield, hname⟩ := Option.map_eq_some_iff.mp hinstrument
    simp only [numberColumns, List.forall_mem_cons, List.not_mem_nil, false_implies, forall_const,
      and_true] at hnumbers
    obtain ⟨hlast, hvolume, hbid, hbidSize, hask, haskSize⟩ := hnumbers
    refine ⟨field, hfield, t.time, htime, t.last, hlast, t.volume, hvolume, t.bid, hbid,
      t.bidSize, hbidSize, t.ask, hask, t.askSize, haskSize, ?_⟩
    rw [hname]
    exact if_pos ((isSound_iff hsound.trimmed).mpr hsound)

/-- A record is read as the tick that its fields give, if all of them are text. -/
lemma readRecord?_eq_some_iff {header : List String} (hheader : Complete header)
    {record : Records.Record} {t : Tick Float} :
    readRecord? header record = some t ↔
      ∃ fields, textFields? record = some fields ∧ Gives header fields t := by
  simp only [readRecord?, Option.bind_eq_some_iff, readRow?_eq_some_iff hheader]

/-! ## Scans -/

/-- The ticks that the records below a header give, in their order. -/
def ticksOf (header : List String) (rows : List Records.Record) : List (Tick Float) :=
  rows.filterMap (readRecord? header)

/-- The header of a file and the records below it. -/
def FileTree.table? (files : FileTree) (path : String) :
    Option (List String × List Records.Record) :=
  match files.read path with
  | .bytes content => splitHeader? (Records.ofBytes content)
  | .unopened _ => none
  | .unread _ => none

section Scans

variable {files : FileTree} {path : String} {header : List String} {rows : List Records.Record}

lemma missingColumns_of_complete (hheader : Complete header) : missingColumns header = [] := by
  refine List.filter_eq_nil_iff.mpr fun name hname => ?_
  have hmem : name ∈ header := List.count_pos_iff.mp (by rw [hheader name hname]; exact one_pos)
  simp [hmem]

/-- One partition is selected from like a replay takes from many. -/
lemma ScanRequest.select_eq_intake {α : Type} (request : ScanRequest) (ticks : List (Tick α)) :
    request.select ticks = request.intake [ticks] := by
  rw [select, intake, within, Tick.sorted_eq, List.flatten_singleton]

/-- Only ticks of the window are taken. -/
lemma ScanRequest.mem_within_of_mem_intake {α : Type} {request : ScanRequest}
    {partitions : List (List (Tick α))} {t : Tick α} (h : t ∈ (request.intake partitions).1) :
    t ∈ request.within partitions := by
  refine (List.mergeSort_perm _ Tick.comesBy).subset ?_
  unfold intake capped at h
  split at h
  · exact List.mem_of_mem_take h
  · exact h

/-- A file with a complete header is scanned row by row, and what the rows give is taken from. -/
theorem exists_scanFile (htable : files.table? path = some (header, rows))
    (hheader : Complete header) (partition : Nat) (request : ScanRequest) :
    ∃ scan, scanFile files path partition request = .ok scan ∧ scan.rowsScanned = rows.length ∧
      (scan.ticks, scan.earlyStop) = request.intake [ticksOf header rows] := by
  unfold FileTree.table? at htable
  split at htable
  · rename_i content hread
    refine ⟨scanRows path partition content.length request header rows, ?_, rfl,
      request.select_eq_intake _⟩
    rw [scanFile, hread]
    simp only [htable, missingColumns_of_complete hheader, if_pos]
  · cases htable
  · cases htable

/-- A tick that was read is sound. -/
lemma sound_of_mem_ticksOf (hheader : Complete header) {t : Tick Float}
    (h : t ∈ ticksOf header rows) : t.Sound := by
  obtain ⟨record, -, hread⟩ := List.mem_filterMap.mp h
  obtain ⟨fields, -, hgives⟩ := (readRecord?_eq_some_iff hheader).mp hread
  exact hgives.sound

/-- Whether a record gives a tick. -/
def Accepts (header : List String) (record : Records.Record) : Bool :=
  (readRecord? header record).isSome

/-- Records that give no tick may as well be left out. -/
lemma ticksOf_filter (header : List String) (rows : List Records.Record) :
    ticksOf header (rows.filter (Accepts header)) = ticksOf header rows := by
  rw [ticksOf, ticksOf, List.filterMap_filter]
  refine List.filterMap_congr fun record _ => ?_
  rw [Accepts]
  cases readRecord? header record <;> rfl

end Scans

/-! ## Columns -/

/-- A column: its name, and the fields below it by the numbers of the rows. -/
structure Column where
  name : String
  cell : Nat → Records.Field

namespace Column

/-- The header above some columns. -/
def header (columns : List Column) : List String := columns.map name

/-- A row across some columns. -/
def row (columns : List Column) (i : Nat) : Records.Record := columns.map (·.cell i)

/-- So many rows across some columns. -/
def rows (columns : List Column) (count : Nat) : List Records.Record :=
  (List.range count).map (row columns)

/-- The text of a column in a row, if it is text. -/
def text? (i : Nat) (c : Column) : Option String := (Node.textOf? (c.cell i)).map Text.trimmed

/-- A column that is not needed and has text in so many rows. -/
def Spare (count : Nat) (c : Column) : Prop :=
  c.name ∉ requiredColumns ∧ ∀ i < count, (Node.textOf? (c.cell i)).isSome

variable {columns columns' extra : List Column} {count i : Nat}

/-- A table is made of columns if and only if all its rows are as long as the header. -/
theorem exists_columns_iff {names : List String} {records : List Records.Record} :
    (∃ columns, names = header columns ∧ records = rows columns records.length) ↔
      ∀ record ∈ records, record.length = names.length := by
  constructor
  · rintro ⟨columns, rfl, hrows⟩ record hrecord
    rw [hrows, rows, List.mem_map] at hrecord
    obtain ⟨i, -, rfl⟩ := hrecord
    rw [row, header, List.length_map, List.length_map]
  · intro hlength
    refine ⟨names.zipIdx.map fun entry =>
      ⟨entry.1, fun i => ((records[i]?.getD [])[entry.2]?).getD []⟩, ?_, ?_⟩
    · rw [header, List.map_map]
      exact (List.zipIdx_map_fst 0 names).symm
    · refine List.ext_getElem (by simp [rows]) fun i hi _ => ?_
      have hrow : (records[i]).length = names.length := hlength _ (List.getElem_mem hi)
      refine List.ext_getElem (by simp [rows, row, hrow]) fun j hj _ => ?_
      simp [rows, row, List.getElem?_eq_getElem hi, List.getElem?_eq_getElem hj]

/-- A row is text if all of its fields are. -/
lemma textFields?_row :
    textFields? (row columns i) =
      if ∀ c ∈ columns, (c.text? i).isSome then some (columns.map fun c => (c.text? i).getD "")
      else none := by
  rw [textFields?, row, List.mapM_map]
  induction columns with
  | nil => rfl
  | cons c columns ih =>
    rw [List.mapM_cons, ih, List.map_cons]
    simp only [List.forall_mem_cons, Function.comp_apply]
    change Option.bind (c.text? i) _ = _
    cases c.text? i with
    | none => simp
    | some field =>
      simp only [Option.isSome_some, true_and]
      split <;> rfl

/-- The field below a name is that of the only column of this name. -/
lemma columnField?_row (fieldIn : Column → String) (key : String) :
    columnField? (header columns) (columns.map fieldIn) key =
      match columns.filter (·.name == key) with
      | [c] => some (fieldIn c)
      | _ => none := by
  have hentries : ((header columns).zip (columns.map fieldIn)).filter (·.1 == key) =
      (columns.filter (·.name == key)).map fun c => (c.name, fieldIn c) := by
    rw [header, List.zip_map', List.filter_map]
    rfl
  rw [columnField?, hentries]
  generalize columns.filter (·.name == key) = found
  rcases found with - | ⟨c, - | ⟨d, rest⟩⟩ <;> rfl

/-- Where columns stand does not matter to what stands below a name. -/
lemma columnField?_of_perm (fieldIn : Column → String) {key : String}
    (hperm : (columns'.filter (·.name == key)).Perm (columns.filter (·.name == key))) :
    columnField? (header columns') (columns'.map fieldIn) key =
      columnField? (header columns) (columns.map fieldIn) key := by
  rw [columnField?_row, columnField?_row]
  generalize columns'.filter (·.name == key) = found', columns.filter (·.name == key) = found
    at hperm
  rcases found with - | ⟨c, - | ⟨d, rest⟩⟩
  · rw [List.perm_nil.mp hperm]
  · rw [List.perm_singleton.mp hperm]
  · -- with two columns of the name there are two wherever they stand
    have hlength := hperm.length_eq
    rcases found' with - | ⟨c', - | ⟨d', rest'⟩⟩
    · cases hlength
    · cases hlength
    · rfl

/-- The needed columns are the same after columns that are not needed were added. -/
lemma filter_perm (hperm : columns'.Perm (columns ++ extra))
    (hextra : ∀ c ∈ extra, c.Spare count) {key : String} (hkey : key ∈ requiredColumns) :
    (columns'.filter (·.name == key)).Perm (columns.filter (·.name == key)) := by
  have hnone : extra.filter (·.name == key) = [] := by
    refine List.filter_eq_nil_iff.mpr fun c hc => ?_
    rw [beq_iff_eq]
    rintro rfl
    exact (hextra c hc).1 hkey
  have hfiltered := hperm.filter (·.name == key)
  rwa [List.filter_append, hnone, List.append_nil] at hfiltered

end Column

/-- Rows that have the same fields below the needed names are read as the same tick. -/
lemma readRow?_congr {header header' fields fields' : List String}
    (hlong : header.length ≤ fields.length) (hlong' : header'.length ≤ fields'.length)
    (hfields : ∀ key ∈ requiredColumns,
      columnField? header' fields' key = columnField? header fields key) :
    readRow? header' fields' = readRow? header fields := by
  simp only [requiredColumns, List.forall_mem_cons, List.not_mem_nil, false_implies, forall_const,
    and_true] at hfields
  simp only [readRow?, countField?, floatField?, hfields, if_neg (not_lt.mpr hlong),
    if_neg (not_lt.mpr hlong')]

namespace Column

variable {columns columns' extra : List Column} {count i : Nat}

/-- A row gives the same tick when its columns are put into another order, together with those of
the header, and other columns of text are added to both. -/
theorem readRecord?_of_perm (hperm : columns'.Perm (columns ++ extra))
    (hextra : ∀ c ∈ extra, c.Spare count) (hi : i < count) :
    readRecord? (header columns') (row columns' i) =
      readRecord? (header columns) (row columns i) := by
  have htext : (∀ c ∈ columns', (c.text? i).isSome) ↔ ∀ c ∈ columns, (c.text? i).isSome := by
    have hspare : ∀ c ∈ extra, (c.text? i).isSome := fun c hc => by
      simpa [text?] using (hextra c hc).2 i hi
    simp only [hperm.mem_iff, List.mem_append, or_imp, forall_and, and_iff_left_iff_imp]
    exact fun _ => hspare
  rw [readRecord?, readRecord?, textFields?_row, textFields?_row]
  by_cases hall : ∀ c ∈ columns, (c.text? i).isSome
  · rw [if_pos hall, if_pos (htext.mpr hall)]
    refine readRow?_congr (by simp [header]) (by simp [header]) fun key hkey => ?_
    exact columnField?_of_perm _ (filter_perm hperm hextra hkey)
  · rw [if_neg hall, if_neg fun h => hall (htext.mp h)]
    rfl

/-- So do all rows together. -/
lemma ticksOf_of_perm (hperm : columns'.Perm (columns ++ extra))
    (hextra : ∀ c ∈ extra, c.Spare count) :
    ticksOf (header columns') (rows columns' count) =
      ticksOf (header columns) (rows columns count) := by
  rw [ticksOf, ticksOf, rows, rows, List.filterMap_map, List.filterMap_map]
  refine List.filterMap_congr fun i hi => ?_
  exact readRecord?_of_perm hperm hextra (List.mem_range.mp hi)

/-- The header stays complete. -/
lemma complete_of_perm (hperm : columns'.Perm (columns ++ extra))
    (hextra : ∀ c ∈ extra, c.Spare count) (hheader : Complete (header columns)) :
    Complete (header columns') := by
  intro key hkey
  have hcount (columns : List Column) :
      (header columns).count key = (columns.filter (·.name == key)).length := by
    rw [header, List.count, List.countP_map, List.countP_eq_length_filter]
    rfl
  rw [hcount, (filter_perm hperm hextra hkey).length_eq, ← hcount, hheader key hkey]

end Column

/-! ## The result -/

/-- **Reading a file of ticks.**  A file whose header has every needed column once, in any order and
among any others, is scanned for a window with or without a cap.

* Which records give a tick, and which tick, is said by the header and the record alone.
* The scan gives the first of these ticks in the window, in their order and up to the cap, and it
  stops early exactly if there are more.  It has scanned every record.
* The ticks are sound, and lie in the window.
* A file with the same header and the same accepted records gives the same ticks, whatever other
  records lie between them.
* A table is made of columns exactly if every record is as long as the header.  Then putting the
  columns into another order, and adding columns of text that are not needed, changes no tick. -/
theorem tick_file_reads {files : FileTree} {path : String} {header : List String}
    {rows : List Records.Record} (htable : files.table? path = some (header, rows))
    (hheader : Complete header) (partition : Nat) (request : ScanRequest) :
    (∀ record t, readRecord? header record = some t ↔
      ∃ fields, textFields? record = some fields ∧ Gives header fields t) ∧
    ∃ scan, scanFile files path partition request = .ok scan ∧
      scan.ticks = (request.intake [ticksOf header rows]).1 ∧
      (scan.earlyStop = true ↔ ∃ cap, request.maxRows = some cap ∧
        cap < (request.within [ticksOf header rows]).length) ∧
      scan.rowsScanned = rows.length ∧
      (∀ t ∈ scan.ticks, t.Sound ∧ request.contains t.time = true) ∧
      (∀ files' path' partition' rows', files'.table? path' = some (header, rows') →
        rows'.filter (Accepts header) = rows.filter (Accepts header) →
          ∃ scan', scanFile files' path' partition' request = .ok scan' ∧
            scan'.ticks = scan.ticks ∧ scan'.earlyStop = scan.earlyStop) ∧
      ((∃ columns, header = Column.header columns ∧ rows = Column.rows columns rows.length) ↔
        ∀ record ∈ rows, record.length = header.length) ∧
      ∀ columns, header = Column.header columns → rows = Column.rows columns rows.length →
        ∀ columns' extra : List Column, columns'.Perm (columns ++ extra) →
          (∀ c ∈ extra, c.Spare rows.length) → ∀ files' path' partition',
            files'.table? path' =
              some (Column.header columns', Column.rows columns' rows.length) →
            ∃ scan', scanFile files' path' partition' request = .ok scan' ∧
              scan'.ticks = scan.ticks ∧ scan'.earlyStop = scan.earlyStop := by
  obtain ⟨scan, hscan, hrows, htaken⟩ := exists_scanFile htable hheader partition request
  have hticks : scan.ticks = (request.intake [ticksOf header rows]).1 := congrArg Prod.fst htaken
  have hstop : scan.earlyStop = (request.intake [ticksOf header rows]).2 :=
    congrArg Prod.snd htaken
  -- what a scan takes is known from the ticks that the rows of its file give
  have hsame {files' path' partition' header' rows'}
      (htable' : FileTree.table? files' path' = some (header', rows'))
      (hheader' : Complete header') (hgiven : ticksOf header' rows' = ticksOf header rows) :
      ∃ scan', scanFile files' path' partition' request = .ok scan' ∧
        scan'.ticks = scan.ticks ∧ scan'.earlyStop = scan.earlyStop := by
    obtain ⟨scan', hscan', -, htaken'⟩ := exists_scanFile htable' hheader' partition' request
    rw [hgiven, ← htaken, Prod.mk.injEq] at htaken'
    exact ⟨scan', hscan', htaken'⟩
  refine ⟨fun record t => readRecord?_eq_some_iff hheader, scan, hscan, hticks, ?_, hrows, ?_, ?_,
    Column.exists_columns_iff, ?_⟩
  · rw [← ScanRequest.intake_stops_early, ← hstop]
  · intro t ht
    rw [hticks] at ht
    have hwithin := ScanRequest.mem_within_of_mem_intake ht
    rw [ScanRequest.within, List.flatten_singleton, List.mem_filter] at hwithin
    exact ⟨sound_of_mem_ticksOf hheader hwithin.1, hwithin.2⟩
  · intro files' path' partition' rows' htable' haccepted
    refine hsame htable' hheader ?_
    rw [← ticksOf_filter, haccepted, ticksOf_filter]
  · rintro columns rfl hcolumns columns' extra hperm hextra files' path' partition' htable'
    refine hsame htable' (Column.complete_of_perm hperm hextra hheader) ?_
    rw [Column.ticksOf_of_perm hperm hextra, ← hcolumns]

/-- A column with the given fields in its first rows. -/
def columnOf (name : String) (fields : List String) : Column :=
  ⟨name, fun i => Node.bytesOf ((fields[i]?).getD "")⟩

/-- The needed columns of three rows: two with a tick, the later one first, and one between them
whose time is no number. -/
def threeRows : List Column :=
  [columnOf "InstrumentID" ["rb2405", "rb2405", "rb2405"], columnOf "ts_ns" ["20", "noon", "10"],
    columnOf "LastPrice" ["7", "7", "7"], columnOf "Volume" ["1", "1", "1"],
    columnOf "BidPrice1" ["6", "6", "6"], columnOf "BidVolume1" ["1", "1", "1"],
    columnOf "AskPrice1" ["8", "8", "8"], columnOf "AskVolume1" ["1", "1", "1"]]

/-- A column that is not needed. -/
def remarks : Column := columnOf "Remark" ["late", "", "early"]

/-- The three rows in two files; in the second one the columns run backwards, and the remarks stand
in front of them. -/
def twoLayouts : FileTree where
  top := .dir
    [("plain.csv", .file (Node.bytesOf
      ("InstrumentID,ts_ns,LastPrice,Volume,BidPrice1,BidVolume1,AskPrice1,AskVolume1\n" ++
        "rb2405,20,7,1,6,1,8,1\nrb2405,noon,7,1,6,1,8,1\nrb2405,10,7,1,6,1,8,1\n")) 0),
    ("turned.csv", .file (Node.bytesOf
      ("Remark,AskVolume1,AskPrice1,BidVolume1,BidPrice1,Volume,LastPrice,ts_ns,InstrumentID\n" ++
        "late,1,8,1,6,1,7,20,rb2405\n,1,8,1,6,1,7,noon,rb2405\nearly,1,8,1,6,1,7,10,rb2405\n")) 0)]
  here := []

/-- A request for one tick. -/
def firstTick : ScanRequest := ⟨none, none, some 1⟩

/-- One tick is asked for, and it is the earlier one, from either file. -/
theorem tick_file_reads_twoLayouts :
    ∃ scan scan', scanFile twoLayouts "plain.csv" 0 firstTick = .ok scan ∧
      scan.ticks.map (·.time) = [10] ∧ scan.earlyStop = true ∧ scan.rowsScanned = 3 ∧
      (∀ t ∈ scan.ticks, t.Sound) ∧
      scanFile twoLayouts "turned.csv" 1 firstTick = .ok scan' ∧ scan'.ticks = scan.ticks := by
  have hplain : twoLayouts.table? "plain.csv" =
      some (Column.header threeRows, Column.rows threeRows 3) := by
    decide +kernel
  have hturned : twoLayouts.table? "turned.csv" =
      some (Column.header (remarks :: threeRows.reverse),
        Column.rows (remarks :: threeRows.reverse) 3) := by
    decide +kernel
  have hcomplete : Complete (Column.header threeRows) := by
    unfold Complete
    decide
  have htimes : (firstTick.within
      [ticksOf (Column.header threeRows) (Column.rows threeRows 3)]).map (·.time) = [20, 10] := by
    decide +kernel
  have hsorted : ((firstTick.within
      [ticksOf (Column.header threeRows) (Column.rows threeRows 3)]).mergeSort
        Tick.comesBy).map (·.time) = [10, 20] := by
    refine List.Perm.eq_of_pairwise' (r := (· ≤ ·)) ?_ (by decide) ?_
    · exact List.pairwise_map.mpr ((List.pairwise_mergeSort Tick.comesBy_trans Tick.comesBy_total
        _).imp Tick.time_le_of_comesBy)
    · refine ((List.mergeSort_perm _ _).map _).trans ?_
      rw [htimes]
      exact List.Perm.swap 10 20 []
  have hmore := congrArg List.length htimes
  rw [List.length_map] at hmore
  obtain ⟨-, scan, hscan, hticks, hstop, hrows, hsound, -, -, hcolumns⟩ :=
    tick_file_reads hplain hcomplete 0 firstTick
  have hperm : (remarks :: threeRows.reverse).Perm (threeRows ++ [remarks]) :=
    (@List.perm_append_comm _ [remarks] threeRows.reverse).trans
      (threeRows.reverse_perm.append_right _)
  have hspare : ∀ c ∈ [remarks], c.Spare 3 := by
    intro c hc
    rw [List.mem_singleton.mp hc]
    refine ⟨by decide, ?_⟩
    decide +kernel
  obtain ⟨scan', hscan', hsame, -⟩ :=
    hcolumns threeRows rfl rfl _ [remarks] hperm hspare twoLayouts "turned.csv" 1 hturned
  refine ⟨scan, scan', hscan, ?_, hstop.mpr ⟨1, rfl, by rw [hmore]; decide⟩, hrows,
    fun t ht => (hsound t ht).1, hscan', hsame⟩
  rw [hticks]
  exact (List.map_take ..).trans (congrArg (List.take 1) hsorted)

end MarketTape
