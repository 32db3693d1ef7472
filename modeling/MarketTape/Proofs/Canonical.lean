import MarketTape.Settings.Text
import MarketTape.Proofs.Calendar
import MarketTape.Proofs.Drafts
import MarketTape.Proofs.Encoding
import MarketTape.Proofs.Framing

/-!
# The canonical text stands for the settings

Settings have many texts: members come in any order, under other names or not at all, sections are
written as objects or as lists, and parameters are nested as deep as the reader goes.  The canonical
text of what was read is one more of them.  It is read as the same settings, and so two texts have
the same canonical text exactly when they are texts of the same settings.

* `Settings.Writable` is what reading makes sure of: the numbers can be written, and the parameters
  are in the form in which values are taken from texts.  `Settings.writable_of_read?` says so.
* `Draft.record?_ofJson` takes the fields out of an object that has each in its place, and the
  `read?_ofJson` of each section reads what its `toJson` wrote.
* `Settings.read?_canonical` reads the whole of it.
-/

namespace MarketTape

open Json

/-! ## Fields -/

namespace Json

section Fields

variable {β : Type} {record : List (String × Draft)} {name : String} {fallback x : β}
  {decode : Draft → Option β} {levels : Nat}

/-- What a field holds is its default or was decoded from a draft of the record. -/
lemma property_of_fieldOr {P : β → Prop} (hfits : ∀ row ∈ record, Draft.Fits levels row.2)
    (h : fieldOr record name fallback decode = some x) (hfallback : P fallback)
    (hdecode : ∀ d, Draft.Fits levels d → decode d = some x → P x) : P x := by
  unfold fieldOr at h
  split at h
  · next d hlookup =>
    obtain ⟨before, after, hrecord, -⟩ := List.lookup_eq_some_iff.mp hlookup
    exact hdecode d (hfits (name, d) (by simp [hrecord])) h
  · cases h
    exact hfallback

namespace Draft

lemma fits_recordMembers? {fields : List FieldName} {members : List (Option String × Draft)}
    (hfits : ∀ member ∈ members, Fits levels member.2)
    (h : recordMembers? fields members = some record) : ∀ row ∈ record, Fits levels row.2 := by
  induction members generalizing record with
  | nil =>
    cases h
    exact fun row hrow => absurd hrow List.not_mem_nil
  | cons member rest ih =>
    obtain ⟨hmember, hrest⟩ := List.forall_mem_cons.mp hfits
    obtain ⟨_ | key, value⟩ := member
    · cases h
    · rw [recordMembers?] at h
      split at h
      · cases h
      · next found hfound =>
        have hall := ih hrest hfound
        split at h
        · cases h
          exact hall
        · split at h
          · cases h
          · cases h
            exact List.forall_mem_cons.mpr ⟨hmember, hall⟩

/-- The fields of what fits fit as well, one level of containers deeper. -/
lemma fits_record? {fields : List FieldName} {d : Draft} (hfits : Fits (levels + 1) d)
    (h : d.record? fields = some record) : ∀ row ∈ record, Fits levels row.2 := by
  cases hfits with
  | obj hmembers => exact fits_recordMembers? hmembers h
  | arr hitems =>
    rw [record?] at h
    split at h
    · cases h
      exact fun row hrow => hitems row.2 (List.of_mem_zip hrow).2
    · cases h
  | _ => cases h

lemma recordMembers?_ofMembers {fields : List FieldName} {members : List (String × Json)}
    (hdistinct : (members.map (·.1)).Nodup)
    (hfound : ∀ name ∈ members.map (·.1),
      (fields.find? (·.matchesKey name)).map (·.name) = some name) :
    recordMembers? fields (ofMembers members) =
      some (members.map fun member => (member.1, ofJson member.2)) := by
  induction members with
  | nil => rfl
  | cons member rest ih =>
    obtain ⟨name, value⟩ := member
    obtain ⟨hfresh, hrest⟩ := List.nodup_cons.mp hdistinct
    obtain ⟨hname, hothers⟩ := List.forall_mem_cons.mp hfound
    obtain ⟨f, hf, rfl⟩ := Option.map_eq_some_iff.mp hname
    have hother : ((rest.map fun member => (member.1, ofJson member.2)).any (·.1 == f.name)) =
        false := by
      rw [List.any_eq_false]
      rintro row hrow heq
      obtain ⟨member, hmember, rfl⟩ := List.mem_map.mp hrow
      exact hfresh (List.mem_map.mpr ⟨member, hmember, eq_of_beq heq⟩)
    simp only [ofMembers, recordMembers?, ih hrest hothers, hf, hother, List.map_cons,
      Bool.false_eq_true, if_false]

/-- The fields of an object that has each of them under its own name, in order. -/
lemma record?_ofJson {fields : List FieldName} {members : List (String × Json)}
    (hnames : members.map (·.1) = fields.map (·.name))
    (hdistinct : (fields.map (·.name)).Nodup)
    (hfound : ∀ name ∈ fields.map (·.name),
      (fields.find? (·.matchesKey name)).map (·.name) = some name) :
    (ofJson (.obj members)).record? fields =
      some (members.map fun member => (member.1, ofJson member.2)) := by
  rw [← hnames] at hdistinct hfound
  exact recordMembers?_ofMembers hdistinct hfound

end Draft

end Fields

end Json

/-! ## Leaves -/

lemma SidecarPolicy.lookup_label (policy : SidecarPolicy) :
    SidecarPolicy.labels.lookup policy.label = some policy := by
  cases policy <;> rfl

lemma PriceMode.lookup_label (mode : PriceMode) :
    PriceMode.labels.lookup mode.label = some mode := by
  cases mode <;> rfl

namespace Json

/-- What may be missing is read as it was written if nothing that is there is written as missing. -/
lemma optional?_ofOption {β : Type} {encode : β → Json} {decode : Draft → Option β} {o : Option β}
    (hdecode : ∀ x ∈ o, decode (Draft.ofJson (encode x)) = some x)
    (hpresent : ∀ x ∈ o, Draft.ofJson (encode x) ≠ .null) :
    (Draft.ofJson (ofOption encode o)).optional? decode = some o := by
  cases o with
  | none => rfl
  | some x =>
    have hx := hdecode x rfl
    have hne := hpresent x rfl
    unfold ofOption Draft.optional?
    split
    · next heq => exact absurd heq hne
    · rw [hx, Option.map_some]

lemma optional?_text (o : Option String) :
    (Draft.ofJson (ofOption .str o)).optional? Draft.text? = some o :=
  optional?_ofOption (fun _ _ => rfl) fun _ _ => Draft.noConfusion

lemma optional?_date (o : Option Date) :
    (Draft.ofJson (ofOption (fun d => .str d.text) o)).optional? Draft.date? = some o :=
  optional?_ofOption (fun d _ => Date.read?_text d) fun _ _ => Draft.noConfusion

lemma word?_int (n : Nat) : (Draft.int n).word? = some n := by
  rw [Draft.word?, if_pos (Int.natCast_nonneg n), Int.toNat_natCast]

lemma optional?_word (o : Option Nat) :
    (Draft.ofJson (ofOption (fun n : Nat => .int n) o)).optional? Draft.word? = some o :=
  optional?_ofOption (fun n _ => word?_int n) fun _ _ => Draft.noConfusion

lemma legible_ofOption {β : Type} {levels : Nat} {encode : β → Json} {o : Option β}
    (h : ∀ x ∈ o, Legible levels (encode x)) : Legible levels (ofOption encode o) := by
  cases o with
  | none => exact .null
  | some x => exact h x rfl

lemma legible_obj {levels : Nat} {members : List (String × Json)}
    (h : members.Forall fun member => Legible levels member.2) :
    Legible (levels + 1) (.obj members) :=
  .obj (List.forall_iff_forall_mem.mp h)

lemma legible_word {levels n : Nat} (h : n ≤ greatestWord) : Legible levels (.int n) :=
  .int (by omega) (Int.ofNat_le.mpr h)

end Json

/-! ## Sections -/

lemma DataSettings.read?_ofJson (s : DataSettings) : read? (Draft.ofJson s.toJson) = some s := by
  unfold read? toJson
  rw [Draft.record?_ofJson rfl (by decide) (by decide)]
  simp only [fieldOr, List.map_cons, List.map_nil, List.lookup_cons, String.reduceBEq,
    Option.bind_eq_bind, Option.bind_some, Draft.ofJson, Draft.choice?, optional?_text,
    optional?_date, optional?_word, word?_int, SidecarPolicy.lookup_label]

lemma readBucketWidth?_ofJson {width : Int} (h : Count.Fits width) :
    readBucketWidth? (Draft.ofJson (.obj [("bucket_width_ns", .int width)])) = some width := by
  unfold readBucketWidth?
  rw [Draft.record?_ofJson rfl (by decide) (by decide)]
  exact Count.fit_eq_some_iff.mpr ⟨h, rfl⟩

lemma DetectorTerms.read?_ofJson (t : DetectorTerms Float) :
    read? (Draft.ofJson t.toJson) = some t := by
  unfold read? toJson
  rw [Draft.record?_ofJson rfl (by decide) (by decide)]
  simp only [fieldOr, List.map_cons, List.map_nil, List.lookup_cons, String.reduceBEq,
    Option.bind_eq_bind, Option.bind_some, Draft.ofJson, Draft.float?, word?_int]

lemma RolloverSettings.read?_ofJson (s : RolloverSettings) :
    read? (Draft.ofJson s.toJson) = some s := by
  unfold read? toJson
  rw [Draft.record?_ofJson rfl (by decide) (by decide)]
  simp only [fieldOr, List.map_cons, List.map_nil, List.lookup_cons, String.reduceBEq,
    Option.bind_eq_bind, Option.bind_some, Draft.ofJson, Draft.bool?, Draft.choice?, Draft.float?,
    RolloverMode.lookup_label, PriceMode.lookup_label]

lemma BacktestSettings.read?_ofJson {levels : Nat} {s : BacktestSettings}
    (hparams : Tidy levels s.strategy.params) : read? (Draft.ofJson s.toJson) = some s := by
  have hstrategy : StrategySettings.read? (Draft.ofJson (.obj
      [("name", .str s.strategy.name), ("params", s.strategy.params)])) = some s.strategy := by
    unfold StrategySettings.read?
    rw [Draft.record?_ofJson rfl (by decide) (by decide)]
    simp only [fieldOr, List.map_cons, List.map_nil, List.lookup_cons, String.reduceBEq,
      Option.bind_eq_bind, Option.bind_some, Draft.toJson?_ofJson hparams]
    rfl
  unfold read? toJson
  rw [Draft.record?_ofJson rfl (by decide) (by decide)]
  simp only [fieldOr, List.map_cons, List.map_nil, List.lookup_cons, String.reduceBEq,
    Option.bind_eq_bind, Option.bind_some, optional?_text, hstrategy]
  rfl

/-! ## What reading makes sure of -/

namespace Json.Draft

variable {levels : Nat} {d : Draft}

lemma le_of_word? {n : Nat} (hfits : Fits levels d) (h : d.word? = some n) : n ≤ greatestWord := by
  cases hfits with
  | int hleast hgreatest =>
    rw [word?] at h
    split at h
    · cases h
      omega
    · cases h
  | _ => cases h

lemma isFinite_of_float? {x : Float} (hfits : Fits levels d) (h : d.float? = some x) :
    x.isFinite = true := by
  cases hfits with
  | int hleast hgreatest =>
    cases h
    exact isFinite_ofInt hleast hgreatest
  | float hfinite =>
    cases h
    exact hfinite
  | _ => cases h

lemma of_optional? {β : Type} {decode : Draft → Option β} {o : Option β}
    (h : d.optional? decode = some o) : ∀ x ∈ o, decode d = some x := by
  intro x hx
  cases hx
  unfold optional? at h
  split at h
  · cases h
  · obtain ⟨y, hy, heq⟩ := Option.map_eq_some_iff.mp h
    cases heq
    exact hy

end Json.Draft

section Reading

variable {levels : Nat} {d : Draft}

lemma DataSettings.words_of_read? {s : DataSettings} (hfits : Draft.Fits (levels + 1) d)
    (h : read? d = some s) :
    (∀ n ∈ s.maxRows, n ≤ greatestWord) ∧ s.preloadMaxRows ≤ greatestWord := by
  simp only [read?, Option.bind_eq_bind, Option.bind_eq_some_iff] at h
  obtain ⟨r, hr, csvPath, -, datasetRoot, -, validation, -, startDate, -, endDate, -, maxRows,
    hmaxRows, preloadMaxRows, hpreload, hs⟩ := h
  cases hs
  have hrows := Draft.fits_record? hfits hr
  constructor
  · refine property_of_fieldOr (P := fun o => ∀ n ∈ o, n ≤ greatestWord) hrows hmaxRows
      (fun n hn => by cases hn) ?_
    exact fun d hd hdecode n hn => Draft.le_of_word? hd (Draft.of_optional? hdecode n hn)
  · exact property_of_fieldOr (P := (· ≤ greatestWord)) hrows hpreload (by decide)
      fun d hd => Draft.le_of_word? hd

lemma fits_of_readBucketWidth? {width : Int} (hfits : Draft.Fits (levels + 1) d)
    (h : readBucketWidth? d = some width) : Count.Fits width := by
  simp only [readBucketWidth?, Option.bind_eq_bind, Option.bind_eq_some_iff] at h
  obtain ⟨r, hr, hwidth⟩ := h
  refine property_of_fieldOr (P := Count.Fits) (Draft.fits_record? hfits hr) hwidth (by decide) ?_
  intro d _ hd
  cases d with
  | int n => exact Count.fits_of_fit hd
  | _ => cases hd

lemma DetectorTerms.numbers_of_read? {t : DetectorTerms Float} (hfits : Draft.Fits (levels + 1) d)
    (h : read? d = some t) :
    t.window ≤ greatestWord ∧ t.trendThreshold.isFinite = true ∧
      t.volatilityThreshold.isFinite = true := by
  simp only [read?, Option.bind_eq_bind, Option.bind_eq_some_iff] at h
  obtain ⟨r, hr, window, hwindow, trend, htrend, volatility, hvolatility, ht⟩ := h
  cases ht
  have hrows := Draft.fits_record? hfits hr
  refine ⟨?_, ?_, ?_⟩
  · exact property_of_fieldOr (P := (· ≤ greatestWord)) hrows hwindow (by decide)
      fun d hd => Draft.le_of_word? hd
  · exact property_of_fieldOr (P := (·.isFinite = true)) hrows htrend (by decide +kernel)
      fun d hd => Draft.isFinite_of_float? hd
  · exact property_of_fieldOr (P := (·.isFinite = true)) hrows hvolatility (by decide +kernel)
      fun d hd => Draft.isFinite_of_float? hd

lemma RolloverSettings.isFinite_of_read? {s : RolloverSettings} (hfits : Draft.Fits (levels + 1) d)
    (h : read? d = some s) : s.terms.pricing.slippageBps.isFinite = true := by
  simp only [read?, Option.bind_eq_bind, Option.bind_eq_some_iff] at h
  obtain ⟨r, hr, enabled, -, mode, -, priceMode, -, slippageBps, hslippage, hs⟩ := h
  cases hs
  exact property_of_fieldOr (P := (·.isFinite = true)) (Draft.fits_record? hfits hr) hslippage
    (by decide +kernel) fun d hd => Draft.isFinite_of_float? hd

lemma BacktestSettings.tidy_of_read? {s : BacktestSettings} (hfits : Draft.Fits (levels + 3) d)
    (h : read? d = some s) : Tidy (levels + 1) s.strategy.params := by
  have hempty : Tidy (levels + 1) (.obj []) :=
    .obj (fun member hmember => absurd hmember List.not_mem_nil) .nil
  simp only [read?, Option.bind_eq_bind, Option.bind_eq_some_iff] at h
  obtain ⟨r, hr, deterministic, -, logPath, -, strategy, hstrategy, hs⟩ := h
  cases hs
  have hrows := Draft.fits_record? hfits hr
  refine property_of_fieldOr (P := fun s => Tidy (levels + 1) s.params) hrows hstrategy hempty
    fun d hd hdecode => ?_
  simp only [StrategySettings.read?, Option.bind_eq_bind, Option.bind_eq_some_iff] at hdecode
  obtain ⟨r', hr', name, -, params, hparams, hs⟩ := hdecode
  cases hs
  exact property_of_fieldOr (P := Tidy (levels + 1)) (Draft.fits_record? hd hr') hparams hempty
    fun d hd => Draft.tidy_of_toJson? hd

end Reading

namespace Settings

/-- Settings whose numbers can be written: words, counts and finite doubles.  Their parameters are
in the form in which values are taken from texts, three levels of containers below the settings. -/
structure Writable (s : Settings) : Prop where
  maxRows : ∀ n ∈ s.data.maxRows, n ≤ greatestWord
  preloadMaxRows : s.data.preloadMaxRows ≤ greatestWord
  bucketWidth : Count.Fits s.bucketWidth
  window : s.detector.window ≤ greatestWord
  trendThreshold : s.detector.trendThreshold.isFinite = true
  volatilityThreshold : s.detector.volatilityThreshold.isFinite = true
  slippageBps : s.rollover.terms.pricing.slippageBps.isFinite = true
  params : Tidy 124 s.backtest.strategy.params

/-- Whatever text settings are read from, they can be written. -/
theorem writable_of_read? {text : String} {s : Settings} (h : read? text = some s) :
    s.Writable := by
  obtain ⟨d, hd, h⟩ := Option.bind_eq_some_iff.mp h
  have hfits : Draft.Fits (126 + 1) d := Draft.fits_read? hd
  simp only [ofDraft?, Option.bind_eq_bind, Option.bind_eq_some_iff] at h
  obtain ⟨r, hr, data, hdata, width, hwidth, detector, hdetector, rollover, hrollover, backtest,
    hbacktest, hs⟩ := h
  cases hs
  have hrows := Draft.fits_record? hfits hr
  obtain ⟨hmaxRows, hpreload⟩ := property_of_fieldOr (P := fun data : DataSettings =>
      (∀ n ∈ data.maxRows, n ≤ greatestWord) ∧ data.preloadMaxRows ≤ greatestWord) hrows hdata
    ⟨by simp [initial], by decide⟩ fun d hd => DataSettings.words_of_read? hd
  obtain ⟨hwindow, htrend, hvolatility⟩ := property_of_fieldOr (P := fun t : DetectorTerms Float =>
      t.window ≤ greatestWord ∧ t.trendThreshold.isFinite = true ∧
        t.volatilityThreshold.isFinite = true) hrows hdetector
    (by decide +kernel) fun d hd => DetectorTerms.numbers_of_read? hd
  exact
    { maxRows := hmaxRows
      preloadMaxRows := hpreload
      bucketWidth := property_of_fieldOr (P := Count.Fits) hrows hwidth (by decide)
        fun d hd => fits_of_readBucketWidth? hd
      window := hwindow
      trendThreshold := htrend
      volatilityThreshold := hvolatility
      slippageBps := property_of_fieldOr (P := fun s : RolloverSettings =>
          s.terms.pricing.slippageBps.isFinite = true) hrows hrollover (by decide +kernel)
        fun d hd => RolloverSettings.isFinite_of_read? hd
      params := property_of_fieldOr (P := fun s : BacktestSettings => Tidy 124 s.strategy.params)
        hrows hbacktest (.obj (fun member hmember => absurd hmember List.not_mem_nil) .nil)
        fun d hd => BacktestSettings.tidy_of_read? hd }

/-! ## The way back -/

theorem ofDraft?_ofJson {s : Settings} (hs : s.Writable) :
    ofDraft? (Draft.ofJson s.toJson) = some s := by
  unfold ofDraft? toJson
  rw [Draft.record?_ofJson rfl (by decide) (by decide)]
  simp only [fieldOr, List.map_cons, List.map_nil, List.lookup_cons, String.reduceBEq,
    Option.bind_eq_bind, Option.bind_some, DataSettings.read?_ofJson,
    readBucketWidth?_ofJson hs.bucketWidth, DetectorTerms.read?_ofJson,
    RolloverSettings.read?_ofJson, BacktestSettings.read?_ofJson hs.params]

/-- The canonical text can be read if the text of each double in it can. -/
theorem Writable.legible {s : Settings} (hs : s.Writable)
    (hreads : ∀ x ∈ s.toJson.doubles, x.isFinite = true → ReadsBack x) :
    Legible Draft.deepest s.toJson := by
  have htrend := hreads s.detector.trendThreshold
    (by simp [toJson, DetectorTerms.toJson, doubles, memberDoubles]) hs.trendThreshold
  have hvolatility := hreads s.detector.volatilityThreshold
    (by simp [toJson, DetectorTerms.toJson, doubles, memberDoubles]) hs.volatilityThreshold
  have hslippage := hreads s.rollover.terms.pricing.slippageBps
    (by simp [toJson, RolloverSettings.toJson, doubles, memberDoubles]) hs.slippageBps
  have hparams : Legible 124 s.backtest.strategy.params := hs.params.legible fun x hx =>
    hreads x (by simp [toJson, BacktestSettings.toJson, doubles, memberDoubles, hx])
  have hdata : Legible 126 s.data.toJson :=
    legible_obj ⟨legible_ofOption fun t _ => .str t, legible_ofOption fun t _ => .str t, .str _,
      legible_ofOption fun d _ => .str d.text, legible_ofOption fun d _ => .str d.text,
      legible_ofOption fun n hn => legible_word (hs.maxRows n hn), legible_word hs.preloadMaxRows⟩
  have hwidth : Legible 125 (.int s.bucketWidth) := by
    obtain ⟨hleast, hgreatest⟩ := hs.bucketWidth
    have hword : Count.greatest ≤ greatestWord := by decide
    exact .int hleast (hgreatest.trans hword)
  have hdetector : Legible 126 s.detector.toJson :=
    legible_obj ⟨legible_word hs.window, .float htrend, .float hvolatility⟩
  have hrollover : Legible 126 s.rollover.toJson :=
    legible_obj ⟨.bool _, .str _, .str _, .float hslippage⟩
  have hbacktest : Legible 126 s.backtest.toJson :=
    legible_obj ⟨.bool _, legible_ofOption fun t _ => .str t, legible_obj ⟨.str _, hparams⟩⟩
  have hall : Legible (126 + 1) s.toJson :=
    legible_obj ⟨hdata, legible_obj hwidth, hdetector, hrollover, hbacktest⟩
  exact hall

lemma read?_compactText (v : Json) :
    read? v.compactText = (Draft.read? (compact v)).bind ofDraft? := by
  rw [read?, compactText, String.toList_ofList]

/-- **Settings that were read are read again from their canonical text.** -/
theorem read?_canonical {text : String} {s : Settings} (h : read? text = some s)
    (hreads : ∀ x ∈ s.toJson.doubles, x.isFinite = true → ReadsBack x) :
    read? s.canonical = some s := by
  have hs := writable_of_read? h
  have hread := Draft.read?_compact (hs.legible hreads)
  rw [canonical, read?_compactText, hread, Option.bind_some, ofDraft?_ofJson hs]

end Settings

/-- **The canonical text stands for the settings.**  Settings that were read from any text are read
again from their canonical text, which is then their canonical text once more; and two texts have
the same canonical bytes exactly when they are texts of the same settings.  This takes for granted
that the text of a finite double reads as that double, for the doubles that occur. -/
theorem canonical_text_stands_for_settings {text other : String} {s s' : Settings}
    (h : Settings.read? text = some s) (h' : Settings.read? other = some s')
    (hreads : ∀ x ∈ s.toJson.doubles, x.isFinite = true → ReadsBack x)
    (hreads' : ∀ x ∈ s'.toJson.doubles, x.isFinite = true → ReadsBack x) :
    Settings.read? s.canonical = some s ∧
      (Settings.read? s.canonical).map Settings.canonical = some s.canonical ∧
      (Node.bytesOf s.canonical = Node.bytesOf s'.canonical ↔ s = s') := by
  have hs := Settings.read?_canonical h hreads
  have hs' := Settings.read?_canonical h' hreads'
  refine ⟨hs, by rw [hs, Option.map_some], fun hbytes => ?_, fun heq => by rw [heq]⟩
  rw [Node.bytesOf_inj hbytes, hs'] at hs
  exact (Option.some.inj hs).symm

/-- Settings in an unusual form: a section is a list, a day is written short, a field goes by its
other name, a mode is an object, a parameter comes twice, and there is a member that is no field. -/
def looseForm : Json :=
  .obj
    [("rollover", .obj [("rollover_slippage_bps", .float 2.5), ("mode", .obj [("carry", .null)])]),
      ("data", .arr [.null, .str "ticks", .str "lenient", .str " 2024-1-2 "]),
      ("notes", .float 0.75),
      ("backtest", .obj [("strategy", .obj [("params",
        .obj [("z", .arr []), ("a", .obj [("b", .float (-0.25))]), ("z", .null)])])])]

/-- The same settings, with other members left out. -/
def orderlyForm : Json :=
  .obj
    [("data",
        .obj [("dataset_root", .str "ticks"), ("validation", .str "lenient"),
          ("start_date", .str "2024-01-02"), ("end_date", .null)]),
      ("rollover", .obj [("enabled", .bool true), ("mode", .str "carry"),
        ("slippage_bps", .float 2.5)]),
      ("backtest", .obj [("strategy", .obj [("name", .str "noop"),
        ("params", .obj [("a", .obj [("b", .float (-0.25))]), ("z", .null)])])])]

/-- Both are texts of the same settings, because they have the same canonical text. -/
theorem canonical_text_stands_for_settings_looseForm :
    ∃ s s', Settings.read? looseForm.compactText = some s ∧
      Settings.read? orderlyForm.compactText = some s' ∧
      s = s' ∧ Settings.read? s.canonical = some s := by
  have hloose : (((Draft.read? (compact looseForm)).bind Settings.ofDraft?).any fun s =>
      ∀ x ∈ s.toJson.doubles, ReadsBack x) = true := by decide +kernel
  have horderly : (((Draft.read? (compact orderlyForm)).bind Settings.ofDraft?).any fun s =>
      ∀ x ∈ s.toJson.doubles, ReadsBack x) = true := by decide +kernel
  have hcanonical : ((Draft.read? (compact looseForm)).bind Settings.ofDraft?).map
      (fun s => compact s.toJson) =
      ((Draft.read? (compact orderlyForm)).bind Settings.ofDraft?).map
        fun s => compact s.toJson := by decide +kernel
  obtain ⟨s, hs, hreads⟩ := (Option.any_eq_true _ _).mp hloose
  obtain ⟨s', hs', hreads'⟩ := (Option.any_eq_true _ _).mp horderly
  rw [hs, hs', Option.map_some, Option.map_some] at hcanonical
  have hbytes : Node.bytesOf s.canonical = Node.bytesOf s'.canonical :=
    congrArg (fun cs => Node.bytesOf (String.ofList cs)) (Option.some.inj hcanonical)
  rw [← Settings.read?_compactText] at hs hs'
  obtain ⟨hagain, -, hsame⟩ := canonical_text_stands_for_settings hs hs'
    (fun x hx _ => of_decide_eq_true hreads x hx) fun x hx _ => of_decide_eq_true hreads' x hx
  exact ⟨s, s', hs, hs', hsame.mp hbytes, hagain⟩

end MarketTape
