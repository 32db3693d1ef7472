import MarketTape.Proofs.Finite
import MarketTape.Proofs.Spelling
import MarketTape.Proofs.Table

/-!
# Values that were read are written and read again

Not every value can be read back from its text: a whole number may be too large, a double infinite,
the members of an object out of order or named twice, the containers too deep.  A value that was
itself taken from a text has none of these faults, so that writing it and reading it again gives the
same value.  What is left to ask for is that the text of each of its doubles reads as that double.

* `Draft.Fits` is what reading makes of a text: `Draft.fits_read?`.
* `Tidy` is what is taken out of that, `Draft.tidy_of_toJson?`.
* `Draft.toJson?_ofJson` and `Tidy.legible` are the two halves of the way back, and
  `read?_compactText` is the result.
-/

namespace MarketTape

/-! ## Tables of rows in order -/

namespace Table

variable {β : Type}

lemma place_of_lt {name : String} {value : β} {rows : List (String × β)}
    (h : ∀ row ∈ rows, row.1 < name) : place name value rows = rows ++ [(name, value)] := by
  induction rows with
  | nil => rfl
  | cons row rest ih =>
    have hrow := h row List.mem_cons_self
    rw [place, if_neg hrow.not_gt, if_neg hrow.ne', ih fun r hr => h r (List.mem_cons_of_mem _ hr)]
    rfl

/-- Rows that come in order are put behind the others. -/
lemma rows_foldl_insert {rows : List (String × β)} {t : Table β}
    (h : (t.rows ++ rows).Pairwise fun a b => a.1 < b.1) :
    (rows.foldl (fun t row => t.insert row.1 row.2) t).rows = t.rows ++ rows := by
  induction rows generalizing t with
  | nil => exact (List.append_nil _).symm
  | cons row rest ih =>
    have hlast : ∀ r ∈ t.rows, r.1 < row.1 := fun r hr =>
      (List.pairwise_append.mp h).2.2 r hr row List.mem_cons_self
    have hinsert : (t.insert row.1 row.2).rows = t.rows ++ [row] := place_of_lt hlast
    rw [List.foldl_cons, ih, hinsert, List.append_assoc]
    · rfl
    · rwa [hinsert, List.append_assoc]

/-- Rows that are in order stay as they are. -/
lemma rows_ofList {rows : List (String × β)} (h : rows.Pairwise fun a b => a.1 < b.1) :
    (ofList rows).rows = rows := rows_foldl_insert (t := empty) h

lemma mem_of_mem_foldl_insert {rows : List (String × β)} {t : Table β} {row : String × β}
    (h : row ∈ (rows.foldl (fun t row => t.insert row.1 row.2) t).rows) :
    row ∈ t.rows ∨ row ∈ rows := by
  induction rows generalizing t with
  | nil => exact .inl h
  | cons first rest ih =>
    rcases ih h with hmem | hmem
    · rcases mem_place hmem with rfl | hmem
      · exact .inr List.mem_cons_self
      · exact .inl hmem
    · exact .inr (List.mem_cons_of_mem _ hmem)

lemma mem_of_mem_rows_ofList {rows : List (String × β)} {row : String × β}
    (h : row ∈ (ofList rows).rows) : row ∈ rows :=
  (mem_of_mem_foldl_insert (t := empty) h).resolve_left List.not_mem_nil

end Table

namespace Json

/-! ## What reading makes of a text -/

namespace Draft

/-- A draft with no more than so many levels of containers, whose numbers can be written. -/
inductive Fits : Nat → Draft → Prop where
  | null {levels} : Fits levels .null
  | bool {levels} (b : Bool) : Fits levels (.bool b)
  | int {levels} {n : Int} (hleast : -9223372036854775808 ≤ n) (hgreatest : n ≤ greatestWord) :
    Fits levels (.int n)
  | float {levels} {x : Float} (hfinite : x.isFinite = true) : Fits levels (.float x)
  | str {levels} (s : String) : Fits levels (.str s)
  | arr {levels} {items : List Draft} (hitems : ∀ item ∈ items, Fits levels item) :
    Fits (levels + 1) (.arr items)
  | obj {levels} {members : List (Option String × Draft)}
    (hmembers : ∀ member ∈ members, Fits levels member.2) : Fits (levels + 1) (.obj members)
  | unusable {levels} : Fits levels .unusable

variable {fuel levels : Nat}

lemma fits_readNumber {negative : Bool} {cs after : List Char} {d : Draft}
    (h : readNumber negative cs = some (d, after)) : Fits levels d := by
  obtain ⟨whole, rest, fraction, rest', exponent, -, -, -, -, rfl⟩ := readNumber_cases h
  unfold ofNumeral
  split
  · next n hvalue =>
    obtain ⟨hleast, hgreatest⟩ := Numeral.range_of_value? hvalue
    exact .int hleast hgreatest
  · next x hvalue => exact .float (Numeral.isFinite_of_value? hvalue)
  · exact .unusable

lemma fits_atDepth {d : Draft} (h : ∀ inner, levels = inner + 1 → Fits levels d) :
    Fits levels (atDepth levels d) := by
  unfold atDepth
  split
  · exact .unusable
  · next hlevels => exact h (levels - 1) (by omega)

/-- A value fits if what is read inside its containers does. -/
lemma fits_value {cs rest : List Char} {d : Draft}
    (hitems : ∀ cs items rest, readItems fuel (levels - 1) cs = some (items, rest) →
      ∀ item ∈ items, Fits (levels - 1) item)
    (hmembers : ∀ cs members rest, readMembers fuel (levels - 1) cs = some (members, rest) →
      ∀ member ∈ members, Fits (levels - 1) member.2)
    (h : readValue (fuel + 1) levels cs = some (d, rest)) : Fits levels d := by
  have harr (items : List Draft) (hall : ∀ item ∈ items, Fits (levels - 1) item) :
      Fits levels (atDepth levels (.arr items)) := by
    refine fits_atDepth ?_
    rintro inner rfl
    exact .arr hall
  have hobj (members : List (Option String × Draft))
      (hall : ∀ member ∈ members, Fits (levels - 1) member.2) :
      Fits levels (atDepth levels (.obj members)) := by
    refine fits_atDepth ?_
    rintro inner rfl
    exact .obj hall
  rw [readValue] at h
  split at h
  · cases h
    exact .null
  · cases h
    exact .bool true
  · cases h
    exact .bool false
  · obtain ⟨⟨text, after⟩, -, hd⟩ := Option.map_eq_some_iff.mp h
    cases hd
    cases text with
    | none => exact .unusable
    | some text => exact .str text
  · exact fits_readNumber h
  · split at h
    · cases h
      exact harr [] fun item hitem => absurd hitem List.not_mem_nil
    · obtain ⟨⟨items, after⟩, hread, hd⟩ := Option.map_eq_some_iff.mp h
      cases hd
      exact harr items (hitems _ items _ hread)
  · split at h
    · split at h
      · split at h
        · cases h
          exact hobj [] fun member hmember => absurd hmember List.not_mem_nil
        · obtain ⟨⟨members, after⟩, hread, hd⟩ := Option.map_eq_some_iff.mp h
          cases hd
          exact hobj members (hmembers _ members _ hread)
      · cases h
    · exact fits_readNumber h
  · cases h

lemma fits_items {cs rest : List Char} {items : List Draft}
    (hvalue : ∀ cs d rest, readValue fuel levels cs = some (d, rest) → Fits levels d)
    (hitems : ∀ cs items rest, readItems fuel levels cs = some (items, rest) →
      ∀ item ∈ items, Fits levels item)
    (h : readItems (fuel + 1) levels cs = some (items, rest)) :
    ∀ item ∈ items, Fits levels item := by
  rw [readItems] at h
  split at h
  · cases h
  · next item after hread =>
    have hitem := hvalue cs item after hread
    split at h
    · cases h
      exact List.forall_mem_singleton.mpr hitem
    · obtain ⟨⟨others, after'⟩, hothers, heq⟩ := Option.map_eq_some_iff.mp h
      cases heq
      exact List.forall_mem_cons.mpr ⟨hitem, hitems _ others _ hothers⟩
    · cases h

lemma fits_members {cs rest : List Char} {members : List (Option String × Draft)}
    (hvalue : ∀ cs d rest, readValue fuel levels cs = some (d, rest) → Fits levels d)
    (hmembers : ∀ cs members rest, readMembers fuel levels cs = some (members, rest) →
      ∀ member ∈ members, Fits levels member.2)
    (h : readMembers (fuel + 1) levels cs = some (members, rest)) :
    ∀ member ∈ members, Fits levels member.2 := by
  rw [readMembers] at h
  split at h
  · split at h
    · cases h
    · split at h
      · split at h
        · cases h
        · next value after hread =>
          have hmember := hvalue _ value after hread
          split at h
          · obtain ⟨⟨others, after'⟩, hothers, heq⟩ := Option.map_eq_some_iff.mp h
            cases heq
            exact List.forall_mem_cons.mpr ⟨hmember, hmembers _ others _ hothers⟩
          · split at h
            · cases h
              exact List.forall_mem_singleton.mpr hmember
            · cases h
          · cases h
      · cases h
  · cases h

/-- The three readers together, by induction on the fuel: every call inside has less of it. -/
lemma fits_readers : ∀ fuel levels : Nat,
    (∀ cs d rest, readValue fuel levels cs = some (d, rest) → Fits levels d) ∧
    (∀ cs items rest, readItems fuel levels cs = some (items, rest) →
      ∀ item ∈ items, Fits levels item) ∧
    ∀ cs members rest, readMembers fuel levels cs = some (members, rest) →
      ∀ member ∈ members, Fits levels member.2 := by
  intro fuel
  induction fuel with
  | zero =>
    intro levels
    refine ⟨?_, ?_, ?_⟩
    all_goals
      intro cs read rest h
      cases h
  | succ fuel ih =>
    intro levels
    obtain ⟨hvalue, hitems, hmembers⟩ := ih levels
    obtain ⟨-, hinnerItems, hinnerMembers⟩ := ih (levels - 1)
    exact ⟨fun cs d rest => fits_value hinnerItems hinnerMembers,
      fun cs items rest => fits_items hvalue hitems,
      fun cs members rest => fits_members hvalue hmembers⟩

/-- What a text is read as fits. -/
theorem fits_read? {cs : List Char} {d : Draft} (h : read? cs = some d) : Fits deepest d := by
  unfold read? at h
  split at h
  · next d' rest hread =>
    split at h
    · cases h
      exact (fits_readers _ deepest).1 cs d rest hread
    · cases h
  · cases h

end Draft

/-! ## What is taken out of it -/

/-- A value in the form in which values are taken from texts: its numbers can be written, the names
in every object are in order, and there are no more than so many levels of containers. -/
inductive Tidy : Nat → Json → Prop where
  | null {levels} : Tidy levels .null
  | bool {levels} (b : Bool) : Tidy levels (.bool b)
  | int {levels} {n : Int} (hleast : -9223372036854775808 ≤ n) (hgreatest : n ≤ greatestWord) :
    Tidy levels (.int n)
  | float {levels} {x : Float} (hfinite : x.isFinite = true) : Tidy levels (.float x)
  | str {levels} (s : String) : Tidy levels (.str s)
  | arr {levels} {items : List Json} (hitems : ∀ item ∈ items, Tidy levels item) :
    Tidy (levels + 1) (.arr items)
  | obj {levels} {members : List (String × Json)}
    (hmembers : ∀ member ∈ members, Tidy levels member.2)
    (hincreasing : members.Pairwise fun a b => a.1 < b.1) : Tidy (levels + 1) (.obj members)

namespace Draft

variable {levels : Nat}

lemma mem_of_itemsToJson? {items : List Draft} {values : List Json} {v : Json}
    (h : itemsToJson? items = some values) (hv : v ∈ values) :
    ∃ item ∈ items, item.toJson? = some v := by
  induction items generalizing values with
  | nil =>
    cases h
    cases hv
  | cons item rest ih =>
    rw [itemsToJson?] at h
    split at h
    · next first others hfirst hothers =>
      cases h
      rcases List.mem_cons.mp hv with rfl | hv
      · exact ⟨item, List.mem_cons_self, hfirst⟩
      · obtain ⟨other, hother, hvalue⟩ := ih hothers hv
        exact ⟨other, List.mem_cons_of_mem _ hother, hvalue⟩
    · cases h

lemma mem_of_membersToJson? {members : List (Option String × Draft)} {rows : List (String × Json)}
    {row : String × Json} (h : membersToJson? members = some rows) (hrow : row ∈ rows) :
    ∃ member ∈ members, member.2.toJson? = some row.2 := by
  induction members generalizing rows with
  | nil =>
    cases h
    cases hrow
  | cons member rest ih =>
    obtain ⟨name, d⟩ := member
    unfold membersToJson? at h
    split at h
    · next value others hvalue hothers =>
      cases h
      rcases List.mem_cons.mp hrow with rfl | hrow
      · exact ⟨_, List.mem_cons_self, hvalue⟩
      · obtain ⟨other, hother, hvalue⟩ := ih hothers hrow
        exact ⟨other, List.mem_cons_of_mem _ hother, hvalue⟩
    · cases h

/-- What is taken out of a text is tidy, in whatever order and however often its members come. -/
theorem tidy_of_toJson? {d : Draft} {v : Json} (hfits : Fits levels d) (h : d.toJson? = some v) :
    Tidy levels v := by
  induction hfits generalizing v with
  | null =>
    cases h
    exact .null
  | bool b =>
    cases h
    exact .bool b
  | int hleast hgreatest =>
    cases h
    exact .int hleast hgreatest
  | float hfinite =>
    cases h
    exact .float hfinite
  | str s =>
    cases h
    exact .str s
  | arr hitems ih =>
    rw [toJson?] at h
    obtain ⟨values, hvalues, rfl⟩ := Option.map_eq_some_iff.mp h
    refine .arr fun v hv => ?_
    obtain ⟨item, hitem, hvalue⟩ := mem_of_itemsToJson? hvalues hv
    exact ih item hitem hvalue
  | obj hmembers ih =>
    rw [toJson?] at h
    obtain ⟨rows, hrows, rfl⟩ := Option.map_eq_some_iff.mp h
    refine .obj (fun row hrow => ?_) (Table.ofList rows).increasing
    obtain ⟨member, hmember, hvalue⟩ :=
      mem_of_membersToJson? hrows (Table.mem_of_mem_rows_ofList hrow)
    exact ih member hmember hvalue
  | unusable => cases h

/-! ## The way back -/

lemma itemsToJson?_ofItems {items : List Json}
    (h : ∀ item ∈ items, (ofJson item).toJson? = some item) :
    itemsToJson? (ofItems items) = some items := by
  induction items with
  | nil => rfl
  | cons item rest ih =>
    obtain ⟨hitem, hrest⟩ := List.forall_mem_cons.mp h
    rw [ofItems, itemsToJson?, hitem, ih hrest]

lemma membersToJson?_ofMembers {members : List (String × Json)}
    (h : ∀ member ∈ members, (ofJson member.2).toJson? = some member.2) :
    membersToJson? (ofMembers members) = some members := by
  induction members with
  | nil => rfl
  | cons member rest ih =>
    obtain ⟨hmember, hrest⟩ := List.forall_mem_cons.mp h
    obtain ⟨name, value⟩ := member
    dsimp only at hmember
    simp only [ofMembers, membersToJson?, hmember, ih hrest]

/-- A tidy value is taken out of its own draft. -/
theorem toJson?_ofJson {v : Json} (h : Tidy levels v) : (ofJson v).toJson? = some v := by
  induction h with
  | null => rfl
  | bool b => rfl
  | int hleast hgreatest => rfl
  | float hfinite => rfl
  | str s => rfl
  | arr hitems ih => rw [ofJson, toJson?, itemsToJson?_ofItems ih, Option.map_some]
  | obj hmembers hincreasing ih =>
    rw [ofJson, toJson?, membersToJson?_ofMembers ih, Option.map_some,
      Table.rows_ofList hincreasing]

end Draft

mutual

/-- The doubles in a value. -/
def doubles : Json → List Float
  | .float x => [x]
  | .arr items => itemDoubles items
  | .obj members => memberDoubles members
  | .null | .bool _ | .int _ | .str _ => []

/-- The doubles in the items of a list. -/
def itemDoubles : List Json → List Float
  | [] => []
  | item :: rest => doubles item ++ itemDoubles rest

/-- The doubles in the members of an object. -/
def memberDoubles : List (String × Json) → List Float
  | [] => []
  | (_, value) :: rest => doubles value ++ memberDoubles rest

end

lemma mem_itemDoubles {items : List Json} {item : Json} {x : Float} (hitem : item ∈ items)
    (hx : x ∈ doubles item) : x ∈ itemDoubles items := by
  induction items with
  | nil => cases hitem
  | cons first rest ih =>
    rw [itemDoubles]
    rcases List.mem_cons.mp hitem with rfl | hitem
    · exact List.mem_append_left _ hx
    · exact List.mem_append_right _ (ih hitem)

lemma mem_memberDoubles {members : List (String × Json)} {member : String × Json} {x : Float}
    (hmember : member ∈ members) (hx : x ∈ doubles member.2) : x ∈ memberDoubles members := by
  induction members with
  | nil => cases hmember
  | cons first rest ih =>
    obtain ⟨name, value⟩ := first
    rw [memberDoubles]
    rcases List.mem_cons.mp hmember with rfl | hmember
    · exact List.mem_append_left _ hx
    · exact List.mem_append_right _ (ih hmember)

/-- The text of a tidy value can be read if the text of each of its doubles can. -/
theorem Tidy.legible {levels : Nat} {v : Json} (h : Tidy levels v)
    (hreads : ∀ x ∈ v.doubles, x.isFinite = true → ReadsBack x) : Legible levels v := by
  induction h with
  | null => exact .null
  | bool b => exact .bool b
  | int hleast hgreatest => exact .int hleast hgreatest
  | @float levels x hfinite => exact .float (hreads x (List.mem_singleton_self x) hfinite)
  | str s => exact .str s
  | arr hitems ih =>
    exact .arr fun item hitem => ih item hitem fun x hx => hreads x (mem_itemDoubles hitem hx)
  | obj hmembers hincreasing ih =>
    exact .obj fun member hmember =>
      ih member hmember fun x hx => hreads x (mem_memberDoubles hmember hx)

/-- **A value that was read is written and read again.**  Whatever the text looked like, the compact
text of the value that it holds is again a text of that value. -/
theorem read?_compactText {text : String} {v : Json} (h : read? text = some v)
    (hreads : ∀ x ∈ v.doubles, x.isFinite = true → ReadsBack x) :
    read? v.compactText = some v := by
  obtain ⟨d, hd, hv⟩ := Option.bind_eq_some_iff.mp h
  have htidy := Draft.tidy_of_toJson? (Draft.fits_read? hd) hv
  have hlegible := Draft.read?_compact (htidy.legible hreads)
  rw [read?, compactText, String.toList_ofList, hlegible, Option.bind_some,
    Draft.toJson?_ofJson htidy]

end Json

end MarketTape
