/-!
# Tables in the order of their names

Everything the program keeps by name — positions, marks, waiting orders, registered strategies —
is shown in the order of the names, so the order is part of the type: a `Table` is a list of rows
whose names strictly increase.  Two tables with the same rows are then equal, and a name has at most
one row.

* `Table.get?`, `Table.insert`, `Table.erase` and `Table.map` are the operations.
* `Table.get?_insert` and `Table.get?_erase` say what each does to what is found under a name.
-/

namespace MarketTape

universe u v

/-- Rows under strictly increasing names.  Names compare code point by code point. -/
structure Table (β : Type u) where
  rows : List (String × β)
  increasing : rows.Pairwise fun a b => a.1 < b.1

namespace Table

variable {β : Type u} {γ : Type v}

/-! ## Rows -/

/-- Puts a row where its name belongs, in place of a row of the same name. -/
def place (name : String) (value : β) : List (String × β) → List (String × β)
  | [] => [(name, value)]
  | row :: rest =>
    if name < row.1 then (name, value) :: row :: rest
    else if name = row.1 then (name, value) :: rest
    else row :: place name value rest

/-- The value of the row of a name. -/
def find (name : String) : List (String × β) → Option β
  | [] => none
  | row :: rest => if name = row.1 then some row.2 else find name rest

theorem mem_place {name : String} {value : β} {rows : List (String × β)} {row : String × β}
    (h : row ∈ place name value rows) : row = (name, value) ∨ row ∈ rows := by
  induction rows with
  | nil => simpa [place] using h
  | cons first rest ih =>
    simp only [place] at h
    split at h
    · simpa using h
    · split at h
      · simp at h ⊢
        rcases h with h | h <;> simp [h]
      · simp at h ⊢
        rcases h with h | h
        · simp [h]
        · rcases ih h with h | h <;> simp [h]

private theorem lt_of_not_lt_of_ne {a b : String} (h : ¬ a < b) (hne : a ≠ b) : b < a := by
  have hle : b ≤ a := Std.not_lt.1 h
  exact Std.lt_of_le_of_ne hle (Ne.symm hne)

theorem pairwise_place {name : String} {value : β} {rows : List (String × β)}
    (h : rows.Pairwise fun a b => a.1 < b.1) :
    (place name value rows).Pairwise fun a b => a.1 < b.1 := by
  induction rows with
  | nil => simp [place]
  | cons first rest ih =>
    obtain ⟨hfirst, hrest⟩ := List.pairwise_cons.1 h
    simp only [place]
    split
    · rename_i hlt
      refine List.pairwise_cons.2 ⟨fun row hrow => ?_, h⟩
      rcases List.mem_cons.1 hrow with rfl | hrow
      · exact hlt
      · exact String.lt_trans hlt (hfirst row hrow)
    · rename_i hlt
      split
      · rename_i heq
        subst heq
        exact List.pairwise_cons.2 ⟨hfirst, hrest⟩
      · rename_i hne
        refine List.pairwise_cons.2 ⟨fun row hrow => ?_, ih hrest⟩
        rcases mem_place hrow with rfl | hrow
        · exact lt_of_not_lt_of_ne hlt hne
        · exact hfirst row hrow

/-! ## Tables -/

def empty : Table β := ⟨[], List.Pairwise.nil⟩

instance : Inhabited (Table β) := ⟨empty⟩

def get? (t : Table β) (name : String) : Option β := find name t.rows

def contains (t : Table β) (name : String) : Bool := (t.get? name).isSome

/-- Writes a row, replacing the one of the same name. -/
def insert (t : Table β) (name : String) (value : β) : Table β :=
  ⟨place name value t.rows, pairwise_place t.increasing⟩

def erase (t : Table β) (name : String) : Table β :=
  ⟨t.rows.filter fun row => row.1 != name, t.increasing.filter _⟩

/-- Changes every value and no name. -/
def map (f : String → β → γ) (t : Table β) : Table γ :=
  ⟨t.rows.map fun row => (row.1, f row.1 row.2), List.pairwise_map.2 t.increasing⟩

def names (t : Table β) : List String := t.rows.map (·.1)

/-- The values, in the order of their names. -/
def values (t : Table β) : List β := t.rows.map (·.2)

/-- A table of the given rows; of two rows of one name the later one counts. -/
def ofList (rows : List (String × β)) : Table β :=
  rows.foldl (fun t row => t.insert row.1 row.2) empty

/-! ## What is found under a name -/

@[simp] theorem get?_empty (name : String) : (empty : Table β).get? name = none := rfl

private theorem find_place (name : String) (value : β) (rows : List (String × β))
    (key : String) :
    find key (place name value rows) = if key = name then some value else find key rows := by
  induction rows with
  | nil => simp [place, find]
  | cons first rest ih =>
    simp only [place]
    split
    · simp [find]
    · split
      · rename_i heq
        by_cases h : key = name <;> simp [find, h, ← heq]
      · rename_i hne
        by_cases h : key = name
        · subst h
          simp [find, hne, ih]
        · simp [find, h, ih]

/-- A written row is found under its name, and no other name notices. -/
theorem get?_insert (t : Table β) (name : String) (value : β) (key : String) :
    (t.insert name value).get? key = if key = name then some value else t.get? key :=
  find_place name value t.rows key

private theorem find_filter_ne (name : String) (rows : List (String × β)) (key : String) :
    find key (rows.filter fun row => row.1 != name) =
      if key = name then none else find key rows := by
  induction rows with
  | nil => simp [find]
  | cons first rest ih =>
    by_cases hf : first.1 = name <;> by_cases h : key = name <;>
      by_cases hk : key = first.1 <;> simp_all [find]

/-- A dropped row is gone, and no other name notices. -/
theorem get?_erase (t : Table β) (name key : String) :
    (t.erase name).get? key = if key = name then none else t.get? key :=
  find_filter_ne name t.rows key

end Table

end MarketTape
