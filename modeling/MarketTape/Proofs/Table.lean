import Mathlib.Algebra.BigOperators.Group.Finset.Basic
import Mathlib.Data.String.Basic
import Mathlib.Tactic.Abel
import MarketTape.Table

/-!
# What is in a table

The names of a table increase, so that what is found under a name is the one row that there is of
it.

* `Table.mem_names_iff` and `Table.get?_of_mem` go from what is found to the rows and back.
* `Table.total` adds up a table; `Table.total_insert`, `Table.total_erase` and `Table.total_change`
  say what a written row, a dropped one and one that counts differently do to the sum.
-/

namespace MarketTape

namespace Table

/-! ## Rows and names -/

section Rows

variable {β : Type}

/-- A name under which there is a value is one of the names. -/
lemma mem_names {t : Table β} {name : String} {value : β}
    (h : t.get? name = some value) : name ∈ t.names := by
  have go : ∀ rows : List (String × β), find name rows = some value →
      name ∈ rows.map fun row => row.1 := by
    intro rows
    induction rows with
    | nil =>
      intro hrow
      cases hrow
    | cons row rest ih =>
      intro hrow
      rw [find] at hrow
      split at hrow
      · rename_i hname
        rw [hname]
        exact List.mem_cons_self
      · exact List.mem_cons_of_mem _ (ih hrow)
  exact go t.rows h

/-- A name in front of all names of the rows is not among them. -/
lemma find_eq_none {name : String} {rows : List (String × β)} (h : ∀ row ∈ rows, name < row.1) :
    find name rows = none := by
  induction rows with
  | nil => rfl
  | cons first rest ih =>
    have hne : name ≠ first.1 := (h first List.mem_cons_self).ne
    rw [find, if_neg hne]
    exact ih fun row hrow => h row (List.mem_cons_of_mem _ hrow)

/-- A row is found under its name. -/
lemma get?_of_mem {t : Table β} {row : String × β} (h : row ∈ t.rows) :
    t.get? row.1 = some row.2 := by
  have go : ∀ rows : List (String × β), rows.Pairwise (fun a b => a.1 < b.1) → row ∈ rows →
      find row.1 rows = some row.2 := by
    intro rows
    induction rows with
    | nil =>
      intro _ hrow
      cases hrow
    | cons first rest ih =>
      intro hincreasing hrow
      obtain ⟨hfirst, hrest⟩ := List.pairwise_cons.mp hincreasing
      rcases List.mem_cons.mp hrow with rfl | hrow
      · rw [find, if_pos rfl]
      · rw [find, if_neg (hfirst row hrow).ne']
        exact ih hrest hrow
  exact go t.rows t.increasing h

lemma mem_names_iff {t : Table β} {name : String} :
    name ∈ t.names ↔ ∃ value, t.get? name = some value := by
  constructor
  · intro hname
    obtain ⟨row, hrow, rfl⟩ := List.mem_map.mp hname
    exact ⟨row.2, get?_of_mem hrow⟩
  · rintro ⟨value, hvalue⟩
    exact mem_names hvalue

lemma mem_names_insert {t : Table β} {name other : String} {value : β} :
    other ∈ (t.insert name value).names ↔ other = name ∨ other ∈ t.names := by
  rw [mem_names_iff, mem_names_iff, get?_insert]
  by_cases hname : other = name <;> simp [hname]

lemma nodup_names (t : Table β) : t.names.Nodup :=
  List.pairwise_map.mpr (t.increasing.imp fun hlt => hlt.ne)

end Rows

/-! ## Sums -/

section Sums

variable {β M : Type} [AddCommGroup M]

/-- What the rows of a table add up to. -/
def total (t : Table β) (f : String → β → M) : M := (t.rows.map fun row => f row.1 row.2).sum

/-- Every name counts once. -/
lemma total_eq_sum (t : Table β) (f : String → β → M) :
    t.total f = ∑ name ∈ t.names.toFinset, ((t.get? name).map (f name)).getD 0 := by
  rw [List.sum_toFinset _ t.nodup_names, total, names, List.map_map]
  refine congrArg List.sum (List.map_congr_left fun row hrow => ?_)
  rw [Function.comp_apply, get?_of_mem hrow]
  rfl

lemma sum_place (f : String → β → M) (name : String) (value : β) :
    ∀ {rows : List (String × β)}, rows.Pairwise (fun a b => a.1 < b.1) →
      ((place name value rows).map fun row => f row.1 row.2).sum =
        (rows.map fun row => f row.1 row.2).sum + f name value -
          ((find name rows).map (f name)).getD 0
  | [], _ => by simp [place, find]
  | first :: rest, h => by
    obtain ⟨hfirst, hrest⟩ := List.pairwise_cons.mp h
    rw [place]
    split
    · rename_i hlt
      have hnone : find name (first :: rest) = none := by
        refine find_eq_none fun row hrow => ?_
        rcases List.mem_cons.mp hrow with rfl | hrow
        · exact hlt
        · exact lt_trans hlt (hfirst row hrow)
      simp only [hnone, List.map_cons, List.sum_cons, Option.map_none, Option.getD_none]
      abel
    · split
      · rename_i heq
        subst heq
        simp only [find, if_true, List.map_cons, List.sum_cons, Option.map_some, Option.getD_some]
        abel
      · rename_i hne
        have ih := sum_place f name value hrest
        simp only [find, if_neg hne, List.map_cons, List.sum_cons, ih]
        abel

/-- A written row counts, and the one that it replaces does not count any more. -/
theorem total_insert (t : Table β) (f : String → β → M) (name : String) (value : β) :
    (t.insert name value).total f =
      t.total f + f name value - ((t.get? name).map (f name)).getD 0 :=
  sum_place f name value t.increasing

lemma sum_filter_ne (f : String → β → M) (name : String) :
    ∀ {rows : List (String × β)}, rows.Pairwise (fun a b => a.1 < b.1) →
      ((rows.filter fun row => row.1 != name).map fun row => f row.1 row.2).sum =
        (rows.map fun row => f row.1 row.2).sum - ((find name rows).map (f name)).getD 0
  | [], _ => by simp [find]
  | first :: rest, h => by
    obtain ⟨hfirst, hrest⟩ := List.pairwise_cons.mp h
    have ih := sum_filter_ne f name hrest
    by_cases hname : name = first.1
    · subst hname
      -- no later row has the name, so the filter drops this one alone
      rw [find_eq_none hfirst, Option.map_none, Option.getD_none, sub_zero] at ih
      simp [find, ih]
    · have hkeep : (first.1 != name) = true := bne_iff_ne.mpr (Ne.symm hname)
      simp only [List.filter_cons, hkeep, if_true, List.map_cons, List.sum_cons, ih, find,
        if_neg hname]
      abel

/-- A dropped row does not count any more. -/
theorem total_erase (t : Table β) (f : String → β → M) (name : String) :
    (t.erase name).total f = t.total f - ((t.get? name).map (f name)).getD 0 :=
  sum_filter_ne f name t.increasing

/-- Counting the row of one name differently changes the sum by what that row counts now and no
longer counts. -/
theorem total_change (t : Table β) {f g : String → β → M} (name : String)
    (h : ∀ other value, other ≠ name → f other value = g other value) :
    t.total g = t.total f + ((t.get? name).map (g name)).getD 0 -
      ((t.get? name).map (f name)).getD 0 := by
  have hrest : (t.erase name).total f = (t.erase name).total g := by
    refine congrArg List.sum (List.map_congr_left fun row hrow => h row.1 row.2 ?_)
    exact bne_iff_ne.mp (List.mem_filter.mp hrow).2
  rw [total_erase, total_erase] at hrest
  rw [add_sub_right_comm, hrest, sub_add_cancel]

end Sums

end Table

end MarketTape
