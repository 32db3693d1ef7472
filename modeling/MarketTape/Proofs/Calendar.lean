import Mathlib.Algebra.Group.Nat.Hom
import MarketTape.Calendar
import MarketTape.Proofs.Numerals

/-!
# Days read back

The text of a day has a year of four digits, or a sign and a year of at least four, and then a month
and a day of two digits each.  Reading takes up to four digits for a year without a sign and up to
two for a month or a day, so that each part ends where it should, which is in front of a hyphen or
at the end.

* `Date.readDigits?_padded` reads a number that was filled up with zeros.
* `Date.read?_text` reads a whole day.
-/

namespace MarketTape.Date

open Decimal

/-! ## Digits -/

lemma isDigit_of_mem_padded {width n : Nat} {c : Char} (h : c ∈ padded width n) :
    c.isDigit = true := by
  rcases List.mem_append.mp h with h | h
  · obtain rfl := List.eq_of_mem_replicate h
    rfl
  · exact Json.isDigit_of_mem_natText h

lemma padded_ne_nil (width n : Nat) : padded width n ≠ [] := fun h =>
  Json.natText_ne_nil n (List.append_eq_nil_iff.mp h).2

/-- Zeros in front of a number do not change it. -/
lemma ofDigits_padded (width n : Nat) : ofDigits 0 (padded width n) = n := by
  have hzeros : ∀ k, ofDigits 0 (List.replicate k '0') = 0 := by
    intro k
    induction k with
    | zero => rfl
    | succ k ih => exact ih
  have happend : ofDigits 0 (padded width n) =
      ofDigits (ofDigits 0 (List.replicate (width - (natText n).length) '0')) (natText n) :=
    List.foldl_append
  rw [happend, hzeros, Json.ofDigits_natText]

lemma length_padded {width n : Nat} (hpos : 0 < width) (h : n < 10 ^ width) :
    (padded width n).length = width := by
  have hlength : (natText n).length ≤ width := (Nat.length_toDigits_le_iff (by decide) hpos).mpr h
  simp only [padded, List.length_append, List.length_replicate]
  omega

/-- A number of no more digits than are asked for is read up to what is no digit. -/
lemma readDigits?_padded {width n limit : Nat} {rest : List Char}
    (hlimit : (padded width n).length ≤ limit) (hrest : ∀ c ∈ rest.head?, c.isDigit = false) :
    readDigits? limit (padded width n ++ rest) = some (n, rest) := by
  have hspan : (padded width n ++ rest).takeWhile Char.isDigit = padded width n := by
    have hnone : rest.takeWhile Char.isDigit = [] := by
      cases rest with
      | nil => rfl
      | cons c rest => simp [hrest c rfl]
    rw [List.takeWhile_append_of_pos fun c hc => isDigit_of_mem_padded hc, hnone, List.append_nil]
  unfold readDigits?
  dsimp only
  rw [hspan, List.take_of_length_le hlimit, if_neg (padded_ne_nil width n), List.drop_left,
    ofDigits_padded]

/-! ## Blanks -/

lemma trimLeft_of_not_isBlank {c : Char} (h : Text.isBlank c = false) (cs : List Char) :
    Text.trimLeft (c :: cs) = c :: cs := by
  simp [Text.trimLeft, h]

lemma not_isBlank_of_isDigit {c : Char} (h : c.isDigit = true) : Text.isBlank c = false := by
  simp only [Char.isDigit, Bool.and_eq_true, decide_eq_true_eq] at h
  have hlow : 48 ≤ c.toNat := h.1
  have hhigh : c.toNat ≤ 57 := h.2
  simp only [Text.isBlank, Bool.or_eq_false_iff, Bool.and_eq_false_iff, decide_eq_false_iff_not,
    beq_eq_false_iff_ne]
  omega

lemma padded_eq_cons (width n : Nat) : ∃ c cs, padded width n = c :: cs ∧ c.isDigit = true := by
  obtain ⟨c, cs, h⟩ := List.exists_cons_of_ne_nil (padded_ne_nil width n)
  exact ⟨c, cs, h, isDigit_of_mem_padded (h ▸ List.mem_cons_self)⟩

lemma readHyphen?_padded (width n : Nat) (rest : List Char) :
    readHyphen? ('-' :: (padded width n ++ rest)) = some (padded width n ++ rest) := by
  obtain ⟨c, cs, h, hc⟩ := padded_eq_cons width n
  rw [readHyphen?, trimLeft_of_not_isBlank (by decide), h, List.cons_append]
  change some (Text.trimLeft _) = _
  rw [trimLeft_of_not_isBlank (not_isBlank_of_isDigit hc)]

/-! ## Days -/

/-- A year without a sign has four digits, and a year with one ends where the digits do. -/
lemma readYear?_yearText {year : Int} {rest : List Char}
    (hrest : ∀ c ∈ rest.head?, c.isDigit = false) :
    readYear? (yearText year ++ rest) = some (year, rest) := by
  have hall (digits : List Char) : digits.length ≤ (digits ++ rest).length := by simp
  unfold yearText
  split_ifs with hfour hneg
  · have hdigits : (padded 4 year.natAbs).length ≤ 4 :=
      (length_padded (by decide) (by omega)).le
    have hread := readDigits?_padded hdigits hrest
    obtain ⟨c, cs, h, hc⟩ := padded_eq_cons 4 year.natAbs
    rw [h, List.cons_append] at hread ⊢
    rw [readYear?, trimLeft_of_not_isBlank (not_isBlank_of_isDigit hc)]
    split
    · next heq =>
      obtain ⟨rfl, -⟩ := List.cons.inj heq
      exact absurd hc (by decide)
    · next heq =>
      obtain ⟨rfl, -⟩ := List.cons.inj heq
      exact absurd hc (by decide)
    · rw [hread]
      exact congrArg some (Prod.ext (Int.natAbs_of_nonneg hfour.1) rfl)
  · rw [List.cons_append, readYear?, trimLeft_of_not_isBlank (by decide)]
    change Option.map _ (readDigits? _ _) = _
    rw [readDigits?_padded (hall _) hrest]
    refine congrArg some (Prod.ext ?_ rfl)
    change -(year.natAbs : Int) = year
    omega
  · rw [List.cons_append, readYear?, trimLeft_of_not_isBlank (by decide)]
    change Option.map _ (readDigits? _ _) = _
    rw [readDigits?_padded (hall _) hrest]
    exact congrArg some (Prod.ext (Int.natAbs_of_nonneg (by omega)) rfl)

/-- **The text of a day is read as that day.** -/
theorem read?_text (d : Date) : read? d.text = some d := by
  obtain ⟨year, month, day, hday⟩ := d
  have hmonth : month ≤ 12 := hday.2.2.2.1
  have hlast : day ≤ monthLength year month := hday.2.2.2.2.2
  have hlength : monthLength year month ≤ 31 := by
    unfold monthLength
    split_ifs <;> omega
  have hmonth' : (padded 2 month).length ≤ 2 := (length_padded (by decide) (by omega)).le
  have hday' : (padded 2 day).length ≤ 2 := (length_padded (by decide) (by omega)).le
  have hhyphen (cs : List Char) : ∀ c ∈ ('-' :: cs).head?, c.isDigit = false := by
    rintro c ⟨⟩
    rfl
  have hend : ∀ c ∈ ([] : List Char).head?, c.isDigit = false := by
    rintro c ⟨⟩
  have hlastDigits := readDigits?_padded hday' hend
  rw [List.append_nil] at hlastDigits
  have hlastHyphen := readHyphen?_padded 2 day []
  rw [List.append_nil] at hlastHyphen
  simp only [read?, text, String.toList_ofList, List.append_assoc, List.cons_append,
    readYear?_yearText (hhyphen _), readHyphen?_padded, hlastHyphen,
    readDigits?_padded hmonth' (hhyphen _), hlastDigits, Option.bind_eq_bind, Option.bind_some]
  exact (if_pos rfl).trans (dif_pos hday)

end MarketTape.Date
