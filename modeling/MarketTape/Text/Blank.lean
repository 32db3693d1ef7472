/-!
# Blank characters

Names and fields are read without the blank space around them.  A character is blank when it has
the Unicode property White_Space: the ideographic and the no-break space are blank, the zero-width
space is not.

* `isBlank` is the property, `trim` drops blank characters at both ends.
* `trim_eq_nil_iff` says that nothing is left exactly of a text that is blank throughout.
-/

namespace MarketTape.Text

/-- Whether a character has the property White_Space. -/
def isBlank (c : Char) : Bool :=
  (0x9 ≤ c.toNat && c.toNat ≤ 0xd) || c.toNat == 0x20 || c.toNat == 0x85 || c.toNat == 0xa0 ||
    c.toNat == 0x1680 || (0x2000 ≤ c.toNat && c.toNat ≤ 0x200a) || c.toNat == 0x2028 ||
    c.toNat == 0x2029 || c.toNat == 0x202f || c.toNat == 0x205f || c.toNat == 0x3000

/-- Drops blank characters at the front. -/
def trimLeft (cs : List Char) : List Char := cs.dropWhile isBlank

/-- Drops blank characters at both ends. -/
def trim (cs : List Char) : List Char := (trimLeft (trimLeft cs).reverse).reverse

/-- A text without the blank characters at its ends. -/
def trimmed (s : String) : String := String.ofList (trim s.toList)

theorem trimLeft_eq_nil_iff {cs : List Char} : trimLeft cs = [] ↔ ∀ c ∈ cs, isBlank c := by
  induction cs with
  | nil => simp [trimLeft]
  | cons c rest ih =>
    unfold trimLeft at ih ⊢
    by_cases h : isBlank c <;> simp [h, ih]

/-- What is left at the front is not blank. -/
theorem not_isBlank_of_trimLeft {cs rest : List Char} {c : Char} (h : trimLeft cs = c :: rest) :
    ¬ isBlank c := by
  induction cs with
  | nil => simp [trimLeft] at h
  | cons d ds ih =>
    unfold trimLeft at ih h
    by_cases hd : isBlank d
    · simp only [List.dropWhile_cons, hd, if_true] at h
      exact ih h
    · simp only [List.dropWhile_cons, hd] at h
      simp at h
      exact h.1 ▸ hd

/-- Nothing is left exactly of a text that is blank throughout. -/
theorem trim_eq_nil_iff {cs : List Char} : trim cs = [] ↔ ∀ c ∈ cs, isBlank c := by
  rw [← trimLeft_eq_nil_iff]
  constructor
  · intro h
    have hall : ∀ c ∈ (trimLeft cs).reverse, isBlank c := by
      simpa [trim, trimLeft_eq_nil_iff] using h
    cases hc : trimLeft cs with
    | nil => rfl
    | cons c rest => exact absurd (hall c (by simp [hc])) (not_isBlank_of_trimLeft hc)
  · intro h
    rw [trim, h]
    rfl

end MarketTape.Text
