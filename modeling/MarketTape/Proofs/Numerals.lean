import Mathlib.Data.List.Basic
import Mathlib.Data.List.TakeWhile
import Mathlib.Order.Basic
import Mathlib.Tactic.Common
import MarketTape.Json.Draft

/-!
# Numbers read back

A number is written without anything that marks its end, so it is only read as itself if what
follows cannot belong to it.  In JSON text that is always so: a comma, a bracket or nothing follows.

* `Draft.Ends` says that a text does not go on with a number.
* `Draft.readNumber_append` is the locality of reading: what is read alone is read the same way in
  front of such a text.
* `Draft.readNumber_natText` and `Draft.readNumber_minus` read whole numbers, up to the ends of the
  64-bit ranges.
* `ReadsBack` says of a double that its text stands for it.  Not every double does that, since
  reading turns only the first digits into a double and rounds a second time for the power of ten.
-/

namespace MarketTape.Json

open Decimal

/-- A character that a number is written with. -/
def isNumeric (c : Char) : Bool :=
  c.isDigit || c == '.' || c == 'e' || c == 'E' || c == '+' || c == '-'

lemma isNumeric_of_isDigit {c : Char} (h : c.isDigit = true) : isNumeric c = true := by
  simp [isNumeric, h]

lemma not_isSpace_of_isNumeric {c : Char} (h : isNumeric c = true) : Draft.isSpace c = false := by
  rw [Bool.eq_false_iff]
  intro hspace
  simp only [Draft.isSpace, Bool.or_eq_true, beq_iff_eq] at hspace
  rcases hspace with ((rfl | rfl) | rfl) | rfl <;> simp [isNumeric] at h

namespace Draft

/-- A text that does not go on with a number. -/
def Ends (rest : List Char) : Prop := ∀ c ∈ rest.head?, isNumeric c = false

lemma ends_nil : Ends [] := by simp [Ends]

lemma ends_cons {c : Char} {rest : List Char} (h : isNumeric c = false) : Ends (c :: rest) := by
  simpa [Ends] using h

/-! ## Locality -/

variable {rest : List Char}

lemma spanDigits_append (h : Ends rest) : ∀ cs : List Char,
    spanDigits (cs ++ rest) = ((spanDigits cs).1, (spanDigits cs).2 ++ rest)
  | [] => by
    cases rest with
    | nil => rfl
    | cons c rest =>
      have hc : c.isDigit = false := by
        have := h c rfl
        simp only [isNumeric, Bool.or_eq_false_iff] at this
        exact this.1.1.1.1.1
      simp [spanDigits, hc]
  | c :: cs => by
    have ih := spanDigits_append h cs
    simp only [spanDigits, Prod.mk.injEq] at ih
    by_cases hc : c.isDigit = true
    · simp [spanDigits, hc, ih]
    · simp [spanDigits, hc]

lemma readFraction_point (cs : List Char) :
    readFraction ('.' :: cs) = if (spanDigits cs).1 = [] then none else some (spanDigits cs) := rfl

lemma readFraction_of_ne {cs : List Char} (h : cs.head? ≠ some '.') :
    readFraction cs = some ([], cs) := by
  unfold readFraction
  split
  · exact absurd rfl h
  · rfl

lemma readExponent_letter {c : Char} (hc : c = 'e' ∨ c = 'E') (cs : List Char) :
    readExponent (c :: cs) =
      if (spanDigits (splitSign cs).2).1 = [] then none
      else some (some ((splitSign cs).1, (spanDigits (splitSign cs).2).1),
        (spanDigits (splitSign cs).2).2) := by
  rw [readExponent, if_pos hc]

lemma readExponent_of_ne {cs : List Char} (h : ∀ c ∈ cs.head?, ¬ (c = 'e' ∨ c = 'E')) :
    readExponent cs = some (none, cs) := by
  cases cs with
  | nil => rfl
  | cons c cs => rw [readExponent, if_neg (h c rfl)]

lemma readFraction_append (h : Ends rest) {cs fraction after : List Char}
    (hread : readFraction cs = some (fraction, after)) :
    readFraction (cs ++ rest) = some (fraction, after ++ rest) := by
  cases cs with
  | nil =>
    cases hread
    refine readFraction_of_ne fun hpoint => ?_
    exact absurd (h '.' hpoint) (by decide)
  | cons c cs =>
    by_cases hc : c = '.'
    · subst hc
      rw [readFraction_point] at hread
      rw [List.cons_append, readFraction_point, spanDigits_append h]
      split at hread
      · cases hread
      · next hdigits =>
        rw [if_neg hdigits]
        cases hread
        rfl
    · rw [readFraction_of_ne (by simpa using hc)] at hread
      cases hread
      exact readFraction_of_ne (by simpa using hc)

lemma splitSign_append {cs : List Char} (hcs : cs ≠ []) :
    splitSign (cs ++ rest) = ((splitSign cs).1, (splitSign cs).2 ++ rest) := by
  obtain ⟨c, cs, rfl⟩ := List.exists_cons_of_ne_nil hcs
  by_cases hplus : c = '+'
  · subst hplus
    rfl
  · by_cases hminus : c = '-'
    · subst hminus
      rfl
    · simp [splitSign, hplus, hminus]

lemma readExponent_append (h : Ends rest) {cs after : List Char}
    {exponent : Option (Bool × List Char)} (hread : readExponent cs = some (exponent, after)) :
    readExponent (cs ++ rest) = some (exponent, after ++ rest) := by
  cases cs with
  | nil =>
    cases hread
    refine readExponent_of_ne fun c hc hletter => ?_
    have hend := h c hc
    rcases hletter with rfl | rfl <;> exact absurd hend (by decide)
  | cons c cs =>
    by_cases hc : c = 'e' ∨ c = 'E'
    · rw [readExponent_letter hc] at hread
      split at hread
      · cases hread
      · next hdigits =>
        -- a sign that belongs to what follows would leave no digits here
        have hcs : cs ≠ [] := by
          rintro rfl
          exact hdigits rfl
        obtain ⟨rfl, rfl⟩ := Prod.mk.inj (Option.some.inj hread)
        rw [List.cons_append, readExponent_letter hc, splitSign_append hcs]
        dsimp only
        rw [spanDigits_append h, if_neg hdigits]
    · have hne : ∀ d ∈ (c :: cs).head?, ¬ (d = 'e' ∨ d = 'E') := by
        rintro d ⟨⟩
        exact hc
      rw [readExponent_of_ne hne] at hread
      cases hread
      exact readExponent_of_ne hne

/-- What a number that was taken apart is drafted as. -/
def ofNumeral (numeral : Numeral) : Draft :=
  match numeral.value? with
  | some (.int n) => int n
  | some (.float x) => float x
  | none => unusable

lemma readNumber_eq {negative : Bool} {cs whole rest fraction after : List Char}
    {exponent : Option (Bool × List Char)} {after' : List Char}
    (hwhole : spanDigits cs = (whole, rest))
    (hzero : ¬ (whole = [] ∨ (whole.head? = some '0' ∧ whole.length ≠ 1)))
    (hfraction : readFraction rest = some (fraction, after))
    (hexponent : readExponent after = some (exponent, after')) :
    readNumber negative cs = some (ofNumeral ⟨negative, whole, fraction, exponent⟩, after') := by
  simp only [readNumber, hwhole, if_neg hzero, hfraction, hexponent, Option.bind_eq_bind,
    Option.bind_some]
  rfl

/-- The parts of a number that is read. -/
lemma readNumber_cases {negative : Bool} {cs after : List Char} {d : Draft}
    (h : readNumber negative cs = some (d, after)) :
    ∃ whole rest fraction rest' exponent,
      spanDigits cs = (whole, rest) ∧
      ¬ (whole = [] ∨ (whole.head? = some '0' ∧ whole.length ≠ 1)) ∧
      readFraction rest = some (fraction, rest') ∧
      readExponent rest' = some (exponent, after) ∧
      d = ofNumeral ⟨negative, whole, fraction, exponent⟩ := by
  unfold readNumber at h
  dsimp only at h
  split at h
  · cases h
  · next hzero =>
    simp only [Option.bind_eq_bind, Option.bind_eq_some_iff] at h
    obtain ⟨⟨fraction, rest'⟩, hfraction, ⟨exponent, after'⟩, hexponent, hd⟩ := h
    obtain ⟨rfl, rfl⟩ := Prod.mk.inj (Option.some.inj hd)
    exact ⟨_, _, fraction, rest', exponent, rfl, hzero, hfraction, hexponent, rfl⟩

/-- What is read alone is read the same way in front of a text that does not go on with it. -/
theorem readNumber_append (h : Ends rest) {negative : Bool} {cs after : List Char} {d : Draft}
    (hread : readNumber negative cs = some (d, after)) :
    readNumber negative (cs ++ rest) = some (d, after ++ rest) := by
  obtain ⟨whole, rest₁, fraction, rest₂, exponent, hwhole, hzero, hfraction, hexponent, rfl⟩ :=
    readNumber_cases hread
  -- each part ends in front of `rest` at the latest, so it is found as it was alone
  have hwhole' : spanDigits (cs ++ rest) = (whole, rest₁ ++ rest) := by
    rw [spanDigits_append h, hwhole]
  exact readNumber_eq hwhole' hzero (readFraction_append h hfraction)
    (readExponent_append h hexponent)

/-! ## What is left over -/

lemma spanDigits_suffix (cs : List Char) : (spanDigits cs).2 <:+ cs := List.dropWhile_suffix _

lemma splitSign_suffix (cs : List Char) : (splitSign cs).2 <:+ cs := by
  unfold splitSign
  split
  · exact List.suffix_cons _ _
  · exact List.suffix_cons _ _
  · exact List.suffix_rfl

lemma readFraction_suffix {cs fraction after : List Char}
    (h : readFraction cs = some (fraction, after)) : after <:+ cs := by
  unfold readFraction at h
  split at h
  · dsimp only at h
    split at h
    · cases h
    · cases h
      exact (spanDigits_suffix _).trans (List.suffix_cons _ _)
  · cases h
    exact List.suffix_rfl

lemma readExponent_suffix {cs after : List Char} {exponent : Option (Bool × List Char)}
    (h : readExponent cs = some (exponent, after)) : after <:+ cs := by
  unfold readExponent at h
  split at h
  · dsimp only at h
    split at h
    · split at h
      · cases h
      · cases h
        exact ((spanDigits_suffix _).trans (splitSign_suffix _)).trans (List.suffix_cons _ _)
    · cases h
      exact List.suffix_rfl
  · cases h
    exact List.suffix_rfl

lemma readNumber_suffix {negative : Bool} {cs after : List Char} {d : Draft}
    (h : readNumber negative cs = some (d, after)) : after <:+ cs := by
  obtain ⟨whole, rest, fraction, rest', exponent, hwhole, -, hfraction, hexponent, -⟩ :=
    readNumber_cases h
  have hrest : rest <:+ cs := by
    have := spanDigits_suffix cs
    rwa [hwhole] at this
  exact ((readExponent_suffix hexponent).trans (readFraction_suffix hfraction)).trans hrest

end Draft

/-! ## Whole numbers -/

lemma isDigit_of_mem_natText {n : Nat} {c : Char} (h : c ∈ natText n) : c.isDigit = true :=
  Nat.isDigit_of_mem_toDigits (by decide) (by decide) h

lemma digit?_of_isDigit {c : Char} (h : c.isDigit = true) :
    (digit? c).getD 0 = c.toNat - '0'.toNat := by
  simp [digit?, h]

lemma ofDigits_natText (n : Nat) : ofDigits 0 (natText n) = n := by
  have hfold : ∀ (cs : List Char) (start : Nat), (∀ c ∈ cs, c.isDigit = true) →
      ofDigits start cs = Nat.ofDigitChars 10 cs start := by
    intro cs
    induction cs with
    | nil => intros; rfl
    | cons c cs ih =>
      intro start hcs
      have hc := digit?_of_isDigit (hcs c (by simp))
      simp only [ofDigits, Nat.ofDigitChars, List.foldl_cons] at ih ⊢
      rw [ih _ fun d hd => hcs d (by simp [hd]), hc, Nat.mul_comm]
  rw [hfold _ _ fun _ => isDigit_of_mem_natText]
  exact Nat.ofDigitChars_toDigits (by decide) (by decide)

lemma natText_ne_nil (n : Nat) : natText n ≠ [] := Nat.toDigits_ne_nil

/-- Only zero starts with a zero. -/
lemma head?_natText_eq_zero_iff (n : Nat) : (natText n).head? = some '0' ↔ n = 0 := by
  induction n using Nat.strongRecOn with
  | ind n ih =>
    unfold natText at ih ⊢
    rcases Nat.lt_or_ge n 10 with hlt | hge
    · rw [Nat.toDigits_of_lt_base hlt]
      simp
    -- the first digit of a longer number is that of its tenth part
    · rw [Nat.toDigits_of_base_le (by decide) hge,
        List.head?_append_of_ne_nil _ Nat.toDigits_ne_nil, ih (n / 10) (by omega)]
      omega

lemma le_ofDigits (cs : List Char) : ∀ start : Nat, start ≤ ofDigits start cs := by
  induction cs with
  | nil => exact fun start => le_refl start
  | cons c cs ih =>
    intro start
    have hnext : start ≤ start * 10 + (digit? c).getD 0 := by omega
    exact hnext.trans (ih _)

/-- Digits are read to the end while the number fits 64 bits. -/
lemma absorb_eq (cs : List Char) : ∀ start : Nat, ofDigits start cs ≤ greatestWord →
    absorb start cs = (ofDigits start cs, cs.length) := by
  induction cs with
  | nil => exact fun start _ => rfl
  | cons c cs ih =>
    intro start hfits
    have hnext : ¬ greatestWord < start * 10 + (digit? c).getD 0 :=
      Nat.not_lt.mpr ((le_ofDigits cs _).trans hfits)
    simp only [absorb, if_neg hnext, ih _ hfits]
    rfl

lemma absorb_natText {n : Nat} (h : n ≤ greatestWord) :
    absorb 0 (natText n) = (n, (natText n).length) := by
  have hn := ofDigits_natText n
  rw [absorb_eq _ _ (hn.trans_le h), hn]

namespace Draft

lemma readNumber_natText_eq (negative : Bool) (n : Nat) :
    readNumber negative (natText n) = some (ofNumeral ⟨negative, natText n, [], none⟩, []) := by
  have hspan : spanDigits (natText n) = (natText n, []) := by
    have hall := fun c (hc : c ∈ natText n) => isDigit_of_mem_natText hc
    rw [spanDigits, List.takeWhile_eq_self_iff.mpr hall, List.dropWhile_eq_nil_iff.mpr hall]
  refine readNumber_eq hspan ?_ rfl rfl
  rintro (hnil | ⟨hzero, hlength⟩)
  · exact natText_ne_nil n hnil
  · obtain rfl := (head?_natText_eq_zero_iff n).mp hzero
    exact hlength rfl

theorem readNumber_natText {n : Nat} (h : n ≤ greatestWord) :
    readNumber false (natText n) = some (int n, []) := by
  rw [readNumber_natText_eq]
  simp [ofNumeral, Numeral.value?, absorb_natText h]

theorem readNumber_minus {n : Nat} (hpos : 0 < n) (h : n ≤ 9223372036854775808) :
    readNumber true (natText n) = some (int (-n), []) := by
  have hword : n ≤ greatestWord := h.trans (by decide)
  have hne : ¬ (n = 0 ∨ 9223372036854775808 < n) := by omega
  rw [readNumber_natText_eq]
  simp [ofNumeral, Numeral.value?, absorb_natText hword, hne]

end Draft

/-! ## Doubles -/

lemma isNumeric_of_mem_natText {n : Nat} {c : Char} (h : c ∈ natText n) : isNumeric c = true :=
  isNumeric_of_isDigit (isDigit_of_mem_natText h)

lemma isNumeric_of_mem_positional {wholeEnd : List Char} (hend : ∀ c ∈ wholeEnd, isNumeric c = true)
    {d : Digits} {c : Char} (h : c ∈ positional wholeEnd d) : isNumeric c = true := by
  unfold positional at h
  dsimp only at h
  split_ifs at h <;> simp only [List.mem_append, List.mem_cons] at h
  · rcases h with (h | h) | h
    · exact isNumeric_of_mem_natText h
    · obtain rfl := List.eq_of_mem_replicate h
      rfl
    · exact hend c h
  · rcases h with h | rfl | h
    · exact isNumeric_of_mem_natText (List.mem_of_mem_take h)
    · rfl
    · exact isNumeric_of_mem_natText (List.mem_of_mem_drop h)
  · rcases h with (rfl | rfl | h) | h
    · rfl
    · rfl
    · obtain rfl := List.eq_of_mem_replicate h
      rfl
    · exact isNumeric_of_mem_natText h

lemma isNumeric_of_mem_scientific {d : Digits} {c : Char} (h : c ∈ scientific d) :
    isNumeric c = true := by
  unfold scientific at h
  dsimp only at h
  simp only [List.mem_append, List.mem_cons] at h
  rcases h with (h | h) | rfl | rfl | h
  · exact isNumeric_of_mem_natText (List.mem_of_mem_take h)
  · split_ifs at h
    · cases h
    · rcases List.mem_cons.mp h with rfl | h
      · rfl
      · exact isNumeric_of_mem_natText (List.mem_of_mem_drop h)
  · rfl
  · split_ifs <;> rfl
  · exact isNumeric_of_mem_natText h

/-- A finite double is written with nothing but characters of numbers. -/
lemma isNumeric_of_mem_writeBinary {b : Binary} {c : Char} (h : c ∈ numberLayout.writeBinary b) :
    isNumeric c = true := by
  have hend : ∀ c ∈ numberLayout.wholeEnd, isNumeric c = true := by
    simp [numberLayout, isNumeric]
  have htext : ∀ c ∈ (if b.mantissa = 0 then '0' :: numberLayout.wholeEnd
      else numberLayout.writeDigits (Digits.ofBinary numberLayout.tie b)), isNumeric c = true := by
    intro c hc
    unfold Layout.writeDigits at hc
    split_ifs at hc
    · rcases List.mem_cons.mp hc with rfl | hc
      · rfl
      · exact hend c hc
    · exact isNumeric_of_mem_positional hend hc
    · exact isNumeric_of_mem_scientific hc
  unfold Layout.writeBinary at h
  dsimp only at h
  split at h
  · rcases List.mem_cons.mp h with rfl | h
    · rfl
    · exact htext c h
  · exact htext c h

lemma not_isSpace_of_mem_write {x : Float} {c : Char} (h : c ∈ numberLayout.write x) :
    Draft.isSpace c = false := by
  have hnull : ∀ c ∈ ['n', 'u', 'l', 'l'], Draft.isSpace c = false := by simp [Draft.isSpace]
  unfold Layout.write at h
  split_ifs at h
  · exact hnull c h
  · exact not_isSpace_of_isNumeric (isNumeric_of_mem_writeBinary h)
  · exact hnull c h
  · exact hnull c h

/-- The text of a double reads as that double. -/
def ReadsBack (x : Float) : Prop := Draft.read? (numberLayout.write x) = some (.float x)

instance (x : Float) : Decidable (ReadsBack x) :=
  match h : Draft.read? (numberLayout.write x) with
  | some (.float y) =>
    if hxy : y = x then isTrue (by rw [ReadsBack, h, hxy])
    else isFalse (by rw [ReadsBack, h]; simpa using hxy)
  | none => isFalse (by simp [ReadsBack, h])
  | some .null | some (.bool _) | some (.int _) | some (.str _) | some (.arr _) | some (.obj _)
  | some .unusable => isFalse (by simp [ReadsBack, h])

end MarketTape.Json
