import Mathlib.Data.List.DropRight
import MarketTape.Proofs.Numerals

/-!
# JSON text read back

What `Json.compact` writes, `Draft.read?` reads as the draft of the same value.  Three things could
stand in the way, and `Legible` excludes them: a whole number outside the 64-bit ranges, a double
whose text stands for another one, and more levels of containers than are read.

* `Draft.readString_escape` takes one character of a string: reading its escape adds it back.
* `Draft.readValue_compact` reads a value in front of any text that does not go on with it, and
  `Draft.read?_compact` reads a whole text.
* `newline_not_mem_compact` needs no assumption: a control character inside a string is always
  escaped, so what is written is always a single line.
-/

namespace MarketTape.Json

open Decimal

/-! ## Strings -/

namespace Draft

lemma hexWord?_control : ∀ n < 32,
    hexWord? '0' '0' (hexDigit (n / 16)) (hexDigit (n % 16)) = some n := by decide

lemma readString_unicode {a b c d : Char} {n : Nat} (hword : hexWord? a b c d = some n)
    (hplain : n < 0xd800) (acc rest : List Char) :
    readString (some acc) ('\\' :: 'u' :: a :: b :: c :: d :: rest) =
      readString (some (Char.ofNat n :: acc)) rest := by
  have hhigh : ¬ (0xd800 ≤ n ∧ n ≤ 0xdbff) := by omega
  have hlow : ¬ (0xdc00 ≤ n ∧ n ≤ 0xdfff) := by omega
  have hsurrogate : ¬ (0xd800 ≤ n ∧ n ≤ 0xdfff) := by omega
  conv_lhs => rw [readString.eq_def]
  split
  · next h => cases h
  · next h => cases h
  · next h =>
    -- another escape follows; it would matter only after the first half of a surrogate pair
    cases h
    simp only [hword, if_neg hhigh, if_neg hlow, extend, Option.map_some]
  · next h =>
    cases h
    simp only [hword, if_neg hsurrogate, extend, Option.map_some]
  · next hother h =>
    cases h
    exact (hother a b c d rest rfl rfl).elim
  · next hother h =>
    cases h
    exact (hother _ _ rfl rfl).elim

lemma readString_letter {c d : Char} (hc : escaped? c = some d) (acc rest : List Char) :
    readString (some acc) ('\\' :: c :: rest) = readString (some (d :: acc)) rest := by
  have hu : c ≠ 'u' := by
    rintro rfl
    simp [escaped?] at hc
  conv_lhs => rw [readString.eq_def]
  split
  · next h => cases h
  · next h => cases h
  · next h =>
    cases h
    exact absurd rfl hu
  · next h =>
    cases h
    exact absurd rfl hu
  · next h =>
    cases h
    simp only [hc, extend, Option.map_some]
  · next hother h =>
    cases h
    exact (hother _ _ rfl rfl).elim

lemma readString_plain {c : Char} (hquote : c ≠ '"') (hslash : c ≠ '\\') (hcontrol : ¬ c.toNat < 32)
    (acc rest : List Char) :
    readString (some acc) (c :: rest) = readString (some (c :: acc)) rest := by
  rw [readString]
  · simp [hcontrol, extend]
  · exact hquote
  all_goals
    intros
    simp_all

/-- Reading the escape of a character adds the character. -/
lemma readString_escape (c : Char) (acc rest : List Char) :
    readString (some acc) (escape c ++ rest) = readString (some (c :: acc)) rest := by
  unfold escape
  split_ifs with hquote hslash hback hform hline hreturn htab hcontrol
  · subst hquote
    exact readString_letter rfl acc rest
  · subst hslash
    exact readString_letter rfl acc rest
  · subst hback
    exact readString_letter rfl acc rest
  · subst hform
    exact readString_letter rfl acc rest
  · subst hline
    exact readString_letter rfl acc rest
  · subst hreturn
    exact readString_letter rfl acc rest
  · subst htab
    exact readString_letter rfl acc rest
  · have hword := readString_unicode (hexWord?_control c.toNat hcontrol) (by omega) acc rest
    rwa [Char.ofNat_toNat] at hword
  · exact readString_plain hquote hslash hcontrol acc rest

lemma readString_flatMap (rest : List Char) : ∀ cs acc : List Char,
    readString (some acc) (cs.flatMap escape ++ '"' :: rest) =
      some (some (String.ofList (acc.reverse ++ cs)), rest)
  | [], acc => by simp [readString_quote]
  | c :: cs, acc => by
    rw [List.flatMap_cons, List.append_assoc, readString_escape, readString_flatMap rest cs]
    simp

/-- A written string is read back, whatever its characters are. -/
theorem readString_stringText (s : String) (rest : List Char) :
    readString (some []) (s.toList.flatMap escape ++ '"' :: rest) = some (some s, rest) := by
  rw [readString_flatMap]
  simp

end Draft

/-! ## Numbers inside a text -/

namespace Draft

variable {cs rest : List Char} {fuel levels : Nat}

lemma skipSpace_cons {c : Char} (h : isSpace c = false) (cs : List Char) :
    skipSpace (c :: cs) = c :: cs := by simp [skipSpace, h]

lemma skipSpace_eq_nil {cs : List Char} (h : skipSpace cs = [])
    (hcs : ∀ c ∈ cs, isSpace c = false) : cs = [] := by
  cases cs with
  | nil => rfl
  | cons c cs =>
    rw [skipSpace_cons (hcs c (by simp))] at h
    cases h

lemma readValue_digit {c : Char} (hc : c.isDigit = true) (cs : List Char) :
    readValue (fuel + 1) levels (c :: cs) = readNumber false (c :: cs) := by
  have hspace := not_isSpace_of_isNumeric (isNumeric_of_isDigit hc)
  have hopening : c ≠ opening := by
    rintro rfl
    exact absurd hc (by decide)
  rw [readValue, skipSpace_cons hspace]
  split
  case h_7 h =>
    cases h
    rw [if_neg hopening]
  case h_8 h => cases h
  -- what else there is starts with a character that is no digit
  all_goals
    next h =>
      cases h
      exact absurd hc (by decide)

lemma isDigit_of_readNumber {negative : Bool} {cs after : List Char} {d : Draft}
    (h : readNumber negative cs = some (d, after)) :
    ∃ c rest, cs = c :: rest ∧ c.isDigit = true := by
  obtain ⟨whole, rest, -, -, -, hwhole, hzero, -, -, -⟩ := readNumber_cases h
  cases cs with
  | nil =>
    cases hwhole
    simp at hzero
  | cons c cs =>
    refine ⟨c, cs, rfl, ?_⟩
    by_contra hc
    simp only [spanDigits, List.takeWhile_cons, if_neg hc, Prod.mk.injEq] at hwhole
    exact hzero (.inl hwhole.1.symm)

lemma readValue_float_cases {cs after : List Char} {x : Float}
    (h : readValue (fuel + 1) levels cs = some (float x, after)) :
    (∃ rest, skipSpace cs = '-' :: rest ∧ readNumber true rest = some (float x, after)) ∨
    ∃ c rest, skipSpace cs = c :: rest ∧ c.isDigit = true ∧
      readNumber false (c :: rest) = some (float x, after) := by
  rw [readValue] at h
  split at h
  · cases h
  · cases h
  · cases h
  · obtain ⟨⟨text, rest⟩, -, hd⟩ := Option.map_eq_some_iff.mp h
    cases text <;> cases hd
  · next rest hspace => exact .inl ⟨rest, hspace, h⟩
  · next =>
    split at h
    · obtain ⟨hd, -⟩ := Prod.mk.inj (Option.some.inj h)
      cases levels <;> cases hd
    · obtain ⟨⟨items, rest⟩, -, hd⟩ := Option.map_eq_some_iff.mp h
      cases levels <;> cases hd
  · next c rest _ _ _ _ _ _ hspace =>
    split at h
    · split at h
      · split at h
        · obtain ⟨hd, -⟩ := Prod.mk.inj (Option.some.inj h)
          cases levels <;> cases hd
        · obtain ⟨⟨items, rest⟩, -, hd⟩ := Option.map_eq_some_iff.mp h
          cases levels <;> cases hd
      · cases h
    · obtain ⟨d, rest', heq, hd⟩ := isDigit_of_readNumber h
      cases heq
      exact .inr ⟨c, rest, hspace, hd, h⟩
  · cases h

lemma readValue_float {x : Float} (h : ReadsBack x) (hends : Ends rest) :
    readValue (fuel + 1) levels (numberLayout.write x ++ rest) = some (float x, rest) := by
  unfold ReadsBack read? at h
  split at h
  · next d after hread =>
    split_ifs at h with hafter
    cases h
    -- the text of a double has no blanks: nothing of it is skipped, and nothing of it is left over
    have hclean : skipSpace (numberLayout.write x) = numberLayout.write x := by
      cases htext : numberLayout.write x with
      | nil => rfl
      | cons c cs =>
        refine skipSpace_cons (not_isSpace_of_mem_write (x := x) ?_) cs
        rw [htext]
        exact List.mem_cons_self
    have hnothing (hsuffix : after <:+ numberLayout.write x) : after = [] :=
      skipSpace_eq_nil hafter fun c hc => not_isSpace_of_mem_write (hsuffix.mem hc)
    rcases readValue_float_cases hread with ⟨cs, hcs, hnumber⟩ | ⟨c, cs, hcs, hdigit, hnumber⟩
    · rw [hclean] at hcs
      rw [hcs] at hnothing
      obtain rfl := hnothing ((readNumber_suffix hnumber).trans (List.suffix_cons _ _))
      rw [hcs, List.cons_append, readValue_minus, readNumber_append hends hnumber, List.nil_append]
    · rw [hclean] at hcs
      rw [hcs] at hnothing
      obtain rfl := hnothing (readNumber_suffix hnumber)
      rw [hcs, List.cons_append, readValue_digit hdigit, ← List.cons_append,
        readNumber_append hends hnumber, List.nil_append]
  · cases h

lemma readValue_int {n : Int} (hleast : -9223372036854775808 ≤ n) (hgreatest : n ≤ greatestWord)
    (hends : Ends rest) :
    readValue (fuel + 1) levels (intText n ++ rest) = some (int n, rest) := by
  unfold intText
  split_ifs with hneg
  · have hread := readNumber_append hends
      (readNumber_minus (n := n.natAbs) (by omega) (by omega))
    rw [List.cons_append, readValue_minus, hread, List.nil_append]
    congr 3
    omega
  · have hread := readNumber_append hends
      (readNumber_natText (n := n.natAbs) (by unfold greatestWord at *; omega))
    obtain ⟨c, cs, hcs, hdigit⟩ := isDigit_of_readNumber hread
    rw [hcs, readValue_digit hdigit, ← hcs, hread, List.nil_append]
    congr 3
    omega

/-! ## Containers

What is read inside a container ends with a comma or with the bracket that closes it.
-/

lemma stringText_append (s : String) (rest : List Char) :
    stringText s ++ rest = '"' :: (s.toList.flatMap escape ++ '"' :: rest) := by
  simp [stringText]

lemma readValue_str (s : String) :
    readValue (fuel + 1) levels (stringText s ++ rest) = some (str s, rest) := by
  rw [stringText_append, readValue, skipSpace_cons rfl]
  simp [readString_stringText]

lemma skipSpace_skipSpace (cs : List Char) : skipSpace (skipSpace cs) = skipSpace cs :=
  List.dropWhile_idempotent _ _

lemma readItems_skipSpace (cs : List Char) :
    readItems fuel levels (skipSpace cs) = readItems fuel levels cs := by
  have hvalue (fuel : Nat) : readValue fuel levels (skipSpace cs) = readValue fuel levels cs := by
    cases fuel with
    | zero => simp only [readValue]
    | succ fuel => rw [readValue, readValue, skipSpace_skipSpace]
  cases fuel with
  | zero => simp only [readItems]
  | succ fuel => rw [readItems, readItems, hvalue]

/-- No item starts with a closing bracket. -/
lemma readItems_bracket (h : skipSpace cs = ']' :: rest) : readItems fuel levels cs = none := by
  have hvalue (fuel : Nat) : readValue fuel levels cs = none := by
    cases fuel with
    | zero => rw [readValue]
    | succ fuel =>
      rw [readValue, h]
      rfl
  cases fuel with
  | zero => rw [readItems]
  | succ fuel => rw [readItems, hvalue]

lemma readMembers_last {name : String} {value : Draft}
    (h : readValue fuel levels cs = some (value, closing :: rest)) :
    readMembers (fuel + 1) levels (stringText name ++ ':' :: cs) =
      some ([(some name, value)], rest) := by
  have hclosing : skipSpace (closing :: rest) = closing :: rest := skipSpace_cons rfl _
  rw [stringText_append, readMembers_member (readString_stringText name _) h, hclosing]
  rfl

lemma readMembers_next {cs' : List Char} {name : String} {value : Draft}
    {members : List (Option String × Draft)}
    (h : readValue fuel levels cs = some (value, ',' :: cs'))
    (hrest : readMembers fuel levels cs' = some (members, rest)) :
    readMembers (fuel + 1) levels (stringText name ++ ':' :: cs) =
      some ((some name, value) :: members, rest) := by
  have hcomma : skipSpace (',' :: cs') = ',' :: cs' := skipSpace_cons rfl _
  rw [stringText_append, readMembers_member (readString_stringText name _) h, hcomma]
  simp only [hrest, Option.map_some]

lemma readValue_arr {items : List Draft} (h : readItems fuel levels cs = some (items, rest)) :
    readValue (fuel + 1) (levels + 1) ('[' :: cs) = some (arr items, rest) := by
  rw [readValue, skipSpace_cons rfl]
  simp only [Nat.add_sub_cancel]
  split
  · next hbracket =>
    rw [readItems_bracket hbracket] at h
    cases h
  · rw [readItems_skipSpace, h]
    rfl

lemma readValue_obj {members : List (Option String × Draft)}
    (h : readMembers fuel levels ('"' :: cs) = some (members, rest)) :
    readValue (fuel + 1) (levels + 1) (opening :: '"' :: cs) = some (obj members, rest) := by
  rw [readValue, skipSpace_cons rfl]
  simp [opening, closing, skipSpace, isSpace, h, atDepth]

end Draft

/-! ## Values -/

/-- A value whose text can be read again while no more than so many levels of containers open. -/
inductive Legible : Nat → Json → Prop where
  | null {levels} : Legible levels .null
  | bool {levels} (b : Bool) : Legible levels (.bool b)
  | int {levels} {n : Int} (hleast : -9223372036854775808 ≤ n) (hgreatest : n ≤ greatestWord) :
    Legible levels (.int n)
  | float {levels} {x : Float} (hreads : ReadsBack x) : Legible levels (.float x)
  | str {levels} (s : String) : Legible levels (.str s)
  | arr {levels} {items : List Json} (hitems : ∀ item ∈ items, Legible levels item) :
    Legible (levels + 1) (.arr items)
  | obj {levels} {members : List (String × Json)}
    (hmembers : ∀ member ∈ members, Legible levels member.2) : Legible (levels + 1) (.obj members)

namespace Draft

/-- A value is read in front of any text that does not go on with it. -/
def Reads (levels : Nat) (v : Json) : Prop :=
  ∀ fuel rest, (compact v).length < fuel → Ends rest →
    readValue fuel levels (compact v ++ rest) = some (ofJson v, rest)

/-- Fuel for the items of a list pays for one more call than there are characters. -/
lemma readItems_compactItems {levels : Nat} (rest : List Char) : ∀ (items : List Json) (fuel : Nat),
    items ≠ [] → (∀ item ∈ items, Reads levels item) → (compactItems items).length + 1 < fuel →
    readItems fuel levels (compactItems items ++ ']' :: rest) = some (ofItems items, rest)
  | [], _, hne, _, _ => absurd rfl hne
  | [item], fuel + 1, _, hitems, hfuel => by
    have hitem := hitems item (by simp) fuel (']' :: rest)
      (by simp only [compactItems] at hfuel; omega) (ends_cons (by decide))
    simpa [compactItems, ofItems] using readItems_last hitem
  | item :: next :: items, fuel + 1, _, hitems, hfuel => by
    simp only [compactItems, List.length_append, List.length_cons] at hfuel
    have hitem := hitems item (by simp) fuel (',' :: (compactItems (next :: items) ++ ']' :: rest))
      (by omega) (ends_cons (by decide))
    have hrest := readItems_compactItems rest (next :: items) fuel (by simp)
      (fun v hv => hitems v (by simp [hv])) (by omega)
    simpa [compactItems, ofItems] using readItems_next hitem hrest

lemma readMembers_compactMembers {levels : Nat} (rest : List Char) :
    ∀ (members : List (String × Json)) (fuel : Nat), members ≠ [] →
      (∀ member ∈ members, Reads levels member.2) → (compactMembers members).length + 1 < fuel →
      readMembers fuel levels (compactMembers members ++ closing :: rest) =
        some (ofMembers members, rest)
  | [], _, hne, _, _ => absurd rfl hne
  | [(name, value)], fuel + 1, _, hmembers, hfuel => by
    simp only [compactMembers, List.length_append, List.length_cons] at hfuel
    have hvalue := hmembers (name, value) (by simp) fuel (closing :: rest) (by dsimp only; omega)
      (ends_cons (by decide))
    simpa [compactMembers, ofMembers] using readMembers_last hvalue
  | (name, value) :: next :: members, fuel + 1, _, hmembers, hfuel => by
    simp only [compactMembers, List.length_append, List.length_cons] at hfuel
    have hvalue := hmembers (name, value) (by simp) fuel
      (',' :: (compactMembers (next :: members) ++ closing :: rest)) (by dsimp only; omega)
      (ends_cons (by decide))
    have hrest := readMembers_compactMembers rest (next :: members) fuel (by simp)
      (fun member hmember => hmembers member (by simp [hmember])) (by omega)
    simpa [compactMembers, ofMembers] using readMembers_next hvalue hrest

theorem readValue_compact {levels : Nat} {v : Json} (h : Legible levels v) : Reads levels v := by
  induction h with
  | null =>
    rintro (_ | fuel) rest hfuel -
    · simp at hfuel
    · rfl
  | bool b =>
    rintro (_ | fuel) rest hfuel -
    · simp at hfuel
    · cases b <;> rfl
  | int hleast hgreatest =>
    rintro (_ | fuel) rest hfuel hends
    · simp at hfuel
    · exact readValue_int hleast hgreatest hends
  | float hreads =>
    rintro (_ | fuel) rest hfuel hends
    · simp at hfuel
    · exact readValue_float hreads hends
  | str s =>
    rintro (_ | fuel) rest hfuel -
    · simp at hfuel
    · exact readValue_str s
  | @arr levels items hitems ih =>
    rintro (_ | fuel) rest hfuel -
    · simp at hfuel
    · cases items with
      | nil => rfl
      | cons item items =>
        simp only [compact, List.length_append, List.length_cons, List.length_nil] at hfuel
        have hread := readItems_compactItems rest (item :: items) fuel (by simp) ih (by omega)
        simpa [compact, ofJson] using readValue_arr hread
  | @obj levels members hmembers ih =>
    rintro (_ | fuel) rest hfuel -
    · simp at hfuel
    · cases members with
      | nil => rfl
      | cons member members =>
        simp only [compact, List.length_append, List.length_cons, List.length_nil] at hfuel
        have hread :=
          readMembers_compactMembers rest (member :: members) fuel (by simp) ih (by omega)
        obtain ⟨cs, hcs⟩ :
            ∃ cs, compactMembers (member :: members) ++ closing :: rest = '"' :: cs := by
          cases members <;> exact ⟨_, rfl⟩
        have htext : compact (.obj (member :: members)) ++ rest = opening :: '"' :: cs := by
          simp [compact, ← hcs]
        rw [htext]
        rw [hcs] at hread
        exact readValue_obj hread

/-- The text of a value holds that value and nothing else. -/
theorem read?_compact {v : Json} (h : Legible deepest v) : read? (compact v) = some (ofJson v) := by
  have hread := readValue_compact h (3 * (compact v).length + 3) [] (by omega) ends_nil
  rw [List.append_nil] at hread
  rw [read?, hread]
  rfl

end Draft

/-! ## Single lines -/

/-- No control character is written, in whatever string. -/
lemma not_control_of_mem_escape {c d : Char} (h : d ∈ escape c) : 32 ≤ d.toNat := by
  have hdigits : ∀ n < 32, 32 ≤ (hexDigit (n / 16)).toNat ∧ 32 ≤ (hexDigit (n % 16)).toNat := by
    decide
  unfold escape at h
  split_ifs at h with hquote hslash hback hform hline hreturn htab hcontrol
  -- the control characters without a letter, then the characters that stand for themselves
  on_goal 8 =>
    obtain ⟨hhigh, hlow⟩ := hdigits c.toNat hcontrol
    simp only [List.mem_cons, List.not_mem_nil, or_false] at h
    rcases h with rfl | rfl | rfl | rfl | rfl | rfl <;> first | assumption | decide
  on_goal 8 =>
    obtain rfl := List.mem_singleton.mp h
    exact Nat.not_lt.mp hcontrol
  all_goals
    rcases List.mem_pair.mp h with rfl | rfl <;> decide

lemma newline_not_mem_stringText (s : String) : '\n' ∉ stringText s := by
  intro h
  simp only [stringText, List.mem_append, List.mem_cons, List.mem_flatMap] at h
  rcases h with (h | ⟨c, -, h⟩) | h
  · cases h
  · exact absurd (not_control_of_mem_escape h) (by decide)
  · simp at h

lemma newline_not_mem_intText (n : Int) : '\n' ∉ intText n := by
  have hdigits : '\n' ∉ natText n.natAbs := fun h => absurd (isDigit_of_mem_natText h) (by decide)
  unfold intText
  split_ifs <;> simp [hdigits]

mutual

/-- A value is written on one line. -/
theorem newline_not_mem_compact : ∀ v : Json, '\n' ∉ compact v
  | .null => by decide
  | .bool true => by decide
  | .bool false => by decide
  | .int n => newline_not_mem_intText n
  | .float x => fun h => absurd (not_isSpace_of_mem_write h) (by decide)
  | .str s => newline_not_mem_stringText s
  | .arr items => by
    have hitems := newline_not_mem_compactItems items
    simp [compact, hitems]
  | .obj members => by
    have hmembers := newline_not_mem_compactMembers members
    simp [compact, hmembers, opening, closing]

theorem newline_not_mem_compactItems : ∀ items : List Json, '\n' ∉ compactItems items
  | [] => by simp [compactItems]
  | [item] => newline_not_mem_compact item
  | item :: next :: rest => by
    have hitem := newline_not_mem_compact item
    have hrest := newline_not_mem_compactItems (next :: rest)
    simp [compactItems, hitem, hrest]

theorem newline_not_mem_compactMembers :
    ∀ members : List (String × Json), '\n' ∉ compactMembers members
  | [] => by simp [compactMembers]
  | [(name, value)] => by
    have hvalue := newline_not_mem_compact value
    simp [compactMembers, newline_not_mem_stringText, hvalue]
  | (name, value) :: next :: rest => by
    have hvalue := newline_not_mem_compact value
    have hrest := newline_not_mem_compactMembers (next :: rest)
    simp [compactMembers, newline_not_mem_stringText, hvalue, hrest]

end

end MarketTape.Json
