import MarketTape.Json.Number
import MarketTape.Json.Basic
import MarketTape.Table

/-!
# Reading JSON text

Reading goes in two steps.  The first finds the structure of a text and fails only where the text is
not JSON.  The second takes values out of that structure; only there does it matter whether a
number is in range, a string is made of characters, or the nesting is too deep.  A member that
nobody asks for may therefore hold a value that nobody could use.

* `Draft` is the structure of a text; `Draft.read?` finds it.
* `Draft.unusable` marks a value that is well written and cannot be taken.
* `Draft.toJson?` takes the whole value; of members with one name the last counts, and members are
  kept in the order of their names.
* `Draft.ofJson` is the draft of a value that is already at hand.
-/

namespace MarketTape.Json

open Decimal

/-- The structure of a JSON text.  Whole numbers have 64 bits, and members are in the order of the
text.  A value may be well written and `unusable`, that is, impossible to take; so may a name. -/
inductive Draft where
  | null
  | bool (b : Bool)
  | int (n : Int)
  | float (x : Float)
  | str (s : String)
  | arr (items : List Draft)
  | obj (members : List (Option String × Draft))
  | unusable
  deriving Inhabited

namespace Draft

/-! ## Leaves -/

/-- The blanks between tokens. -/
def isSpace (c : Char) : Bool := c == ' ' || c == '\n' || c == '\t' || c == '\r'

/-- Skips the blanks between tokens. -/
def skipSpace (cs : List Char) : List Char := cs.dropWhile isSpace

/-- Four digits in base sixteen. -/
def hexWord? (a b c d : Char) : Option Nat := do
  let a ← hexDigit? a
  let b ← hexDigit? b
  let c ← hexDigit? c
  let d ← hexDigit? d
  some (((a * 16 + b) * 16 + c) * 16 + d)

/-- The character of a single-letter escape. -/
def escaped? (c : Char) : Option Char :=
  if c = '"' then some '"'
  else if c = '\\' then some '\\'
  else if c = '/' then some '/'
  else if c = 'b' then some '\x08'
  else if c = 'f' then some '\x0c'
  else if c = 'n' then some '\n'
  else if c = 'r' then some '\r'
  else if c = 't' then some '\t'
  else none

/-- The character that a pair of surrogates stands for. -/
def pairChar (high low : Nat) : Char :=
  Char.ofNat ((high - 0xd800) * 0x400 + (low - 0xdc00) + 0x10000)

/-- Adds a character to a text read so far, unless the text is already unusable. -/
def extend (text : Option (List Char)) (c : Char) : Option (List Char) := text.map (c :: ·)

/-- Reads up to the closing quote.  `text` holds the characters so far, last first, or nothing
after a surrogate without its partner. -/
def readString (text : Option (List Char)) : List Char → Option (Option String × List Char)
  | [] => none
  | '"' :: rest => some (text.map fun cs => String.ofList cs.reverse, rest)
  | '\\' :: 'u' :: a :: b :: c :: d :: '\\' :: 'u' :: e :: f :: g :: h :: rest =>
    match hexWord? a b c d with
    | none => none
    | some high =>
      if 0xd800 ≤ high ∧ high ≤ 0xdbff then
        match hexWord? e f g h with
        | none => none
        | some low =>
          if 0xdc00 ≤ low ∧ low ≤ 0xdfff then readString (extend text (pairChar high low)) rest
          else readString none ('\\' :: 'u' :: e :: f :: g :: h :: rest)
      else if 0xdc00 ≤ high ∧ high ≤ 0xdfff then
        readString none ('\\' :: 'u' :: e :: f :: g :: h :: rest)
      else
        readString (extend text (Char.ofNat high)) ('\\' :: 'u' :: e :: f :: g :: h :: rest)
  | '\\' :: 'u' :: a :: b :: c :: d :: rest =>
    match hexWord? a b c d with
    | none => none
    | some n =>
      if 0xd800 ≤ n ∧ n ≤ 0xdfff then readString none rest
      else readString (extend text (Char.ofNat n)) rest
  | '\\' :: c :: rest =>
    match escaped? c with
    | none => none
    | some c => readString (extend text c) rest
  | c :: rest => if c.toNat < 32 then none else readString (extend text c) rest
termination_by cs => cs.length

/-- The closing quote ends the text. -/
theorem readString_quote (text : Option (List Char)) (rest : List Char) :
    readString text ('"' :: rest) = some (text.map fun cs => String.ofList cs.reverse, rest) := by
  rw [readString]

/-- The exponent of a number, if there is one: a letter, an optional sign and at least one digit. -/
def readExponent (cs : List Char) : Option (Option (Bool × List Char) × List Char) :=
  match cs with
  | c :: rest =>
    if c = 'e' ∨ c = 'E' then
      let (negative, rest) := splitSign rest
      let (digits, rest) := spanDigits rest
      if digits = [] then none else some (some (negative, digits), rest)
    else some (none, cs)
  | [] => some (none, [])

/-- The digits after a point, if there is one; at least one digit. -/
def readFraction (cs : List Char) : Option (List Char × List Char) :=
  match cs with
  | '.' :: rest =>
    let (digits, rest) := spanDigits rest
    if digits = [] then none else some (digits, rest)
  | _ => some ([], cs)

/-- A number after its sign.  There is at least one digit before the point, and a leading zero
stands alone. -/
def readNumber (negative : Bool) (cs : List Char) : Option (Draft × List Char) :=
  let (whole, rest) := spanDigits cs
  if whole = [] ∨ (whole.head? = some '0' ∧ whole.length ≠ 1) then none
  else do
    let (fraction, rest) ← readFraction rest
    let (exponent, rest) ← readExponent rest
    let value := match (Numeral.mk negative whole fraction exponent).value? with
      | some (.int n) => int n
      | some (.float x) => float x
      | none => unusable
    some (value, rest)

/-! ## Containers -/

/-- How many levels of containers a usable value may have. -/
def deepest : Nat := 127

/-- A container that is within the depth that can be used. -/
def atDepth (levels : Nat) (d : Draft) : Draft := if levels = 0 then unusable else d

mutual

/-- Reads one value.  `levels` is how many levels of containers may still open. -/
def readValue (fuel levels : Nat) (cs : List Char) : Option (Draft × List Char) :=
  match fuel with
  | 0 => none
  | fuel + 1 =>
    match skipSpace cs with
    | 'n' :: 'u' :: 'l' :: 'l' :: rest => some (null, rest)
    | 't' :: 'r' :: 'u' :: 'e' :: rest => some (bool true, rest)
    | 'f' :: 'a' :: 'l' :: 's' :: 'e' :: rest => some (bool false, rest)
    | '"' :: rest =>
      (readString (some []) rest).map fun (text, rest) => ((text.map str).getD unusable, rest)
    | '-' :: rest => readNumber true rest
    | '[' :: rest =>
      match skipSpace rest with
      | ']' :: rest => some (atDepth levels (arr []), rest)
      | rest =>
        (readItems fuel (levels - 1) rest).map fun (items, rest) =>
          (atDepth levels (arr items), rest)
    | c :: rest =>
      if c = opening then
        match skipSpace rest with
        | d :: rest' =>
          if d = closing then some (atDepth levels (obj []), rest')
          else
            (readMembers fuel (levels - 1) (d :: rest')).map fun (members, rest) =>
              (atDepth levels (obj members), rest)
        | [] => none
      else readNumber false (c :: rest)
    | [] => none

/-- Reads the items of a list up to its closing bracket. -/
def readItems (fuel levels : Nat) (cs : List Char) : Option (List Draft × List Char) :=
  match fuel with
  | 0 => none
  | fuel + 1 =>
    match readValue fuel levels cs with
    | none => none
    | some (item, rest) =>
      match skipSpace rest with
      | ']' :: rest => some ([item], rest)
      | ',' :: rest => (readItems fuel levels rest).map fun (items, rest) => (item :: items, rest)
      | _ => none

/-- Reads the members of an object up to its closing brace. -/
def readMembers (fuel levels : Nat) (cs : List Char) :
    Option (List (Option String × Draft) × List Char) :=
  match fuel with
  | 0 => none
  | fuel + 1 =>
    match skipSpace cs with
    | '"' :: rest =>
      match readString (some []) rest with
      | none => none
      | some (name, rest) =>
        match skipSpace rest with
        | ':' :: rest =>
          match readValue fuel levels rest with
          | none => none
          | some (value, rest) =>
            match skipSpace rest with
            | ',' :: rest =>
              (readMembers fuel levels rest).map fun (members, rest) =>
                ((name, value) :: members, rest)
            | c :: rest => if c = closing then some ([(name, value)], rest) else none
            | [] => none
        | _ => none
    | _ => none

end

/-- After a minus only a number can follow. -/
theorem readValue_minus {fuel levels : Nat} (cs : List Char) :
    readValue (fuel + 1) levels ('-' :: cs) = readNumber true cs := by
  rw [readValue]
  rfl

/-- An item in front of the closing bracket is the last one. -/
theorem readItems_last {fuel levels : Nat} {cs rest : List Char} {item : Draft}
    (h : readValue fuel levels cs = some (item, ']' :: rest)) :
    readItems (fuel + 1) levels cs = some ([item], rest) := by
  rw [readItems, h]
  rfl

/-- After a comma the items go on. -/
theorem readItems_next {fuel levels : Nat} {cs cs' rest : List Char} {item : Draft}
    {items : List Draft} (h : readValue fuel levels cs = some (item, ',' :: cs'))
    (hrest : readItems fuel levels cs' = some (items, rest)) :
    readItems (fuel + 1) levels cs = some (item :: items, rest) := by
  rw [readItems, h]
  simp [skipSpace, isSpace, hrest]

/-- A member is a name, a colon and a value; what comes after them decides how it goes on. -/
theorem readMembers_member {fuel levels : Nat} {cs cs' rest : List Char} {name : Option String}
    {value : Draft} (hname : readString (some []) cs = some (name, ':' :: cs'))
    (hvalue : readValue fuel levels cs' = some (value, rest)) :
    readMembers (fuel + 1) levels ('"' :: cs) =
      match skipSpace rest with
      | ',' :: rest =>
        (readMembers fuel levels rest).map fun (members, rest) => ((name, value) :: members, rest)
      | c :: rest => if c = closing then some ([(name, value)], rest) else none
      | [] => none := by
  have hquote : skipSpace ('"' :: cs) = '"' :: cs := rfl
  have hcolon : skipSpace (':' :: cs') = ':' :: cs' := rfl
  rw [readMembers, hquote]
  simp only [hname, hcolon, hvalue]

/-- The structure of a text that holds one value and nothing else.  Every call passes on or
consumes a character, and no more than two calls pass on the same one. -/
def read? (cs : List Char) : Option Draft :=
  match readValue (3 * cs.length + 3) deepest cs with
  | some (d, rest) => if skipSpace rest = [] then some d else none
  | none => none

/-! ## The whole value -/

mutual

/-- The value, if every part of it can be taken. -/
def toJson? : Draft → Option Json
  | null => some .null
  | bool b => some (.bool b)
  | int n => some (.int n)
  | float x => some (.float x)
  | str s => some (.str s)
  | arr items => (itemsToJson? items).map .arr
  | obj members => (membersToJson? members).map fun members => .obj (Table.ofList members).rows
  | unusable => none

def itemsToJson? : List Draft → Option (List Json)
  | [] => some []
  | item :: rest =>
    match toJson? item, itemsToJson? rest with
    | some item, some rest => some (item :: rest)
    | _, _ => none

def membersToJson? : List (Option String × Draft) → Option (List (String × Json))
  | [] => some []
  | (name, value) :: rest =>
    match name, toJson? value, membersToJson? rest with
    | some name, some value, some rest => some ((name, value) :: rest)
    | _, _, _ => none

end

/-- Whether every part of the value can be taken. -/
def isUsable (d : Draft) : Bool := d.toJson?.isSome

/-! ## The draft of a value -/

mutual

/-- A value as it would be drafted from its text. -/
def ofJson : Json → Draft
  | .null => null
  | .bool b => bool b
  | .int n => int n
  | .float x => float x
  | .str s => str s
  | .arr items => arr (ofItems items)
  | .obj members => obj (ofMembers members)

def ofItems : List Json → List Draft
  | [] => []
  | item :: rest => ofJson item :: ofItems rest

def ofMembers : List (String × Json) → List (Option String × Draft)
  | [] => []
  | (name, value) :: rest => (some name, ofJson value) :: ofMembers rest

end

end Draft

/-- The value that a text holds. -/
def read? (text : String) : Option Json := (Draft.read? text.toList).bind Draft.toJson?

end MarketTape.Json
