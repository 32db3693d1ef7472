import MarketTape.Decimal.Layout

/-!
# JSON values and their text

Reports, audit lines and the canonical form of the settings are JSON.  A whole number and a number
with a point are different values here, because they are written differently.

* `Json` is the type of values.
* `Json.compact` writes a value without blanks, `Json.pretty` with one member or item a line.
* `Json.escape` spells a character inside a string, `numberLayout` says how doubles are laid out.
-/

namespace MarketTape

/-- A JSON value.  The members of an object are written in the order in which they are listed. -/
inductive Json where
  | null
  | bool (b : Bool)
  | int (n : Int)
  | float (x : Float)
  | str (s : String)
  | arr (items : List Json)
  | obj (members : List (String × Json))
  deriving Inhabited, Repr

namespace Json

/-! ## Leaves -/

/-- Doubles between `10 ^ -5` and `10 ^ 16` are written in place and always with a point; what is
not a number is no value. -/
def numberLayout : Decimal.Layout where
  tie := .toEven
  isPositional e := -5 ≤ e && e < 16
  wholeEnd := ['.', '0']
  nan := ['n', 'u', 'l', 'l']
  posInf := ['n', 'u', 'l', 'l']
  negInf := ['n', 'u', 'l', 'l']

/-- The digit for a number below sixteen. -/
def hexDigit (n : Nat) : Char := if n < 10 then Char.ofNat (48 + n) else Char.ofNat (87 + n)

/-- A character inside a string.  Only the quote, the backslash and the control characters cannot
stand for themselves, so no line break is ever part of a written string. -/
def escape (c : Char) : List Char :=
  if c = '"' then ['\\', '"']
  else if c = '\\' then ['\\', '\\']
  else if c = '\x08' then ['\\', 'b']
  else if c = '\x0c' then ['\\', 'f']
  else if c = '\n' then ['\\', 'n']
  else if c = '\r' then ['\\', 'r']
  else if c = '\t' then ['\\', 't']
  else if c.toNat < 32 then
    ['\\', 'u', '0', '0', hexDigit (c.toNat / 16), hexDigit (c.toNat % 16)]
  else [c]

/-- A string between its quotes. -/
def stringText (s : String) : List Char := '"' :: s.toList.flatMap escape ++ ['"']

/-- The braces around the members of an object. -/
def opening : Char := Char.ofNat 123

/-- The braces around the members of an object. -/
def closing : Char := Char.ofNat 125

/-! ## Compact text -/

mutual

/-- A value without blanks. -/
def compact : Json → List Char
  | .null => ['n', 'u', 'l', 'l']
  | .bool true => ['t', 'r', 'u', 'e']
  | .bool false => ['f', 'a', 'l', 's', 'e']
  | .int n => Decimal.intText n
  | .float x => numberLayout.write x
  | .str s => stringText s
  | .arr items => '[' :: compactItems items ++ [']']
  | .obj members => opening :: compactMembers members ++ [closing]

/-- Items with commas between them. -/
def compactItems : List Json → List Char
  | [] => []
  | [item] => compact item
  | item :: rest => compact item ++ ',' :: compactItems rest

/-- Members with commas between them. -/
def compactMembers : List (String × Json) → List Char
  | [] => []
  | [(name, value)] => stringText name ++ ':' :: compact value
  | (name, value) :: rest => stringText name ++ ':' :: compact value ++ ',' :: compactMembers rest

end

def compactText (v : Json) : String := String.ofList v.compact

/-! ## Text for reading -/

/-- A line break and the blanks before the first character of a line at this depth. -/
def newline (depth : Nat) : List Char := '\n' :: List.replicate (2 * depth) ' '

mutual

/-- A value with one item or member a line; a container without any is written on one line. -/
def pretty (depth : Nat) : Json → List Char
  | .arr [] => ['[', ']']
  | .arr (item :: rest) =>
    '[' :: newline (depth + 1) ++ pretty (depth + 1) item ++ prettyItems (depth + 1) rest ++
      newline depth ++ [']']
  | .obj [] => [opening, closing]
  | .obj ((name, value) :: rest) =>
    opening :: newline (depth + 1) ++ stringText name ++ ':' :: ' ' :: pretty (depth + 1) value ++
      prettyMembers (depth + 1) rest ++ newline depth ++ [closing]
  | v => compact v

/-- The items after the first one. -/
def prettyItems (depth : Nat) : List Json → List Char
  | [] => []
  | item :: rest => ',' :: newline depth ++ pretty depth item ++ prettyItems depth rest

/-- The members after the first one. -/
def prettyMembers (depth : Nat) : List (String × Json) → List Char
  | [] => []
  | (name, value) :: rest =>
    ',' :: newline depth ++ stringText name ++ ':' :: ' ' :: pretty depth value ++
      prettyMembers depth rest

end

/-- The text of a value with one item or member a line. -/
def prettyText (v : Json) : String := String.ofList (v.pretty 0)

end Json

end MarketTape
