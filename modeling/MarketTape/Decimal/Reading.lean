/-!
# Reading decimal numbers

A field of a data file is a number if it is a decimal numeral with an optional sign, point and
exponent, or one of the words for infinity and for a missing number.  The double nearest to the
numeral is taken.

* `readFloat?` and `readInt?` read a field as a double and as a count.
* `scaled` is the double nearest to `coefficient · 10 ^ exponent`; numerals far outside the range of
  doubles are decided without computing the power.
-/

namespace MarketTape.Decimal

/-! ## Digits -/

def digit? (c : Char) : Option Nat := if c.isDigit then some (c.toNat - '0'.toNat) else none

/-- The value of a digit in base sixteen, in either case. -/
def hexDigit? (c : Char) : Option Nat :=
  if c.isDigit then some (c.toNat - '0'.toNat)
  else if 'a' ≤ c ∧ c ≤ 'f' then some (c.toNat - 'a'.toNat + 10)
  else if 'A' ≤ c ∧ c ≤ 'F' then some (c.toNat - 'A'.toNat + 10)
  else none

/-- The number that a row of decimal digits stands for, read after the digits of `start`. -/
def ofDigits (start : Nat) (digits : List Char) : Nat :=
  digits.foldl (fun n c => n * 10 + (digit? c).getD 0) start

/-- The digits at the front of a text and what follows them. -/
def spanDigits (cs : List Char) : List Char × List Char :=
  (cs.takeWhile Char.isDigit, cs.dropWhile Char.isDigit)

/-- An optional sign: whether it is a minus, and what follows. -/
def splitSign : List Char → Bool × List Char
  | '+' :: rest => (false, rest)
  | '-' :: rest => (true, rest)
  | cs => (false, cs)

/-! ## Doubles -/

/-- The double nearest to `coefficient · 10 ^ exponent`.  A number with more than 400 digits before
the point is infinite and one with more than 400 zeros after it is zero, whatever its digits are. -/
def scaled (coefficient : Nat) (exponent : Int) : Float :=
  let size := exponent + (Nat.toDigits 10 coefficient).length
  if coefficient = 0 ∨ size < -400 then 0.0
  else if 400 < size then 1.0 / 0.0
  else if exponent < 0 then Float.ofScientific coefficient true exponent.natAbs
  else Float.ofScientific coefficient false exponent.natAbs

/-- An exponent part: nothing, or the letter, an optional sign and at least one digit. -/
def readExponent? : List Char → Option Int
  | [] => some 0
  | c :: rest =>
    if c = 'e' ∨ c = 'E' then
      let (negative, digits) := splitSign rest
      if digits ≠ [] ∧ digits.all Char.isDigit then
        let n : Int := ofDigits 0 digits
        some (if negative then -n else n)
      else none
    else none

/-- A numeral without its sign. -/
def readNumeral? (cs : List Char) : Option Float :=
  let (whole, rest) := spanDigits cs
  let (fraction, rest) := match rest with
    | '.' :: rest => spanDigits rest
    | rest => ([], rest)
  if whole = [] ∧ fraction = [] then none
  else (readExponent? rest).map fun exponent =>
    scaled (ofDigits (ofDigits 0 whole) fraction) (exponent - fraction.length)

/-- A number without its sign: a numeral, or a word in any case. -/
def readUnsigned? (cs : List Char) : Option Float :=
  let word := cs.map Char.toLower
  if word = "inf".toList ∨ word = "infinity".toList then some (1.0 / 0.0)
  else if word = "nan".toList then some (0.0 / 0.0)
  else readNumeral? cs

def readFloat? (cs : List Char) : Option Float :=
  let (negative, rest) := splitSign cs
  (readUnsigned? rest).map fun x => if negative then -x else x

/-! ## Counts -/

/-- An optional sign and digits of the given base; at least one digit. -/
def readSigned? (base : Nat) (value : Char → Option Nat) (cs : List Char) : Option Int :=
  let (negative, digits) := splitSign cs
  if digits = [] then none
  else (digits.foldl (fun n c => n.bind fun n => (value c).map (n * base + ·)) (some 0)).map
    fun n : Nat => if negative then -(n : Int) else n

/-- A text as a whole number: decimal, or in base sixteen after `0x`. -/
def readInt? : List Char → Option Int
  | '0' :: 'x' :: rest => readSigned? 16 hexDigit? rest
  | cs => readSigned? 10 digit? cs

end MarketTape.Decimal
