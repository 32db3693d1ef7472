import MarketTape.Decimal.Shortest

/-!
# Number text

Once its digits are chosen, a number still has to be laid out: with a point in place or with an
exponent, with or without a zero after the point of a whole number.  A `Layout` is such a choice;
every output of the program names the one it uses.

* `Layout.write` writes a double.
* `positional` and `scientific` are the two forms.
-/

namespace MarketTape.Decimal

/-- How doubles are written: which of two equally near numbers is taken, which powers of ten the
first digit may stand for in a number without an exponent, what follows the digits of a whole
number, and the texts of the numbers that have no digits. -/
structure Layout where
  tie : Tie
  isPositional : Int → Bool
  wholeEnd : List Char
  nan : List Char
  posInf : List Char
  negInf : List Char

def natText (n : Nat) : List Char := Nat.toDigits 10 n

def intText (n : Int) : List Char :=
  if n < 0 then '-' :: natText n.natAbs else natText n.natAbs

/-- The power of ten that the first digit stands for. -/
def Digits.leading (d : Digits) : Int := d.exponent + (natText d.coefficient).length - 1

/-- All digits in place. -/
def positional (wholeEnd : List Char) (d : Digits) : List Char :=
  let digits := natText d.coefficient
  if 0 ≤ d.exponent then digits ++ List.replicate d.exponent.toNat '0' ++ wholeEnd
  else if 0 ≤ d.leading then
    digits.take (d.leading.toNat + 1) ++ '.' :: digits.drop (d.leading.toNat + 1)
  else '0' :: '.' :: List.replicate (-d.leading - 1).toNat '0' ++ digits

/-- One digit before the point, and the power of ten that it stands for.  The sign of the power is
always written. -/
def scientific (d : Digits) : List Char :=
  let digits := natText d.coefficient
  let fraction := if digits.length ≤ 1 then [] else '.' :: digits.drop 1
  let sign := if d.leading < 0 then '-' else '+'
  digits.take 1 ++ fraction ++ 'e' :: sign :: natText d.leading.natAbs

namespace Layout

/-- A number other than zero, without its sign. -/
def writeDigits (layout : Layout) (d : Digits) : List Char :=
  if layout.isPositional d.leading then positional layout.wholeEnd d else scientific d

/-- A finite number. -/
def writeBinary (layout : Layout) (b : Binary) : List Char :=
  let text := if b.mantissa = 0 then '0' :: layout.wholeEnd
    else layout.writeDigits (Digits.ofBinary layout.tie b)
  if b.negative then '-' :: text else text

def write (layout : Layout) (x : Float) : List Char :=
  if x.isNaN then layout.nan
  else if x.isFinite then layout.writeBinary (Binary.ofFloat x)
  else if x < 0 then layout.negInf
  else layout.posInf

end Layout

/-- Numbers in messages have no exponent, and a whole number has no point. -/
def plain : Layout where
  tie := .away
  isPositional _ := true
  wholeEnd := []
  nan := ['N', 'a', 'N']
  posInf := ['i', 'n', 'f']
  negInf := ['-', 'i', 'n', 'f']

/-- The text of a double in a message. -/
def plainText (x : Float) : String := String.ofList (plain.write x)

end MarketTape.Decimal
