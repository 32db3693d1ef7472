/-!
# Digests

Inputs are identified by a digest of their bytes: a 64-bit state that every byte is mixed into by an
exclusive or and a multiplication.  Only the sequence of bytes matters, not how it is cut up.

* `Digest.absorb` mixes a byte in, `Digest.extend` a sequence of bytes, `Digest.of` starts afresh.
* `Digest.hex` writes a digest.
* `Digest.littleEndian` and `Digest.signed` are numbers as bytes of a fixed width.
-/

namespace MarketTape.Digest

/-- The state before the first byte. -/
def basis : UInt64 := 0xcbf29ce484222325

/-- The multiplier. -/
def prime : UInt64 := 0x100000001b3

/-- Mixes a byte into the state. -/
def absorb (state : UInt64) (byte : UInt8) : UInt64 := (state ^^^ byte.toUInt64) * prime

/-- Mixes a sequence of bytes into the state. -/
def extend (state : UInt64) (bytes : List UInt8) : UInt64 := bytes.foldl absorb state

def of (bytes : List UInt8) : UInt64 := extend basis bytes

/-- Cutting a sequence in two does not change its digest. -/
theorem extend_append (state : UInt64) (a b : List UInt8) :
    extend state (a ++ b) = extend (extend state a) b := by
  simp [extend]

/-! ## Digests as text -/

/-- The digit for a number below sixteen, lower case. -/
def hexDigit (n : Nat) : Char := if n < 10 then Char.ofNat (48 + n) else Char.ofNat (87 + n)

/-- The last digits of a number in base sixteen, as many as asked for. -/
def hexText : Nat → Nat → List Char
  | 0, _ => []
  | width + 1, n => hexText width (n / 16) ++ [hexDigit (n % 16)]

/-- A digest as sixteen digits. -/
def hex (digest : UInt64) : String := String.ofList (hexText 16 digest.toNat)

/-! ## Numbers as bytes -/

/-- The last bytes of a number, the least significant one first. -/
def littleEndian : Nat → Nat → List UInt8
  | 0, _ => []
  | width + 1, n => UInt8.ofNat (n % 256) :: littleEndian width (n / 256)

@[simp] theorem length_littleEndian (width n : Nat) : (littleEndian width n).length = width := by
  induction width generalizing n with
  | zero => rfl
  | succ width ih => simp [littleEndian, ih]

/-- A signed number as bytes, in two's complement. -/
def signed (width : Nat) (n : Int) : List UInt8 :=
  littleEndian width (n % Nat.pow 256 width).toNat

/-- A double as the bytes of its bits. -/
def ofFloat (x : Float) : List UInt8 := littleEndian 8 x.toBits.toNat

end MarketTape.Digest
