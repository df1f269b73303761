/-!
Binary floating-point words of 64 and 32 bits, kept as their bit patterns: what
a pattern stands for, how two patterns compare as numbers, and the arithmetic on
64-bit words. Two words are equal when they are the same bits; `Binary64.numEq`
and `Binary32.numEq` are equality of the numbers they stand for.
-/

namespace LateIR

/-- Widths of the exponent and fraction fields of a floating-point word. -/
structure BinaryFormat where
  exponentBits : Nat
  fractionBits : Nat

/-- What a floating-point word stands for. A finite one is the number
`mantissa * 2 ^ exponent`, with the sign apart so that zero has two signs. -/
inductive FloatClass where
  | nan
  | infinite (negative : Bool)
  | finite (negative : Bool) (mantissa : Nat) (exponent : Int)
  deriving DecidableEq

namespace BinaryFormat

def double : BinaryFormat := ⟨11, 52⟩

def single : BinaryFormat := ⟨8, 23⟩

variable (format : BinaryFormat)

/-- Exponent of the last fraction bit of the smallest numbers. -/
def minExponent : Int :=
  2 - (Nat.pow 2 (format.exponentBits - 1) : Int) - (format.fractionBits : Int)

/-- The bit above the fraction, which numbers outside the smallest have and
their words leave out. -/
def hiddenBit : Nat := Nat.pow 2 format.fractionBits

def isNegative (bits : Nat) : Bool :=
  (bits >>> (format.exponentBits + format.fractionBits)) % 2 = 1

/-- The word without its sign bit. -/
def magnitude (bits : Nat) : Nat :=
  bits % Nat.pow 2 (format.exponentBits + format.fractionBits)

/-- The magnitude of infinity: all exponent bits set and no fraction. -/
def infinity : Nat := (Nat.pow 2 format.exponentBits - 1) * format.hiddenBit

def isNaN (bits : Nat) : Bool := format.infinity < format.magnitude bits

def classify (bits : Nat) : FloatClass :=
  let negative := format.isNegative bits
  let magnitude := format.magnitude bits
  let field := magnitude >>> format.fractionBits
  let fraction := magnitude % format.hiddenBit
  if format.infinity < magnitude then .nan
  else if magnitude = format.infinity then .infinite negative
  else if field = 0 then .finite negative fraction format.minExponent
  else .finite negative (format.hiddenBit + fraction) (format.minExponent + field - 1)

/-- Position of a word on the number line. Magnitudes grow with their bits, and
both zeros are at the origin. -/
def position (bits : Nat) : Int :=
  if format.isNegative bits then -(format.magnitude bits : Int) else format.magnitude bits

/-- Numeric comparison. A word that is not a number is unordered. -/
def compare? (a b : Nat) : Option Ordering :=
  if format.isNaN a || format.isNaN b then none
  else some (compare (format.position a) (format.position b))

end BinaryFormat

/-- The integer part of a finite number, its sign kept. -/
def FloatClass.truncate? : FloatClass → Option Int
  | .finite negative mantissa exponent =>
      let whole := if 0 ≤ exponent then mantissa * Nat.pow 2 exponent.toNat
        else mantissa / Nat.pow 2 (-exponent).toNat
      some (if negative then -(whole : Int) else whole)
  | _ => none

/-- A 64-bit floating-point word. -/
structure Binary64 where
  bits : UInt64
  deriving DecidableEq

/-- A 32-bit floating-point word. -/
structure Binary32 where
  bits : UInt32
  deriving DecidableEq

namespace Binary64

def classify (x : Binary64) : FloatClass := BinaryFormat.double.classify x.bits.toNat

def isNaN (x : Binary64) : Bool := BinaryFormat.double.isNaN x.bits.toNat

def compare? (x y : Binary64) : Option Ordering :=
  BinaryFormat.double.compare? x.bits.toNat y.bits.toNat

/-- Equality as numbers: no word that is not a number equals anything, and the
two zeros are equal. -/
def numEq (x y : Binary64) : Bool := x.compare? y = some .eq

def toFloat (x : Binary64) : Float := .ofBits x.bits

def ofFloat (x : Float) : Binary64 := ⟨x.toBits⟩

def add (x y : Binary64) : Binary64 := ofFloat (x.toFloat + y.toFloat)

def sub (x y : Binary64) : Binary64 := ofFloat (x.toFloat - y.toFloat)

def mul (x y : Binary64) : Binary64 := ofFloat (x.toFloat * y.toFloat)

def div (x y : Binary64) : Binary64 := ofFloat (x.toFloat / y.toFloat)

/-- Flips the sign bit, whatever the word stands for. -/
def neg (x : Binary64) : Binary64 := ⟨x.bits ^^^ 0x8000000000000000⟩

/-- Exact: every 32-bit integer is a 64-bit floating-point number. -/
def ofInt32 (n : Int32) : Binary64 := ofFloat n.toFloat

/-- Truncation toward zero, when the result is a 32-bit integer. -/
def toInt32? (x : Binary64) : Option Int32 :=
  x.classify.truncate?.bind fun n =>
    if Int32.minValue.toInt ≤ n ∧ n ≤ Int32.maxValue.toInt then some (.ofInt n) else none

end Binary64

namespace Binary32

def classify (x : Binary32) : FloatClass := BinaryFormat.single.classify x.bits.toNat

def isNaN (x : Binary32) : Bool := BinaryFormat.single.isNaN x.bits.toNat

def compare? (x y : Binary32) : Option Ordering :=
  BinaryFormat.single.compare? x.bits.toNat y.bits.toNat

/-- Equality as numbers, as for 64-bit words. -/
def numEq (x y : Binary32) : Bool := x.compare? y = some .eq

end Binary32

end LateIR
