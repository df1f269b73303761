/-!
Shortest decimal texts of binary numbers. `Decimal.shortest` picks, among the
decimals that round to a given binary number, one with the fewest digits and
of those the nearest; `positional` and `scientific` write it out.
-/

namespace LateIR

/-- The number `coefficient * 10 ^ exponent`. -/
structure Decimal where
  coefficient : Nat
  exponent : Int
  deriving DecidableEq

/-- A positive binary number `mantissa * 2 ^ exponent` and what separates it
from its neighbours: the gap below is half the gap above when `narrow`. -/
structure BinaryNumber where
  mantissa : Nat
  exponent : Int
  narrow : Bool
  deriving DecidableEq

namespace BinaryNumber

/-- The ends of the interval of reals that round to the number, in quarters of
the unit `2 ^ exponent`. -/
def quarters (x : BinaryNumber) : Nat × Nat :=
  (4 * x.mantissa - (if x.narrow then 1 else 2), 4 * x.mantissa + 2)

/-- A quarter of the unit on the grid of multiples of `10 ^ place`, as a
numerator and a denominator. -/
def quarterOn (x : BinaryNumber) (place : Int) : Nat × Nat :=
  (Nat.pow 2 (x.exponent - 2).toNat * Nat.pow 10 (-place).toNat,
    Nat.pow 2 (2 - x.exponent).toNat * Nat.pow 10 place.toNat)

/-- Whether `n * 10 ^ place` rounds to the number. The ends of the interval do
when the mantissa is even. -/
def roundsHere (x : BinaryNumber) (place : Int) (n : Nat) : Bool :=
  let (unit, scale) := x.quarterOn place
  let (low, high) := x.quarters
  if x.mantissa % 2 = 0 then low * unit ≤ n * scale ∧ n * scale ≤ high * unit
  else low * unit < n * scale ∧ n * scale < high * unit

/-- The grid point nearest to the number that rounds to it. Only the two
neighbours of the number on the grid can; a tie goes up. -/
def nearestOn? (x : BinaryNumber) (place : Int) : Option Decimal :=
  let (unit, scale) := x.quarterOn place
  let below := 4 * x.mantissa * unit / scale
  let rest := 4 * x.mantissa * unit % scale
  let down := x.roundsHere place below
  let up := x.roundsHere place (below + 1)
  if up && (!down || scale ≤ 2 * rest) then some ⟨below + 1, place⟩
  else if down then some ⟨below, place⟩
  else none

/-- A place at or above the leading digit: `30103 / 100000` is just above the
decimal logarithm of two. -/
def topPlace (x : BinaryNumber) : Int :=
  (x.exponent + (x.mantissa.log2 + 1 : Nat)) * 30103 / 100000 + 1

end BinaryNumber

/-- The coarsest grid with a point that rounds to `x` gives the fewest digits.
Seventeen digits tell all 64-bit numbers apart, and `topPlace` is at most three
places above the leading digit. -/
def Decimal.shortest (x : BinaryNumber) : Decimal :=
  ((List.range 21).findSome? fun (i : Nat) => x.nearestOn? (x.topPlace - i)).getD ⟨0, 0⟩

namespace Decimal

def digits (d : Decimal) : List Char := (toString d.coefficient).toList

/-- Number of digits before the decimal point, negative when zeros follow it. -/
def point (d : Decimal) : Int := d.digits.length + d.exponent

/-- All digits written out without an exponent. With `fraction`, a whole number
ends in `.0`. -/
def positional (d : Decimal) (fraction : Bool) : String :=
  let digits := d.digits
  let point := d.point
  if point ≤ 0 then String.ofList ('0' :: '.' :: List.replicate (-point).toNat '0' ++ digits)
  else if digits.length ≤ point then
    String.ofList (digits ++ List.replicate (point.toNat - digits.length) '0' ++
      (if fraction then ['.', '0'] else []))
  else String.ofList (digits.take point.toNat ++ '.' :: digits.drop point.toNat)

/-- One digit before the point and a power of ten after `e`. -/
def scientific (d : Decimal) : String :=
  let power := toString (d.point - 1)
  match d.digits with
  | [] => "0"
  | [c] => String.ofList [c] ++ "e" ++ power
  | c :: rest => String.ofList (c :: '.' :: rest) ++ "e" ++ power

end Decimal

end LateIR
