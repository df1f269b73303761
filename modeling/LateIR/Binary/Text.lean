import LateIR.Binary
import LateIR.Decimal

/-!
Decimal texts of floating-point words. Values are written plainly, without an
exponent; constants inside instructions keep a fraction and turn to an exponent
when the number is very large or very small.
-/

namespace LateIR

/-- How finite numbers are written. -/
structure FloatStyle where
  /-- Whole numbers end in `.0`. -/
  fraction : Bool
  /-- From ten to this power on an exponent is written; `none` means never. -/
  exponentFrom : Option Int
  /-- Below ten to this power an exponent is written. -/
  exponentBelow : Option Int

namespace FloatStyle

/-- The style of values: always positional. -/
def plain : FloatStyle := ⟨false, none, none⟩

/-- The style of constants: positional from `0.0001` up to, but not including,
`10 ^ 16`. -/
def constant : FloatStyle := ⟨true, some 16, some (-4)⟩

def isScientific (style : FloatStyle) (d : Decimal) : Bool :=
  style.exponentFrom.any (fun n => n < d.point) || style.exponentBelow.any (fun n => d.point ≤ n)

/-- The text of the number without its sign. -/
def magnitudeText (style : FloatStyle) (format : BinaryFormat) (mantissa : Nat)
    (exponent : Int) : String :=
  if mantissa = 0 then if style.fraction then "0.0" else "0"
  else
    let d := Decimal.shortest ⟨mantissa, exponent, mantissa = format.hiddenBit⟩
    if style.isScientific d then d.scientific else d.positional style.fraction

/-- The sign of zero is written, that of a word that is not a number is not. -/
def text (style : FloatStyle) (format : BinaryFormat) : FloatClass → String
  | .nan => "NaN"
  | .infinite negative => if negative then "-inf" else "inf"
  | .finite negative mantissa exponent =>
      (if negative then "-" else "") ++ style.magnitudeText format mantissa exponent

end FloatStyle

def Binary64.text (style : FloatStyle) (x : Binary64) : String :=
  style.text .double x.classify

def Binary32.text (style : FloatStyle) (x : Binary32) : String :=
  style.text .single x.classify

end LateIR
