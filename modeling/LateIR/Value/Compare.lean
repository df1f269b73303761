import LateIR.Comparison
import LateIR.Value

/-!
Comparisons of values. A comparison is undecided, `none`, unless both operands
are of a kind that it compares.
-/

namespace LateIR.Val

/-- Signed, on 32-bit integers. -/
def compareInt? (c : Comparison) : Val → Val → Option Bool
  | int a, int b => some (c.holds (compare a.toInt b.toInt))
  | _, _ => none

def compareIntUnsigned? (c : Comparison) : Val → Val → Option Bool
  | int a, int b => some (c.holds (compare a.toUInt32.toNat b.toUInt32.toNat))
  | _, _ => none

/-- Signed, on 64-bit integers. -/
def compareLong? (c : Comparison) : Val → Val → Option Bool
  | long a, long b => some (c.holds (compare a.toInt b.toInt))
  | _, _ => none

/-- A valid pointer is different from null; an invalid one is undecided. -/
def compareNull? (valid : BlockId → Int → Bool) (c : Comparison) (b : BlockId) (ofs n : Int64) :
    Option Bool :=
  if n = 0 && valid b ofs.toInt then c.onDistinct? else none

/-- Unsigned, on 64-bit integers and pointers. Valid pointers compare by offset
within a block, and across blocks are only different. -/
def compareLongUnsigned? (valid : BlockId → Int → Bool) (c : Comparison) :
    Val → Val → Option Bool
  | long a, long b => some (c.holds (compare a.toUInt64.toNat b.toUInt64.toNat))
  | ptr b o, ptr b' o' =>
      if valid b o.toInt && valid b' o'.toInt then
        if b = b' then some (c.holds (compare o.toUInt64.toNat o'.toUInt64.toNat))
        else c.onDistinct?
      else none
  | ptr b ofs, long n => compareNull? valid c b ofs n
  | long n, ptr b ofs => compareNull? valid c b ofs n
  | _, _ => none

/-- On floating-point numbers; unordered operands are only different. -/
def compareFloat? (c : Comparison) : Val → Val → Option Bool
  | float a, float b => some (c.holdsPartial (a.compare? b))
  | _, _ => none

end LateIR.Val
