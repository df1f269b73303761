/-!
The six comparison relations, as tests of an ordering.
-/

namespace LateIR

/-- A comparison relation. -/
inductive Comparison where
  | eq
  | ne
  | lt
  | le
  | gt
  | ge
  deriving DecidableEq

namespace Comparison

/-- Whether two operands that compare as `o` are in the relation. -/
def holds : Comparison → Ordering → Bool
  | eq, o => o = .eq
  | ne, o => o ≠ .eq
  | lt, o => o = .lt
  | le, o => o ≠ .gt
  | gt, o => o = .gt
  | ge, o => o ≠ .lt

/-- As `holds` for operands that may be unordered, which are only different. -/
def holdsPartial (c : Comparison) : Option Ordering → Bool
  | some o => c.holds o
  | none => c = ne

/-- The answer for operands known to be different but without an order. -/
def onDistinct? : Comparison → Option Bool
  | eq => some false
  | ne => some true
  | _ => none

/-- The relation that holds of ordered operands when this one does not. -/
def negate : Comparison → Comparison
  | eq => ne
  | ne => eq
  | lt => ge
  | le => gt
  | gt => le
  | ge => lt

def text : Comparison → String
  | eq => "Eq"
  | ne => "Ne"
  | lt => "Lt"
  | le => "Le"
  | gt => "Gt"
  | ge => "Ge"

theorem holds_negate (c : Comparison) (o : Ordering) : c.negate.holds o = !c.holds o := by
  cases c <;> cases o <;> rfl

end Comparison

end LateIR
