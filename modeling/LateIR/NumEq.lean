import LateIR.Binary

/-!
Equality in which floating-point words compare as numbers. It is not reflexive,
since a word that is not a number differs from itself, and it identifies the two
zeros. Data without such words compares as usual.
-/

namespace LateIR

/-- Equality with floating-point words compared as numbers. -/
class NumEq (α : Type) where
  numEq : α → α → Bool

export NumEq (numEq)

instance : NumEq Binary64 := ⟨Binary64.numEq⟩

instance : NumEq Binary32 := ⟨Binary32.numEq⟩

variable {α : Type} [NumEq α]

/-- Lists are equal when they have one length and equal entries. -/
def numEqLists : List α → List α → Bool
  | [], [] => true
  | a :: as, b :: bs => numEq a b && numEqLists as bs
  | _, _ => false

instance : NumEq (List α) := ⟨numEqLists⟩

instance : NumEq (Array α) := ⟨fun a b => numEq a.toList b.toList⟩

instance : NumEq (Option α) where
  numEq
    | none, none => true
    | some a, some b => numEq a b
    | _, _ => false

end LateIR
