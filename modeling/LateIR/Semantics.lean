import LateIR.Error
import LateIR.External

/-!
What the two interpreters have in common: states that a function is entered in,
that step, that stop at external calls and that return a value in the end.
-/

namespace LateIR

/-- An interpreter with states `S`. -/
structure Semantics (S : Type) where
  /-- The state that calls the function behind a code pointer. -/
  enter : Mem → Val → List Val → Except Error S
  /-- The events of a step and the state after it; a stuck state has none. -/
  step : S → Option (Trace × S)
  /-- The external call that the state is about to make. -/
  atExternal? : S → Option (ExternalFunction × List Val)
  /-- The state after the external call, with the result and the memory that the
  call left; there is none without a result. -/
  resume? : Option Val → Mem → S → Option S
  /-- What the outermost call returned, once it has. -/
  returned? : S → Option Val
  mem : S → Mem
  /-- Number of suspended callers. -/
  depth : S → Nat
  /-- Refuses an ill-formed state. -/
  check : S → Except Violation Unit

namespace Semantics

variable {S : Type} (sem : Semantics S)

/-- The state that calls the function to start with, which has to be defined. -/
def enterMain (pointer : Option Val) (m : Mem) (args : List Val) : Except Error S :=
  match pointer with
  | some p => sem.enter m p args
  | none => .error (.undefinedSymbol "main")

/-- The integer that the program returned. -/
def final? (s : S) : Option Int32 :=
  match sem.returned? s with
  | some (.int n) => some n
  | _ => none

/-- Refuses a state that is ill-formed, or that does not follow in one step a
state with the given number of suspended callers. -/
def checkAfter (depth : Nat) (s : S) : Except Violation Unit :=
  if depth + 1 < sem.depth s ∨ sem.depth s + 1 < depth then
    .error (.stackShape depth (sem.depth s))
  else sem.check s

/-- Refuses a transition after which the state is ill-formed or the stack has
changed by more than one suspended caller. -/
def checkStep (before after : S) : Except Violation Unit :=
  sem.checkAfter (sem.depth before) after

end Semantics

end LateIR
