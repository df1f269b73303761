import LateIR.Frame.Step
import LateIR.Semantics

/-!
Well-formed Frame-IR states, and the interpreter as a whole. Every suspended
caller is a function with a body that contains calls, goes on right after one of
them, and saved the return address chosen for it; the running function's index
is inside its body or right after it.
-/

namespace LateIR.Frame

variable (env : Env) (choose : ReturnAddresses)

/-- Whether the return address points into the function's block, to the offset
chosen for the call. -/
def admitsAddress (func : BlockId) (f : Function) (resume : Nat) : Val → Bool
  | .ptr b ofs => b = func && choose.admits func f resume ofs
  | _ => false

/-- Refuses a suspended caller with `depth` callers outside it. -/
def checkSuspended (depth : Nat) (caller : Suspended) : Except Violation Unit := do
  let f ← env.internal caller.func
  let resume := CodePoint.atIndex caller.resume
  if f.isLeaf then .error (.leafCaller depth caller.func)
  else if f.code.size < caller.resume then
    .error (.resumeOutsideBody depth caller.func resume)
  else if ¬ (0 < caller.resume ∧ f.code[caller.resume - 1]?.any Instr.isCall) then
    .error (.resumeNotAfterCall depth caller.func resume)
  else if admitsAddress choose caller.func f caller.resume caller.ra then .ok ()
  else .error (.returnAddressNotAdmitted depth caller.func caller.ra)

/-- Checks the outermost caller first, and counts the callers. -/
def checkCallers : List Suspended → Except Violation Nat
  | [] => .ok 0
  | caller :: outer => do
      let depth ← checkCallers outer
      checkSuspended env choose depth caller
      .ok (depth + 1)

def checkState (s : State) : Except Violation Unit := do
  let _ ← checkCallers env choose s.stack.callers
  match s with
  | .running act pc _ _ =>
      let f ← env.internal act.func
      if pc ≤ f.code.size then .ok () else .error (.pointOutsideBody act.func (.atIndex pc))
  | .calling _ callee _ _ => env.checkCallee callee
  | .returned .. => .ok ()

/-- The interpreter of Frame-IR. -/
def semantics (calls : CallService) : Semantics State where
  enter := enter env
  step := step env calls choose
  atExternal? := atExternal? env
  resume? := resume? env
  returned? := returned?
  mem := State.mem
  depth s := s.stack.callers.length
  check := checkState env choose

end LateIR.Frame
