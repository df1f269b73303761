import LateIR.Cfg.Step
import LateIR.Semantics

/-!
Well-formed Location-IR states, and the interpreter as a whole. Every suspended
caller is a function with a body that contains calls, and goes on right after
one of them; the running function's point is inside its body. Being about to
enter a missing block is stuck, not ill-formed.
-/

namespace LateIR.Cfg

variable (env : Env)

/-- Refuses a suspended caller with `depth` callers outside it. -/
def checkSuspended (depth : Nat) (caller : Suspended) : Except Violation Unit := do
  let f ← env.internal caller.func
  let resume := CodePoint.inBlock caller.node caller.index
  if f.isLeaf then .error (.leafCaller depth caller.func)
  else match (f.block? caller.node).filter fun block => caller.index ≤ block.size with
    | none => .error (.resumeOutsideBody depth caller.func resume)
    | some block =>
        if 0 < caller.index ∧ block[caller.index - 1]?.any Instr.isCall then .ok ()
        else .error (.resumeNotAfterCall depth caller.func resume)

/-- Checks the outermost caller first, and counts the callers. -/
def checkStack : CallStack → Except Violation Nat
  | [] => .ok 0
  | caller :: outer => do
      let depth ← checkStack outer
      checkSuspended env depth caller
      .ok (depth + 1)

def checkState (s : State) : Except Violation Unit := do
  let _ ← checkStack env s.stack
  match s with
  | .running act (.atNode _) _ _ =>
      let _ ← env.internal act.func
      .ok ()
  | .running act (.inBlock n index) _ _ =>
      let f ← env.internal act.func
      if (f.block? n).any fun block => index ≤ block.size then .ok ()
      else .error (.pointOutsideBody act.func (.inBlock n index))
  | .calling _ callee _ _ => env.checkCallee callee
  | .returned .. => .ok ()

/-- The interpreter of Location-IR. -/
def semantics (calls : CallService) : Semantics State where
  enter := enter env
  step := step env calls
  atExternal? := atExternal? env
  resume? := resume? env
  returned? := returned?
  mem := State.mem
  depth s := s.stack.length
  check := checkState env

end LateIR.Cfg
