import LateIR.Frame.Function

/-!
States of Frame-IR execution: running a function, about to call one, and
returned to the innermost suspended caller.
-/

namespace LateIR.Frame

/-- A suspended caller: its frame, the return address of its call, and the index
right after the call. -/
structure Suspended where
  func : BlockId
  sp : Val
  ra : Val
  resume : Nat
  deriving DecidableEq

/-- Stack pointer and return address of the outermost caller. -/
structure EntryFrame where
  sp : Val
  ra : Val
  deriving DecidableEq

/-- Suspended callers, the innermost first, inside the outermost caller. -/
structure CallStack where
  callers : List Suspended
  entry : EntryFrame
  deriving DecidableEq

namespace CallStack

/-- Stack pointer of the innermost caller. -/
def callerSp (stack : CallStack) : Val :=
  match stack.callers with
  | [] => stack.entry.sp
  | caller :: _ => caller.sp

/-- Return address into the innermost caller. -/
def callerRa (stack : CallStack) : Val :=
  match stack.callers with
  | [] => stack.entry.ra
  | caller :: _ => caller.ra

def push (caller : Suspended) (stack : CallStack) : CallStack :=
  { stack with callers := caller :: stack.callers }

end CallStack

/-- The running function with its callers and its stack frame. -/
structure Activation where
  stack : CallStack
  func : BlockId
  sp : Val
  deriving DecidableEq

inductive State where
  /-- At index `pc` of the running function's code. -/
  | running (act : Activation) (pc : Nat) (regs : RegFile) (mem : Mem)
  | calling (stack : CallStack) (callee : BlockId) (regs : RegFile) (mem : Mem)
  | returned (stack : CallStack) (regs : RegFile) (mem : Mem)
  deriving DecidableEq

namespace State

def stack : State → CallStack
  | running act .. => act.stack
  | calling stack .. | returned stack .. => stack

def regs : State → RegFile
  | running _ _ regs _ | calling _ _ regs _ | returned _ regs _ => regs

def mem : State → Mem
  | running _ _ _ mem | calling _ _ _ mem | returned _ _ mem => mem

end State

/-! ### Equality with floating-point words compared as numbers -/

instance : NumEq Suspended where
  numEq a b := a.func = b.func && numEq a.sp b.sp && numEq a.ra b.ra && a.resume = b.resume

instance : NumEq EntryFrame where
  numEq a b := numEq a.sp b.sp && numEq a.ra b.ra

instance : NumEq CallStack where
  numEq a b := numEq a.callers b.callers && numEq a.entry b.entry

instance : NumEq Activation where
  numEq a b := numEq a.stack b.stack && a.func = b.func && numEq a.sp b.sp

instance : NumEq State where
  numEq
    | .running act pc regs mem, .running act' pc' regs' mem' =>
        numEq act act' && pc = pc' && numEq regs regs' && numEq mem mem'
    | .calling stack callee regs mem, .calling stack' callee' regs' mem' =>
        numEq stack stack' && callee = callee' && numEq regs regs' && numEq mem mem'
    | .returned stack regs mem, .returned stack' regs' mem' =>
        numEq stack stack' && numEq regs regs' && numEq mem mem'
    | _, _ => false

end LateIR.Frame
