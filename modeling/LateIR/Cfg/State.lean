import LateIR.Cfg.Function

/-!
States of Location-IR execution: running a function, about to call one, and
returned to the innermost suspended caller.
-/

namespace LateIR.Cfg

/-- Position in the running function. -/
inductive Point where
  /-- About to enter a block. -/
  | atNode (n : Node)
  /-- At an instruction of a block. -/
  | inBlock (n : Node) (index : Nat)
  deriving DecidableEq

def Point.text : Point → String
  | atNode n => "node " ++ toString n
  | inBlock n index => (CodePoint.inBlock n index).text

/-- A suspended caller, which goes on in block `node` at `index`, right after
its call. -/
structure Suspended where
  func : BlockId
  sp : Val
  locs : LocState
  node : Node
  index : Nat
  deriving DecidableEq

/-- Suspended callers, the innermost first. -/
abbrev CallStack := List Suspended

/-- The location state of the innermost caller. Outside the outermost one every
location is undefined. -/
def CallStack.callerLocs : CallStack → LocState
  | [] => .empty
  | caller :: _ => caller.locs

/-- The running function with its callers and its stack frame. -/
structure Activation where
  stack : CallStack
  func : BlockId
  sp : Val
  deriving DecidableEq

inductive State where
  | running (act : Activation) (point : Point) (locs : LocState) (mem : Mem)
  /-- About to enter `callee`; the locations are the caller's. -/
  | calling (stack : CallStack) (callee : BlockId) (locs : LocState) (mem : Mem)
  | returned (stack : CallStack) (locs : LocState) (mem : Mem)
  deriving DecidableEq

namespace State

def stack : State → CallStack
  | running act .. => act.stack
  | calling stack .. | returned stack .. => stack

def locs : State → LocState
  | running _ _ locs _ | calling _ _ locs _ | returned _ locs _ => locs

def mem : State → Mem
  | running _ _ _ mem | calling _ _ _ mem | returned _ _ mem => mem

end State

/-! ### Equality with floating-point words compared as numbers -/

instance : NumEq Suspended where
  numEq a b := a.func = b.func && numEq a.sp b.sp && numEq a.locs b.locs &&
    a.node = b.node && a.index = b.index

instance : NumEq Activation where
  numEq a b := numEq a.stack b.stack && a.func = b.func && numEq a.sp b.sp

instance : NumEq State where
  numEq
    | .running act point locs mem, .running act' point' locs' mem' =>
        numEq act act' && point = point' && numEq locs locs' && numEq mem mem'
    | .calling stack callee locs mem, .calling stack' callee' locs' mem' =>
        numEq stack stack' && callee = callee' && numEq locs locs' && numEq mem mem'
    | .returned stack locs mem, .returned stack' locs' mem' =>
        numEq stack stack' && numEq locs locs' && numEq mem mem'
    | _, _ => false

end LateIR.Cfg
