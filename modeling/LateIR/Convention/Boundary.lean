import LateIR.Convention.Placement

/-!
What calls do to registers and location states. A callee sees the caller's
registers, and the caller's outgoing slots as its incoming ones; a caller gets
back its callee-saved registers and its slots, except the outgoing ones, and
finds the rest of the registers as the callee left them.
-/

namespace LateIR

/-- The callee-saved registers of the caller and the other ones of the callee. -/
def RegFile.afterReturn (caller callee : RegFile) : RegFile :=
  callerSaved.foldl (fun file r => file.set r (callee.get r)) caller

/-- The registers after an external call with the given result. -/
def RegFile.afterExternal (s : Signature) (result : Val) (file : RegFile) : RegFile :=
  file.clobberCallerSaved.set s.resultReg result

namespace LocState

/-- The state in which a callee starts. -/
def atCall (caller : LocState) : LocState :=
  ⟨caller.regs, caller.slots.rekind .outgoing .incoming⟩

/-- The state in which the caller goes on when the callee returns. -/
def afterReturn (caller callee : LocState) : LocState :=
  ⟨caller.regs.afterReturn callee.regs, caller.slots.filter fun e => e.kind ≠ .outgoing⟩

/-- The state after an external call with the given result. -/
def afterExternal (s : Signature) (result : Val) (caller : LocState) : LocState :=
  { caller with regs := caller.regs.afterExternal s result }

end LocState

end LateIR
