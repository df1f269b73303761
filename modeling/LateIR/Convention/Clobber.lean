import LateIR.External
import LateIR.Location
import LateIR.Operation

/-!
The registers that instructions destroy besides their result.
-/

namespace LateIR

/-- Divisions go through a register pair, and a comparison through two scratch
registers. -/
def Operation.clobbers : Operation → List Reg
  | div | divUnsigned | mod | modUnsigned | divLong => [.ax, .dx]
  | cmp _ => [.ax, .cx]
  | _ => []

namespace Clobber

def load (_ : Chunk) (_ : Addressing) : List Reg := []

def store (_ : Chunk) (_ : Addressing) : List Reg := []

def branch (_ : Condition) : List Reg := []

def jumpTable : List Reg := [.ax, .dx]

/-- A parameter is read through the pointer to the caller's frame. -/
def getStack : SlotKind → List Reg
  | .incoming => [Reg.parentFrame]
  | _ => []

def setStack (_ : Typ) : List Reg := []

/-- A copy uses the registers of the string instructions. -/
def builtin : ExternalFunction → List Reg
  | .memcpy .. => [.cx, .si, .di]
  | _ => []

def functionEntry : List Reg := [.r10]

end Clobber

end LateIR
