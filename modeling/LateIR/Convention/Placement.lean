import LateIR.Error
import LateIR.Location.State
import LateIR.Memory

/-!
Where arguments and results travel. Integers and pointers take the integer
argument registers in order and floating-point numbers the floating-point ones;
an argument that finds its registers taken goes to the next two-word slot of the
outgoing area.
-/

namespace LateIR

/-- The argument registers still free and the next free word of the outgoing
area. -/
structure ArgCursor where
  ints : List Reg
  floats : List Reg
  word : Int

namespace ArgCursor

/-- Everything free. -/
def start : ArgCursor := ⟨Reg.intParams, Reg.floatParams, 0⟩

/-- The location of the next argument, and what is free after it. -/
def take (c : ArgCursor) (t : Typ) : Loc × ArgCursor :=
  match t.isFloat, c.ints, c.floats with
  | true, _, r :: rest => (.reg r, { c with floats := rest })
  | false, r :: rest, _ => (.reg r, { c with ints := rest })
  | _, _, _ => (.slot .outgoing c.word t, { c with word := c.word + 2 })

def place (c : ArgCursor) : List Typ → List Loc × ArgCursor
  | [] => ([], c)
  | t :: rest =>
      let (l, c) := c.take t
      let (ls, c) := c.place rest
      (l :: ls, c)

end ArgCursor

namespace Signature

/-- The location of each argument. -/
def argLocs (s : Signature) : List Loc := (ArgCursor.start.place s.args).1

/-- Words of the outgoing area that the arguments take. -/
def argWords (s : Signature) : Int := (ArgCursor.start.place s.args).2.word

/-- The register that holds the result. -/
def resultReg (s : Signature) : Reg :=
  match s.res with
  | some .float | some .single => .x0
  | _ => .ax

end Signature

/-! ### The outgoing area -/

/-- Bound on the outgoing area, in words. -/
def maxOutgoingWords : Int := 4096

/-- Offset of an argument slot from the stack pointer, in bytes. -/
def slotByteOffset (word : Int) : Int := 4 * word

/-- Refuses a stack argument outside the outgoing area. -/
def Loc.checkOutgoing : Loc → Except Error Unit
  | .reg _ => .ok ()
  | .slot _ ofs t =>
      if ofs < 0 ∨ maxOutgoingWords < ofs + t.words then
        .error (.slotOutOfBounds ofs maxOutgoingWords)
      else .ok ()

/-! ### Arguments in a location state -/

namespace LocState

/-- Puts each value into its location, which must not leave the outgoing area. -/
def placeArgs (ls : LocState) : List (Loc × Val) → Except Error LocState
  | [] => .ok ls
  | (l, v) :: rest => do
      l.checkOutgoing
      (ls.set l v).placeArgs rest

/-- The location state of an outermost caller that passes the arguments. -/
def ofArgs (s : Signature) (args : List Val) : Except Error LocState :=
  empty.placeArgs (s.argLocs.zip args)

/-- The arguments that a caller in this state passes. -/
def args (ls : LocState) (s : Signature) : List Val := s.argLocs.map ls.get

end LocState

/-! ### Arguments in registers and a stack frame -/

namespace Mem

/-- Reads a value of type `t` at `sp + ofs`. -/
def loadStack? (m : Mem) (sp : Val) (t : Typ) (ofs : Int64) : Option Val :=
  m.loadAt? (.ofTyp t) (sp.offsetPtr ofs)

/-- Writes a value with type `t` at `sp + ofs`. -/
def storeStack? (m : Mem) (sp : Val) (t : Typ) (ofs : Int64) (v : Val) : Option Mem :=
  m.storeAt? (.ofTyp t) (sp.offsetPtr ofs) v

/-- Frees the frame of the given size that `sp` is the start of. -/
def freeFrame? (m : Mem) (sp : Val) (size : Int) : Option Mem :=
  match sp with
  | .ptr b ofs => if ofs = 0 then m.free? b 0 size else none
  | _ => none

end Mem

/-- The argument at a location, for a caller with these registers and the given
stack pointer. -/
def frameArg? (regs : RegFile) (m : Mem) (callerSp : Val) : Loc → Option Val
  | .reg r => some (regs.get r)
  | .slot .outgoing ofs t => m.loadStack? callerSp t (.ofInt (slotByteOffset ofs))
  | .slot .. => none

/-- The arguments that a caller with these registers and the given stack pointer
passes. -/
def frameArgs? (regs : RegFile) (m : Mem) (callerSp : Val) (s : Signature) :
    Option (List Val) :=
  s.argLocs.mapM (frameArg? regs m callerSp)

/-! ### Checks at the entry point -/

/-- Whether each value has its type, the first ones at position `index`. -/
def checkArgTypes (function : String) (index : Nat) : List (Val × Typ) → Except Error Unit
  | [] => .ok ()
  | (v, t) :: rest =>
      if v.hasType t then checkArgTypes function (index + 1) rest
      else .error (.argumentType function index v t)

/-- Refuses arguments that the signature does not accept. -/
def checkEntryArgs (function : String) (s : Signature) (args : List Val) : Except Error Unit :=
  if args.length = s.args.length then checkArgTypes function 0 (args.zip s.args)
  else .error (.arityMismatch function s.args.length args.length)

end LateIR
