import LateIR.Builtin
import LateIR.External
import LateIR.Program.GlobalEnv

/-!
Frame-IR code: functions are flat lists of instructions with labels, and stack
slots are bytes of the function's frame. The frame's header holds the caller's
stack pointer, the link, and the return address.
-/

namespace LateIR.Frame

/-- Target of a jump inside a function. -/
abbrev Label := Nat

/-- An instruction. Stack offsets are in bytes from the stack pointer. -/
inductive Instr where
  | getStack (ofs : Int64) (typ : Typ) (dst : Reg)
  | setStack (src : Reg) (ofs : Int64) (typ : Typ)
  /-- Reads the caller's frame, found through the link. -/
  | getParam (ofs : Int64) (typ : Typ) (dst : Reg)
  | op (o : Operation) (args : List Reg) (dst : Reg)
  | load (chunk : Chunk) (addr : Addressing) (args : List Reg) (dst : Reg)
  | store (chunk : Chunk) (addr : Addressing) (args : List Reg) (src : Reg)
  | call (sig : Signature) (callee : Callee)
  | tailCall (sig : Signature) (callee : Callee)
  | builtin (ef : ExternalFunction) (args : List (BuiltinArg Reg)) (res : BuiltinRes)
  | label (l : Label)
  | goto (l : Label)
  /-- Goes to the label when the condition holds, and on otherwise. -/
  | cond (c : Condition) (args : List Reg) (l : Label)
  /-- Goes to the label with the unsigned number in the register. -/
  | jumpTable (r : Reg) (labels : List Label)
  | ret
  deriving DecidableEq

namespace Instr

def isCall : Instr → Bool
  | call .. => true
  | _ => false

def text : Instr → String
  | getStack ofs t dst => dst.text ++ " = " ++ t.text ++ "[sp + " ++ toString ofs.toInt ++ "]"
  | setStack src ofs t => t.text ++ "[sp + " ++ toString ofs.toInt ++ "] = " ++ src.text
  | getParam ofs t dst =>
      dst.text ++ " = " ++ t.text ++ "[parent + " ++ toString ofs.toInt ++ "]"
  | op o args dst => dst.text ++ " = " ++ o.text ++ "(" ++ Reg.listText args ++ ")"
  | load chunk addr args dst =>
      dst.text ++ " = " ++ chunk.text ++ "[" ++ addr.text ++ "(" ++ Reg.listText args ++ ")]"
  | store chunk addr args src =>
      chunk.text ++ "[" ++ addr.text ++ "(" ++ Reg.listText args ++ ")] = " ++ src.text
  | call sig callee => "call " ++ callee.text ++ " : " ++ sig.text
  | tailCall sig callee => "tailcall " ++ callee.text ++ " : " ++ sig.text
  | builtin ef args _ => "builtin " ++ ef.name ++ " (" ++ toString args.length ++ " args)"
  | label l => toString l ++ ":"
  | goto l => "goto " ++ toString l
  | cond c args l =>
      "if " ++ c.text ++ "(" ++ Reg.listText args ++ ") goto " ++ toString l
  | jumpTable r labels =>
      "jumptable " ++ r.text ++ " [" ++ ", ".intercalate (labels.map toString) ++ "]"
  | ret => "return"

end Instr

/-- A function. Its frame has `stackSize` bytes and two header slots of eight
bytes each. -/
structure Function where
  sig : Signature
  code : Array Instr
  stackSize : Int
  linkOfs : Int64
  retAddrOfs : Int64
  deriving DecidableEq

namespace Function

/-- The index right after the first occurrence of a label. -/
def labelIndex? (f : Function) (l : Label) : Option Nat :=
  (f.code.findIdx? (· = .label l)).map (· + 1)

/-- Whether the code contains no call. -/
def isLeaf (f : Function) : Bool := !f.code.any Instr.isCall

instance : FunctionBody Function := ⟨Function.sig, isLeaf⟩

end Function

/-- The global environment of a Frame-IR program. -/
abbrev Env := GlobalEnv Function

/-- Chooses the return address of a call: the offset in the block of the calling
function that stands for going on at an index of its code. A call without one is
stuck. -/
abbrev ReturnAddresses := BlockId → Function → Nat → Option Int64

namespace ReturnAddresses

/-- The offset is the index itself. -/
def position : ReturnAddresses := fun _ f resume =>
  if resume ≤ f.code.size then some (.ofNat resume) else none

/-- The offset is looked up by block and index; the first entry counts. -/
def table (sites : List ((BlockId × Nat) × Int64)) : ReturnAddresses := fun func _ resume =>
  sites.lookup (func, resume)

/-- Whether the offset is the return address chosen for the call. -/
def admits (choose : ReturnAddresses) (func : BlockId) (f : Function) (resume : Nat)
    (ofs : Int64) : Bool :=
  choose func f resume = some ofs

end ReturnAddresses

end LateIR.Frame
