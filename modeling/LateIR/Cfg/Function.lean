import LateIR.Builtin
import LateIR.External
import LateIR.Program.GlobalEnv

/-!
Location-IR code: functions are control-flow graphs of basic blocks, and
instructions work on registers. Stack slots are locations too, reached through
`getStack` and `setStack` alone.
-/

namespace LateIR.Cfg

/-- Label of a basic block. -/
abbrev Node := Nat

/-- An instruction. A block ends with `branch`, `cond`, `jumpTable`, `tailCall`
or `ret`. -/
inductive Instr where
  | op (o : Operation) (args : List Reg) (dst : Reg)
  | load (chunk : Chunk) (addr : Addressing) (args : List Reg) (dst : Reg)
  | getStack (kind : SlotKind) (ofs : Int) (typ : Typ) (dst : Reg)
  | setStack (src : Reg) (kind : SlotKind) (ofs : Int) (typ : Typ)
  | store (chunk : Chunk) (addr : Addressing) (args : List Reg) (src : Reg)
  | call (sig : Signature) (callee : Callee)
  | tailCall (sig : Signature) (callee : Callee)
  | builtin (ef : ExternalFunction) (args : List (BuiltinArg Loc)) (res : BuiltinRes)
  | branch (target : Node)
  | cond (c : Condition) (args : List Reg) (ifSo ifNot : Node)
  /-- Goes to the target with the unsigned number in the register. -/
  | jumpTable (r : Reg) (targets : List Node)
  | ret
  deriving DecidableEq

namespace Instr

def isCall : Instr → Bool
  | call .. => true
  | _ => false

/-- The blocks that control can go to from the end of a block. -/
def successors : Instr → List Node
  | branch n => [n]
  | cond _ _ ifSo ifNot => [ifSo, ifNot]
  | jumpTable _ targets => targets
  | _ => []

def text : Instr → String
  | op o args dst => dst.text ++ " = " ++ o.text ++ "(" ++ Reg.listText args ++ ")"
  | load chunk addr args dst =>
      dst.text ++ " = " ++ chunk.text ++ "[" ++ addr.text ++ "(" ++ Reg.listText args ++ ")]"
  | getStack kind ofs t dst => dst.text ++ " = " ++ (Loc.slot kind ofs t).text
  | setStack src kind ofs t => (Loc.slot kind ofs t).text ++ " = " ++ src.text
  | store chunk addr args src =>
      chunk.text ++ "[" ++ addr.text ++ "(" ++ Reg.listText args ++ ")] = " ++ src.text
  | call sig callee => "call " ++ callee.text ++ " : " ++ sig.text
  | tailCall sig callee => "tailcall " ++ callee.text ++ " : " ++ sig.text
  | builtin ef args _ => "builtin " ++ ef.name ++ " (" ++ toString args.length ++ " args)"
  | branch n => "goto " ++ toString n
  | cond c args ifSo ifNot =>
      "if " ++ c.text ++ "(" ++ Reg.listText args ++ ") goto " ++ toString ifSo ++
        " else goto " ++ toString ifNot
  | jumpTable r targets =>
      "jumptable " ++ r.text ++ " [" ++ ", ".intercalate (targets.map toString) ++ "]"
  | ret => "return"

end Instr

/-- A function. Of two blocks with one label the first counts. -/
structure Function where
  sig : Signature
  /-- Bytes of stack that the function allocates at its entry. -/
  stackSize : Int
  code : List (Node × Array Instr)
  entry : Node
  deriving DecidableEq

namespace Function

def block? (f : Function) (n : Node) : Option (Array Instr) := f.code.lookup n

/-- Whether no block contains a call. -/
def isLeaf (f : Function) : Bool := !f.code.any fun (_, block) => block.any Instr.isCall

instance : FunctionBody Function := ⟨Function.sig, isLeaf⟩

end Function

/-- The global environment of a Location-IR program. -/
abbrev Env := GlobalEnv Function

end LateIR.Cfg
