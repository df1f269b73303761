import LateIR.Memory
import LateIR.Symbols
import LateIR.Text.Quoted
import LateIR.Value.Arith
import LateIR.Value.Compare

/-!
Operators, conditions and addressing modes with their evaluation. Memory is read
only to decide whether a compared pointer is valid. Evaluation has no result when
the number of arguments is wrong, and for the few operators that can fail.
-/

namespace LateIR

/-- Condition tested by branches and by `Operation.cmp`. The forms with `imm`
compare their argument with an immediate operand. -/
inductive Condition where
  | int (c : Comparison)
  | intImm (c : Comparison) (n : Int32)
  | intUnsigned (c : Comparison)
  | intUnsignedImm (c : Comparison) (n : UInt32)
  | long (c : Comparison)
  | longImm (c : Comparison) (n : Int64)
  /-- Also compares pointers. -/
  | longUnsigned (c : Comparison)
  | float (c : Comparison)
  /-- The negation of `float`, true of unordered operands. -/
  | notFloat (c : Comparison)
  deriving DecidableEq

namespace Condition

/-- Number of arguments. -/
def arity : Condition → Nat
  | intImm .. | intUnsignedImm .. | longImm .. => 1
  | _ => 2

def eval? (mem : Mem) : Condition → List Val → Option Bool
  | int c, [a, b] => Val.compareInt? c a b
  | intImm c n, [a] => Val.compareInt? c a (.int n)
  | intUnsigned c, [a, b] => Val.compareIntUnsigned? c a b
  | intUnsignedImm c n, [a] => Val.compareIntUnsigned? c a (.int n.toInt32)
  | long c, [a, b] => Val.compareLong? c a b
  | longImm c n, [a] => Val.compareLong? c a (.long n)
  | longUnsigned c, [a, b] => Val.compareLongUnsigned? mem.validPointer c a b
  | float c, [a, b] => Val.compareFloat? c a b
  | notFloat c, [a, b] => (Val.compareFloat? c a b).map not
  | _, _ => none

def text : Condition → String
  | int c => "Comp(" ++ c.text ++ ")"
  | intImm c n => "CompImm(" ++ c.text ++ ", " ++ toString n.toInt ++ ")"
  | intUnsigned c => "CompU(" ++ c.text ++ ")"
  | intUnsignedImm c n => "CompUImm(" ++ c.text ++ ", " ++ toString n.toNat ++ ")"
  | long c => "CompL(" ++ c.text ++ ")"
  | longImm c n => "CompLImm(" ++ c.text ++ ", " ++ toString n.toInt ++ ")"
  | longUnsigned c => "CompLU(" ++ c.text ++ ")"
  | float c => "CompF(" ++ c.text ++ ")"
  | notFloat c => "NotCompF(" ++ c.text ++ ")"

end Condition

/-- Addressing mode of loads and stores. -/
inductive Addressing where
  /-- The argument plus an offset. -/
  | indexed (ofs : Int64)
  /-- The sum of two arguments plus an offset. -/
  | indexed2 (ofs : Int64)
  | global (symbol : String) (ofs : Int64)
  /-- An offset into the current stack frame. -/
  | stack (ofs : Int64)
  deriving DecidableEq

namespace Addressing

/-- Number of arguments. -/
def arity : Addressing → Nat
  | indexed _ => 1
  | indexed2 _ => 2
  | global .. | stack _ => 0

def eval? (symbols : Symbols) (sp : Val) : Addressing → List Val → Option Val
  | indexed ofs, [base] => some (base.addLong (.long ofs))
  | indexed2 ofs, [base, index] => some ((base.addLong index).addLong (.long ofs))
  | global name ofs, [] => symbols.address? name ofs
  | stack ofs, [] => some (sp.offsetPtr ofs)
  | _, _ => none

def text : Addressing → String
  | indexed ofs => "Indexed(" ++ toString ofs.toInt ++ ")"
  | indexed2 ofs => "Indexed2(" ++ toString ofs.toInt ++ ")"
  | global name ofs => "Global(" ++ Quoted.encode name ++ ", " ++ toString ofs.toInt ++ ")"
  | stack ofs => "Instack(" ++ toString ofs.toInt ++ ")"

end Addressing

/-- An operator on register contents. -/
inductive Operation where
  | move
  | intConst (n : Int32)
  | longConst (n : Int64)
  | floatConst (x : Binary64)
  | singleConst (x : Binary32)
  | addrSymbol (symbol : String) (ofs : Int64)
  | addrStack (ofs : Int64)
  /-- Address computation without an access. -/
  | lea (addr : Addressing)
  | add
  | addImm (n : Int32)
  | sub
  | mul
  | div
  | divUnsigned
  | mod
  | modUnsigned
  | and
  | or
  | xor
  | shl
  | shr
  | neg
  | addLong
  | addLongImm (n : Int64)
  | subLong
  | mulLong
  | divLong
  | negLong
  | addFloat
  | subFloat
  | mulFloat
  | divFloat
  | negFloat
  | intOfLong
  | longOfInt
  | floatOfInt
  | intOfFloat
  /-- The truth of a condition, unspecified when the condition is undecided. -/
  | cmp (cond : Condition)
  deriving DecidableEq

namespace Operation

/-- Whether the operator only copies its argument. -/
def isMove : Operation → Bool
  | move => true
  | _ => false

def eval? (symbols : Symbols) (sp : Val) (mem : Mem) : Operation → List Val → Option Val
  | move, [a] => some a
  | intConst n, [] => some (.int n)
  | longConst n, [] => some (.long n)
  | floatConst x, [] => some (.float x)
  | singleConst x, [] => some (.single x)
  | addrSymbol name ofs, [] => symbols.address? name ofs
  | addrStack ofs, [] => some (sp.offsetPtr ofs)
  | lea addr, args => addr.eval? symbols sp args
  | add, [a, b] => some (a.add b)
  | addImm n, [a] => some (a.add (.int n))
  | sub, [a, b] => some (a.sub b)
  | mul, [a, b] => some (a.mul b)
  | div, [a, b] => a.div? b
  | divUnsigned, [a, b] => a.divUnsigned? b
  | mod, [a, b] => a.mod? b
  | modUnsigned, [a, b] => a.modUnsigned? b
  | and, [a, b] => some (a.and b)
  | or, [a, b] => some (a.or b)
  | xor, [a, b] => some (a.xor b)
  | shl, [a, b] => some (a.shl b)
  | shr, [a, b] => some (a.shr b)
  | neg, [a] => some a.neg
  | addLong, [a, b] => some (a.addLong b)
  | addLongImm n, [a] => some (a.addLong (.long n))
  | subLong, [a, b] => some (a.subLong b)
  | mulLong, [a, b] => some (a.mulLong b)
  | divLong, [a, b] => a.divLong? b
  | negLong, [a] => some a.negLong
  | addFloat, [a, b] => some (a.addFloat b)
  | subFloat, [a, b] => some (a.subFloat b)
  | mulFloat, [a, b] => some (a.mulFloat b)
  | divFloat, [a, b] => some (a.divFloat b)
  | negFloat, [a] => some a.negFloat
  | intOfLong, [a] => some a.intOfLong
  | longOfInt, [a] => some a.longOfInt
  | floatOfInt, [a] => some a.floatOfInt
  | intOfFloat, [a] => a.intOfFloat?
  | cmp cond, args =>
      match cond.eval? mem args with
      | some b => some (.ofBool b)
      | none => if args.length = cond.arity then some .undefined else none
  | _, _ => none

def text : Operation → String
  | move => "Move"
  | intConst n => "IntConst(" ++ toString n.toInt ++ ")"
  | longConst n => "LongConst(" ++ toString n.toInt ++ ")"
  | floatConst x => "FloatConst(" ++ x.text .constant ++ ")"
  | singleConst x => "SingleConst(" ++ x.text .constant ++ ")"
  | addrSymbol name ofs =>
      "AddrSymbol(" ++ Quoted.encode name ++ ", " ++ toString ofs.toInt ++ ")"
  | addrStack ofs => "AddrStack(" ++ toString ofs.toInt ++ ")"
  | lea addr => "Lea(" ++ addr.text ++ ")"
  | add => "Add"
  | addImm n => "AddImm(" ++ toString n.toInt ++ ")"
  | sub => "Sub"
  | mul => "Mul"
  | div => "Div"
  | divUnsigned => "DivU"
  | mod => "Mod"
  | modUnsigned => "ModU"
  | and => "And"
  | or => "Or"
  | xor => "Xor"
  | shl => "Shl"
  | shr => "Shr"
  | neg => "Neg"
  | addLong => "AddL"
  | addLongImm n => "AddLImm(" ++ toString n.toInt ++ ")"
  | subLong => "SubL"
  | mulLong => "MulL"
  | divLong => "DivL"
  | negLong => "NegL"
  | addFloat => "AddF"
  | subFloat => "SubF"
  | mulFloat => "MulF"
  | divFloat => "DivF"
  | negFloat => "NegF"
  | intOfLong => "IntOfLong"
  | longOfInt => "LongOfInt"
  | floatOfInt => "FloatOfInt"
  | intOfFloat => "IntOfFloat"
  | cmp cond => "Cmp(" ++ cond.text ++ ")"

end Operation

end LateIR
