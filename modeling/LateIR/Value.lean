import LateIR.Typ
import LateIR.NumEq
import LateIR.Binary.Text

/-!
Run-time values. A register or a stack slot may hold any of them; `undefined` is an
ordinary value that operations accept and pass on.
-/

namespace LateIR

/-- Number of a memory block. -/
abbrev BlockId := Nat

/-- The text of a block number. -/
def blockText (b : BlockId) : String := "b" ++ toString b

/-- A run-time value. A pointer is a block and a byte offset in it. -/
inductive Val where
  | undefined
  | int (n : Int32)
  | long (n : Int64)
  | float (x : Binary64)
  | single (x : Binary32)
  | ptr (block : BlockId) (ofs : Int64)
  deriving DecidableEq

namespace Val

instance : Inhabited Val := ⟨undefined⟩

/-- The null pointer. -/
def null : Val := .long 0

def ofBool (b : Bool) : Val := .int (if b then 1 else 0)

def isDefined : Val → Bool
  | undefined => false
  | _ => true

/-- Whether the value may live in a location of the type. -/
def hasType : Val → Typ → Bool
  | undefined, _ => true
  | int _, .int | int _, .any32 | int _, .any64 => true
  | long _, .long | long _, .any64 => true
  | float _, .float | float _, .any64 => true
  | single _, .single | single _, .any32 | single _, .any64 => true
  | ptr .., .long | ptr .., .any64 => true
  | _, _ => false

/-- What an access of the given width makes of the value: integers are cut to
the width and a value of another kind is lost. -/
def loadResult : Chunk → Val → Val
  | .int8Signed, int n => int n.toInt8.toInt32
  | .int8Unsigned, int n => int n.toUInt32.toUInt8.toUInt32.toInt32
  | .int16Signed, int n => int n.toInt16.toInt32
  | .int16Unsigned, int n => int n.toUInt32.toUInt16.toUInt32.toInt32
  | .int32, int n => int n
  | .int64, long n => long n
  | .int64, ptr b ofs => ptr b ofs
  | .float32, single x => single x
  | .float64, float x => float x
  | .any32, int n => int n
  | .any32, single x => single x
  | .any64, v => v
  | _, _ => undefined

/-- Adds a byte offset to a pointer, modulo `2 ^ 64`. -/
def offsetPtr (v : Val) (delta : Int64) : Val :=
  match v with
  | ptr b ofs => ptr b (ofs + delta)
  | _ => undefined

/-- Equality with the numbers inside compared as numbers. -/
protected def numEq : Val → Val → Bool
  | undefined, undefined => true
  | int a, int b => a = b
  | long a, long b => a = b
  | float a, float b => a.numEq b
  | single a, single b => a.numEq b
  | ptr b o, ptr b' o' => b = b' ∧ o = o'
  | _, _ => false

instance : NumEq Val := ⟨Val.numEq⟩

def text : Val → String
  | undefined => "undef"
  | int n => toString n.toInt
  | long n => toString n.toInt ++ "L"
  | float x => x.text .plain
  | single x => x.text .plain ++ "f"
  | ptr b ofs => "&" ++ blockText b ++ "+" ++ toString ofs.toInt

/-- The texts of the values, separated by commas. -/
def listText (vs : List Val) : String := ", ".intercalate (vs.map text)

end Val

/-- Whether the values fit the argument types, one each. -/
def Signature.accepts (s : Signature) (args : List Val) : Bool :=
  args.length = s.args.length && (args.zip s.args).all fun (v, t) => v.hasType t

end LateIR
