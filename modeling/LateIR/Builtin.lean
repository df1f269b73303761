import LateIR.Location
import LateIR.Operation

/-!
Argument expressions and result places of built-in calls. What a base place is,
a location or a register, is a parameter.
-/

namespace LateIR

/-- Argument expression of a built-in call. -/
inductive BuiltinArg (L : Type) where
  | base (l : L)
  | int (n : Int32)
  | long (n : Int64)
  | float (x : Binary64)
  | single (x : Binary32)
  /-- A load from the current frame. -/
  | loadStack (chunk : Chunk) (ofs : Int64)
  /-- An address in the current frame. -/
  | addrStack (ofs : Int64)
  | loadGlobal (chunk : Chunk) (symbol : String) (ofs : Int64)
  | addrGlobal (symbol : String) (ofs : Int64)
  /-- The long with the given halves. -/
  | splitLong (high low : BuiltinArg L)
  /-- The sum of two addresses or longs. -/
  | addPtr (a b : BuiltinArg L)
  deriving DecidableEq

namespace BuiltinArg

variable {L : Type} (symbols : Symbols) (read : L → Val) (sp : Val) (mem : Mem)

/-- Has no value when a load fails or a symbol is unknown. -/
def eval? : BuiltinArg L → Option Val
  | base l => some (read l)
  | int n => some (.int n)
  | long n => some (.long n)
  | float x => some (.float x)
  | single x => some (.single x)
  | loadStack chunk ofs => mem.loadAt? chunk (sp.offsetPtr ofs)
  | addrStack ofs => some (sp.offsetPtr ofs)
  | loadGlobal chunk name ofs => (symbols.address? name ofs).bind (mem.loadAt? chunk)
  | addrGlobal name ofs => symbols.address? name ofs
  | splitLong high low => do
      let h ← high.eval?
      let l ← low.eval?
      some (h.longOfWords l)
  | addPtr a b => do
      let v ← a.eval?
      let w ← b.eval?
      some (v.addLong w)

def evalList? (args : List (BuiltinArg L)) : Option (List Val) :=
  args.mapM (eval? symbols read sp mem)

end BuiltinArg

/-- Where the result of a built-in call goes. -/
inductive BuiltinRes where
  | into (place : Split Reg)
  | nowhere
  deriving DecidableEq

/-- The register writes of a result, in order. -/
def BuiltinRes.writes (v : Val) : BuiltinRes → List (Reg × Val)
  | into place => place.writes v
  | nowhere => []

end LateIR
