/-!
Types of locations, widths of memory accesses and function signatures.
-/

namespace LateIR

/-- Type of a location, an argument or a result. Pointers are `long`. -/
inductive Typ where
  | int
  | float
  | long
  | single
  | any32
  | any64
  deriving DecidableEq

namespace Typ

/-- The type of pointers. -/
def pointer : Typ := .long

/-- Size in bytes. -/
def size : Typ → Nat
  | int | single | any32 => 4
  | float | long | any64 => 8

/-- Size in four-byte stack words, the unit of slot offsets. -/
def words (t : Typ) : Nat := t.size / 4

/-- Whether values of the type travel in floating-point registers. -/
def isFloat : Typ → Bool
  | float | single => true
  | _ => false

def text : Typ → String
  | int => "Int"
  | float => "Float"
  | long => "Long"
  | single => "Single"
  | any32 => "Any32"
  | any64 => "Any64"

end Typ

/-- Width and signedness of a memory access. -/
inductive Chunk where
  | int8Signed
  | int8Unsigned
  | int16Signed
  | int16Unsigned
  | int32
  | int64
  | float32
  | float64
  | any32
  | any64
  deriving DecidableEq

namespace Chunk

/-- Number of bytes accessed. -/
def size : Chunk → Nat
  | int8Signed | int8Unsigned => 1
  | int16Signed | int16Unsigned => 2
  | int32 | float32 | any32 => 4
  | int64 | float64 | any64 => 8

/-- An access starts at a multiple of its own size. -/
def align (c : Chunk) : Nat := c.size

/-- Type of the value that a load produces. -/
def typ : Chunk → Typ
  | int8Signed | int8Unsigned | int16Signed | int16Unsigned | int32 => .int
  | int64 => .long
  | float32 => .single
  | float64 => .float
  | any32 => .any32
  | any64 => .any64

/-- The access that spills and reloads a location of type `t`. -/
def ofTyp : Typ → Chunk
  | .int => int32
  | .float => float64
  | .long => int64
  | .single => float32
  | .any32 => any32
  | .any64 => any64

def text : Chunk → String
  | int8Signed => "Int8Signed"
  | int8Unsigned => "Int8Unsigned"
  | int16Signed => "Int16Signed"
  | int16Unsigned => "Int16Unsigned"
  | int32 => "Int32"
  | int64 => "Int64"
  | float32 => "Float32"
  | float64 => "Float64"
  | any32 => "Any32"
  | any64 => "Any64"

end Chunk

/-- Calling-convention tag of a signature. -/
inductive CallConv where
  | standard
  /-- Variadic, with the given number of fixed arguments. -/
  | variadic (fixed : Nat)
  deriving DecidableEq

/-- A function signature. No result type means no result. -/
structure Signature where
  args : List Typ
  res : Option Typ
  conv : CallConv
  deriving DecidableEq

namespace Signature

/-- The signature of the program entry point: no arguments and an integer. -/
def main : Signature := ⟨[], some .int, .standard⟩

def text (s : Signature) : String :=
  "(" ++ ", ".intercalate (s.args.map Typ.text) ++ ") -> " ++ (s.res.map Typ.text).getD "void"

end Signature

end LateIR
