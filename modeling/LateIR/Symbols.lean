import LateIR.Value

/-!
Symbols of a program and the addresses that they stand for.
-/

namespace LateIR

/-- Where a program's symbols are: the block of each global. -/
abbrev Symbols := String → Option BlockId

/-- The address `ofs` bytes into a global. -/
def Symbols.address? (symbols : Symbols) (name : String) (ofs : Int64) : Option Val :=
  (symbols name).map fun b => .ptr b ofs

end LateIR
