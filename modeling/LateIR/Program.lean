import LateIR.Error
import LateIR.External
import LateIR.Symbols

/-!
Programs and their initial memory. Every definition owns the memory block with
its position in the program, counted from one; a function's block is one byte of
code, a variable's holds its initialisers one after the other.
-/

namespace LateIR

/-- What the rest of the library needs to know of a function body. -/
class FunctionBody (F : Type) where
  sig : F → Signature
  /-- Whether the body contains no call instruction. -/
  isLeaf : F → Bool

/-- A function with a body, or an external one. -/
inductive FunDef (F : Type) where
  | internal (f : F)
  | external (ef : ExternalFunction)

def FunDef.sig {F : Type} [FunctionBody F] : FunDef F → Signature
  | internal f => FunctionBody.sig f
  | external ef => ef.sig

/-- Initialiser of a part of a variable. -/
inductive InitData where
  | int8 (n : Int32)
  | int16 (n : Int32)
  | int32 (n : Int32)
  | int64 (n : Int64)
  | float32 (x : Binary32)
  | float64 (x : Binary64)
  /-- Zero bytes, none for a negative count. -/
  | space (n : Int)
  /-- Address of a definition plus an offset. -/
  | addrOf (symbol : String) (ofs : Int64)
  deriving DecidableEq

namespace InitData

/-- Size in bytes. -/
def size : InitData → Int
  | int8 _ => 1
  | int16 _ => 2
  | int32 _ | float32 _ => 4
  | int64 _ | float64 _ | addrOf .. => 8
  | space n => max n 0

/-- Sizes are added up to this one, `2 ^ 63 - 1`, and no further. -/
def maxSize : Int := 9223372036854775807

/-- The sum of the sizes. -/
def sumSizes : List InitData → Int
  | [] => 0
  | d :: rest => d.size + sumSizes rest

/-- Size of a variable with the given initialisers. -/
def totalSize (init : List InitData) : Int := min (sumSizes init) maxSize

/-- Writes the initialiser at its offset; a symbol without a block cannot be
written. -/
def store? (blockOf : Symbols) (b : BlockId) (ofs : Int) (m : Mem) : InitData → Option Mem
  | int8 n => m.store? .int8Unsigned b ofs (.int n)
  | int16 n => m.store? .int16Unsigned b ofs (.int n)
  | int32 n => m.store? .int32 b ofs (.int n)
  | int64 n => m.store? .int64 b ofs (.long n)
  | float32 x => m.store? .float32 b ofs (.single x)
  | float64 x => m.store? .float64 b ofs (.float x)
  | space n => m.storeBytes? b ofs (List.replicate n.toNat (.byte 0))
  | addrOf symbol delta => do
      let target ← blockOf symbol
      m.store? .int64 b ofs (.ptr target delta)

/-- Refuses an address of something undefined. -/
def check (blockOf : Symbols) : InitData → Except Error Unit
  | addrOf symbol _ =>
      if (blockOf symbol).isSome then .ok () else .error (.undefinedSymbol symbol)
  | _ => .ok ()

/-- Writes the initialisers of the variable `name` one after the other. -/
def storeAll (blockOf : Symbols) (name : String) (b : BlockId) :
    Int → List InitData → Mem → Except Error Mem
  | _, [], m => .ok m
  | ofs, d :: rest, m => do
      d.check blockOf
      match d.store? blockOf b ofs m with
      | some m => storeAll blockOf name b (ofs + d.size) rest m
      | none => .error (.illFormedMemory (.cannotInitialise name ofs))

end InitData

/-- A global definition. -/
inductive GlobalDef (F : Type) where
  | function (fd : FunDef F)
  | variable (init : List InitData)

/-- Allocates the block of a definition and fills it. -/
def GlobalDef.allocate {F : Type} (blockOf : Symbols) (name : String) (m : Mem) :
    GlobalDef F → Except Error Mem
  | function _ =>
      match m.alloc? 0 1 with
      | some (_, m) => .ok m
      | none => .error (.illFormedMemory (.cannotAllocate name))
  | «variable» init =>
      match m.alloc? 0 (InitData.totalSize init) with
      | some (b, m) => InitData.storeAll blockOf name b 0 init m
      | none => .error (.illFormedMemory (.cannotAllocate name))

/-- Named definitions, and the name of the function to start with. -/
structure Program (F : Type) where
  defs : List (String × GlobalDef F)
  main : String

/-- The first name of a list that occurs before, or among the names `seen`. -/
def repeated? (seen : List String) : List String → Option String
  | [] => none
  | name :: rest => if name ∈ seen then some name else repeated? (name :: seen) rest

theorem repeated?_eq_none {seen names : List String} :
    repeated? seen names = none ↔ names.Nodup ∧ ∀ n ∈ names, n ∉ seen := by
  induction names generalizing seen with
  | nil => simp [repeated?]
  | cons name rest ih =>
    by_cases h : name ∈ seen
    · simp [repeated?, h]
    · simp only [repeated?, h, if_false, ih, List.nodup_cons, List.mem_cons, not_or]
      grind

namespace Program

variable {F : Type} (p : Program F)

def names : List String := p.defs.map (·.1)

/-- The block of a name is its position, counted from one. -/
def blockOf : Symbols := fun name => (p.names.idxOf? name).map (· + 1)

/-- Refuses a second definition of a name. -/
def checkNames : Except Error Unit :=
  match repeated? [] p.names with
  | some name => .error (.duplicateSymbol name)
  | none => .ok ()

/-- Allocates the definitions from left to right. -/
def allocate (blockOf : Symbols) : List (String × GlobalDef F) → Mem → Except Error Mem
  | [], m => .ok m
  | (name, d) :: rest, m => do
      let m ← d.allocate blockOf name m
      allocate blockOf rest m

/-- The memory in which the program starts. -/
def initMem : Except Error Mem := do
  p.checkNames
  allocate p.blockOf p.defs .empty

end Program

end LateIR
