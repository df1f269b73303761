import LateIR.Convention.Placement
import LateIR.Program

/-!
The global environment of a program whose definitions have different names: its
symbols, and the functions behind its code pointers. A code pointer is the start
of a function's block.
-/

namespace LateIR

/-- A program without repeated names. -/
structure GlobalEnv (F : Type) where
  program : Program F
  distinct : program.names.Nodup

/-- What a call names: a code pointer in a register, or a symbol. -/
inductive Callee where
  | reg (r : Reg)
  | symbol (name : String)
  deriving DecidableEq

def Callee.text : Callee → String
  | reg r => "*" ++ r.text
  | symbol name => "\"" ++ name ++ "\""

namespace GlobalEnv

variable {F : Type}

def ofProgram (p : Program F) : Except Error (GlobalEnv F) :=
  match h : repeated? [] p.names with
  | some name => .error (.duplicateSymbol name)
  | none => .ok ⟨p, (repeated?_eq_none.1 h).1⟩

variable (env : GlobalEnv F)

/-- The block of each symbol. -/
def symbols : Symbols := env.program.blockOf

/-- The definition that owns a block. -/
def globalAt? : BlockId → Option (String × GlobalDef F)
  | 0 => none
  | b + 1 => env.program.defs[b]?

def nameOf? (b : BlockId) : Option String := (env.globalAt? b).map (·.1)

def functionAt? (b : BlockId) : Option (FunDef F) :=
  match env.globalAt? b with
  | some (_, .function fd) => some fd
  | _ => none

/-- The function that a code pointer designates. -/
def function? : Val → Option (BlockId × FunDef F)
  | .ptr b ofs => if ofs = 0 then (env.functionAt? b).map fun fd => (b, fd) else none
  | _ => none

def internalAt? (b : BlockId) : Option F :=
  match env.functionAt? b with
  | some (.internal f) => some f
  | _ => none

def externalAt? (b : BlockId) : Option ExternalFunction :=
  match env.functionAt? b with
  | some (.external ef) => some ef
  | _ => none

/-- The function with a body that a state runs or suspends. -/
def internal (b : BlockId) : Except Violation F :=
  match env.internalAt? b with
  | some f => .ok f
  | none => .error (.notInternal b)

/-- Refuses a callee whose block holds no function. -/
def checkCallee (b : BlockId) : Except Violation Unit :=
  if (env.functionAt? b).isSome then .ok () else .error (.unknownCallee b)

/-- The function that a call goes to, with the registers read by `get`. -/
def resolve? (get : Reg → Val) : Callee → Option (BlockId × FunDef F)
  | .reg r => env.function? (get r)
  | .symbol name => do
      let b ← env.symbols name
      let fd ← env.functionAt? b
      some (b, fd)

/-- The code pointer of the function to start with. -/
def mainPointer? : Option Val := env.symbols.address? env.program.main 0

/-- The number of the last definition's block, if there is one. -/
def lastBlock? : Option BlockId :=
  if env.program.defs.isEmpty then none else some env.program.defs.length

/-- The blocks that hold functions, in order. -/
def codeBlocks : List BlockId :=
  (List.range' 1 env.program.defs.length).filter fun b => (env.functionAt? b).isSome

/-- Whether the memory can have been built for this environment: every
definition's block is allocated, those of functions are live, and no stored
pointer dangles. -/
def checkMemory (m : Mem) : Except Error Unit :=
  match env.lastBlock?.filter (m.nextBlock ≤ ·) with
  | some last => .error (.illFormedMemory (.globalNotAllocated last))
  | none =>
      match env.codeBlocks.find? fun b => !m.isLive b with
      | some b => .error (.illFormedMemory (.codeNotLive b))
      | none => if m.noDangling then .ok () else .error (.illFormedMemory .danglingPointer)

/-- The block and signature of the function to enter, once memory, pointer and
arguments are in order. -/
def checkEntry [FunctionBody F] (m : Mem) (pointer : Val) (args : List Val) :
    Except Error (BlockId × Signature) := do
  env.checkMemory m
  match env.function? pointer with
  | some (b, fd) =>
      checkEntryArgs ((env.nameOf? b).getD "") fd.sig args
      .ok (b, fd.sig)
  | none => .error (.notAFunction pointer)

end GlobalEnv

end LateIR
