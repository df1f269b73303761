import LateIR.Value

/-!
What can go wrong around the interpreters: in building a program's environment
and memory, in entering a function, and in running to the end. A step itself has
no errors; a state without a successor is stuck.
-/

namespace LateIR

/-- A place in a function's code: an instruction of a basic block, or an index
into flat code. -/
inductive CodePoint where
  | inBlock (node index : Nat)
  | atIndex (index : Nat)
  deriving DecidableEq

def CodePoint.text : CodePoint → String
  | inBlock node index => "node " ++ toString node ++ " instr " ++ toString index
  | atIndex index => toString index

/-- What makes a state ill-formed, or a step between two states impossible. The
depth of a suspended caller counts from the outermost one. -/
inductive Violation where
  | notInternal (func : BlockId)
  | unknownCallee (callee : BlockId)
  /-- A function without calls is suspended. -/
  | leafCaller (depth : Nat) (func : BlockId)
  | pointOutsideBody (func : BlockId) (point : CodePoint)
  | resumeOutsideBody (depth : Nat) (func : BlockId) (resume : CodePoint)
  | resumeNotAfterCall (depth : Nat) (func : BlockId) (resume : CodePoint)
  | returnAddressNotAdmitted (depth : Nat) (func : BlockId) (address : Val)
  /-- The depth of the stack changed by more than one. -/
  | stackShape (before after : Nat)
  deriving DecidableEq

namespace Violation

/-- How messages name a suspended caller. -/
def frameText (depth : Nat) (func : BlockId) : String :=
  "Frame " ++ toString depth ++ " of " ++ blockText func

def message : Violation → String
  | notInternal func => "Block " ++ blockText func ++ " is not an internal function"
  | unknownCallee callee => "Callee block " ++ blockText callee ++ " holds no function"
  | leafCaller depth func =>
      "Leaf function " ++ blockText func ++ " suspended at depth " ++ toString depth
  | pointOutsideBody func point =>
      "Program point " ++ point.text ++ " is outside the body of " ++ blockText func
  | resumeOutsideBody depth func resume =>
      frameText depth func ++ " resumes outside its body at " ++ resume.text
  | resumeNotAfterCall depth func resume =>
      frameText depth func ++ " resumes at " ++ resume.text ++ ", which does not follow a call"
  | returnAddressNotAdmitted depth func address =>
      frameText depth func ++ " saved return address " ++ address.text ++
        " the chooser does not admit"
  | stackShape before after =>
      "Stack depth went from " ++ toString before ++ " to " ++ toString after ++ " in one step"

end Violation

/-- Why a memory cannot be built or used to start a program. -/
inductive MemoryFault where
  | cannotAllocate (name : String)
  | cannotInitialise (name : String) (ofs : Int)
  | globalNotAllocated (b : BlockId)
  | codeNotLive (b : BlockId)
  | danglingPointer
  | cannotAllocateEntry
  | cannotStoreArgument (word : Int)
  | cannotWriteEntryHeader
  deriving DecidableEq

def MemoryFault.message : MemoryFault → String
  | cannotAllocate name => "cannot allocate " ++ name
  | cannotInitialise name ofs => "cannot initialise " ++ name ++ " at offset " ++ toString ofs
  | globalNotAllocated b => "global block " ++ blockText b ++ " is not allocated"
  | codeNotLive b => "code block " ++ blockText b ++ " is not live"
  | danglingPointer => "memory holds a pointer to an unallocated block"
  | cannotAllocateEntry => "cannot allocate the entry frame"
  | cannotStoreArgument word => "cannot store argument at word " ++ toString word
  | cannotWriteEntryHeader => "cannot write the entry frame header"

inductive Error where
  | duplicateSymbol (name : String)
  | undefinedSymbol (name : String)
  | illFormedMemory (fault : MemoryFault)
  | notAFunction (v : Val)
  | arityMismatch (function : String) (expected got : Nat)
  | argumentType (function : String) (index : Nat) (value : Val) (expected : Typ)
  /-- A stack argument lies outside the outgoing area. -/
  | slotOutOfBounds (ofs limit : Int)
  | stuck (steps : Nat)
  /-- The outermost call returned, but not an integer. -/
  | invalidResult (value : Val)
  | stepLimit (limit : Nat)
  | invariantViolation (steps : Nat) (violation : Violation)
  | invalidOptions
  deriving DecidableEq

namespace Error

def message : Error → String
  | duplicateSymbol name => "Duplicate definition of symbol: " ++ name
  | undefinedSymbol name => "Undefined symbol: " ++ name
  | illFormedMemory fault => "Ill-formed initial memory: " ++ fault.message
  | notAFunction v => "Not a function: " ++ v.text
  | arityMismatch function expected got =>
      "Signature mismatch for " ++ function ++ ": expected " ++ toString expected ++
        " argument(s), got " ++ toString got
  | argumentType function index value expected =>
      "Argument " ++ toString index ++ " of " ++ function ++ ": " ++ value.text ++
        " does not have type " ++ expected.text
  | slotOutOfBounds ofs limit =>
      "Stack argument at word " ++ toString ofs ++ " exceeds the outgoing area bound of " ++
        toString limit ++ " words"
  | stuck steps => "Execution stuck after " ++ toString steps ++ " step(s)"
  | invalidResult value => "Program returned a non-integer result: " ++ value.text
  | stepLimit limit => "Step limit of " ++ toString limit ++ " reached"
  | invariantViolation steps violation =>
      "Invariant violated after " ++ toString steps ++ " step(s): " ++ violation.message
  | invalidOptions => "Invalid options"

/-- Whether the error comes up before the first step. -/
def isEntryError : Error → Bool
  | stuck _ | invalidResult _ | stepLimit _ | invariantViolation .. => false
  | _ => true

end Error

end LateIR
