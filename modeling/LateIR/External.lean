import LateIR.Memory

/-!
Calls that leave the program: what is called, the events a call shows to the
outside, and the service that performs it. The interpreters take the service as
a parameter and know nothing else about it.
-/

namespace LateIR

/-- What an external call or a built-in does. -/
inductive ExternalFunction where
  /-- A function outside the program; its calls are events. -/
  | external (name : String) (sig : Signature)
  /-- A compiler intrinsic, which leaves no event. -/
  | builtin (name : String) (sig : Signature)
  /-- Heap allocation behind a size header. -/
  | malloc
  /-- Release of a block that `malloc` returned. -/
  | free
  /-- Copy of `size` bytes between addresses aligned to `align`. -/
  | memcpy (size align : Int)
  /-- Source annotation; reaching it is an event. -/
  | annot (text : String) (types : List Typ)
  /-- Debug information, without effect. -/
  | debug
  deriving DecidableEq

namespace ExternalFunction

def sig : ExternalFunction → Signature
  | external _ sig | builtin _ sig => sig
  | malloc => ⟨[.pointer], some .pointer, .standard⟩
  | free => ⟨[.pointer], none, .standard⟩
  | memcpy .. => ⟨[.pointer, .pointer], none, .standard⟩
  | annot _ types => ⟨types, none, .standard⟩
  | debug => ⟨[], none, .standard⟩

def name : ExternalFunction → String
  | external name _ | builtin name _ => name
  | malloc => "malloc"
  | free => "free"
  | memcpy .. => "memcpy"
  | annot .. => "annot"
  | debug => "debug"

end ExternalFunction

/-- An observable event. -/
inductive Event where
  | syscall (name : String) (args : List Val) (result : Val)
  | annot (text : String) (args : List Val)
  deriving DecidableEq

def Event.text : Event → String
  | syscall name args result => name ++ "(" ++ Val.listText args ++ ") = " ++ result.text
  | annot text args => "annot \"" ++ text ++ "\" [" ++ Val.listText args ++ "]"

/-- Events in the order in which they happen. -/
abbrev Trace := List Event

/-- What a call leaves behind. -/
structure CallOutcome where
  trace : Trace
  result : Val
  mem : Mem

/-- Performs a call with the given arguments in the given memory, or refuses. -/
abbrev CallService := ExternalFunction → List Val → Mem → Option CallOutcome

end LateIR
