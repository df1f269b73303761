import LateIR.External
import LateIR.External.Heap

/-!
The reference call service: named host functions together with the built-ins on
memory, annotations and debug information.
-/

namespace LateIR

/-- A host function maps arguments to a result or refuses them. -/
abbrev HostFunction := List Val → Option Val

/-- The host functions by name. -/
abbrev Host := String → Option HostFunction

namespace Host

/-- Calls a host function. Arguments and result must fit the signature; without
a result type the result is undefined. -/
def invoke? (host : Host) (name : String) (sig : Signature) (args : List Val) : Option Val :=
  if sig.accepts args then do
    let f ← host name
    let result ← f args
    match sig.res with
    | some t => if result.hasType t then some result else none
    | none => some .undefined
  else none

/-- The call service built on the host functions. -/
def calls (host : Host) : CallService := fun ef args mem =>
  match ef with
  | .external name sig =>
      (host.invoke? name sig args).map fun v => ⟨[.syscall name args v], v, mem⟩
  | .builtin name sig => (host.invoke? name sig args).map fun v => ⟨[], v, mem⟩
  | .malloc => (Heap.malloc? mem args).map fun (v, mem) => ⟨[], v, mem⟩
  | .free => (Heap.free? mem args).map fun mem => ⟨[], .undefined, mem⟩
  | .memcpy size align => (Heap.memcpy? size align mem args).map fun mem => ⟨[], .undefined, mem⟩
  | .annot text types =>
      if args.length = types.length then some ⟨[.annot text args], .undefined, mem⟩ else none
  | .debug => some ⟨[], .undefined, mem⟩

end Host

end LateIR
