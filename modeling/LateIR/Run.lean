import LateIR.Run.Options
import LateIR.Semantics

/-!
Running to the end: transitions follow each other until the program has
returned an integer, no transition is possible, or the step limit is reached. A
run may also answer the program's external calls itself, with a handler.
-/

namespace LateIR

/-- Version of the library. -/
def version : String := "0.1.0"

/-- What a completed run gives. The trace is empty when it was not collected. -/
structure RunOutcome where
  result : Int32
  steps : Nat
  trace : Trace
  deriving DecidableEq

/-- Answers external calls, or refuses them, and goes on with a state of its
own. -/
abbrev Handler (σ : Type) := σ → ExternalFunction → List Val → Mem → Option CallOutcome × σ

namespace Semantics

variable {S σ : Type} (sem : Semantics S)

/-- Why no transition is possible. -/
def stopError (steps : Nat) (returned : Option Val) : Error :=
  match returned with
  | some v => .invalidResult v
  | none => .stuck steps

/-- Judges a transition from a state with the given number of suspended callers
and returned value: there has to be one, and a check that was asked for has to
succeed. -/
@[noinline] def judge (options : RunOptions) (steps depth : Nat) (returned : Option Val) :
    Option (Trace × S) → Except Error (Trace × S)
  | none => .error (stopError steps returned)
  | some (events, s) =>
      if options.checkInvariants then
        match sem.checkAfter depth s with
        | .ok () => .ok (events, s)
        | .error violation => .error (.invariantViolation (steps + 1) violation)
      else .ok (events, s)

/-- Runs with the transitions of `move` while the budget lasts. -/
def drive (move : σ → S → Option (Trace × S) × σ) (options : RunOptions) :
    Nat → Nat → Array Event → σ → S → Except Error RunOutcome × σ
  | budget, steps, trace, h, s =>
      match sem.returned? s, budget with
      | some (.int n), _ => (.ok ⟨n, steps, trace.toList⟩, h)
      | _, 0 => (.error (.stepLimit options.maxSteps), h)
      | returned, budget + 1 =>
          let depth := if options.checkInvariants then sem.depth s else 0
          let (next, h) := move h s
          match sem.judge options steps depth returned next with
          | .error e => (.error e, h)
          | .ok (events, s) =>
              let trace := if options.collectTrace then trace ++ events else trace
              drive move options budget (steps + 1) trace h s

/-- Runs the state, with external calls performed by the interpreter. -/
def run (options : RunOptions) (s : S) : Except Error RunOutcome :=
  (sem.drive (fun () s => (sem.step s, ())) options options.maxSteps 0 #[] () s).1

/-- A transition in which the handler answers the external call that the state
is about to make. -/
def interceptedStep (handler : Handler σ) (h : σ) (s : S) : Option (Trace × S) × σ :=
  match sem.atExternal? s with
  | some (ef, args) =>
      let (out, h) := handler h ef args (sem.mem s)
      (out.bind fun out => (sem.resume? (some out.result) out.mem s).map (out.trace, ·), h)
  | none => (sem.step s, h)

/-- Runs the state, with external calls answered by the handler. The handler's
last state is part of the answer. -/
def runIntercepting (handler : Handler σ) (options : RunOptions) (h : σ) (s : S) :
    Except Error RunOutcome × σ :=
  sem.drive (sem.interceptedStep handler) options options.maxSteps 0 #[] h s

end Semantics

end LateIR
