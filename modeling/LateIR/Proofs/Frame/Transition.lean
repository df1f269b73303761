import LateIR.Frame.WellFormed
import LateIR.Proofs.Memory.Effect
import LateIR.Proofs.Program.GlobalEnv

/-!
What a step of Frame-IR can do, in the manner of the transitions of Location-IR:
where control goes, what happens to the call stack, and how memory changes
(`transition_of_step`). Leaving a function checks and frees its frame; entering
one allocates a frame and writes the header.
-/

namespace LateIR.Frame

open Mem (Effect)

section

variable (env : Env)

/-- The instruction at an index of a function's code. -/
def instr? (func : BlockId) (pc : Nat) : Option Instr := do
  let f ← env.internalAt? func
  f.code[pc]?

variable (calls : CallService) (choose : ReturnAddresses)

/-- What a step from one state to another does. -/
inductive Transition : State → State → Prop where
  /-- The function runs on, at an index of its code or right after it. -/
  | go {act : Activation} {pc pc' : Nat} {regs regs' : RegFile} {mem mem' : Mem} {f : Function}
      (body : env.internalAt? act.func = some f) (inside : pc' ≤ f.code.size)
      (effect : mem.Effect calls mem') :
      Transition (.running act pc regs mem) (.running act pc' regs' mem')
  | call {act : Activation} {pc : Nat} {regs : RegFile} {mem : Mem} {f : Function}
      {sig : Signature} {callee : Callee} {b : BlockId} {ra : Int64}
      (body : env.internalAt? act.func = some f) (instr : f.code[pc]? = some (.call sig callee))
      (known : (env.functionAt? b).isSome) (chosen : choose act.func f (pc + 1) = some ra) :
      Transition (.running act pc regs mem)
        (.calling (act.stack.push ⟨act.func, act.sp, .ptr act.func ra, pc + 1⟩) b regs mem)
  | tailCall {act : Activation} {pc : Nat} {regs : RegFile} {mem mem' : Mem} {f : Function}
      {b : BlockId} (body : env.internalAt? act.func = some f)
      (known : (env.functionAt? b).isSome)
      (released : release? f act.stack act.sp mem = some mem') :
      Transition (.running act pc regs mem) (.calling act.stack b regs mem')
  | ret {act : Activation} {pc : Nat} {regs : RegFile} {mem mem' : Mem} {f : Function}
      (body : env.internalAt? act.func = some f)
      (released : release? f act.stack act.sp mem = some mem') :
      Transition (.running act pc regs mem) (.returned act.stack regs mem')
  | enter {stack : CallStack} {callee : BlockId} {regs regs' : RegFile} {mem mid mem' : Mem}
      {f : Function} {b : BlockId} (body : env.functionAt? callee = some (.internal f))
      (allocated : mem.alloc? 0 f.stackSize = some (b, mid))
      (written : writeHeader? f stack (.ptr b 0) mid = some mem') :
      Transition (.calling stack callee regs mem)
        (.running ⟨stack, callee, .ptr b 0⟩ 0 regs' mem')
  | external {stack : CallStack} {callee : BlockId} {regs regs' : RegFile} {mem : Mem}
      {ef : ExternalFunction} {args : List Val} {out : CallOutcome}
      (outside : env.functionAt? callee = some (.external ef))
      (called : calls ef args mem = some out) :
      Transition (.calling stack callee regs mem) (.returned stack regs' out.mem)
  | resume {caller : Suspended} {callers : List Suspended} {entry : EntryFrame}
      {regs : RegFile} {mem : Mem} :
      Transition (.returned ⟨caller :: callers, entry⟩ regs mem)
        (.running ⟨⟨callers, entry⟩, caller.func, caller.sp⟩ caller.resume regs mem)

end

variable {env : Env} {calls : CallService} {choose : ReturnAddresses}

theorem known_of_target? {regs : RegFile} {callee : Callee} {b : BlockId}
    (found : target? env regs callee = some b) : (env.functionAt? b).isSome := by
  obtain ⟨⟨b', fd⟩, resolved, rfl⟩ := Option.map_eq_some_iff.mp found
  exact env.known_of_resolve? resolved

/-- A frame is released when its header is intact and it can be freed. -/
theorem release?_eq_some_iff {f : Function} {stack : CallStack} {sp : Val} {mem mem' : Mem} :
    release? f stack sp mem = some mem' ↔
      (mem.loadStack? sp .pointer f.linkOfs = some stack.callerSp ∧
        mem.loadStack? sp .pointer f.retAddrOfs = some stack.callerRa) ∧
      mem.freeFrame? sp f.stackSize = some mem' := by
  constructor
  · intro released
    obtain ⟨link, atLink, released⟩ := Option.bind_eq_some_iff.mp released
    obtain ⟨ra, atRa, released⟩ := Option.bind_eq_some_iff.mp released
    obtain ⟨⟨rfl, rfl⟩, freed⟩ := Option.ite_none_right_eq_some.mp released
    exact ⟨⟨atLink, atRa⟩, freed⟩
  · rintro ⟨⟨atLink, atRa⟩, freed⟩
    simp [release?, atLink, atRa, freed]

/-- A label's index is inside the code or right after it. -/
theorem le_size_of_labelIndex? {f : Function} {l : Label} {target : Nat}
    (found : f.labelIndex? l = some target) : target ≤ f.code.size := by
  obtain ⟨i, here, rfl⟩ := Option.map_eq_some_iff.mp found
  exact (Array.findIdx?_eq_some_iff_getElem.mp here).1

theorem transition_of_exec {f : Function} {act : Activation} {pc : Nat} {regs : RegFile}
    {mem : Mem} {instr : Instr} {events : Trace} {s : State}
    (body : env.internalAt? act.func = some f) (here : f.code[pc]? = some instr)
    (ran : exec env calls choose f act pc regs mem instr = some (events, s)) :
    Transition env calls choose (.running act pc regs mem) s := by
  have inside : pc + 1 ≤ f.code.size := (Array.getElem?_eq_some_iff.mp here).1
  cases instr with
  | getStack ofs t dst =>
      obtain ⟨v, -, ran⟩ := Option.bind_eq_some_iff.mp ran
      cases ran
      exact .go body inside .none
  | setStack src ofs t =>
      obtain ⟨mem', stored, ran⟩ := Option.bind_eq_some_iff.mp ran
      cases ran
      exact .go body inside (.store stored)
  | getParam ofs t dst =>
      obtain ⟨v, -, ran⟩ := Option.bind_eq_some_iff.mp ran
      cases ran
      exact .go body inside .none
  | op o args dst =>
      obtain ⟨v, -, ran⟩ := Option.bind_eq_some_iff.mp ran
      cases ran
      exact .go body inside .none
  | load chunk addr args dst =>
      obtain ⟨a, -, ran⟩ := Option.bind_eq_some_iff.mp ran
      obtain ⟨v, -, ran⟩ := Option.bind_eq_some_iff.mp ran
      cases ran
      exact .go body inside .none
  | store chunk addr args src =>
      obtain ⟨a, -, ran⟩ := Option.bind_eq_some_iff.mp ran
      obtain ⟨mem', stored, ran⟩ := Option.bind_eq_some_iff.mp ran
      cases ran
      exact .go body inside (.store stored)
  | call sig callee =>
      obtain ⟨b, found, ran⟩ := Option.bind_eq_some_iff.mp ran
      obtain ⟨ra, chosen, ran⟩ := Option.bind_eq_some_iff.mp ran
      cases ran
      exact .call body here (known_of_target? found) chosen
  | tailCall sig callee =>
      obtain ⟨b, found, ran⟩ := Option.bind_eq_some_iff.mp ran
      obtain ⟨mem', released, ran⟩ := Option.bind_eq_some_iff.mp ran
      cases ran
      exact .tailCall body (known_of_target? found) released
  | builtin ef args res =>
      obtain ⟨vs, -, ran⟩ := Option.bind_eq_some_iff.mp ran
      obtain ⟨out, called, ran⟩ := Option.bind_eq_some_iff.mp ran
      cases ran
      exact .go body inside (.call called)
  | label l =>
      cases ran
      exact .go body inside .none
  | goto l =>
      obtain ⟨target, found, ran⟩ := Option.bind_eq_some_iff.mp ran
      cases ran
      exact .go body (le_size_of_labelIndex? found) .none
  | cond c args l =>
      obtain ⟨b, -, ran⟩ := Option.bind_eq_some_iff.mp ran
      cases b with
      | true =>
          obtain ⟨target, found, ran⟩ := Option.bind_eq_some_iff.mp ran
          cases ran
          exact .go body (le_size_of_labelIndex? found) .none
      | false =>
          cases ran
          exact .go body inside .none
  | jumpTable r labels =>
      simp only [exec] at ran
      split at ran
      · obtain ⟨l, -, ran⟩ := Option.bind_eq_some_iff.mp ran
        obtain ⟨target, found, ran⟩ := Option.bind_eq_some_iff.mp ran
        cases ran
        exact .go body (le_size_of_labelIndex? found) .none
      · cases ran
  | ret =>
      obtain ⟨mem', released, ran⟩ := Option.bind_eq_some_iff.mp ran
      cases ran
      exact .ret body released

/-- A function is entered by allocating its frame and writing the header. -/
theorem step_calling_eq_some_iff {f : Function} {stack : CallStack} {callee : BlockId}
    {regs : RegFile} {mem : Mem} {events : Trace} {t : State}
    (body : env.functionAt? callee = some (.internal f)) :
    step env calls choose (.calling stack callee regs mem) = some (events, t) ↔
      ∃ b mid mem', mem.alloc? 0 f.stackSize = some (b, mid) ∧
        writeHeader? f stack (.ptr b 0) mid = some mem' ∧ events = [] ∧
        t = .running ⟨stack, callee, .ptr b 0⟩ 0 (regs.clobber Clobber.functionEntry) mem' := by
  simp only [step, body]
  constructor
  · intro stepped
    obtain ⟨⟨b, mid⟩, allocated, stepped⟩ := Option.bind_eq_some_iff.mp stepped
    obtain ⟨mem', written, stepped⟩ := Option.bind_eq_some_iff.mp stepped
    cases stepped
    exact ⟨b, mid, mem', allocated, written, rfl, rfl⟩
  · rintro ⟨b, mid, mem', allocated, written, rfl, rfl⟩
    exact Option.bind_eq_some_iff.mpr
      ⟨(b, mid), allocated, Option.bind_eq_some_iff.mpr ⟨mem', written, rfl⟩⟩

/-- Every step is one of the transitions. -/
theorem transition_of_step {s t : State} {events : Trace}
    (stepped : step env calls choose s = some (events, t)) :
    Transition env calls choose s t := by
  cases s with
  | running act pc regs mem =>
      obtain ⟨f, body, stepped⟩ := Option.bind_eq_some_iff.mp stepped
      obtain ⟨instr, here, ran⟩ := Option.bind_eq_some_iff.mp stepped
      exact transition_of_exec body here ran
  | calling stack callee regs mem =>
      cases known : env.functionAt? callee with
      | none =>
          simp only [step, known] at stepped
          cases stepped
      | some fd =>
          cases fd with
          | internal f =>
              obtain ⟨b, mid, mem', allocated, written, -, rfl⟩ :=
                (step_calling_eq_some_iff known).mp stepped
              exact .enter known allocated written
          | external ef =>
              simp only [step, known] at stepped
              obtain ⟨args, -, stepped⟩ := Option.bind_eq_some_iff.mp stepped
              obtain ⟨out, called, stepped⟩ := Option.bind_eq_some_iff.mp stepped
              cases stepped
              exact .external known called
  | returned stack regs mem =>
      obtain ⟨callers, entry⟩ := stack
      cases callers with
      | nil => cases stepped
      | cons caller callers =>
          cases stepped
          exact .resume

end LateIR.Frame
