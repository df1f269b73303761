import LateIR.Cfg.WellFormed
import LateIR.Proofs.Memory.Effect
import LateIR.Proofs.Program.GlobalEnv

/-!
What a step of Location-IR can do. `Transition` says it without the values that
registers get: where control goes, what happens to the call stack, and how
memory changes. Invariants are proved by cases on it (`transition_of_step`).
-/

namespace LateIR.Cfg

open Mem (Effect)

/-- Whether a point lies in the function's body. Any block may be entered; one
that is missing is stuck. -/
def Point.InBody (f : Function) : Point → Prop
  | .atNode _ => True
  | .inBlock n index => ∃ block, f.block? n = some block ∧ index ≤ block.size

section

variable (env : Env)

/-- The instruction at an index of a block of a function. -/
def instr? (func : BlockId) (n : Node) (index : Nat) : Option Instr := do
  let f ← env.internalAt? func
  let block ← f.block? n
  block[index]?

variable (calls : CallService)

/-- What a step from one state to another does. -/
inductive Transition : State → State → Prop where
  /-- The function runs on. -/
  | go {act : Activation} {point point' : Point} {locs locs' : LocState} {mem mem' : Mem}
      {f : Function} (body : env.internalAt? act.func = some f) (inside : point'.InBody f)
      (effect : mem.Effect calls mem') :
      Transition (.running act point locs mem) (.running act point' locs' mem')
  | call {act : Activation} {n : Node} {index : Nat} {locs : LocState} {mem : Mem}
      {sig : Signature} {callee : Callee} {b : BlockId}
      (instr : instr? env act.func n index = some (.call sig callee))
      (known : (env.functionAt? b).isSome) :
      Transition (.running act (.inBlock n index) locs mem)
        (.calling (⟨act.func, act.sp, locs, n, index + 1⟩ :: act.stack) b locs mem)
  | tailCall {act : Activation} {point : Point} {locs : LocState} {mem mem' : Mem}
      {f : Function} {b : BlockId} (body : env.internalAt? act.func = some f)
      (known : (env.functionAt? b).isSome)
      (freed : mem.freeFrame? act.sp f.stackSize = some mem') :
      Transition (.running act point locs mem)
        (.calling act.stack b (act.stack.callerLocs.afterReturn locs) mem')
  | ret {act : Activation} {point : Point} {locs : LocState} {mem mem' : Mem} {f : Function}
      (body : env.internalAt? act.func = some f)
      (freed : mem.freeFrame? act.sp f.stackSize = some mem') :
      Transition (.running act point locs mem)
        (.returned act.stack (act.stack.callerLocs.afterReturn locs) mem')
  | enter {stack : CallStack} {callee : BlockId} {locs locs' : LocState} {mem mem' : Mem}
      {f : Function} {b : BlockId} (body : env.functionAt? callee = some (.internal f))
      (allocated : mem.alloc? 0 f.stackSize = some (b, mem')) :
      Transition (.calling stack callee locs mem)
        (.running ⟨stack, callee, .ptr b 0⟩ (.atNode f.entry) locs' mem')
  | external {stack : CallStack} {callee : BlockId} {locs : LocState} {mem : Mem}
      {ef : ExternalFunction} {args : List Val} {out : CallOutcome}
      (outside : env.functionAt? callee = some (.external ef))
      (called : calls ef args mem = some out) :
      Transition (.calling stack callee locs mem)
        (.returned stack (locs.afterExternal ef.sig out.result) out.mem)
  | resume {caller : Suspended} {stack : CallStack} {locs : LocState} {mem : Mem} :
      Transition (.returned (caller :: stack) locs mem)
        (.running ⟨stack, caller.func, caller.sp⟩ (.inBlock caller.node caller.index) locs mem)

end

variable {env : Env} {calls : CallService}

theorem known_of_target? {locs : LocState} {sig : Signature} {callee : Callee} {b : BlockId}
    (found : target? env locs sig callee = some b) : (env.functionAt? b).isSome := by
  unfold target? at found
  split at found
  · rename_i b' fd resolved
    obtain ⟨-, same⟩ := Option.ite_none_right_eq_some.mp found
    cases same
    exact env.known_of_resolve? resolved
  · cases found

theorem transition_of_exec {f : Function} {act : Activation} {n : Node} {index : Nat}
    {locs : LocState} {mem : Mem} {block : Array Instr} {instr : Instr} {events : Trace}
    {s : State} (body : env.internalAt? act.func = some f) (here : f.block? n = some block)
    (at_ : block[index]? = some instr)
    (ran : exec env calls f act n index locs mem instr = some (events, s)) :
    Transition env calls (.running act (.inBlock n index) locs mem) s := by
  have inside : (Point.inBlock n (index + 1)).InBody f :=
    ⟨block, here, (Array.getElem?_eq_some_iff.mp at_).1⟩
  cases instr with
  | op o args dst =>
      obtain ⟨v, -, ran⟩ := Option.bind_eq_some_iff.mp ran
      cases ran
      exact .go body inside .none
  | load chunk addr args dst =>
      obtain ⟨a, -, ran⟩ := Option.bind_eq_some_iff.mp ran
      obtain ⟨v, -, ran⟩ := Option.bind_eq_some_iff.mp ran
      cases ran
      exact .go body inside .none
  | getStack kind ofs t dst =>
      obtain ⟨-, ran⟩ := Option.ite_none_right_eq_some.mp ran
      cases ran
      exact .go body inside .none
  | setStack src kind ofs t =>
      obtain ⟨-, ran⟩ := Option.ite_none_right_eq_some.mp ran
      cases ran
      exact .go body inside .none
  | store chunk addr args src =>
      obtain ⟨a, -, ran⟩ := Option.bind_eq_some_iff.mp ran
      obtain ⟨mem', stored, ran⟩ := Option.bind_eq_some_iff.mp ran
      cases ran
      exact .go body inside (.store stored)
  | call sig callee =>
      obtain ⟨b, found, ran⟩ := Option.bind_eq_some_iff.mp ran
      cases ran
      have instr : instr? env act.func n index = some (.call sig callee) := by
        simp [instr?, body, here, at_]
      exact .call instr (known_of_target? found)
  | tailCall sig callee =>
      obtain ⟨b, found, ran⟩ := Option.bind_eq_some_iff.mp ran
      obtain ⟨mem', freed, ran⟩ := Option.bind_eq_some_iff.mp ran
      cases ran
      exact .tailCall body (known_of_target? found) freed
  | builtin ef args res =>
      obtain ⟨vs, -, ran⟩ := Option.bind_eq_some_iff.mp ran
      obtain ⟨out, called, ran⟩ := Option.bind_eq_some_iff.mp ran
      cases ran
      exact .go body inside (.call called)
  | branch target =>
      cases ran
      exact .go body trivial .none
  | cond c args ifSo ifNot =>
      obtain ⟨b, -, ran⟩ := Option.bind_eq_some_iff.mp ran
      cases ran
      exact .go body trivial .none
  | jumpTable r targets =>
      simp only [exec] at ran
      split at ran
      · obtain ⟨target, -, ran⟩ := Option.bind_eq_some_iff.mp ran
        cases ran
        exact .go body trivial .none
      · cases ran
  | ret =>
      obtain ⟨mem', freed, ran⟩ := Option.bind_eq_some_iff.mp ran
      cases ran
      exact .ret body freed

/-- A function is entered by allocating its frame. -/
theorem step_calling_eq_some_iff {f : Function} {stack : CallStack} {callee : BlockId}
    {locs : LocState} {mem : Mem} {events : Trace} {t : State}
    (body : env.functionAt? callee = some (.internal f)) :
    step env calls (.calling stack callee locs mem) = some (events, t) ↔
      ∃ b mem', mem.alloc? 0 f.stackSize = some (b, mem') ∧ events = [] ∧
        t = .running ⟨stack, callee, .ptr b 0⟩ (.atNode f.entry)
          (locs.atCall.clobber Clobber.functionEntry) mem' := by
  simp only [step, body]
  constructor
  · intro stepped
    obtain ⟨⟨b, mem'⟩, allocated, stepped⟩ := Option.bind_eq_some_iff.mp stepped
    cases stepped
    exact ⟨b, mem', allocated, rfl, rfl⟩
  · rintro ⟨b, mem', allocated, rfl, rfl⟩
    exact Option.bind_eq_some_iff.mpr ⟨(b, mem'), allocated, rfl⟩

theorem isSome_step_calling_iff {f : Function} {stack : CallStack} {callee : BlockId}
    {locs : LocState} {mem : Mem} (body : env.functionAt? callee = some (.internal f)) :
    (step env calls (.calling stack callee locs mem)).isSome ↔
      (mem.alloc? 0 f.stackSize).isSome := by
  constructor
  · intro entered
    obtain ⟨⟨events, t⟩, stepped⟩ := Option.isSome_iff_exists.mp entered
    obtain ⟨b, mem', allocated, -⟩ := (step_calling_eq_some_iff body).mp stepped
    exact Option.isSome_of_eq_some allocated
  · intro allocatable
    obtain ⟨⟨b, mem'⟩, allocated⟩ := Option.isSome_iff_exists.mp allocatable
    exact Option.isSome_of_eq_some
      ((step_calling_eq_some_iff body).mpr ⟨b, mem', allocated, rfl, rfl⟩)

/-- Every step is one of the transitions. -/
theorem transition_of_step {s t : State} {events : Trace}
    (stepped : step env calls s = some (events, t)) : Transition env calls s t := by
  cases s with
  | running act point locs mem =>
      cases point with
      | atNode n =>
          obtain ⟨f, body, stepped⟩ := Option.bind_eq_some_iff.mp stepped
          obtain ⟨here, stepped⟩ := Option.ite_none_right_eq_some.mp stepped
          obtain ⟨block, found⟩ := Option.isSome_iff_exists.mp here
          cases stepped
          exact .go body ⟨block, found, Nat.zero_le _⟩ .none
      | inBlock n index =>
          obtain ⟨f, body, stepped⟩ := Option.bind_eq_some_iff.mp stepped
          obtain ⟨block, here, stepped⟩ := Option.bind_eq_some_iff.mp stepped
          obtain ⟨instr, at_, ran⟩ := Option.bind_eq_some_iff.mp stepped
          exact transition_of_exec body here at_ ran
  | calling stack callee locs mem =>
      cases known : env.functionAt? callee with
      | none =>
          simp only [step, known] at stepped
          cases stepped
      | some fd =>
          cases fd with
          | internal f =>
              obtain ⟨b, mem', allocated, -, rfl⟩ := (step_calling_eq_some_iff known).mp stepped
              exact .enter known allocated
          | external ef =>
              simp only [step, known] at stepped
              obtain ⟨out, called, stepped⟩ := Option.bind_eq_some_iff.mp stepped
              cases stepped
              exact .external known called
  | returned stack locs mem =>
      cases stack with
      | nil => cases stepped
      | cons caller stack =>
          cases stepped
          exact .resume

end LateIR.Cfg
