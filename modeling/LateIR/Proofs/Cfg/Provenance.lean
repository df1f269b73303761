import LateIR.Proofs.Cfg.Transition
import LateIR.Proofs.Provenance.Calls
import LateIR.Proofs.Provenance.Values
import LateIR.Proofs.Run.Steps

/-!
Pointers in the states of Location-IR. A state is grounded when its memory has
allocated the blocks of all definitions and every pointer it holds is to an
allocated block. Entry and every step lead to grounded states
(`Grounded.enter`, `Grounded.step`).
-/

namespace LateIR.Cfg

/-- Whether all pointers in suspended callers point into the blocks. -/
def CallStack.PointsInto (blocks : BlockId → Prop) (stack : CallStack) : Prop :=
  ∀ caller ∈ stack, caller.sp.PointsInto blocks ∧ caller.locs.PointsInto blocks

/-- Whether all pointers in a state point into the blocks: in its locations and
those of suspended callers, as stack pointers, and in memory. -/
inductive State.PointsInto (blocks : BlockId → Prop) : State → Prop
  | running {act : Activation} {point : Point} {locs : LocState} {mem : Mem}
      (callers : act.stack.PointsInto blocks) (frame : act.sp.PointsInto blocks)
      (values : locs.PointsInto blocks) (bytes : mem.PointsInto blocks) :
      PointsInto blocks (.running act point locs mem)
  | calling {stack : CallStack} {callee : BlockId} {locs : LocState} {mem : Mem}
      (callers : stack.PointsInto blocks) (values : locs.PointsInto blocks)
      (bytes : mem.PointsInto blocks) : PointsInto blocks (.calling stack callee locs mem)
  | returned {stack : CallStack} {locs : LocState} {mem : Mem}
      (callers : stack.PointsInto blocks) (values : locs.PointsInto blocks)
      (bytes : mem.PointsInto blocks) : PointsInto blocks (.returned stack locs mem)

section

variable {blocks blocks' : BlockId → Prop}

theorem CallStack.PointsInto.imp {stack : CallStack} (more : ∀ b, blocks b → blocks' b)
    (points : stack.PointsInto blocks) : stack.PointsInto blocks' := by
  intro caller mem
  obtain ⟨frame, values⟩ := points caller mem
  exact ⟨frame.imp more, values.imp more⟩

theorem CallStack.PointsInto.callerLocs {stack : CallStack} (points : stack.PointsInto blocks) :
    stack.callerLocs.PointsInto blocks := by
  cases stack with
  | nil => exact .empty
  | cons caller rest => exact (points caller List.mem_cons_self).2

theorem State.PointsInto.imp {s : State} (more : ∀ b, blocks b → blocks' b)
    (points : s.PointsInto blocks) : s.PointsInto blocks' := by
  cases points with
  | running callers frame values bytes =>
      exact .running (callers.imp more) (frame.imp more) (values.imp more) (bytes.imp more)
  | calling callers values bytes =>
      exact .calling (callers.imp more) (values.imp more) (bytes.imp more)
  | returned callers values bytes =>
      exact .returned (callers.imp more) (values.imp more) (bytes.imp more)

theorem State.PointsInto.mem {s : State} (points : s.PointsInto blocks) :
    s.mem.PointsInto blocks := by
  cases points with
  | running callers frame values bytes => exact bytes
  | calling callers values bytes | returned callers values bytes => exact bytes

end

/-- Whether a state points only to allocated blocks, as the program's symbols
do. -/
structure Grounded (env : Env) (s : State) : Prop where
  globals : ∀ b, (env.globalAt? b).isSome → s.mem.Allocated b
  pointers : s.PointsInto s.mem.Allocated

variable {env : Env} {host : Host}

/-- Memory only grows, and the pointers of the next state are to blocks in it. -/
theorem exec_grounded {f : Function} {act : Activation} {node : Node} {index : Nat}
    {locs : LocState} {mem : Mem} {instr : Instr} {events : Trace} {s : State}
    (honest : host.ForgesNone) (globals : ∀ b, (env.globalAt? b).isSome → mem.Allocated b)
    (callers : act.stack.PointsInto mem.Allocated) (frame : act.sp.PointsInto mem.Allocated)
    (values : locs.PointsInto mem.Allocated) (bytes : mem.PointsInto mem.Allocated)
    (ran : exec env host.calls f act node index locs mem instr = some (events, s)) :
    mem.nextBlock ≤ s.mem.nextBlock ∧ s.PointsInto s.mem.Allocated := by
  have symbols : ∀ name b, env.symbols name = some b → mem.Allocated b :=
    fun name b found => globals b (env.known_of_symbols found)
  cases instr with
  | op o args dst =>
      obtain ⟨v, evaluated, ran⟩ := Option.bind_eq_some_iff.mp ran
      cases ran
      have result := Operation.pointsInto_result symbols frame (values.regs.read args) evaluated
      exact ⟨Nat.le_refl _, .running callers frame ((values.clobber _).setReg dst result) bytes⟩
  | load chunk addr args dst =>
      obtain ⟨a, -, ran⟩ := Option.bind_eq_some_iff.mp ran
      obtain ⟨v, loaded, ran⟩ := Option.bind_eq_some_iff.mp ran
      cases ran
      have result := bytes.loadAt? loaded
      exact ⟨Nat.le_refl _, .running callers frame ((values.clobber _).setReg dst result) bytes⟩
  | getStack kind ofs t dst =>
      obtain ⟨-, ran⟩ := Option.ite_none_right_eq_some.mp ran
      cases ran
      have result := values.getSlot kind ofs t
      exact ⟨Nat.le_refl _, .running callers frame ((values.clobber _).setReg dst result) bytes⟩
  | setStack src kind ofs t =>
      obtain ⟨inRange, ran⟩ := Option.ite_none_right_eq_some.mp ran
      cases ran
      have small := Loc.lt_maxOffset_of_inRange inRange
      have source := values.regs.get src
      exact ⟨Nat.le_refl _, .running callers frame ((values.clobber _).setSlot small source) bytes⟩
  | store chunk addr args src =>
      obtain ⟨a, -, ran⟩ := Option.bind_eq_some_iff.mp ran
      obtain ⟨mem', stored, ran⟩ := Option.bind_eq_some_iff.mp ran
      cases ran
      have grows := Nat.le_of_eq (Mem.nextBlock_storeAt? stored).symm
      have bytes' := bytes.storeAt? (values.regs.get src) stored
      refine ⟨grows, State.PointsInto.imp (Mem.Allocated.mono grows) ?_⟩
      exact .running callers frame (values.clobber _) bytes'
  | call sig callee =>
      obtain ⟨b, -, ran⟩ := Option.bind_eq_some_iff.mp ran
      cases ran
      refine ⟨Nat.le_refl _, .calling ?_ values bytes⟩
      exact List.forall_mem_cons.mpr ⟨⟨frame, values⟩, callers⟩
  | tailCall sig callee =>
      obtain ⟨b, -, ran⟩ := Option.bind_eq_some_iff.mp ran
      obtain ⟨mem', freed, ran⟩ := Option.bind_eq_some_iff.mp ran
      cases ran
      have grows := Nat.le_of_eq (Mem.nextBlock_freeFrame? freed).symm
      refine ⟨grows, State.PointsInto.imp (Mem.Allocated.mono grows) ?_⟩
      exact .calling callers (callers.callerLocs.afterReturn values) (bytes.freeFrame? freed)
  | builtin ef args res =>
      obtain ⟨vs, evaluated, ran⟩ := Option.bind_eq_some_iff.mp ran
      obtain ⟨out, called, ran⟩ := Option.bind_eq_some_iff.mp ran
      cases ran
      have grows := (Host.keepsFrames_calls called).grows
      have more := Mem.Allocated.mono grows
      have given := BuiltinArg.pointsInto_evalList? symbols frame values.get bytes evaluated
      obtain ⟨result, bytes'⟩ := Host.pointsInto_calls honest given bytes called
      have values' := ((values.imp more).clobber (Clobber.builtin ef)).setRegs
        (res.pointsInto_writes result)
      exact ⟨grows, .running (callers.imp more) (frame.imp more) values' bytes'⟩
  | branch target =>
      cases ran
      exact ⟨Nat.le_refl _, .running callers frame values bytes⟩
  | cond c args ifSo ifNot =>
      obtain ⟨b, -, ran⟩ := Option.bind_eq_some_iff.mp ran
      cases ran
      exact ⟨Nat.le_refl _, .running callers frame (values.clobber _) bytes⟩
  | jumpTable r targets =>
      simp only [exec] at ran
      split at ran
      · obtain ⟨target, -, ran⟩ := Option.bind_eq_some_iff.mp ran
        cases ran
        exact ⟨Nat.le_refl _, .running callers frame (values.clobber _) bytes⟩
      · cases ran
  | ret =>
      obtain ⟨mem', freed, ran⟩ := Option.bind_eq_some_iff.mp ran
      cases ran
      have grows := Nat.le_of_eq (Mem.nextBlock_freeFrame? freed).symm
      refine ⟨grows, State.PointsInto.imp (Mem.Allocated.mono grows) ?_⟩
      exact .returned callers (callers.callerLocs.afterReturn values) (bytes.freeFrame? freed)

theorem step_grounded {s t : State} {events : Trace} (honest : host.ForgesNone)
    (grounded : Grounded env s) (stepped : step env host.calls s = some (events, t)) :
    s.mem.nextBlock ≤ t.mem.nextBlock ∧ t.PointsInto t.mem.Allocated := by
  obtain ⟨globals, pointers⟩ := grounded
  cases pointers with
  | @running act point locs mem callers frame values bytes =>
      cases point with
      | atNode n =>
          obtain ⟨f, -, stepped⟩ := Option.bind_eq_some_iff.mp stepped
          obtain ⟨-, stepped⟩ := Option.ite_none_right_eq_some.mp stepped
          cases stepped
          exact ⟨Nat.le_refl _, .running callers frame values bytes⟩
      | inBlock n index =>
          obtain ⟨f, -, stepped⟩ := Option.bind_eq_some_iff.mp stepped
          obtain ⟨block, -, stepped⟩ := Option.bind_eq_some_iff.mp stepped
          obtain ⟨instr, -, ran⟩ := Option.bind_eq_some_iff.mp stepped
          exact exec_grounded honest globals callers frame values bytes ran
  | @calling stack callee locs mem callers values bytes =>
      simp only [step] at stepped
      split at stepped
      · obtain ⟨⟨b, mem'⟩, allocated, stepped⟩ := Option.bind_eq_some_iff.mp stepped
        cases stepped
        obtain ⟨new, next⟩ := Mem.nextBlock_alloc? allocated
        have grows : mem.nextBlock ≤ mem'.nextBlock := by
          rw [next, new]
          exact Nat.le_succ _
        have more := Mem.Allocated.mono grows
        have frame : (Val.ptr b 0).PointsInto mem'.Allocated := by
          show b < mem'.nextBlock
          rw [next]
          exact Nat.lt_succ_self b
        have bytes' := (bytes.alloc? allocated).imp more
        exact ⟨grows, .running (callers.imp more) frame ((values.imp more).atCall.clobber _) bytes'⟩
      · rename_i ef outside
        obtain ⟨out, called, stepped⟩ := Option.bind_eq_some_iff.mp stepped
        cases stepped
        have grows := (Host.keepsFrames_calls called).grows
        have more := Mem.Allocated.mono grows
        obtain ⟨result, bytes'⟩ := Host.pointsInto_calls honest (values.args ef.sig) bytes called
        have values' := (values.imp more).afterExternal ef.sig result
        exact ⟨grows, .returned (callers.imp more) values' bytes'⟩
      · cases stepped
  | @returned stack locs mem callers values bytes =>
      cases stack with
      | nil => cases stepped
      | cons caller rest =>
          cases stepped
          obtain ⟨⟨frame, -⟩, outer⟩ := List.forall_mem_cons.mp callers
          exact ⟨Nat.le_refl _, .running outer frame values bytes⟩

namespace Grounded

theorem step {s t : State} {events : Trace} (honest : host.ForgesNone) (grounded : Grounded env s)
    (stepped : step env host.calls s = some (events, t)) : Grounded env t := by
  obtain ⟨grows, pointers⟩ := step_grounded honest grounded stepped
  exact ⟨fun b known => Mem.Allocated.mono grows b (grounded.globals b known), pointers⟩

theorem enter {before : Mem} {pointer : Val} {args : List Val} {s : State}
    (given : ∀ a ∈ args, a.PointsInto before.Allocated)
    (entered : enter env before pointer args = .ok s) : Grounded env s := by
  obtain ⟨⟨callee, sig⟩, checked, entered⟩ := bind_eq_ok_iff.mp entered
  obtain ⟨locs, placed, same⟩ := bind_eq_ok_iff.mp entered
  cases same
  obtain ⟨globals, sound⟩ := env.allocated_of_checkEntry checked
  have arguments : ∀ arg ∈ sig.argLocs.zip args, arg.2.PointsInto before.Allocated :=
    fun arg mem => given arg.2 (List.of_mem_zip mem).2
  have values := LocState.PointsInto.empty.placeArgs arguments placed
  refine ⟨globals, .calling ?_ values (Mem.noDangling_iff.mp sound)⟩
  exact fun caller mem => absurd mem List.not_mem_nil

theorem reachable {before : Mem} {pointer : Val} {args : List Val} {s t : State}
    (honest : host.ForgesNone) (given : ∀ a ∈ args, a.PointsInto before.Allocated)
    (entered : Cfg.enter env before pointer args = .ok s)
    (reach : (semantics env host.calls).Reachable s t) : Grounded env t := by
  have kept : (semantics env host.calls).Preserved (Grounded env) :=
    fun s events t grounded stepped => grounded.step honest stepped
  exact kept.reachable (.enter given entered) reach

end Grounded

end LateIR.Cfg
