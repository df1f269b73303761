import LateIR.Proofs.Frame.Entry
import LateIR.Proofs.Frame.Transition
import LateIR.Proofs.Provenance.Calls
import LateIR.Proofs.Provenance.Values
import LateIR.Proofs.Run.Steps

/-!
Pointers in the states of Frame-IR, in the manner of Location-IR. Stack pointers
and return addresses are also written to frame headers, from where any load may
take them.
-/

namespace LateIR.Frame

/-- Whether all stack pointers and return addresses point into the blocks. -/
structure CallStack.PointsInto (blocks : BlockId → Prop) (stack : CallStack) : Prop where
  entry : stack.entry.sp.PointsInto blocks ∧ stack.entry.ra.PointsInto blocks
  callers : ∀ caller ∈ stack.callers, caller.sp.PointsInto blocks ∧ caller.ra.PointsInto blocks

/-- Whether all pointers in a state point into the blocks: in its registers, as
stack pointers and return addresses, and in memory. -/
inductive State.PointsInto (blocks : BlockId → Prop) : State → Prop
  | running {act : Activation} {pc : Nat} {regs : RegFile} {mem : Mem}
      (callers : act.stack.PointsInto blocks) (frame : act.sp.PointsInto blocks)
      (values : regs.PointsInto blocks) (bytes : mem.PointsInto blocks) :
      PointsInto blocks (.running act pc regs mem)
  | calling {stack : CallStack} {callee : BlockId} {regs : RegFile} {mem : Mem}
      (callers : stack.PointsInto blocks) (values : regs.PointsInto blocks)
      (bytes : mem.PointsInto blocks) : PointsInto blocks (.calling stack callee regs mem)
  | returned {stack : CallStack} {regs : RegFile} {mem : Mem}
      (callers : stack.PointsInto blocks) (values : regs.PointsInto blocks)
      (bytes : mem.PointsInto blocks) : PointsInto blocks (.returned stack regs mem)

section

variable {blocks blocks' : BlockId → Prop} {stack : CallStack}

namespace CallStack.PointsInto

theorem imp (more : ∀ b, blocks b → blocks' b) (points : stack.PointsInto blocks) :
    stack.PointsInto blocks' where
  entry := ⟨points.entry.1.imp more, points.entry.2.imp more⟩
  callers caller mem := by
    obtain ⟨frame, address⟩ := points.callers caller mem
    exact ⟨frame.imp more, address.imp more⟩

/-- The innermost caller's stack pointer and return address are among them. -/
theorem innermost (points : stack.PointsInto blocks) :
    stack.callerSp.PointsInto blocks ∧ stack.callerRa.PointsInto blocks := by
  obtain ⟨callers, entry⟩ := stack
  cases callers with
  | nil => exact points.entry
  | cons caller rest => exact points.callers caller List.mem_cons_self

/-- A call puts its frame and its return address on the stack. -/
theorem push (points : stack.PointsInto blocks) {caller : Suspended}
    (here : caller.sp.PointsInto blocks ∧ caller.ra.PointsInto blocks) :
    (stack.push caller).PointsInto blocks where
  entry := points.entry
  callers := List.forall_mem_cons.mpr ⟨here, points.callers⟩

end CallStack.PointsInto

namespace State.PointsInto

variable {s : State}

theorem imp (more : ∀ b, blocks b → blocks' b) (points : s.PointsInto blocks) :
    s.PointsInto blocks' := by
  cases points with
  | running callers frame values bytes =>
      exact .running (callers.imp more) (frame.imp more) (values.imp more) (bytes.imp more)
  | calling callers values bytes =>
      exact .calling (callers.imp more) (values.imp more) (bytes.imp more)
  | returned callers values bytes =>
      exact .returned (callers.imp more) (values.imp more) (bytes.imp more)

theorem mem (points : s.PointsInto blocks) : s.mem.PointsInto blocks := by
  cases points with
  | running callers frame values bytes => exact bytes
  | calling callers values bytes | returned callers values bytes => exact bytes

end State.PointsInto

/-! ### Frames -/

variable {f : Function} {sp : Val} {mem mem' : Mem}

/-- The header holds the link and the return address of the caller, which are pointers of the call
stack. -/
theorem pointsInto_writeHeader? (callers : stack.PointsInto blocks) (bytes : mem.PointsInto blocks)
    (written : writeHeader? f stack sp mem = some mem') : mem'.PointsInto blocks := by
  obtain ⟨mid, atLink, atRa⟩ := Option.bind_eq_some_iff.mp written
  exact (bytes.storeAt? callers.innermost.1 atLink).storeAt? callers.innermost.2 atRa

theorem nextBlock_writeHeader? (written : writeHeader? f stack sp mem = some mem') :
    mem'.nextBlock = mem.nextBlock := by
  obtain ⟨mid, atLink, atRa⟩ := Option.bind_eq_some_iff.mp written
  exact (Mem.nextBlock_storeAt? atRa).trans (Mem.nextBlock_storeAt? atLink)

/-- A parameter is read from the frame of the caller, so it is covered by memory. -/
theorem pointsInto_param? {t : Typ} {ofs : Int64} {v : Val} (bytes : mem.PointsInto blocks)
    (read : param? f stack sp mem t ofs = some v) : v.PointsInto blocks := by
  obtain ⟨link, -, read⟩ := Option.bind_eq_some_iff.mp read
  obtain ⟨-, loaded⟩ := Option.ite_none_right_eq_some.mp read
  exact bytes.loadAt? loaded

theorem pointsInto_frameArgs? {regs : RegFile} {s : Signature} {args : List Val}
    (values : regs.PointsInto blocks) (bytes : mem.PointsInto blocks)
    (read : frameArgs? regs mem sp s = some args) : ∀ a ∈ args, a.PointsInto blocks := by
  intro a listed
  obtain ⟨l, -, here⟩ := exists_of_mem_mapM read listed
  cases l with
  | reg r =>
      cases here
      exact values.get r
  | slot kind ofs t =>
      cases kind with
      | outgoing => exact bytes.loadAt? here
      | spill | incoming => cases here

end

/-- Whether a state points only to allocated blocks, as the program's symbols
do. -/
structure Grounded (env : Env) (s : State) : Prop where
  globals : ∀ b, (env.globalAt? b).isSome → s.mem.Allocated b
  pointers : s.PointsInto s.mem.Allocated

variable {env : Env} {host : Host} {choose : ReturnAddresses}

/-! ### Steps -/

/-- Memory only grows, and the pointers of the next state are to blocks in it. -/
theorem exec_grounded {f : Function} {act : Activation} {pc : Nat} {regs : RegFile} {mem : Mem}
    {instr : Instr} {events : Trace} {s : State} (honest : host.ForgesNone)
    (body : env.internalAt? act.func = some f)
    (globals : ∀ b, (env.globalAt? b).isSome → mem.Allocated b)
    (callers : act.stack.PointsInto mem.Allocated) (frame : act.sp.PointsInto mem.Allocated)
    (values : regs.PointsInto mem.Allocated) (bytes : mem.PointsInto mem.Allocated)
    (ran : exec env host.calls choose f act pc regs mem instr = some (events, s)) :
    mem.nextBlock ≤ s.mem.nextBlock ∧ s.PointsInto s.mem.Allocated := by
  have symbols : ∀ name b, env.symbols name = some b → mem.Allocated b :=
    fun name b found => globals b (env.known_of_symbols found)
  cases instr with
  | getStack ofs t dst =>
      obtain ⟨v, loaded, ran⟩ := Option.bind_eq_some_iff.mp ran
      cases ran
      exact ⟨Nat.le_refl _, .running callers frame (values.set dst (bytes.loadAt? loaded)) bytes⟩
  | setStack src ofs t =>
      obtain ⟨mem', stored, ran⟩ := Option.bind_eq_some_iff.mp ran
      cases ran
      have grows := Nat.le_of_eq (Mem.nextBlock_storeAt? stored).symm
      have bytes' := bytes.storeAt? (values.get src) stored
      refine ⟨grows, State.PointsInto.imp (Mem.Allocated.mono grows) ?_⟩
      exact .running callers frame (values.clobber _) bytes'
  | getParam ofs t dst =>
      obtain ⟨v, read, ran⟩ := Option.bind_eq_some_iff.mp ran
      cases ran
      have result := pointsInto_param? bytes read
      exact ⟨Nat.le_refl _, .running callers frame ((values.clobber _).set dst result) bytes⟩
  | op o args dst =>
      obtain ⟨v, evaluated, ran⟩ := Option.bind_eq_some_iff.mp ran
      cases ran
      have result := Operation.pointsInto_result symbols frame (values.read args) evaluated
      exact ⟨Nat.le_refl _, .running callers frame ((values.clobber _).set dst result) bytes⟩
  | load chunk addr args dst =>
      obtain ⟨a, -, ran⟩ := Option.bind_eq_some_iff.mp ran
      obtain ⟨v, loaded, ran⟩ := Option.bind_eq_some_iff.mp ran
      cases ran
      have result := bytes.loadAt? loaded
      exact ⟨Nat.le_refl _, .running callers frame ((values.clobber _).set dst result) bytes⟩
  | store chunk addr args src =>
      obtain ⟨a, -, ran⟩ := Option.bind_eq_some_iff.mp ran
      obtain ⟨mem', stored, ran⟩ := Option.bind_eq_some_iff.mp ran
      cases ran
      have grows := Nat.le_of_eq (Mem.nextBlock_storeAt? stored).symm
      have bytes' := bytes.storeAt? (values.get src) stored
      refine ⟨grows, State.PointsInto.imp (Mem.Allocated.mono grows) ?_⟩
      exact .running callers frame (values.clobber _) bytes'
  | call sig callee =>
      obtain ⟨b, -, ran⟩ := Option.bind_eq_some_iff.mp ran
      obtain ⟨ra, -, ran⟩ := Option.bind_eq_some_iff.mp ran
      cases ran
      have known : (env.functionAt? act.func).isSome := by
        rw [env.internalAt?_eq_some_iff.mp body]
        rfl
      -- The return address is a pointer to the code of the caller.
      have code : mem.Allocated act.func := globals _ (env.global_of_functionAt? known)
      exact ⟨Nat.le_refl _, .calling (callers.push ⟨frame, code⟩) values bytes⟩
  | tailCall sig callee =>
      obtain ⟨b, -, ran⟩ := Option.bind_eq_some_iff.mp ran
      obtain ⟨mem', released, ran⟩ := Option.bind_eq_some_iff.mp ran
      cases ran
      have freed := (release?_eq_some_iff.mp released).2
      have grows := Nat.le_of_eq (Mem.nextBlock_freeFrame? freed).symm
      refine ⟨grows, State.PointsInto.imp (Mem.Allocated.mono grows) ?_⟩
      exact .calling callers values (bytes.freeFrame? freed)
  | builtin ef args res =>
      obtain ⟨vs, evaluated, ran⟩ := Option.bind_eq_some_iff.mp ran
      obtain ⟨out, called, ran⟩ := Option.bind_eq_some_iff.mp ran
      cases ran
      have grows := (Host.keepsFrames_calls called).grows
      have more := Mem.Allocated.mono grows
      have given := BuiltinArg.pointsInto_evalList? symbols frame values.get bytes evaluated
      obtain ⟨result, bytes'⟩ := Host.pointsInto_calls honest given bytes called
      have values' := ((values.imp more).clobber (Clobber.builtin ef)).setAll
        (res.pointsInto_writes result)
      exact ⟨grows, .running (callers.imp more) (frame.imp more) values' bytes'⟩
  | label l =>
      cases ran
      exact ⟨Nat.le_refl _, .running callers frame values bytes⟩
  | goto l =>
      obtain ⟨target, -, ran⟩ := Option.bind_eq_some_iff.mp ran
      cases ran
      exact ⟨Nat.le_refl _, .running callers frame values bytes⟩
  | cond c args l =>
      obtain ⟨b, -, ran⟩ := Option.bind_eq_some_iff.mp ran
      cases b with
      | true =>
          obtain ⟨target, -, ran⟩ := Option.bind_eq_some_iff.mp ran
          cases ran
          exact ⟨Nat.le_refl _, .running callers frame (values.clobber _) bytes⟩
      | false =>
          cases ran
          exact ⟨Nat.le_refl _, .running callers frame (values.clobber _) bytes⟩
  | jumpTable r labels =>
      simp only [exec] at ran
      split at ran
      · obtain ⟨l, -, ran⟩ := Option.bind_eq_some_iff.mp ran
        obtain ⟨target, -, ran⟩ := Option.bind_eq_some_iff.mp ran
        cases ran
        exact ⟨Nat.le_refl _, .running callers frame (values.clobber _) bytes⟩
      · cases ran
  | ret =>
      obtain ⟨mem', released, ran⟩ := Option.bind_eq_some_iff.mp ran
      cases ran
      have freed := (release?_eq_some_iff.mp released).2
      have grows := Nat.le_of_eq (Mem.nextBlock_freeFrame? freed).symm
      refine ⟨grows, State.PointsInto.imp (Mem.Allocated.mono grows) ?_⟩
      exact .returned callers values (bytes.freeFrame? freed)

/-- A step of Frame-IR leaves no pointer that is not to an allocated block. Block numbers are never
taken back, so the older pointers are still to allocated blocks. -/
theorem step_grounded {s t : State} {events : Trace} (honest : host.ForgesNone)
    (grounded : Grounded env s) (stepped : step env host.calls choose s = some (events, t)) :
    s.mem.nextBlock ≤ t.mem.nextBlock ∧ t.PointsInto t.mem.Allocated := by
  obtain ⟨globals, pointers⟩ := grounded
  cases pointers with
  | @running act pc regs mem callers frame values bytes =>
      obtain ⟨f, body, stepped⟩ := Option.bind_eq_some_iff.mp stepped
      obtain ⟨instr, -, ran⟩ := Option.bind_eq_some_iff.mp stepped
      exact exec_grounded honest body globals callers frame values bytes ran
  | @calling stack callee regs mem callers values bytes =>
      simp only [step] at stepped
      split at stepped
      · obtain ⟨⟨b, mid⟩, allocated, stepped⟩ := Option.bind_eq_some_iff.mp stepped
        obtain ⟨mem', written, stepped⟩ := Option.bind_eq_some_iff.mp stepped
        cases stepped
        obtain ⟨new, next⟩ := Mem.nextBlock_alloc? allocated
        have last : mem'.nextBlock = b + 1 := (nextBlock_writeHeader? written).trans next
        have grows : mem.nextBlock ≤ mem'.nextBlock := by
          rw [last, new]
          exact Nat.le_succ _
        have more := Mem.Allocated.mono grows
        have frame : (Val.ptr b 0).PointsInto mem'.Allocated := by
          show b < mem'.nextBlock
          rw [last]
          exact Nat.lt_succ_self b
        have bytes' := pointsInto_writeHeader? callers (bytes.alloc? allocated) written
        exact ⟨grows, .running (callers.imp more) frame ((values.imp more).clobber _)
          (bytes'.imp more)⟩
      · rename_i ef outside
        obtain ⟨args, read, stepped⟩ := Option.bind_eq_some_iff.mp stepped
        obtain ⟨out, called, stepped⟩ := Option.bind_eq_some_iff.mp stepped
        cases stepped
        have grows := (Host.keepsFrames_calls called).grows
        have more := Mem.Allocated.mono grows
        have given := pointsInto_frameArgs? values bytes read
        obtain ⟨result, bytes'⟩ := Host.pointsInto_calls honest given bytes called
        have values' := (values.imp more).afterExternal ef.sig result
        exact ⟨grows, .returned (callers.imp more) values' bytes'⟩
      · cases stepped
  | @returned stack regs mem callers values bytes =>
      obtain ⟨frames, entry⟩ := stack
      cases frames with
      | nil => cases stepped
      | cons caller rest =>
          cases stepped
          obtain ⟨⟨frame, -⟩, outer⟩ := List.forall_mem_cons.mp callers.callers
          exact ⟨Nat.le_refl _, .running ⟨callers.entry, outer⟩ frame values bytes⟩

/-! ### Entry -/

theorem pointsInto_placeArgs {blocks : BlockId → Prop} {sp : Val} {args : List (Loc × Val)}
    {regs : RegFile} {mem : Mem} {placed : RegFile × Mem}
    (given : ∀ arg ∈ args, arg.2.PointsInto blocks) (values : regs.PointsInto blocks)
    (bytes : mem.PointsInto blocks) (done : placeArgs sp args regs mem = .ok placed) :
    placed.1.PointsInto blocks ∧ placed.2.PointsInto blocks := by
  induction args generalizing regs mem with
  | nil =>
      cases done
      exact ⟨values, bytes⟩
  | cons arg rest ih =>
      obtain ⟨l, v⟩ := arg
      obtain ⟨first, later⟩ := List.forall_mem_cons.mp given
      obtain ⟨regs', mem', here, done⟩ := placeArgs_cons_eq_ok_iff.mp done
      cases here with
      | @reg r => exact ih later (values.set r first) bytes done
      | slot inside stored => exact ih later values (bytes.storeAt? first stored) done

theorem pointsInto_writeEntryHeader {blocks : BlockId → Prop} {sp : Val} {ofs : Int}
    {mem mem' : Mem} (bytes : mem.PointsInto blocks)
    (done : writeEntryHeader sp ofs mem = .ok mem') : mem'.PointsInto blocks := by
  obtain ⟨mid, atLink, atRa⟩ := writeEntryHeader_eq_ok_iff.mp done
  have bytes' := bytes.storeAt? (v := .null) trivial atLink
  exact bytes'.storeAt? (v := .null) trivial atRa

namespace Grounded

theorem step {s t : State} {events : Trace} (honest : host.ForgesNone) (grounded : Grounded env s)
    (stepped : step env host.calls choose s = some (events, t)) : Grounded env t := by
  obtain ⟨grows, pointers⟩ := step_grounded honest grounded stepped
  exact ⟨fun b known => Mem.Allocated.mono grows b (grounded.globals b known), pointers⟩

theorem enter {before : Mem} {pointer : Val} {args : List Val} {s : State}
    (given : ∀ a ∈ args, a.PointsInto before.Allocated)
    (entered : enter env before pointer args = .ok s) : Grounded env s := by
  obtain ⟨callee, sig, b, fresh, regs, placed, mem, checked, allocated, done, written, rfl⟩ :=
    enter_eq_ok_iff.mp entered
  obtain ⟨globals, sound⟩ := env.allocated_of_checkEntry checked
  have arguments : ∀ arg ∈ sig.argLocs.zip args, arg.2.PointsInto before.Allocated :=
    fun arg mem => given arg.2 (List.of_mem_zip mem).2
  have empty := (Mem.noDangling_iff.mp sound).alloc? allocated
  obtain ⟨values, bytes⟩ := pointsInto_placeArgs arguments .empty empty done
  have bytes' := pointsInto_writeEntryHeader bytes written
  obtain ⟨new, next⟩ := Mem.nextBlock_alloc? allocated
  have grows := ((keepsFrames_placeArgs done).trans (keepsFrames_writeEntryHeader written)).grows
  have frame : b < mem.nextBlock := Nat.lt_of_lt_of_le (next ▸ Nat.lt_succ_self b) grows
  have more : ∀ b, before.Allocated b → mem.Allocated b :=
    Mem.Allocated.mono (Nat.le_of_lt (new ▸ frame))
  refine ⟨fun b known => more b (globals b known), ?_⟩
  refine .calling ⟨⟨frame, trivial⟩, ?_⟩ (values.imp more) (bytes'.imp more)
  exact fun caller mem => absurd mem List.not_mem_nil

theorem reachable {before : Mem} {pointer : Val} {args : List Val} {s t : State}
    (honest : host.ForgesNone) (given : ∀ a ∈ args, a.PointsInto before.Allocated)
    (entered : Frame.enter env before pointer args = .ok s)
    (reach : (semantics env choose host.calls).Reachable s t) : Grounded env t := by
  have kept : (semantics env choose host.calls).Preserved (Grounded env) :=
    fun s events t grounded stepped => grounded.step honest stepped
  exact kept.reachable (.enter given entered) reach

end Grounded

end LateIR.Frame
