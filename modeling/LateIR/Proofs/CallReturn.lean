import LateIR.Proofs.Cfg.Transition
import LateIR.Proofs.Convention.Boundary
import LateIR.Proofs.Frame.Transition
import LateIR.Proofs.Run.Steps

/-!
Calls and returns match. A run that starts at a call and stays above the
caller's depth ends, when it comes back to that depth, right after the call: the
callers are the same, and in Location-IR the caller finds its callee-saved
registers and its slots, except the outgoing ones, as it left them
(`call_returns`). The callee may do anything in between: call, call itself,
tail-call, or be external.
-/

namespace LateIR

/-! ### Location-IR -/

namespace Cfg

/-- States in the course of a call from the suspended `caller`, which has
`outer` outside it. When nobody is suspended inside it, a state that calls or
has returned holds what the caller will find. -/
inductive InsideCall (caller : Suspended) (outer : CallStack) : State → Prop where
  | running {act : Activation} {point : Point} {locs : LocState} {mem : Mem}
      (inner : CallStack) (suspended : act.stack = inner ++ caller :: outer) :
      InsideCall caller outer (.running act point locs mem)
  | calling {stack : CallStack} {callee : BlockId} {locs : LocState} {mem : Mem}
      (inner : CallStack) (suspended : stack = inner ++ caller :: outer)
      (kept : inner = [] → caller.locs.SurvivesCall locs) :
      InsideCall caller outer (.calling stack callee locs mem)
  | returned {stack : CallStack} {locs : LocState} {mem : Mem}
      (inner : CallStack) (suspended : stack = inner ++ caller :: outer)
      (kept : inner = [] → caller.locs.SurvivesCall locs) :
      InsideCall caller outer (.returned stack locs mem)

/-- States in which the caller goes on with what it had before the call. -/
def Resumed (caller : Suspended) (outer : CallStack) (s : State) : Prop :=
  ∃ locs mem, s = .running ⟨outer, caller.func, caller.sp⟩ (.inBlock caller.node caller.index)
    locs mem ∧ caller.locs.SurvivesCall locs

variable {env : Env} {calls : CallService} {caller : Suspended} {outer : CallStack}

theorem InsideCall.depth_lt {s : State} (inside : InsideCall caller outer s) :
    outer.length < s.stack.length := by
  cases inside with
  | running inner suspended | calling inner suspended _ | returned inner suspended _ =>
      simp only [State.stack, suspended, List.length_append, List.length_cons]
      omega

/-- What `return` and a tail call hand over comes from the innermost caller. -/
theorem survivesCall_of_innermost {stack inner : CallStack} (locs : LocState)
    (suspended : stack = inner ++ caller :: outer) (innermost : inner = []) :
    caller.locs.SurvivesCall (stack.callerLocs.afterReturn locs) := by
  subst innermost suspended
  exact LocState.survivesCall_afterReturn caller.locs locs

theorem InsideCall.step {s t : State} (inside : InsideCall caller outer s)
    (transition : Transition env calls s t) :
    InsideCall caller outer t ∨ Resumed caller outer t := by
  cases transition with
  | go body inBody effect =>
      cases inside with
      | running inner suspended => exact .inl (.running inner suspended)
  | call instr known =>
      cases inside with
      | running inner suspended =>
          refine .inl (.calling (_ :: inner) (congrArg _ suspended) ?_)
          intro none
          cases none
  | tailCall body known freed =>
      cases inside with
      | running inner suspended =>
          exact .inl (.calling inner suspended (survivesCall_of_innermost _ suspended))
  | ret body freed =>
      cases inside with
      | running inner suspended =>
          exact .inl (.returned inner suspended (survivesCall_of_innermost _ suspended))
  | enter body allocated =>
      cases inside with
      | calling inner suspended kept => exact .inl (.running inner suspended)
  | external outside called =>
      cases inside with
      | calling inner suspended kept =>
          refine .inl (.returned inner suspended ?_)
          intro innermost
          exact (kept innermost).trans (LocState.survivesCall_afterExternal _ _ _)
  | resume =>
      cases inside with
      | returned inner suspended kept =>
          cases inner with
          | nil =>
              cases suspended
              exact .inr ⟨_, _, rfl, kept rfl⟩
          | cons frame inner =>
              cases suspended
              exact .inl (.running inner rfl)

/-- A run from a call back to the caller's depth ends where the caller resumes. -/
theorem resumed_of_runsAbove {act : Activation} {n : Node} {index steps : Nat}
    {locs : LocState} {mem : Mem} {sig : Signature} {callee : Callee} {t : State}
    (instr : instr? env act.func n index = some (.call sig callee))
    (run : (semantics env calls).RunsAbove act.stack.length steps
      (.running act (.inBlock n index) locs mem) t)
    (back : t.stack.length = act.stack.length) :
    Resumed ⟨act.func, act.sp, locs, n, index + 1⟩ act.stack t := by
  have first : ∀ events u, (semantics env calls).step (.running act (.inBlock n index) locs mem) =
      some (events, u) → InsideCall ⟨act.func, act.sp, locs, n, index + 1⟩ act.stack u := by
    intro events u stepped
    obtain ⟨f, body, found⟩ := Option.bind_eq_some_iff.mp instr
    obtain ⟨block, here, found⟩ := Option.bind_eq_some_iff.mp found
    simp only [semantics, step, body, here, found, Option.bind_eq_bind, Option.bind_some] at stepped
    obtain ⟨b, -, stepped⟩ := Option.bind_eq_some_iff.mp stepped
    cases stepped
    exact .calling [] rfl fun _ => .refl locs
  have next : ∀ u events v, InsideCall ⟨act.func, act.sp, locs, n, index + 1⟩ act.stack u →
      (semantics env calls).step u = some (events, v) →
      InsideCall ⟨act.func, act.sp, locs, n, index + 1⟩ act.stack v ∨
        Resumed ⟨act.func, act.sp, locs, n, index + 1⟩ act.stack v := by
    intro u events v inside stepped
    exact inside.step (transition_of_step stepped)
  have low : ∀ u, Resumed ⟨act.func, act.sp, locs, n, index + 1⟩ act.stack u →
      (semantics env calls).depth u ≤ act.stack.length := by
    rintro u ⟨locs', mem', rfl, -⟩
    exact Nat.le_refl _
  rcases run.inside_or_left first next low with inside | resumed
  · exact absurd inside.depth_lt (by omega)
  · exact resumed

end Cfg

/-! ### Frame-IR -/

namespace Frame

/-- States in the course of a call from the suspended `caller`, which has
`outer` outside it. -/
def InsideCall (caller : Suspended) (outer : CallStack) (s : State) : Prop :=
  ∃ inner, s.stack = ⟨inner ++ caller :: outer.callers, outer.entry⟩

/-- States in which the caller goes on. -/
def Resumed (caller : Suspended) (outer : CallStack) (s : State) : Prop :=
  ∃ regs mem, s = .running ⟨outer, caller.func, caller.sp⟩ caller.resume regs mem

variable {env : Env} {calls : CallService} {choose : ReturnAddresses} {caller : Suspended}
  {outer : CallStack}

theorem InsideCall.depth_lt {s : State} (inside : InsideCall caller outer s) :
    outer.callers.length < s.stack.callers.length := by
  obtain ⟨inner, suspended⟩ := inside
  simp only [suspended, List.length_append, List.length_cons]
  omega

theorem InsideCall.step {s t : State} (inside : InsideCall caller outer s)
    (transition : Transition env calls choose s t) :
    InsideCall caller outer t ∨ Resumed caller outer t := by
  obtain ⟨inner, suspended⟩ := inside
  cases transition with
  | go | tailCall | ret | enter | external => exact .inl ⟨inner, suspended⟩
  | @call act pc regs mem f sig callee b ra body instr known chosen =>
      refine .inl ⟨⟨act.func, act.sp, .ptr act.func ra, pc + 1⟩ :: inner, ?_⟩
      have pushed : act.stack = _ := suspended
      simp only [State.stack, CallStack.push, pushed, List.cons_append]
  | resume =>
      cases inner with
      | nil =>
          cases suspended
          exact .inr ⟨_, _, rfl⟩
      | cons frame inner =>
          cases suspended
          exact .inl ⟨inner, rfl⟩

/-- A run from a call back to the caller's depth ends where the caller resumes. -/
theorem resumed_of_runsAbove {act : Activation} {pc steps : Nat} {regs : RegFile} {mem : Mem}
    {sig : Signature} {callee : Callee} {t : State}
    (instr : instr? env act.func pc = some (.call sig callee))
    (run : (semantics env choose calls).RunsAbove act.stack.callers.length steps
      (.running act pc regs mem) t)
    (back : t.stack.callers.length = act.stack.callers.length) :
    ∃ regs' mem', t = .running act (pc + 1) regs' mem' := by
  obtain ⟨f, body, found⟩ := Option.bind_eq_some_iff.mp instr
  -- The return address is chosen by the first step.
  have first : ∀ events u, (semantics env choose calls).step (.running act pc regs mem) =
      some (events, u) → ∃ ra, InsideCall ⟨act.func, act.sp, ra, pc + 1⟩ act.stack u := by
    intro events u stepped
    simp only [semantics, step, body, found, Option.bind_eq_bind, Option.bind_some] at stepped
    obtain ⟨b, -, stepped⟩ := Option.bind_eq_some_iff.mp stepped
    obtain ⟨ra, -, stepped⟩ := Option.bind_eq_some_iff.mp stepped
    cases stepped
    exact ⟨.ptr act.func ra, [], rfl⟩
  have next : ∀ u events v, (∃ ra, InsideCall ⟨act.func, act.sp, ra, pc + 1⟩ act.stack u) →
      (semantics env choose calls).step u = some (events, v) →
      (∃ ra, InsideCall ⟨act.func, act.sp, ra, pc + 1⟩ act.stack v) ∨
        ∃ ra, Resumed ⟨act.func, act.sp, ra, pc + 1⟩ act.stack v := by
    rintro u events v ⟨ra, inside⟩ stepped
    exact (inside.step (transition_of_step stepped)).imp (⟨ra, ·⟩) (⟨ra, ·⟩)
  have low : ∀ u, (∃ ra, Resumed ⟨act.func, act.sp, ra, pc + 1⟩ act.stack u) →
      (semantics env choose calls).depth u ≤ act.stack.callers.length := by
    rintro u ⟨ra, regs', mem', rfl⟩
    exact Nat.le_refl _
  rcases run.inside_or_left first next low with ⟨ra, inside⟩ | ⟨ra, resumed⟩
  · exact absurd inside.depth_lt (by omega)
  · exact resumed

end Frame

/-! ### Both -/

/-- A run from a call that comes back to the caller's depth ends in the caller,
right after the call, with the same callers and stack pointer. In Location-IR the
caller finds its callee-saved registers and its own and incoming slots
unchanged. -/
theorem call_returns (calls : CallService) :
    (∀ (env : Cfg.Env) (act : Cfg.Activation) (n index : Nat) (locs : LocState) (mem : Mem)
      (sig : Signature) (callee : Callee) (steps : Nat) (t : Cfg.State),
      Cfg.instr? env act.func n index = some (.call sig callee) →
      (Cfg.semantics env calls).RunsAbove act.stack.length steps
        (.running act (.inBlock n index) locs mem) t →
      t.stack.length = act.stack.length →
      ∃ locs' mem', t = .running act (.inBlock n (index + 1)) locs' mem' ∧
        (∀ r ∈ Reg.calleeSaved, locs'.regs.get r = locs.regs.get r) ∧
        ∀ kind ∈ [SlotKind.spill, .incoming], ∀ ofs t,
          locs'.getSlot kind ofs t = locs.getSlot kind ofs t) ∧
    ∀ (env : Frame.Env) (choose : Frame.ReturnAddresses) (act : Frame.Activation) (pc : Nat)
      (regs : RegFile) (mem : Mem) (sig : Signature) (callee : Callee) (steps : Nat)
      (t : Frame.State),
      Frame.instr? env act.func pc = some (.call sig callee) →
      (Frame.semantics env choose calls).RunsAbove act.stack.callers.length steps
        (.running act pc regs mem) t →
      t.stack.callers.length = act.stack.callers.length →
      ∃ regs' mem', t = .running act (pc + 1) regs' mem' := by
  constructor
  · intro env act n index locs mem sig callee steps t instr run back
    obtain ⟨locs', mem', resumed, kept⟩ := Cfg.resumed_of_runsAbove instr run back
    refine ⟨locs', mem', resumed, ?_, ?_⟩
    · intro r saved
      exact kept (.reg r) (decide_eq_true saved)
    · intro kind own ofs t
      refine kept (.slot kind ofs t) (decide_eq_true ?_)
      rintro rfl
      exact absurd own (by decide)
  · intro env choose act pc regs mem sig callee steps t instr run back
    exact Frame.resumed_of_runsAbove instr run back

/-! A caller whose callee uses a callee-saved register and goes on to a leaf by a
tail call, in both forms. -/

def Cfg.relay : Semantics Cfg.State :=
  let program : Program Cfg.Function :=
    { defs :=
        [("leaf", .function (.internal
            ⟨.main, 0, [(1, #[.op (.intConst 9) [] .ax, .ret])], 1⟩)),
          ("via", .function (.internal
            ⟨.main, 8, [(1, #[.op (.intConst 7) [] .bx, .tailCall .main (.symbol "leaf")])], 1⟩)),
          ("main", .function (.internal
            ⟨.main, 0, [(1, #[.call .main (.symbol "via"), .ret])], 1⟩))]
      main := "main" }
  Cfg.semantics ⟨program, by decide⟩ fun _ _ _ => none

/-- Main before its call, with a callee-saved register and a spill slot in use. -/
def Cfg.relayStart : Cfg.State :=
  .running ⟨[], 3, .null⟩ (.inBlock 1 0)
    ((LocState.empty.setReg .bx (.int 5)).setSlot .spill 0 .int (.int 6)) .empty

def Frame.relay : Semantics Frame.State :=
  let program : Program Frame.Function :=
    { defs :=
        [("leaf", .function (.internal
            ⟨.main, #[.op (.intConst 9) [] .ax, .ret], 16, 0, 8⟩)),
          ("via", .function (.internal
            ⟨.main, #[.op (.intConst 7) [] .bx, .tailCall .main (.symbol "leaf")], 16, 0, 8⟩)),
          ("main", .function (.internal
            ⟨.main, #[.call .main (.symbol "via"), .ret], 16, 0, 8⟩))]
      main := "main" }
  Frame.semantics ⟨program, by decide⟩ .position fun _ _ _ => none

def Frame.relayStart : Frame.State :=
  .running ⟨⟨[], ⟨.null, .null⟩⟩, 3, .null⟩ 0 .empty .empty

theorem call_returns_relay :
    (∃ t locs mem, Cfg.relay.RunsAbove 0 10 Cfg.relayStart t ∧
      t = .running ⟨[], 3, .null⟩ (.inBlock 1 1) locs mem ∧
      locs.regs.get .bx = .int 5 ∧ locs.getSlot .spill 0 .int = .int 6) ∧
    ∃ t regs mem, Frame.relay.RunsAbove 0 8 Frame.relayStart t ∧
      t = .running ⟨⟨[], ⟨.null, .null⟩⟩, 3, .null⟩ 1 regs mem := by
  obtain ⟨inLocations, inFrames⟩ := call_returns fun _ _ _ => none
  constructor
  · obtain ⟨⟨trace, t⟩, run⟩ := Option.isSome_iff_exists.mp
      (by decide +kernel : (Cfg.relay.steps? 10 Cfg.relayStart).isSome)
    have above : Cfg.relay.RunsAbove 0 10 Cfg.relayStart t :=
      Semantics.runsAbove_of_all (by decide) run (by decide +kernel)
    have back : (Cfg.relay.steps? 10 Cfg.relayStart).all fun u => u.2.stack.length = 0 := by
      decide +kernel
    rw [run] at back
    obtain ⟨locs, mem, resumed, regs, slots⟩ :=
      inLocations _ ⟨[], 3, .null⟩ 1 0 _ _ .main (.symbol "via") 10 t (by decide +kernel) above
        (of_decide_eq_true back)
    refine ⟨t, locs, mem, above, resumed, ?_, ?_⟩
    · rw [regs .bx (by decide)]
      decide
    · rw [slots .spill (by decide)]
      decide
  · obtain ⟨⟨trace, t⟩, run⟩ := Option.isSome_iff_exists.mp
      (by decide +kernel : (Frame.relay.steps? 8 Frame.relayStart).isSome)
    have above : Frame.relay.RunsAbove 0 8 Frame.relayStart t :=
      Semantics.runsAbove_of_all (by decide) run (by decide +kernel)
    have back : (Frame.relay.steps? 8 Frame.relayStart).all fun u =>
        u.2.stack.callers.length = 0 := by decide +kernel
    rw [run] at back
    obtain ⟨regs, mem, resumed⟩ :=
      inFrames _ .position ⟨⟨[], ⟨.null, .null⟩⟩, 3, .null⟩ 0 _ _ .main (.symbol "via") 8 t
        (by decide +kernel) above (of_decide_eq_true back)
    exact ⟨t, regs, mem, above, resumed⟩

end LateIR
