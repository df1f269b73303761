import LateIR.Proofs.Canonical
import Mathlib.Logic.Function.Iterate

/-!
Call boundaries, read at single locations. A callee reads the registers of its caller and the
caller's outgoing slots; a caller that is returned to reads what it had in what survives calls,
and the callee's other registers (`call_boundary`). Returning twice to one caller, or returning
to it from a tail call that it makes on the way, is returning once.
-/

namespace LateIR

namespace LocState

/-- What a callee reads at each location. -/
def passedOn (caller : LocState) : Loc → Val
  | .reg r => caller.get (.reg r)
  | .slot .incoming ofs t => caller.get (.slot .outgoing ofs t)
  | .slot .spill _ _ | .slot .outgoing _ _ => .undefined

/-- What a caller reads at each location when a callee has returned. -/
def handedBack (caller callee : LocState) : Loc → Val
  | .reg r => if r.isCalleeSaved then caller.get (.reg r) else callee.get (.reg r)
  | .slot .outgoing _ _ => .undefined
  | .slot .spill ofs t => caller.get (.slot .spill ofs t)
  | .slot .incoming ofs t => caller.get (.slot .incoming ofs t)

theorem get_atCall (caller : LocState) (l : Loc) : caller.atCall.get l = caller.passedOn l := by
  cases l with
  | reg r => rfl
  | slot kind ofs t =>
      refine (caller.getSlot_atCall kind ofs t).trans ?_
      cases kind <;> rfl

theorem get_afterReturn (caller callee : LocState) (l : Loc) :
    (caller.afterReturn callee).get l = caller.handedBack callee l := by
  cases l with
  | reg r => exact caller.regs.get_afterReturn callee.regs r
  | slot kind ofs t =>
      refine (caller.getSlot_afterReturn callee kind ofs t).trans ?_
      cases kind <;> rfl

/-! ### Tail calls -/

theorem afterReturn_afterReturn (caller callee : LocState) :
    caller.afterReturn (caller.afterReturn callee) = caller.afterReturn callee := by
  have regs : caller.regs.afterReturn (caller.regs.afterReturn callee.regs) =
      caller.regs.afterReturn callee.regs := by
    apply RegFile.ext_get
    intro r
    rw [RegFile.get_afterReturn, RegFile.get_afterReturn]
    split <;> rfl
  exact congrArg (LocState.mk · _) regs

/-- The state in which a function starts that another one calls in place of returning. -/
def atTailCall (caller callee : LocState) : LocState := (caller.afterReturn callee).atCall

/-- A return looks only at registers, and those do not change when a callee is entered. -/
theorem afterReturn_atTailCall (caller callee : LocState) :
    caller.afterReturn (caller.atTailCall callee) = caller.afterReturn callee :=
  caller.afterReturn_afterReturn callee

theorem afterReturn_iterate_atTailCall (caller callee : LocState) (n : Nat) :
    caller.afterReturn (caller.atTailCall^[n] callee) = caller.afterReturn callee := by
  induction n with
  | zero => rfl
  | succ n ih => rw [Function.iterate_succ_apply', afterReturn_atTailCall, ih]

end LocState

/-- What is read at every location behind a call and behind a return. The slots of a caller
that was built may be passed on by writes, one after the other, and a chain of tail calls of
any length returns what its first function would have returned. -/
theorem call_boundary (outer caller callee : LocState) (built : outer.Built) :
    (∀ l, outer.atCall.get l = outer.passedOn l) ∧
    outer.atCallByWrites = outer.atCall ∧
    (∀ l, (caller.afterReturn callee).get l = caller.handedBack callee l) ∧
    caller.afterReturn (caller.afterReturn callee) = caller.afterReturn callee ∧
    caller.afterReturn (caller.afterReturn callee).atCall = caller.afterReturn callee ∧
    ∀ n, caller.afterReturn (caller.atTailCall^[n] callee) = caller.afterReturn callee :=
  ⟨outer.get_atCall, built.canonical.atCallByWrites_eq, caller.get_afterReturn callee,
    caller.afterReturn_afterReturn callee, caller.afterReturn_atTailCall callee,
    caller.afterReturn_iterate_atTailCall callee⟩

/-! A caller whose outgoing slots lie without gaps between them, and one of its slots that the
callee must not see. -/

def packedCaller : LocState :=
  (((LocState.empty.set (.reg .bx) (.int 1)).set (.slot .outgoing 2 .int) (.ptr 5 0)).set
    (.slot .outgoing 0 .long) (.ptr 5 8)).set (.slot .spill 0 .int) (.int 4)

theorem built_packedCaller : packedCaller.Built :=
  .set (.set (.set (.set .empty _ _ rfl rfl) _ _ (by decide) (by decide)) _ _ (by decide)
    (by decide)) _ _ (by decide) (by decide)

theorem call_boundary_packed :
    packedCaller.Built ∧ packedCaller.atCallByWrites = packedCaller.atCall ∧
      packedCaller.atCall.get (.slot .incoming 0 .long) = .ptr 5 8 ∧
      packedCaller.atCall.get (.slot .incoming 1 .int) = .undefined ∧
      packedCaller.atCall.get (.slot .spill 0 .int) = .undefined ∧
      (∃ callee : LocState, callee.get (.reg .bx) = .int 9 ∧ callee.get (.reg .ax) = .int 7 ∧
        (packedCaller.afterReturn callee).get (.reg .bx) = .int 1 ∧
        (packedCaller.afterReturn callee).get (.reg .ax) = .int 7 ∧
        (packedCaller.afterReturn callee).get (.slot .outgoing 2 .int) = .undefined ∧
        packedCaller.afterReturn ((packedCaller.atTailCall)^[3] callee) =
          packedCaller.afterReturn callee) := by
  let callee := (LocState.empty.set (.reg .bx) (.int 9)).set (.reg .ax) (.int 7)
  obtain ⟨entered, writes, returned, -, -, chain⟩ :=
    call_boundary packedCaller packedCaller callee built_packedCaller
  refine ⟨built_packedCaller, writes, ?_, ?_, ?_, callee, by decide, by decide, ?_, ?_, ?_,
    chain 3⟩
  · exact (entered _).trans (by decide)
  · exact (entered _).trans (by decide)
  · exact (entered _).trans (by decide)
  · exact (returned _).trans (by decide)
  · exact (returned _).trans (by decide)
  · exact (returned _).trans (by decide)

end LateIR
