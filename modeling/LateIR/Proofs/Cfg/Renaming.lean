import LateIR.Proofs.Cfg.WellFormed
import LateIR.Proofs.Renaming.Location
import LateIR.Proofs.Run.Renaming

/-!
Location-IR under a renaming of blocks. States correspond when all is the same but the pointers
in them, which are renamed, and the memories correspond. A step keeps this, and so does the
entry of a function (`renames`, `enter_rename`).
-/

namespace LateIR.Cfg

variable {ρ : BlockId → BlockId}

/-! ### States -/

/-- A suspended caller with the pointers in its frame address and its locations renamed. -/
def Suspended.rename (ρ : BlockId → BlockId) (caller : Suspended) : Suspended :=
  { caller with sp := caller.sp.rename ρ, locs := caller.locs.rename ρ }

/-- Suspended callers with the pointers in them renamed. -/
def CallStack.rename (ρ : BlockId → BlockId) (stack : CallStack) : CallStack :=
  stack.map (Suspended.rename ρ)

def Activation.rename (ρ : BlockId → BlockId) (act : Activation) : Activation :=
  { act with stack := act.stack.rename ρ, sp := act.sp.rename ρ }

/-- States that are the same up to the renaming. -/
inductive State.Renamed (ρ : BlockId → BlockId) : State → State → Prop where
  | running {act : Activation} {point : Point} {locs : LocState} {m m' : Mem}
      (mem : m.Renamed ρ m') :
      Renamed ρ (.running act point locs m) (.running (act.rename ρ) point (locs.rename ρ) m')
  | calling {stack : CallStack} {callee : BlockId} {locs : LocState} {m m' : Mem}
      (mem : m.Renamed ρ m') :
      Renamed ρ (.calling stack callee locs m)
        (.calling (stack.rename ρ) callee (locs.rename ρ) m')
  | returned {stack : CallStack} {locs : LocState} {m m' : Mem} (mem : m.Renamed ρ m') :
      Renamed ρ (.returned stack locs m) (.returned (stack.rename ρ) (locs.rename ρ) m')

/-- The outermost function has a caller with empty locations, which no renaming changes. -/
theorem callerLocs_rename (stack : CallStack) :
    (stack.rename ρ).callerLocs = stack.callerLocs.rename ρ := by
  cases stack with
  | nil => exact LocState.rename_empty.symm
  | cons caller callers => rfl

theorem returned?_rename {s s' : State} (renamed : s.Renamed ρ s') :
    returned? s' = (returned? s).map (Val.rename ρ) := by
  cases renamed with
  | running | calling => rfl
  | @returned stack locs _ _ mem =>
      cases stack with
      | nil => exact congrArg some (locs.regs.get_rename _)
      | cons caller callers => rfl

/-! ### Steps -/

section

open Semantics (RenamedMove)

variable {env : Env} {host : Host}

theorem target?_rename (fixed : env.FixedBy ρ) (inj : Function.Injective ρ) (locs : LocState)
    (sig : Signature) (callee : Callee) :
    target? env (locs.rename ρ) sig callee = target? env locs sig callee := by
  simp only [target?, LocState.regs_rename,
    GlobalEnv.resolve?_rename fixed inj locs.regs.get_rename]

section

variable {act : Activation} {node index : Nat} {m m' : Mem}

theorem next_rename (locs : LocState) (renamed : m.Renamed ρ m') :
    Option.Rel (RenamedMove ρ (State.Renamed ρ)) (exec.next act node index locs m)
      (exec.next (act.rename ρ) node index (locs.rename ρ) m') :=
  .some ⟨rfl, .running renamed⟩

theorem jump_rename (target : Node) (locs : LocState) (renamed : m.Renamed ρ m') :
    Option.Rel (RenamedMove ρ (State.Renamed ρ)) (exec.jump act m target locs)
      (exec.jump (act.rename ρ) m' target (locs.rename ρ)) :=
  .some ⟨rfl, .running renamed⟩

end

/-- An instruction does the same in both states up to the renaming, or is stuck in both: the
globals it can name keep their blocks, and all else it reads is renamed. -/
theorem exec_rename (equivariant : host.Equivariant) (fixed : env.FixedBy ρ) {m m' : Mem}
    (renamed : m.Renamed ρ m') (room : m'.nextBlock < Mem.blockLimit) (f : Function)
    (act : Activation) (node index : Nat) (locs : LocState) (instr : Instr) :
    Option.Rel (RenamedMove ρ (State.Renamed ρ)) (exec env host.calls f act node index locs m instr)
      (exec env host.calls f (act.rename ρ) node index (locs.rename ρ) m' instr) := by
  have symbols : ∀ name b, env.symbols name = some b → ρ b = b := fun _ _ => fixed.symbols
  cases instr with
  | op o args dst =>
      have evaluated := o.eval?_rename renamed.inj symbols renamed.validPointer act.sp
        (locs.readRegs args)
      rw [← LocState.readRegs_rename] at evaluated
      refine rel_bind_map evaluated ?_
      intro v _
      rw [LocState.clobber_rename, LocState.setReg_rename]
      exact next_rename _ renamed
  | load chunk addr args dst =>
      have evaluated := addr.eval?_rename symbols act.sp (locs.readRegs args)
      rw [← LocState.readRegs_rename] at evaluated
      refine rel_bind_map evaluated ?_
      intro a _
      refine rel_bind_map (renamed.loadAt? chunk a) ?_
      intro v _
      rw [LocState.clobber_rename, LocState.setReg_rename]
      exact next_rename _ renamed
  | getStack kind ofs t dst =>
      simp only [exec, LocState.getSlot_rename, LocState.clobber_rename, LocState.setReg_rename]
      split
      · exact next_rename _ renamed
      · exact .none
  | setStack src kind ofs t =>
      simp only [exec, LocState.regs_rename, RegFile.get_rename, LocState.clobber_rename,
        LocState.setSlot_rename]
      split
      · exact next_rename _ renamed
      · exact .none
  | store chunk addr args src =>
      have evaluated := addr.eval?_rename symbols act.sp (locs.readRegs args)
      rw [← LocState.readRegs_rename] at evaluated
      refine rel_bind_map evaluated ?_
      intro a _
      have stored := renamed.storeAt? chunk a (locs.regs.get src)
      rw [← RegFile.get_rename] at stored
      refine rel_bind stored ?_
      rintro n n' - after
      rw [LocState.clobber_rename]
      exact next_rename _ after
  | call sig callee =>
      simp only [exec, target?_rename fixed renamed.inj]
      refine rel_bind_same ?_
      intro b _
      exact .some ⟨rfl, .calling renamed⟩
  | tailCall sig callee =>
      simp only [exec, Activation.rename, callerLocs_rename, LocState.afterReturn_rename,
        target?_rename fixed renamed.inj]
      refine rel_bind_same ?_
      intro b _
      refine rel_bind (renamed.freeFrame? act.sp f.stackSize) ?_
      rintro n n' - after
      exact .some ⟨rfl, .calling after⟩
  | builtin ef args res =>
      have evaluated := BuiltinArg.evalList?_rename renamed symbols
        locs.get_rename act.sp args
      refine rel_bind_map evaluated ?_
      intro vs _
      refine rel_bind (Host.calls_rename equivariant renamed room ef vs) ?_
      rintro out out' - ⟨trace, result, mem⟩
      rw [LocState.clobber_rename, result, res.writes_rename, LocState.setRegs_rename]
      exact .some ⟨trace, .running mem⟩
  | branch target => exact jump_rename target locs renamed
  | cond c args ifSo ifNot =>
      have decided := c.eval?_rename renamed.inj renamed.validPointer (locs.readRegs args)
      rw [← LocState.readRegs_rename] at decided
      simp only [exec, decided]
      refine rel_bind_same ?_
      intro b _
      rw [LocState.clobber_rename]
      exact jump_rename _ _ renamed
  | jumpTable r targets =>
      simp only [exec, LocState.regs_rename, RegFile.get_rename]
      cases locs.regs.get r with
      | int n =>
          refine rel_bind_same ?_
          intro target _
          rw [LocState.clobber_rename]
          exact jump_rename _ _ renamed
      | _ => exact .none
  | ret =>
      refine rel_bind (renamed.freeFrame? act.sp f.stackSize) ?_
      rintro n n' - after
      simp only [Activation.rename, callerLocs_rename, LocState.afterReturn_rename]
      exact .some ⟨rfl, .returned after⟩

/-- A step of Location-IR passes through the renaming, while block numbers are left. -/
theorem step_rename (equivariant : host.Equivariant) (fixed : env.FixedBy ρ) {s s' : State}
    (renamed : s.Renamed ρ s') (room : s'.mem.nextBlock < Mem.blockLimit) :
    Option.Rel (RenamedMove ρ (State.Renamed ρ)) (step env host.calls s)
      (step env host.calls s') := by
  cases renamed with
  | @running act point locs m m' mem =>
      cases point with
      | atNode n =>
          refine rel_bind_same ?_
          intro f _
          split
          · exact .some ⟨rfl, .running mem⟩
          · exact .none
      | inBlock n index =>
          refine rel_bind_same ?_
          intro f _
          refine rel_bind_same ?_
          intro block _
          refine rel_bind_same ?_
          intro instr _
          exact exec_rename equivariant fixed mem room f act n index locs instr
  | @calling stack callee locs m m' mem =>
      simp only [step, LocState.args_rename, LocState.atCall_rename, LocState.clobber_rename]
      cases found : env.functionAt? callee with
      | none => exact .none
      | some fd =>
          cases fd with
          | internal f =>
              refine rel_bind (mem.alloc? room 0 f.stackSize) ?_
              rintro ⟨b, n⟩ ⟨_, n'⟩ - ⟨rfl, after⟩
              exact .some ⟨rfl, .running after⟩
          | external ef =>
              refine rel_bind (Host.calls_rename equivariant mem room ef (locs.args ef.sig)) ?_
              rintro out out' - ⟨trace, result, after⟩
              rw [result, LocState.afterExternal_rename]
              exact .some ⟨trace, .returned after⟩
  | @returned stack locs m m' mem =>
      cases stack with
      | nil => exact .none
      | cons caller callers => exact .some ⟨rfl, .running mem⟩

theorem renames (equivariant : host.Equivariant) (fixed : env.FixedBy ρ) :
    (semantics env host.calls).Renames ρ (State.Renamed ρ) where
  step _ _ renamed room := step_rename equivariant fixed renamed room
  returned? _ _ renamed := returned?_rename renamed

end

/-! ### Entry -/

/-- What can be entered can be entered, with renamed arguments, in a memory that corresponds
and in which no pointer dangles. -/
theorem enter_rename {env : Env} (fixed : env.FixedBy ρ) {m m' : Mem} (renamed : m.Renamed ρ m')
    (sound : m'.noDangling) {pointer : Val} {args : List Val} {s : State}
    (entered : enter env m pointer args = .ok s) :
    ∃ s', enter env m' pointer (args.map (Val.rename ρ)) = .ok s' ∧ s.Renamed ρ s' := by
  obtain ⟨⟨callee, sig⟩, checked, entered⟩ := bind_eq_ok_iff.mp entered
  obtain ⟨locs, placed, same⟩ := bind_eq_ok_iff.mp entered
  cases same
  have checked' := GlobalEnv.checkEntry_rename fixed renamed sound checked
  have placed' : LocState.ofArgs sig (args.map (Val.rename ρ)) = .ok (locs.rename ρ) := by
    rw [LocState.ofArgs_rename, placed]
    rfl
  refine ⟨_, ?_, .calling renamed⟩
  exact bind_eq_ok_iff.mpr ⟨_, checked', bind_eq_ok_iff.mpr ⟨_, placed', rfl⟩⟩

end LateIR.Cfg
