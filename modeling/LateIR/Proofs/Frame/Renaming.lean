import LateIR.Proofs.Frame.Entry
import LateIR.Proofs.Frame.WellFormed
import LateIR.Proofs.Renaming.Location
import LateIR.Proofs.Run.Renaming

/-!
Frame-IR under a renaming of blocks. Return addresses name the blocks of functions, which the
renaming leaves alone, and links name frames, which are compared for equality only. So a step
keeps the correspondence of states, and so does the entry of a function (`renames`,
`enter_rename`).
-/

namespace LateIR.Frame

variable {ρ : BlockId → BlockId}

/-! ### States -/

/-- A suspended caller with its stack pointer and return address renamed. Its code is not, since the
block of a function keeps its number. -/
def Suspended.rename (ρ : BlockId → BlockId) (caller : Suspended) : Suspended :=
  { caller with sp := caller.sp.rename ρ, ra := caller.ra.rename ρ }

def EntryFrame.rename (ρ : BlockId → BlockId) (entry : EntryFrame) : EntryFrame :=
  ⟨entry.sp.rename ρ, entry.ra.rename ρ⟩

/-- Suspended callers with the pointers in them renamed. -/
def CallStack.rename (ρ : BlockId → BlockId) (stack : CallStack) : CallStack :=
  ⟨stack.callers.map (Suspended.rename ρ), stack.entry.rename ρ⟩

/-- The activation with its callers and its frame renamed. -/
def Activation.rename (ρ : BlockId → BlockId) (act : Activation) : Activation :=
  { act with stack := act.stack.rename ρ, sp := act.sp.rename ρ }

/-- States that are the same up to the renaming. -/
inductive State.Renamed (ρ : BlockId → BlockId) : State → State → Prop where
  | running {act : Activation} {pc : Nat} {regs : RegFile} {m m' : Mem} (mem : m.Renamed ρ m') :
      Renamed ρ (.running act pc regs m) (.running (act.rename ρ) pc (regs.rename ρ) m')
  | calling {stack : CallStack} {callee : BlockId} {regs : RegFile} {m m' : Mem}
      (mem : m.Renamed ρ m') :
      Renamed ρ (.calling stack callee regs m)
        (.calling (stack.rename ρ) callee (regs.rename ρ) m')
  | returned {stack : CallStack} {regs : RegFile} {m m' : Mem} (mem : m.Renamed ρ m') :
      Renamed ρ (.returned stack regs m) (.returned (stack.rename ρ) (regs.rename ρ) m')

/-- The link a callee saves is the renamed one, for the outermost function too, whose caller is the
entry frame. -/
theorem callerSp_rename (stack : CallStack) :
    (stack.rename ρ).callerSp = stack.callerSp.rename ρ := by
  obtain ⟨callers, entry⟩ := stack
  cases callers <;> rfl

theorem callerRa_rename (stack : CallStack) :
    (stack.rename ρ).callerRa = stack.callerRa.rename ρ := by
  obtain ⟨callers, entry⟩ := stack
  cases callers <;> rfl

/-- A run that has come to its end has done so in both, and its result is renamed. -/
theorem returned?_rename {s s' : State} (renamed : s.Renamed ρ s') :
    returned? s' = (returned? s).map (Val.rename ρ) := by
  cases renamed with
  | running | calling => rfl
  | @returned stack regs _ _ mem =>
      obtain ⟨callers, entry⟩ := stack
      cases callers with
      | nil => exact congrArg some (regs.get_rename _)
      | cons caller callers => rfl

/-! ### Frames -/

section

variable {m m' : Mem} (renamed : m.Renamed ρ m') (f : Function) (stack : CallStack) (sp : Val)
include renamed

/-- Both words of the header are stored, or the same store fails. -/
theorem writeHeader?_rename :
    Option.Rel (Mem.Renamed ρ) (writeHeader? f stack sp m)
      (writeHeader? f (stack.rename ρ) (sp.rename ρ) m') := by
  simp only [writeHeader?, callerSp_rename, callerRa_rename]
  refine rel_bind (renamed.storeStack? sp .pointer f.linkOfs stack.callerSp) ?_
  rintro n n' - linked
  exact linked.storeStack? sp .pointer f.retAddrOfs stack.callerRa

/-- A frame is released where its header still holds the link and the return address. Comparing them
needs the renaming to be injective. -/
theorem release?_rename :
    Option.Rel (Mem.Renamed ρ) (release? f stack sp m)
      (release? f (stack.rename ρ) (sp.rename ρ) m') := by
  simp only [release?, callerSp_rename, callerRa_rename]
  refine rel_bind_map (renamed.loadStack? sp .pointer f.linkOfs) ?_
  intro link _
  refine rel_bind_map (renamed.loadStack? sp .pointer f.retAddrOfs) ?_
  intro ra _
  simp only [(Val.rename_injective renamed.inj).eq_iff]
  split
  · exact renamed.freeFrame? sp f.stackSize
  · exact .none

/-- A parameter is read through the link, which is checked as in `release?`. -/
theorem param?_rename (t : Typ) (ofs : Int64) :
    param? f (stack.rename ρ) (sp.rename ρ) m' t ofs =
      (param? f stack sp m t ofs).map (Val.rename ρ) := by
  simp only [param?, callerSp_rename, renamed.loadStack?, Option.bind_eq_bind]
  cases m.loadStack? sp .pointer f.linkOfs with
  | none => rfl
  | some link =>
      simp only [Option.map_some, Option.bind_some, (Val.rename_injective renamed.inj).eq_iff]
      split <;> rfl

theorem frameArgs?_rename (regs : RegFile) (callerSp : Val) (s : Signature) :
    frameArgs? (regs.rename ρ) m' (callerSp.rename ρ) s =
      (frameArgs? regs m callerSp s).map (List.map (Val.rename ρ)) := by
  refine mapM_rename ?_ s.argLocs
  intro l
  cases l with
  | reg r => exact congrArg some (regs.get_rename r)
  | slot kind ofs t =>
      cases kind with
      | outgoing => exact renamed.loadStack? callerSp t _
      | spill | incoming => rfl

end

/-! ### Steps -/

section

open Semantics (RenamedMove)

variable {env : Env} {host : Host} {choose : ReturnAddresses}

theorem target?_rename (fixed : env.FixedBy ρ) (inj : Function.Injective ρ) (regs : RegFile)
    (callee : Callee) : target? env (regs.rename ρ) callee = target? env regs callee := by
  rw [target?, target?, GlobalEnv.resolve?_rename fixed inj regs.get_rename]

section

variable {act : Activation} {pc : Nat} {m m' : Mem}

theorem next_rename (regs : RegFile) (renamed : m.Renamed ρ m') :
    Option.Rel (RenamedMove ρ (State.Renamed ρ)) (exec.next act pc regs m)
      (exec.next (act.rename ρ) pc (regs.rename ρ) m') :=
  .some ⟨rfl, .running renamed⟩

theorem jump_rename (target : Nat) (regs : RegFile) (renamed : m.Renamed ρ m') :
    Option.Rel (RenamedMove ρ (State.Renamed ρ)) (exec.jump act m target regs)
      (exec.jump (act.rename ρ) m' target (regs.rename ρ)) :=
  .some ⟨rfl, .running renamed⟩

end

/-- An instruction does the same in both states up to the renaming, or is stuck in both. The
function has to keep its block number, as the return address of a call points there. -/
theorem exec_rename (equivariant : host.Equivariant) (fixed : env.FixedBy ρ) {m m' : Mem}
    (renamed : m.Renamed ρ m') (room : m'.nextBlock < Mem.blockLimit) (f : Function)
    {act : Activation} (code : ρ act.func = act.func) (pc : Nat) (regs : RegFile) (instr : Instr) :
    Option.Rel (RenamedMove ρ (State.Renamed ρ)) (exec env host.calls choose f act pc regs m instr)
      (exec env host.calls choose f (act.rename ρ) pc (regs.rename ρ) m' instr) := by
  have symbols : ∀ name b, env.symbols name = some b → ρ b = b := fun _ _ => fixed.symbols
  cases instr with
  | getStack ofs t dst =>
      refine rel_bind_map (renamed.loadStack? act.sp t ofs) ?_
      intro v _
      rw [RegFile.set_rename]
      exact next_rename _ renamed
  | setStack src ofs t =>
      have stored := renamed.storeStack? act.sp t ofs (regs.get src)
      rw [← RegFile.get_rename] at stored
      refine rel_bind stored ?_
      rintro n n' - after
      rw [RegFile.clobber_rename]
      exact next_rename _ after
  | getParam ofs t dst =>
      refine rel_bind_map (param?_rename renamed f act.stack act.sp t ofs) ?_
      intro v _
      rw [RegFile.clobber_rename, RegFile.set_rename]
      exact next_rename _ renamed
  | op o args dst =>
      have evaluated := o.eval?_rename renamed.inj symbols renamed.validPointer act.sp
        (regs.read args)
      rw [← RegFile.read_rename] at evaluated
      refine rel_bind_map evaluated ?_
      intro v _
      rw [RegFile.clobber_rename, RegFile.set_rename]
      exact next_rename _ renamed
  | load chunk addr args dst =>
      have evaluated := addr.eval?_rename symbols act.sp (regs.read args)
      rw [← RegFile.read_rename] at evaluated
      refine rel_bind_map evaluated ?_
      intro a _
      refine rel_bind_map (renamed.loadAt? chunk a) ?_
      intro v _
      rw [RegFile.clobber_rename, RegFile.set_rename]
      exact next_rename _ renamed
  | store chunk addr args src =>
      have evaluated := addr.eval?_rename symbols act.sp (regs.read args)
      rw [← RegFile.read_rename] at evaluated
      refine rel_bind_map evaluated ?_
      intro a _
      have stored := renamed.storeAt? chunk a (regs.get src)
      rw [← RegFile.get_rename] at stored
      refine rel_bind stored ?_
      rintro n n' - after
      rw [RegFile.clobber_rename]
      exact next_rename _ after
  | call sig callee =>
      simp only [exec, target?_rename fixed renamed.inj]
      refine rel_bind_same ?_
      intro b _
      refine rel_bind_same ?_
      intro ra _
      -- The return address points to the code of the caller, whose block keeps its number.
      have pushed : ((act.stack.push ⟨act.func, act.sp, .ptr act.func ra, pc + 1⟩).rename ρ) =
          (act.stack.rename ρ).push ⟨act.func, act.sp.rename ρ, .ptr act.func ra, pc + 1⟩ := by
        simp only [CallStack.rename, CallStack.push, List.map_cons, Suspended.rename,
          Val.rename, code]
      refine .some ⟨rfl, ?_⟩
      simp only [Activation.rename, ← pushed]
      exact .calling renamed
  | tailCall sig callee =>
      simp only [exec, target?_rename fixed renamed.inj]
      refine rel_bind_same ?_
      intro b _
      refine rel_bind (release?_rename renamed f act.stack act.sp) ?_
      rintro n n' - after
      exact .some ⟨rfl, .calling after⟩
  | builtin ef args res =>
      have evaluated := BuiltinArg.evalList?_rename renamed symbols regs.get_rename act.sp args
      refine rel_bind_map evaluated ?_
      intro vs _
      refine rel_bind (Host.calls_rename equivariant renamed room ef vs) ?_
      rintro out out' - ⟨trace, result, mem⟩
      rw [RegFile.clobber_rename, result, res.writes_rename, RegFile.setAll_rename]
      exact .some ⟨trace, .running mem⟩
  | label l => exact next_rename regs renamed
  | goto l =>
      refine rel_bind_same ?_
      intro target _
      exact jump_rename target regs renamed
  | cond c args l =>
      have decided := c.eval?_rename renamed.inj renamed.validPointer (regs.read args)
      rw [← RegFile.read_rename] at decided
      simp only [exec, decided]
      refine rel_bind_same ?_
      intro b _
      rw [RegFile.clobber_rename]
      split
      · refine rel_bind_same ?_
        intro target _
        exact jump_rename _ _ renamed
      · exact jump_rename _ _ renamed
  | jumpTable r labels =>
      simp only [exec, RegFile.get_rename]
      cases regs.get r with
      | int n =>
          refine rel_bind_same ?_
          intro l _
          refine rel_bind_same ?_
          intro target _
          rw [RegFile.clobber_rename]
          exact jump_rename _ _ renamed
      | _ => exact .none
  | ret =>
      refine rel_bind (release?_rename renamed f act.stack act.sp) ?_
      rintro n n' - after
      exact .some ⟨rfl, .returned after⟩

/-- A step of Frame-IR passes through the renaming, while block numbers are left. -/
theorem step_rename (equivariant : host.Equivariant) (fixed : env.FixedBy ρ) {s s' : State}
    (renamed : s.Renamed ρ s') (room : s'.mem.nextBlock < Mem.blockLimit) :
    Option.Rel (RenamedMove ρ (State.Renamed ρ)) (step env host.calls choose s)
      (step env host.calls choose s') := by
  cases renamed with
  | @running act pc regs m m' mem =>
      refine rel_bind_same ?_
      intro f body
      have known := env.internalAt?_eq_some_iff.mp body
      have code := fixed.functionAt? (Option.isSome_of_eq_some known)
      refine rel_bind_same ?_
      intro instr _
      exact exec_rename equivariant fixed mem room f code pc regs instr
  | @calling stack callee regs m m' mem =>
      simp only [step, RegFile.clobber_rename, callerSp_rename]
      cases found : env.functionAt? callee with
      | none => exact .none
      | some fd =>
          cases fd with
          | internal f =>
              refine rel_bind (mem.alloc? room 0 f.stackSize) ?_
              rintro ⟨b, n⟩ ⟨_, n'⟩ - ⟨rfl, fresh⟩
              refine rel_bind (writeHeader?_rename fresh f stack (.ptr b 0)) ?_
              rintro n n' - after
              exact .some ⟨rfl, .running after⟩
          | external ef =>
              refine rel_bind_map (frameArgs?_rename mem regs stack.callerSp ef.sig) ?_
              intro args _
              refine rel_bind (Host.calls_rename equivariant mem room ef args) ?_
              rintro out out' - ⟨trace, result, after⟩
              rw [result, RegFile.afterExternal_rename]
              exact .some ⟨trace, .returned after⟩
  | @returned stack regs m m' mem =>
      obtain ⟨callers, entry⟩ := stack
      cases callers with
      | nil => exact .none
      | cons caller callers => exact .some ⟨rfl, .running mem⟩

theorem renames (equivariant : host.Equivariant) (fixed : env.FixedBy ρ) :
    (semantics env choose host.calls).Renames ρ (State.Renamed ρ) where
  step _ _ renamed room := step_rename equivariant fixed renamed room
  returned? _ _ renamed := returned?_rename renamed

end

/-! ### Entry -/

/-- Renamed arguments are put in the same registers and stack words. -/
theorem placeArgs_rename {sp : Val} {places : List (Loc × Val)} {regs : RegFile} {m m' : Mem}
    {placed : RegFile × Mem} (renamed : m.Renamed ρ m')
    (done : placeArgs sp places regs m = .ok placed) :
    ∃ n', placeArgs (sp.rename ρ) (renameWrites ρ places) (regs.rename ρ) m' =
      .ok (placed.1.rename ρ, n') ∧ placed.2.Renamed ρ n' := by
  induction places generalizing regs m m' with
  | nil =>
      cases done
      exact ⟨m', rfl, renamed⟩
  | cons first rest ih =>
      obtain ⟨l, v⟩ := first
      obtain ⟨regs', mem', here, done⟩ := placeArgs_cons_eq_ok_iff.mp done
      rw [renameWrites_cons]
      cases here with
      | @reg r =>
          obtain ⟨n', later, after⟩ := ih renamed done
          rw [← RegFile.set_rename] at later
          exact ⟨n', placeArgs_cons_eq_ok_iff.mpr ⟨_, _, .reg, later⟩, after⟩
      | @slot kind ofs t _ inside stored =>
          obtain ⟨mid', stored', between⟩ :=
            exists_of_rel (renamed.storeStack? sp t (.ofInt (slotByteOffset ofs)) v) stored
          obtain ⟨n', later, after⟩ := ih between done
          exact ⟨n', placeArgs_cons_eq_ok_iff.mpr ⟨_, _, .slot inside stored', later⟩, after⟩

theorem writeEntryHeader_rename {sp : Val} {ofs : Int} {m m' n : Mem} (renamed : m.Renamed ρ m')
    (done : writeEntryHeader sp ofs m = .ok n) :
    ∃ n', writeEntryHeader (sp.rename ρ) ofs m' = .ok n' ∧ n.Renamed ρ n' := by
  obtain ⟨mid, atLink, atRa⟩ := writeEntryHeader_eq_ok_iff.mp done
  obtain ⟨mid', atLink', between⟩ :=
    exists_of_rel (renamed.storeStack? sp .pointer (.ofInt ofs) .null) atLink
  obtain ⟨n', atRa', after⟩ :=
    exists_of_rel (between.storeStack? sp .pointer (.ofInt (ofs + 8)) .null) atRa
  exact ⟨n', writeEntryHeader_eq_ok_iff.mpr ⟨mid', atLink', atRa'⟩, after⟩

/-- What can be entered can be entered, with renamed arguments, in a memory that corresponds
and in which no pointer dangles, if there is a block number left for the outermost caller. -/
theorem enter_rename {env : Env} (fixed : env.FixedBy ρ) {m m' : Mem} (renamed : m.Renamed ρ m')
    (sound : m'.noDangling) (room : m'.nextBlock < Mem.blockLimit) {pointer : Val}
    {args : List Val} {s : State} (entered : enter env m pointer args = .ok s) :
    ∃ s', enter env m' pointer (args.map (Val.rename ρ)) = .ok s' ∧ s.Renamed ρ s' := by
  obtain ⟨callee, sig, b, fresh, regs, placed, mem, checked, allocated, done, written, rfl⟩ :=
    enter_eq_ok_iff.mp entered
  have checked' := GlobalEnv.checkEntry_rename fixed renamed sound checked
  obtain ⟨⟨_, fresh'⟩, allocated', rfl, grown⟩ :=
    exists_of_rel (renamed.alloc? room 0 (slotByteOffset sig.argWords + entryHeaderSize)) allocated
  obtain ⟨placed', done', filled⟩ := placeArgs_rename grown done
  rw [RegFile.rename_empty, renameWrites, ← List.zip_map_right] at done'
  obtain ⟨mem', written', after⟩ := writeEntryHeader_rename filled written
  refine ⟨_, enter_eq_ok_iff.mpr ⟨callee, sig, ρ b, fresh', regs.rename ρ, placed', mem', checked',
    allocated', done', written', rfl⟩, ?_⟩
  exact .calling after

end LateIR.Frame
