import LateIR.Proofs.Cfg.Transition
import LateIR.Proofs.Convention.Boundary
import LateIR.Proofs.FrameHeader
import LateIR.Proofs.Memory.Newest
import LateIR.Proofs.Run.Steps

/-!
Tail calls through a trampoline, a function that does nothing but go on to another one. A
call of the trampoline comes to run the other function just as a direct call does: with the
same callers, the same registers and a frame with the same contents. Only the frame's block
has a number that is larger by one, since the trampoline's own frame, which is dead by then,
has taken a number (`trampoline_invisible`).
-/

namespace LateIR

/-! ### Locations handed on -/

namespace LocState

/-- What a function finds that is called in the given state. -/
def entered (caller : LocState) : LocState := caller.atCall.clobber Clobber.functionEntry

/-- What a function finds that a trampoline goes on to, when the trampoline has been called in
the given state and `caller` is suspended. -/
def enteredThrough (caller locs : LocState) : LocState := (caller.afterReturn locs.entered).entered

variable {caller locs : LocState}

theorem slots_enteredThrough : (caller.enteredThrough locs).slots.entries = [] :=
  slots_atCall_afterReturn caller locs.entered

theorem regs_enteredThrough
    (kept : ∀ r ∈ Reg.calleeSaved, locs.regs.get r = caller.regs.get r) :
    (caller.enteredThrough locs).regs = locs.entered.regs := by
  have handed : caller.regs.afterReturn locs.entered.regs = locs.entered.regs := by
    apply RegFile.afterReturn_eq_callee
    intro r saved
    have own : r ∈ Reg.calleeSaved := of_decide_eq_true saved
    have unclobbered : ∀ r ∈ Reg.calleeSaved, r ∉ Clobber.functionEntry := by decide
    exact (locs.regs.get_clobber _ r).trans ((if_neg (unclobbered r own)).trans (kept r own))
  show (caller.regs.afterReturn locs.entered.regs).clobber Clobber.functionEntry = _
  rw [handed]
  exact locs.regs.clobber_clobber _

/-- Without arguments on the stack nothing is lost on the way. -/
theorem get_enteredThrough (kept : ∀ r ∈ Reg.calleeSaved, locs.regs.get r = caller.regs.get r)
    (noArgs : ∀ ofs t, locs.getSlot .outgoing ofs t = .undefined) (l : Loc) :
    (caller.enteredThrough locs).get l = locs.entered.get l := by
  cases l with
  | reg r => exact congrArg (RegFile.get · r) (regs_enteredThrough kept)
  | slot kind ofs t =>
      have through : (caller.enteredThrough locs).getSlot kind ofs t = .undefined := by
        simp only [getSlot, SlotMap.find?, slots_enteredThrough, List.find?_nil]
      have direct : locs.entered.getSlot kind ofs t = .undefined := by
        have found := locs.getSlot_atCall kind ofs t
        rwa [noArgs, ite_self] at found
      exact through.trans direct.symm

/-- A state that stores only defined values is handed on exactly. -/
theorem enteredThrough_eq (kept : ∀ r ∈ Reg.calleeSaved, locs.regs.get r = caller.regs.get r)
    (noArgs : ∀ ofs t, locs.getSlot .outgoing ofs t = .undefined)
    (defined : ∀ e ∈ locs.slots.entries, e.val.isDefined) :
    caller.enteredThrough locs = locs.entered := by
  have direct : locs.entered.slots.entries = [] := by
    apply List.map_eq_nil_iff.mpr
    apply List.filter_eq_nil_iff.mpr
    intro e mem outgoing
    have found : locs.slots.find? .outgoing e.ofs = some e :=
      SlotMap.find?_eq_some_iff.mpr ⟨mem, of_decide_eq_true outgoing, rfl⟩
    have undefined := noArgs e.ofs e.typ
    simp only [getSlot, found, if_true] at undefined
    have present := defined e mem
    rw [undefined] at present
    cases present
  have slots : (caller.enteredThrough locs).slots = locs.entered.slots :=
    SlotMap.ext_entries (slots_enteredThrough.trans direct.symm)
  rw [LocState.mk.injEq]
  exact ⟨regs_enteredThrough kept, slots⟩

end LocState

/-! ### Location-IR -/

namespace Cfg

/-- Whether function `a` does nothing but go on to `b`. -/
structure Trampoline (env : Env) (a b : BlockId) (fa fb : Function) : Prop where
  source : env.functionAt? a = some (.internal fa)
  target : env.functionAt? b = some (.internal fb)
  sig : fa.sig = fb.sig
  body : ∃ name, env.symbols name = some b ∧
    fa.block? fa.entry = some #[.tailCall fa.sig (.symbol name)]

/-- Whether the function is running. -/
def State.Runs (func : BlockId) : State → Prop
  | running act .. => act.func = func
  | _ => False

variable {env : Env} {calls : CallService} {a b : BlockId} {fa fb f : Function}
  {stack : CallStack} {locs : LocState} {mem mem' : Mem}

theorem step_calling {new : BlockId} (body : env.functionAt? b = some (.internal f))
    (allocated : mem.alloc? 0 f.stackSize = some (new, mem')) :
    step env calls (.calling stack b locs mem) =
      some ([], .running ⟨stack, b, .ptr new 0⟩ (.atNode f.entry) locs.entered mem') :=
  (step_calling_eq_some_iff body).mpr ⟨new, mem', allocated, rfl, rfl⟩

/-- The block of a trampoline is entered, and its tail call frees the frame. -/
theorem Trampoline.path (tramp : Trampoline env a b fa fb) (act : Activation) (locs : LocState)
    (runs : act.func = a) (freed : mem.freeFrame? act.sp fa.stackSize = some mem') :
    (semantics env calls).SilentPath
      [.running act (.atNode fa.entry) locs mem, .running act (.inBlock fa.entry 0) locs mem]
      (.running act (.atNode fa.entry) locs mem)
      (.calling act.stack b (act.stack.callerLocs.afterReturn locs) mem') := by
  obtain ⟨name, named, block⟩ := tramp.body
  have body : env.internalAt? act.func = some fa :=
    runs ▸ env.internalAt?_eq_some_iff.mpr tramp.source
  have found : ∀ locs : LocState, target? env locs fa.sig (.symbol name) = some b := by
    intro locs
    have resolved : env.resolve? locs.regs.get (.symbol name) = some (b, .internal fb) := by
      simp [GlobalEnv.resolve?, named, tramp.target]
    have accepted : FunDef.sig (.internal fb : FunDef Function) = fa.sig := tramp.sig.symm
    simp only [target?, resolved, accepted, if_true]
  refine .step ?_ (.step ?_ (.done _))
  · simp [semantics, step, body, block]
  · simp [semantics, step, body, block, exec, found, freed]

/-- A call of a trampoline comes to run the other function, on top of a dead block. -/
theorem Trampoline.path_of_calling {m₁ : Mem} {n : BlockId} (tramp : Trampoline env a b fa fb)
    (first : mem.alloc? 0 fa.stackSize = some (n, m₁))
    (second : (m₁.alloc? 0 fb.stackSize).isSome) :
    ∃ dead path, dead.isLive = false ∧
      (semantics env calls).SilentPath path (.calling stack a locs mem)
        (.running ⟨stack, b, .ptr (n + 1) 0⟩ (.atNode fb.entry)
          (stack.callerLocs.enteredThrough locs)
          ((mem.push dead).push (.fresh 0 fb.stackSize))) ∧
      ∀ s ∈ path, s.Runs b → a = b := by
  have onTop := (Mem.alloc?_second first second).2
  have enterA : step env calls (.calling stack a locs mem) = _ := step_calling tramp.source first
  obtain ⟨rfl, rfl⟩ := mem.alloc?_eq_some_push first
  have freed := mem.freeFrame?_push (.fresh 0 fa.stackSize) (Block.liveBounds?_fresh 0 fa.stackSize)
  have through : (semantics env calls).SilentPath _ _ _ :=
    tramp.path ⟨stack, a, .ptr mem.nextBlock 0⟩ locs.entered rfl freed
  have enterB : step env calls (.calling stack b (stack.callerLocs.afterReturn locs.entered) _) =
    _ := step_calling tramp.target (onTop (.free (.fresh 0 fa.stackSize)))
  refine ⟨_, _, Block.isLive_free _,
    .step enterA (through.trans (.step enterB (.done _))), ?_⟩
  intro s mem runs
  simp only [List.cons_append, List.nil_append, List.mem_cons, List.not_mem_nil, or_false] at mem
  rcases mem with rfl | rfl | rfl | rfl
  · exact runs.elim
  · exact runs
  · exact runs
  · exact runs.elim

end Cfg

/-! ### Frame-IR -/

namespace Frame

/-- Whether function `a` does nothing but go on to `b`. -/
structure Trampoline (env : Env) (a b : BlockId) (fa fb : Function) : Prop where
  source : env.functionAt? a = some (.internal fa)
  target : env.functionAt? b = some (.internal fb)
  sig : fa.sig = fb.sig
  body : ∃ name, env.symbols name = some b ∧
    fa.code[0]? = some (.tailCall fa.sig (.symbol name))

/-- Whether the function is running. -/
def State.Runs (func : BlockId) : State → Prop
  | running act .. => act.func = func
  | _ => False

/-- A frame with the function's header in it. -/
def withHeader? (f : Function) (stack : CallStack) (frame : Block) : Option Block :=
  (frame.store? .int64 f.linkOfs.toInt stack.callerSp).bind
    (Block.store? .int64 f.retAddrOfs.toInt stack.callerRa)

variable {env : Env} {calls : CallService} {choose : ReturnAddresses} {a b n : BlockId}
  {fa fb f : Function} {stack : CallStack} {regs : RegFile} {mem m₁ : Mem}

/-- The header of the newest frame depends on that frame alone. -/
theorem writeHeader?_push (f : Function) (stack : CallStack) (mem : Mem) (frame : Block) :
    writeHeader? f stack (.ptr mem.nextBlock 0) (mem.push frame) =
      (withHeader? f stack frame).map mem.push := by
  simp only [writeHeader?, withHeader?, Mem.storeStack?_ptr, Typ.pointer, Chunk.ofTyp,
    Mem.store?_push, Option.bind_eq_bind, Option.bind_map, Option.map_bind]
  congr 1
  funext linked
  exact mem.store?_push linked _ _ _

theorem isSome_withHeader?_iff :
    (withHeader? f stack (.fresh 0 f.stackSize)).isSome ↔ f.HeaderFits := by
  have bounds := (Mem.empty.liveBounds?_push_newest _).trans (Block.liveBounds?_fresh 0 f.stackSize)
  have written : (writeHeader? f stack _ _).isSome ↔ f.HeaderFits := isSome_writeHeader?_iff bounds
  rwa [writeHeader?_push, Option.isSome_map] at written

/-- Entering a function whose frame can be allocated comes down to writing the header. -/
theorem step_calling (body : env.functionAt? b = some (.internal f))
    (allocated : mem.alloc? 0 f.stackSize = some (n, m₁)) :
    step env calls choose (.calling stack b regs mem) =
      (withHeader? f stack (.fresh 0 f.stackSize)).map fun frame =>
        ([], .running ⟨stack, b, .ptr n 0⟩ 0 (regs.clobber Clobber.functionEntry)
          (mem.push frame)) := by
  simp only [step, body, allocated, Option.bind_eq_bind, Option.bind_some]
  obtain ⟨rfl, rfl⟩ := mem.alloc?_eq_some_push allocated
  rw [writeHeader?_push, Option.bind_map, Option.map_eq_bind]
  rfl

/-- A frame with a proper header is released. -/
theorem release?_push (mem : Mem) {frame : Block} (apart : f.HeaderApart)
    (sp : stack.callerSp.hasType .pointer) (ra : stack.callerRa.hasType .pointer)
    (headed : withHeader? f stack (.fresh 0 f.stackSize) = some frame) :
    release? f stack (.ptr mem.nextBlock 0) (mem.push frame) = some (mem.push frame.free) := by
  have bounds := (mem.liveBounds?_push_newest _).trans (Block.liveBounds?_fresh 0 f.stackSize)
  have written := writeHeader?_push f stack mem (.fresh 0 f.stackSize)
  rw [headed] at written
  exact release?_ptr_eq_some_iff.mpr
    ⟨intact_of_writeHeader? apart sp ra bounds written, mem.modify_push frame Block.free⟩

/-- A call of a trampoline comes to call the other function, on top of a dead block. -/
theorem Trampoline.path_of_calling (tramp : Trampoline env a b fa fb) (fits : fa.HeaderFits)
    (apart : fa.HeaderApart) (sp : stack.callerSp.hasType .pointer)
    (ra : stack.callerRa.hasType .pointer) (allocated : mem.alloc? 0 fa.stackSize = some (n, m₁))
    (regs : RegFile) :
    ∃ dead path, dead.isLive = false ∧
      (semantics env choose calls).SilentPath path (.calling stack a regs mem)
        (.calling stack b (regs.clobber Clobber.functionEntry) (mem.push dead)) ∧
      ∀ s ∈ path, s.Runs b → a = b := by
  obtain ⟨name, named, instr⟩ := tramp.body
  have found : ∀ regs, target? env regs (.symbol name) = some b := by
    intro regs
    simp [target?, GlobalEnv.resolve?, named, tramp.target]
  obtain ⟨frame, headed⟩ := Option.isSome_iff_exists.mp (isSome_withHeader?_iff.mpr fits)
  have enter : step env calls choose (.calling stack a regs mem) = _ :=
    step_calling tramp.source allocated
  rw [headed, Option.map_some] at enter
  obtain ⟨rfl, rfl⟩ := mem.alloc?_eq_some_push allocated
  have leaves : Leaves env calls choose fa ⟨stack, a, .ptr mem.nextBlock 0⟩ _ _ :=
    leaves_of_release? (env.internalAt?_eq_some_iff.mpr tramp.source)
      (release?_push mem apart sp ra headed)
  have leave := leaves.tailCall 0 (regs.clobber Clobber.functionEntry) _ _ b instr (found _)
  refine ⟨_, _, frame.isLive_free, .step enter (.step leave (.done _)), ?_⟩
  intro s mem runs
  simp only [List.mem_cons, List.not_mem_nil, or_false] at mem
  rcases mem with rfl | rfl
  · exact runs.elim
  · exact runs

end Frame

/-! ### Both -/

/-- A call of a trampoline comes to run the other function as a direct call does, and its own
frame is dead by then. In Location-IR the caller passes nothing on the stack. In Frame-IR both
calls are stuck when the other function's header does not fit its frame. -/
theorem trampoline_invisible (calls : CallService) :
    (∀ (env : Cfg.Env) (a b n : BlockId) (fa fb : Cfg.Function) (stack : Cfg.CallStack)
      (locs : LocState) (mem m₁ : Mem),
      Cfg.Trampoline env a b fa fb →
      (∀ r ∈ Reg.calleeSaved, locs.regs.get r = stack.callerLocs.regs.get r) →
      (∀ ofs t, locs.getSlot .outgoing ofs t = .undefined) →
      mem.alloc? 0 fa.stackSize = some (n, m₁) → (m₁.alloc? 0 fb.stackSize).isSome →
      ∃ locs' locs'' frame dead path,
        (Cfg.semantics env calls).step (.calling stack b locs mem) =
          some ([], .running ⟨stack, b, .ptr n 0⟩ (.atNode fb.entry) locs' (mem.push frame)) ∧
        (Cfg.semantics env calls).SilentPath path (.calling stack a locs mem)
          (.running ⟨stack, b, .ptr (n + 1) 0⟩ (.atNode fb.entry) locs''
            ((mem.push dead).push frame)) ∧
        (∀ s ∈ path, s.Runs b → a = b) ∧ n = mem.nextBlock ∧ dead.isLive = false ∧
        (∀ l, locs''.get l = locs'.get l) ∧
        ((∀ e ∈ locs.slots.entries, e.val.isDefined) → locs'' = locs')) ∧
    ∀ (env : Frame.Env) (choose : Frame.ReturnAddresses) (a b n : BlockId)
      (fa fb : Frame.Function) (stack : Frame.CallStack) (regs : RegFile) (mem m₁ : Mem),
      Frame.Trampoline env a b fa fb → fa.HeaderFits → fa.HeaderApart →
      stack.callerSp.hasType .pointer → stack.callerRa.hasType .pointer →
      mem.alloc? 0 fa.stackSize = some (n, m₁) → (m₁.alloc? 0 fb.stackSize).isSome →
      n = mem.nextBlock ∧
      (fb.HeaderFits → ∃ regs' frame dead path,
        (Frame.semantics env choose calls).step (.calling stack b regs mem) =
          some ([], .running ⟨stack, b, .ptr n 0⟩ 0 regs' (mem.push frame)) ∧
        (Frame.semantics env choose calls).SilentPath path (.calling stack a regs mem)
          (.running ⟨stack, b, .ptr (n + 1) 0⟩ 0 regs' ((mem.push dead).push frame)) ∧
        (∀ s ∈ path, s.Runs b → a = b) ∧ dead.isLive = false) ∧
      (¬ fb.HeaderFits → ∃ regs' dead path,
        (Frame.semantics env choose calls).step (.calling stack b regs mem) = none ∧
        (Frame.semantics env choose calls).SilentPath path (.calling stack a regs mem)
          (.calling stack b regs' (mem.push dead)) ∧
        (Frame.semantics env choose calls).step (.calling stack b regs' (mem.push dead)) = none ∧
        (∀ s ∈ path, s.Runs b → a = b) ∧ dead.isLive = false) := by
  constructor
  · intro env a b n fa fb stack locs mem m₁ tramp kept noArgs first second
    obtain ⟨dead, path, killed, silent, own⟩ := tramp.path_of_calling first second
    exact ⟨locs.entered, stack.callerLocs.enteredThrough locs, _, dead, path,
      Cfg.step_calling tramp.target (Mem.alloc?_second first second).1, silent, own,
      (mem.alloc?_eq_some_push first).1, killed, LocState.get_enteredThrough kept noArgs,
      LocState.enteredThrough_eq kept noArgs⟩
  · intro env choose a b n fa fb stack regs mem m₁ tramp fits apart sp ra first second
    obtain ⟨dead, path, killed, silent, own⟩ :=
      tramp.path_of_calling fits apart sp ra first regs
    obtain ⟨alone, onTop⟩ := Mem.alloc?_second first second
    have direct : Frame.step env calls choose (.calling stack b regs mem) = _ :=
      Frame.step_calling tramp.target alone
    have last : Frame.step env calls choose
        (.calling stack b (regs.clobber Clobber.functionEntry) (mem.push dead)) = _ :=
      Frame.step_calling tramp.target (onTop dead)
    rw [regs.clobber_clobber] at last
    refine ⟨(mem.alloc?_eq_some_push first).1, ?_, ?_⟩
    · intro fits'
      obtain ⟨frame, headed⟩ :=
        Option.isSome_iff_exists.mp (Frame.isSome_withHeader?_iff.mpr fits')
      rw [headed, Option.map_some] at direct last
      refine ⟨_, frame, dead, _, direct, silent.trans (.step last (.done _)), ?_, killed⟩
      intro s mem runs
      rcases List.mem_append.mp mem with before | calling
      · exact own s before runs
      · cases List.mem_singleton.mp calling
        exact runs.elim
    · intro unfit
      have headless : Frame.withHeader? fb stack (.fresh 0 fb.stackSize) = none := by
        apply Option.not_isSome_iff_eq_none.mp
        exact fun headed => unfit (Frame.isSome_withHeader?_iff.mp headed)
      rw [headless, Option.map_none] at direct last
      exact ⟨_, dead, path, direct, silent, last, own, killed⟩

/-! A trampoline to a leaf, called with a callee-saved register in use. -/

def Cfg.hop : Cfg.Env where
  program :=
    { defs :=
        [("leaf", .function (.internal ⟨.main, 8, [(1, #[.ret])], 1⟩)),
          ("hop", .function (.internal
            ⟨.main, 16, [(2, #[.tailCall .main (.symbol "leaf")])], 2⟩))]
      main := "hop" }
  distinct := by decide

def Frame.hop : Frame.Env where
  program :=
    { defs :=
        [("leaf", .function (.internal ⟨.main, #[.ret], 16, 0, 8⟩)),
          ("hop", .function (.internal
            ⟨.main, #[.tailCall .main (.symbol "leaf")], 24, 16, 0⟩))]
      main := "hop" }
  distinct := by decide

def Cfg.hopStack : Cfg.CallStack := [⟨2, .null, LocState.empty.setReg .bx (.int 5), 2, 1⟩]

def hopLocs : LocState := (LocState.empty.setReg .bx (.int 5)).setReg .ax (.int 7)

theorem trampoline_invisible_hop :
    (∃ n locs frame dead,
      (Cfg.semantics Cfg.hop fun _ _ _ => none).step (.calling Cfg.hopStack 1 hopLocs .empty) =
        some ([], .running ⟨Cfg.hopStack, 1, .ptr 1 0⟩ (.atNode 1) locs (Mem.empty.push frame)) ∧
      (Cfg.semantics Cfg.hop fun _ _ _ => none).steps? n
          (.calling Cfg.hopStack 2 hopLocs .empty) =
        some ([], .running ⟨Cfg.hopStack, 1, .ptr 2 0⟩ (.atNode 1) locs
          ((Mem.empty.push dead).push frame)) ∧
      dead.isLive = false) ∧
    ∃ n regs frame dead, (Frame.semantics Frame.hop .position fun _ _ _ => none).steps? n
        (.calling ⟨[], ⟨.null, .null⟩⟩ 2 hopLocs.regs .empty) =
      some ([], .running ⟨⟨[], ⟨.null, .null⟩⟩, 1, .ptr 2 0⟩ 0 regs
        ((Mem.empty.push dead).push frame)) ∧
      dead.isLive = false := by
  obtain ⟨inLocations, inFrames⟩ := trampoline_invisible fun _ _ _ => none
  constructor
  · obtain ⟨locs', locs'', frame, dead, path, direct, silent, -, -, killed, -, same⟩ :=
      inLocations Cfg.hop 2 1 1 _ _ Cfg.hopStack hopLocs .empty _
        ⟨rfl, rfl, rfl, "leaf", rfl, rfl⟩ (by decide) (fun _ _ => rfl) rfl rfl
    have handed : locs'' = locs' := same (fun e mem => absurd mem List.not_mem_nil)
    subst handed
    exact ⟨_, locs'', frame, dead, direct, silent.steps?, killed⟩
  · obtain ⟨-, running, -⟩ :=
      inFrames Frame.hop .position 2 1 1 _ _ ⟨[], ⟨.null, .null⟩⟩ hopLocs.regs .empty _
        ⟨rfl, rfl, rfl, "leaf", rfl, rfl⟩ ⟨⟨by decide, by decide, by decide⟩,
          by decide, by decide, by decide⟩ (.inr (by decide)) rfl rfl rfl rfl
    obtain ⟨regs, frame, dead, path, -, silent, -, killed⟩ :=
      running ⟨⟨by decide, by decide, by decide⟩, by decide, by decide, by decide⟩
    exact ⟨_, regs, frame, dead, silent.steps?, killed⟩

end LateIR
