import LateIR.Proofs.Frame.Header

/-!
Integrity of frame headers. A function is entered exactly when its frame can be
allocated and has room for the header. Whatever happens to memory after that, it
can be left as long as the header still names the caller, and only then
(`header_integrity`): a return or a tail call with any other header is stuck.
-/

namespace LateIR.Frame

section

variable (env : Env) (calls : CallService) (choose : ReturnAddresses) (f : Function)
  (act : Activation)

/-- Whether every return and every tail call to a known function of the
activation succeeds, and turns one memory into the other. -/
structure Leaves (mem mem' : Mem) : Prop where
  ret : ∀ pc regs, f.code[pc]? = some .ret →
    step env calls choose (.running act pc regs mem) = some ([], .returned act.stack regs mem')
  tailCall : ∀ pc regs sig callee target, f.code[pc]? = some (.tailCall sig callee) →
    target? env regs callee = some target →
    step env calls choose (.running act pc regs mem) =
      some ([], .calling act.stack target regs mem')

/-- Whether every return and every tail call of the activation is stuck. -/
structure CannotLeave (mem : Mem) : Prop where
  ret : ∀ pc regs, f.code[pc]? = some .ret →
    step env calls choose (.running act pc regs mem) = none
  tailCall : ∀ pc regs sig callee, f.code[pc]? = some (.tailCall sig callee) →
    step env calls choose (.running act pc regs mem) = none

end

variable {env : Env} {calls : CallService} {choose : ReturnAddresses} {f : Function}
  {act : Activation} {stack : CallStack} {callee : BlockId} {regs : RegFile} {mem mem' : Mem}

theorem step_running {pc : Nat} {instr : Instr} (body : env.internalAt? act.func = some f)
    (here : f.code[pc]? = some instr) :
    step env calls choose (.running act pc regs mem) =
      exec env calls choose f act pc regs mem instr := by
  simp only [step, body, here, Option.bind_eq_bind, Option.bind_some]

/-- What is released can be left. -/
theorem leaves_of_release? (body : env.internalAt? act.func = some f)
    (released : release? f act.stack act.sp mem = some mem') :
    Leaves env calls choose f act mem mem' where
  ret pc regs here := by
    rw [step_running body here]
    exact Option.bind_eq_some_iff.mpr ⟨mem', released, rfl⟩
  tailCall pc regs sig callee target here found := by
    rw [step_running body here]
    exact Option.bind_eq_some_iff.mpr
      ⟨target, found, Option.bind_eq_some_iff.mpr ⟨mem', released, rfl⟩⟩

theorem cannotLeave_of_release? (body : env.internalAt? act.func = some f)
    (refused : release? f act.stack act.sp mem = none) :
    CannotLeave env calls choose f act mem where
  ret pc regs here := by
    rw [step_running body here]
    simp only [exec, refused, Option.bind_eq_bind, Option.bind_none]
  tailCall pc regs sig callee here := by
    rw [step_running body here]
    simp only [exec, refused, Option.bind_eq_bind, Option.bind_none, Option.bind_fun_none]

/-- The header of a frame decides whether its function can be left. -/
theorem header_integrity (body : env.functionAt? callee = some (.internal f))
    (sp : stack.callerSp.hasType .pointer) (ra : stack.callerRa.hasType .pointer) :
    ((step env calls choose (.calling stack callee regs mem)).isSome ↔
      (mem.alloc? 0 f.stackSize).isSome ∧ f.HeaderFits) ∧
    ∀ events s, step env calls choose (.calling stack callee regs mem) = some (events, s) →
      ∃ b regs' mem', s = .running ⟨stack, callee, .ptr b 0⟩ 0 regs' mem' ∧
        (f.HeaderApart → ∀ changes m, (∀ change ∈ changes, SparesHeader f b change) →
          Mem.Change.runAll? changes mem' = some m → m.isLive b ∧
            Leaves env calls choose f ⟨stack, callee, .ptr b 0⟩ m (m.modify Block.free b)) ∧
        ∀ m, ¬ (m.loadStack? (.ptr b 0) .pointer f.linkOfs = some stack.callerSp ∧
            m.loadStack? (.ptr b 0) .pointer f.retAddrOfs = some stack.callerRa) →
          CannotLeave env calls choose f ⟨stack, callee, .ptr b 0⟩ m := by
  have inside := env.internalAt?_eq_some_iff.mpr body
  refine ⟨isSome_step_calling_iff body, ?_⟩
  intro events s stepped
  obtain ⟨b, mid, mem', allocated, written, -, rfl⟩ := (step_calling_eq_some_iff body).mp stepped
  have bounds := Mem.liveBounds?_of_alloc? allocated
  refine ⟨b, _, mem', rfl, ?_, ?_⟩
  · intro apart changes m spares ran
    have intact := (intact_of_writeHeader? apart sp ra bounds written).runAll? spares ran
    exact ⟨Mem.isLive_of_liveBounds? intact.bounds,
      leaves_of_release? inside (release?_ptr_eq_some_iff.mpr ⟨intact, rfl⟩)⟩
  · intro m corrupted
    apply cannotLeave_of_release? inside
    apply Option.eq_none_iff_forall_ne_some.mpr
    intro m' released
    obtain ⟨intact, -⟩ := release?_ptr_eq_some_iff.mp released
    exact corrupted ⟨intact.link, intact.retAddr⟩

/-! A frame of 40 bytes with the return address at offset 8 and the link at 24. -/

def guardedMain : Function := ⟨.main, #[.ret, .tailCall .main (.symbol "main")], 40, 24, 8⟩

def guarded : Env where
  program := { defs := [("main", .function (.internal guardedMain))], main := "main" }
  distinct := by decide

/-- The caller has its frame in block 2. -/
def guardedStack : CallStack := ⟨[⟨1, .ptr 2 0, .ptr 1 1, 1⟩], ⟨.null, .null⟩⟩

def guardedMem : Mem := ⟨#[.live 0 #[.undefined], .live 0 (.replicate 16 .undefined)]⟩

/-- Stores right before and right after the link, and a block that comes and goes. -/
def guardedChanges : List Mem.Change :=
  [.store .int64 3 16 (.ptr 3 8), .alloc (-8) 8, .storeBytes 3 32 [.byte 1], .free 4 (-8) 8]

theorem sparesHeader_guarded : ∀ change ∈ guardedChanges, SparesHeader guardedMain 3 change := by
  have spares : ∀ ofs : Int, ofs = 8 ∨ ofs = 24 → ∀ change ∈ guardedChanges,
      change.Spares 3 ofs 8 := by
    intro ofs slot change mem
    simp only [guardedChanges, List.mem_cons, List.not_mem_nil, or_false] at mem
    constructor
    · intro i first last
      rcases mem with rfl | rfl | rfl | rfl <;> simp [Mem.Change.Writes, Chunk.size] <;> omega
    · rcases mem with rfl | rfl | rfl | rfl <;> simp [Mem.Change.Frees]
  intro change mem
  exact ⟨spares 24 (.inr rfl) change mem, spares 8 (.inl rfl) change mem⟩

theorem header_integrity_guarded :
    ∃ regs mem m, step guarded (Host.calls fun _ => none) .position
        (.calling guardedStack 1 .empty guardedMem) =
          some ([], .running ⟨guardedStack, 1, .ptr 3 0⟩ 0 regs mem) ∧
      Mem.Change.runAll? guardedChanges mem = some m ∧
      step guarded (Host.calls fun _ => none) .position
        (.running ⟨guardedStack, 1, .ptr 3 0⟩ 0 regs m) =
          some ([], .returned guardedStack regs (m.modify Block.free 3)) ∧
      ∃ m', m.storeBytes? 3 31 [.byte 0] = some m' ∧
        step guarded (Host.calls fun _ => none) .position
          (.running ⟨guardedStack, 1, .ptr 3 0⟩ 1 regs m') = none := by
  obtain ⟨regs, mem, m, m', stepped, ran, stored, link⟩ :
      ∃ regs mem m m', step guarded (Host.calls fun _ => none) .position
          (.calling guardedStack 1 .empty guardedMem) =
            some ([], .running ⟨guardedStack, 1, .ptr 3 0⟩ 0 regs mem) ∧
        Mem.Change.runAll? guardedChanges mem = some m ∧
        m.storeBytes? 3 31 [.byte 0] = some m' ∧
        m'.loadStack? (.ptr 3 0) .pointer guardedMain.linkOfs = some .undefined :=
    ⟨_, _, _, _, rfl, rfl, rfl, rfl⟩
  have body : guarded.functionAt? 1 = some (.internal guardedMain) := rfl
  obtain ⟨b, regs', mem', same, kept, corrupted⟩ :=
    (header_integrity body rfl rfl).2 [] _ stepped
  cases same
  obtain ⟨-, leaves⟩ := kept (.inr (by decide)) guardedChanges m sparesHeader_guarded ran
  have stuck := corrupted m' fun intact => nomatch link.symm.trans intact.1
  exact ⟨regs, mem, m, stepped, ran, leaves.ret 0 regs rfl, m', stored,
    stuck.tailCall 1 regs .main (.symbol "main") rfl⟩

end LateIR.Frame
