import LateIR.Proofs.Frame.Header
import LateIR.Proofs.Run.Steps
import LateIR.Proofs.Spilling.Simulation

/-!
Spilling code gives the same result in both forms. Location-IR takes one step
more, into the function's block; from there on the machines go side by side, and
after each instruction Frame-IR has the values of all registers that Location-IR
knows (`spills_agree`).
-/

namespace LateIR

open SpillInstr (SlotFits byteOfs)

section

variable {name : String} {ops : List SpillInstr} {f : Cfg.Function} {f' : Frame.Function}
  {calls : CallService} {mem : Mem}

/-! ### Up to the first instruction -/

/-- The activation of the function in Location-IR. -/
def Cfg.mainActivation : Cfg.Activation := ⟨[], 1, .ptr 2 0⟩

/-- The same in Frame-IR, where block 2 is the frame of the outermost caller. -/
def Frame.mainActivation : Frame.Activation := ⟨⟨[], ⟨.ptr 2 0, .null⟩⟩, 1, .ptr 3 0⟩

/-- What a function without callers starts with. -/
def startRegs : RegFile := RegFile.empty.clobber Clobber.functionEntry

theorem liveBounds?_codeMem_alloc? {lmem : Mem} {size : Int} {b : BlockId}
    (allocated : codeMem.alloc? 0 size = some (b, lmem)) :
    b = 2 ∧ lmem.liveBounds? 1 = some (0, 1) := by
  obtain ⟨rfl, -⟩ := Mem.nextBlock_alloc? allocated
  rw [Mem.liveBounds?_alloc? allocated]
  exact ⟨rfl, rfl⟩

/-- Two steps lead to the first instruction: one allocates the frame and one enters the block. -/
theorem cfg_start {trace : Trace} {t : Cfg.State}
    (run : (Cfg.semantics (mainOnly name f) calls).steps? 2 Cfg.mainStart = some (trace, t)) :
    ∃ lmem, trace = [] ∧ lmem.liveBounds? 1 = some (0, 1) ∧
      t = .running Cfg.mainActivation (.inBlock f.entry 0) ⟨startRegs, .empty⟩ lmem := by
  obtain ⟨events, u, rest, step, run, rfl⟩ := Semantics.steps?_succ_eq_some_iff.mp run
  obtain ⟨⟨b, lmem⟩, allocated, step⟩ := Option.bind_eq_some_iff.mp step
  cases step
  obtain ⟨rfl, code⟩ := liveBounds?_codeMem_alloc? allocated
  have step := Semantics.steps?_one_eq_some_iff.mp run
  obtain ⟨-, step⟩ := Option.ite_none_right_eq_some.mp step
  cases step
  exact ⟨lmem, rfl, code, rfl⟩

theorem get_startRegs (r : Reg) : startRegs.get r = .undefined := by
  rw [startRegs, RegFile.get_clobber, RegFile.get_empty, ite_self]

theorem codePointers_start : CodePointers ⟨startRegs, .empty⟩ where
  regs r := by
    rw [get_startRegs]
    trivial
  slots _ _ := trivial

theorem SameSpills.headerFits (same : SameSpills ops f f') : f'.HeaderFits := by
  have room := same.header
  constructor
  · rw [same.linkOfs]
    exact ⟨by decide, by decide, Int.le_trans (by decide) room⟩
  · rw [same.retAddrOfs]
    exact ⟨by decide, by decide, room⟩

theorem SameSpills.headerApart (same : SameSpills ops f f') : f'.HeaderApart := by
  rw [Frame.Function.HeaderApart, same.linkOfs, same.retAddrOfs]
  decide

/-- One step leads Frame-IR there. The header is written into the new frame, and no slot has been
spilled yet. -/
theorem frame_start (name : String) (calls : CallService) (choose : Frame.ReturnAddresses)
    (same : SameSpills ops f f') :
    ∃ mem, (Frame.semantics (mainOnly name f') choose calls).step Frame.mainStart =
        some ([], .running Frame.mainActivation 0 startRegs mem) ∧
      Agrees f'.stackSize ⟨startRegs, .empty⟩ startRegs mem := by
  have header := same.header
  have allocatable := same.allocatable
  obtain ⟨mid, allocated⟩ : ∃ mid, entryMem.alloc? 0 f'.stackSize = some (3, mid) := by
    refine ⟨_, Mem.alloc?_eq_some_iff.mpr ⟨⟨by omega, by decide⟩, rfl, rfl⟩⟩
  have bounds := Mem.liveBounds?_of_alloc? allocated
  have writable : (Frame.writeHeader? f' Frame.mainActivation.stack (.ptr 3 0) mid).isSome :=
    (Frame.isSome_writeHeader?_iff bounds).mpr same.headerFits
  obtain ⟨mem, written⟩ := Option.isSome_iff_exists.mp writable
  have kept := Frame.liveBounds?_writeHeader? written
  obtain ⟨bounds', link, retAddr⟩ :=
    Frame.intact_of_writeHeader? same.headerApart rfl rfl bounds written
  rw [Mem.loadStack?_ptr, same.linkOfs] at link
  rw [Mem.loadStack?_ptr, same.retAddrOfs] at retAddr
  have frame : mem.liveBounds? 3 = some (0, f'.stackSize) := by
    rw [bounds', Int.max_eq_left (by omega)]
  have code : mem.liveBounds? 1 = some (0, 1) := by
    rw [kept, Mem.liveBounds?_alloc? allocated]
    rfl
  have body : (mainOnly name f').functionAt? 1 = some (.internal f') := rfl
  have entered : Frame.step (mainOnly name f') calls choose Frame.mainStart =
      some ([], .running Frame.mainActivation 0 startRegs mem) :=
    (Frame.step_calling_eq_some_iff body).mpr ⟨3, mid, mem, allocated, written, rfl, rfl⟩
  refine ⟨mem, entered, fun _ => Val.le_refl _, ?_, frame, code, link, retAddr⟩
  intro ofs t fits
  obtain ⟨w, loaded⟩ := Mem.load?_isSome (fits.accessible frame)
  exact ⟨w, loaded, Val.undefined_le w⟩

/-! ### Side by side -/

theorem getElem?_body {α : Type} (g : SpillInstr → α) (last : α) {j : Nat}
    (bound : j < ops.length) : (ops.map g ++ [last]).toArray[j]? = some (g ops[j]) := by
  simp [List.getElem?_append, bound]

theorem getElem?_last {α : Type} (g : SpillInstr → α) (last : α) :
    (ops.map g ++ [last]).toArray[ops.length]? = some last := by
  simp

/-- After each instruction the machines correspond. -/
theorem side_by_side (choose : Frame.ReturnAddresses) (same : SameSpills ops f f') {j : Nat}
    {trace : Trace} {t : Cfg.State} (bound : j ≤ ops.length)
    (run : (Cfg.semantics (mainOnly name f) calls).steps? (j + 2) Cfg.mainStart = some (trace, t)) :
    trace = [] ∧ ∃ locs lmem regs mem,
      t = .running Cfg.mainActivation (.inBlock f.entry j) locs lmem ∧
      (Frame.semantics (mainOnly name f') choose calls).steps? (j + 1) Frame.mainStart =
        some ([], .running Frame.mainActivation j regs mem) ∧
      lmem.liveBounds? 1 = some (0, 1) ∧ Agrees f'.stackSize locs regs mem ∧
      CodePointers locs := by
  have symbols : (mainOnly name f').symbols = (mainOnly name f).symbols := by
    funext symbol
    rw [symbols_mainOnly, symbols_mainOnly]
  have globals : ∀ symbol b, (mainOnly name f).symbols symbol = some b → b = 1 := by
    intro symbol b found
    rw [symbols_mainOnly] at found
    obtain ⟨-, same⟩ := Option.ite_none_right_eq_some.mp found
    cases same
    rfl
  induction j generalizing trace t with
  | zero =>
      obtain ⟨lmem, rfl, code, rfl⟩ := cfg_start run
      obtain ⟨mem, step, agrees⟩ := frame_start name calls choose same
      exact ⟨rfl, _, lmem, startRegs, mem, rfl, Semantics.steps?_one_eq_some_iff.mpr step, code,
        agrees, codePointers_start⟩
  | succ j ih =>
      rw [Nat.succ_add] at run
      obtain ⟨before, u, events, upTo, step, rfl⟩ := Semantics.steps?_succ_last.mp run
      obtain ⟨rfl, locs, lmem, regs, mem, rfl, run', code, agrees, pointers⟩ :=
        ih (Nat.le_of_succ_le bound) upTo
      obtain ⟨block, here, step⟩ := Option.bind_eq_some_iff.mp step
      cases same.block.symm.trans here
      obtain ⟨instr, at_, ran⟩ := Option.bind_eq_some_iff.mp step
      cases (getElem?_body SpillInstr.toCfg .ret bound).symm.trans at_
      have fits := same.fits ops[j] (List.getElem_mem bound)
      obtain ⟨locs', regs', mem', rfl, rfl, ran', agrees', pointers'⟩ :=
        exec_agrees symbols globals fits same.allocatable
          (rfl : Frame.mainActivation.sp = .ptr 3 0) code agrees pointers ran
      refine ⟨rfl, locs', lmem, regs', mem', rfl, ?_, code, agrees', pointers'⟩
      refine Semantics.steps?_succ_last.mpr ⟨[], _, [], run', ?_, rfl⟩
      refine Option.bind_eq_some_iff.mpr ⟨ops[j].toFrame, ?_, ran'⟩
      rw [same.code]
      exact getElem?_body SpillInstr.toFrame .ret bound

/-! ### The end -/

/-- The return hands the registers of the function to the outermost caller, without an event. -/
theorem cfg_end (same : SameSpills ops f f') {locs : LocState} {lmem : Mem} {trace : Trace}
    {t : Cfg.State}
    (step : (Cfg.semantics (mainOnly name f) calls).step
      (.running Cfg.mainActivation (.inBlock f.entry ops.length) locs lmem) = some (trace, t)) :
    trace = [] ∧ ∃ lmem', t = .returned [] (LocState.empty.afterReturn locs) lmem' := by
  obtain ⟨block, here, step⟩ := Option.bind_eq_some_iff.mp step
  cases same.block.symm.trans here
  obtain ⟨instr, at_, ran⟩ := Option.bind_eq_some_iff.mp step
  cases (getElem?_last SpillInstr.toCfg .ret).symm.trans at_
  obtain ⟨lmem', -, ran⟩ := Option.bind_eq_some_iff.mp ran
  cases ran
  exact ⟨rfl, lmem', rfl⟩

/-- The header is intact when Frame-IR leaves the function. -/
theorem frame_end (name : String) (calls : CallService) (choose : Frame.ReturnAddresses)
    (same : SameSpills ops f f') {locs : LocState} {regs : RegFile}
    (agrees : Agrees f'.stackSize locs regs mem) :
    ∃ mem', (Frame.semantics (mainOnly name f') choose calls).step
      (.running Frame.mainActivation ops.length regs mem) =
        some ([], .returned ⟨[], ⟨.ptr 2 0, .null⟩⟩ regs mem') := by
  have header := same.header
  have intact : Frame.Intact f' Frame.mainActivation.stack 3 mem := by
    refine ⟨?_, ?_, ?_⟩
    · rw [agrees.frame, Int.max_eq_left (by omega)]
    · rw [same.linkOfs]
      exact Mem.loadStack?_ptr.trans agrees.link
    · rw [same.retAddrOfs]
      exact Mem.loadStack?_ptr.trans agrees.retAddr
  have released := Frame.release?_ptr_eq_some_iff.mpr ⟨intact, rfl⟩
  refine ⟨mem.modify Block.free 3, Option.bind_eq_some_iff.mpr ⟨.ret, ?_, ?_⟩⟩
  · rw [same.code]
    exact getElem?_last SpillInstr.toFrame .ret
  · exact Option.bind_eq_some_iff.mpr ⟨_, released, rfl⟩

/-! ### Whole runs -/

/-- A run of Location-IR from its second step on is followed by Frame-IR. -/
theorem followed (choose : Frame.ReturnAddresses) (same : SameSpills ops f f') {j : Nat}
    {trace : Trace} {t : Cfg.State}
    (run : (Cfg.semantics (mainOnly name f) calls).steps? (j + 2) Cfg.mainStart = some (trace, t)) :
    ∃ t', (Frame.semantics (mainOnly name f') choose calls).steps? (j + 1) Frame.mainStart =
        some (trace, t') ∧
      (∀ r, t.locs.regs.get r ≤ t'.regs.get r) ∧
      ∀ n, (Cfg.semantics (mainOnly name f) calls).final? t = some n →
        (Frame.semantics (mainOnly name f') choose calls).final? t' = some n := by
  -- Up to the last spill the machines go side by side; after it only the return is left.
  by_cases bound : j ≤ ops.length
  · obtain ⟨rfl, locs, lmem, regs, mem, rfl, run', -, agrees, -⟩ :=
      side_by_side choose same bound run
    refine ⟨_, run', agrees.regs, ?_⟩
    intro n final
    cases Semantics.final?_eq_some_iff.mp final
  · obtain ⟨d, rfl⟩ := Nat.exists_eq_add_of_lt (Nat.lt_of_not_le bound)
    have cut : ops.length + d + 1 + 2 = (ops.length + 2) + (d + 1) := by omega
    rw [cut] at run
    obtain ⟨before, u, after, upTo, run, rfl⟩ := Semantics.steps?_add_eq_some_iff.mp run
    obtain ⟨rfl, locs, lmem, regs, mem, rfl, run', -, agrees, -⟩ :=
      side_by_side choose same (Nat.le_refl _) upTo
    obtain ⟨events, v, rest, step, run, rfl⟩ := Semantics.steps?_succ_eq_some_iff.mp run
    obtain ⟨rfl, lmem', rfl⟩ := cfg_end same step
    obtain ⟨mem', step'⟩ := frame_end name calls choose same agrees
    cases d with
    | succ d =>
        -- Nothing follows the outermost return.
        obtain ⟨events, v, rest, step, -⟩ := Semantics.steps?_succ_eq_some_iff.mp run
        cases step
    | zero =>
        cases run
        have known : ∀ r, (LocState.empty.afterReturn locs).regs.get r ≤ regs.get r := by
          intro r
          show (LocState.empty.regs.afterReturn locs.regs).get r ≤ _
          rw [RegFile.get_afterReturn]
          split
          · exact .inl (RegFile.get_empty r)
          · exact agrees.regs r
        refine ⟨_, Semantics.steps?_succ_last.mpr ⟨[], _, [], run', step', rfl⟩, known, ?_⟩
        intro n final
        have returned := Option.some.inj (Semantics.final?_eq_some_iff.mp final)
        refine Semantics.final?_eq_some_iff.mpr (congrArg some ?_)
        rcases known .ax with undefined | same
        · cases undefined.symm.trans returned
        · exact same.symm.trans returned

end

/-- When Location-IR runs spilling code to a result, Frame-IR runs it to the same
result in one step less. After every instruction Frame-IR has the value of each
register that is defined in Location-IR. -/
theorem spills_agree (name : String) {ops : List SpillInstr} {f : Cfg.Function}
    {f' : Frame.Function} (same : SameSpills ops f f') (calls : CallService)
    (choose : Frame.ReturnAddresses) {m : Mem} {s : Cfg.State}
    (started : (mainOnly name f).program.initMem = .ok m)
    (entered : (Cfg.semantics (mainOnly name f) calls).enterMain (mainOnly name f).mainPointer? m
      [] = .ok s) :
    ∃ m' s', (mainOnly name f').program.initMem = .ok m' ∧
      (Frame.semantics (mainOnly name f') choose calls).enterMain (mainOnly name f').mainPointer?
        m' [] = .ok s' ∧
      (∀ k trace t n, (Cfg.semantics (mainOnly name f) calls).steps? k s = some (trace, t) →
        (Cfg.semantics (mainOnly name f) calls).final? t = some n →
        ∃ k' t', k = k' + 1 ∧
          (Frame.semantics (mainOnly name f') choose calls).steps? k' s' = some (trace, t') ∧
          (Frame.semantics (mainOnly name f') choose calls).final? t' = some n) ∧
      ∀ j trace t, (Cfg.semantics (mainOnly name f) calls).steps? (j + 2) s = some (trace, t) →
        ∃ t', (Frame.semantics (mainOnly name f') choose calls).steps? (j + 1) s' =
            some (trace, t') ∧
          ∀ r, t.locs.regs.get r ≠ .undefined → t'.regs.get r = t.locs.regs.get r := by
  rw [initMem_mainOnly] at started
  cases started
  rw [mainPointer?_mainOnly] at entered
  cases entered.symm.trans (Cfg.enter_mainOnly same.noParams)
  refine ⟨codeMem, Frame.mainStart, initMem_mainOnly, ?_, ?_, ?_⟩
  · rw [mainPointer?_mainOnly]
    exact Frame.enter_mainOnly same.noParams'
  · intro k trace t n run final
    match k with
    | 0 =>
        cases run
        cases Semantics.final?_eq_some_iff.mp final
    | 1 =>
        obtain ⟨⟨b, lmem⟩, -, step⟩ :=
          Option.bind_eq_some_iff.mp (Semantics.steps?_one_eq_some_iff.mp run)
        cases step
        cases Semantics.final?_eq_some_iff.mp final
    | j + 2 =>
        obtain ⟨t', run', -, sameResult⟩ := followed choose same run
        exact ⟨j + 1, t', rfl, run', sameResult n final⟩
  · intro j trace t run
    obtain ⟨t', run', known, -⟩ := followed choose same run
    refine ⟨t', run', ?_⟩
    intro r defined
    exact ((known r).resolve_left defined).symm

/-! A reload of half of a long, which is undefined in Location-IR only, and of an
integer, which is the result. -/

def halfReload : List SpillInstr :=
  [.op (.intConst 7) [] .bx, .spill .bx 0 .int, .op (.longConst 5) [] .cx, .spill .cx 2 .long,
    .reload 2 .int .dx, .reload 0 .int .ax]

def Cfg.halfReload : Cfg.Function :=
  ⟨.main, 0, [(1, (LateIR.halfReload.map SpillInstr.toCfg ++ [Cfg.Instr.ret]).toArray)], 1⟩

def Frame.halfReload : Frame.Function :=
  ⟨.main, (LateIR.halfReload.map SpillInstr.toFrame ++ [Frame.Instr.ret]).toArray, 32, 0, 8⟩

theorem sameSpills_halfReload : SameSpills halfReload Cfg.halfReload Frame.halfReload where
  noParams := rfl
  noParams' := rfl
  block := rfl
  code := rfl
  linkOfs := rfl
  retAddrOfs := rfl
  header := by decide
  allocatable := by decide
  fits := by
    have first : SlotFits 32 0 .int := ⟨by decide, .inl rfl, rfl, by decide⟩
    have half : SlotFits 32 2 .int := ⟨by decide, .inl rfl, rfl, by decide⟩
    have long : SlotFits 32 2 .long := ⟨by decide, .inr (.inl rfl), rfl, by decide⟩
    simp [halfReload, SpillInstr.Fits, Frame.halfReload, Operation.addressesFrame, first, half,
      long]

theorem spills_agree_halfReload :
    (∃ t, (Cfg.semantics (mainOnly "main" Cfg.halfReload) fun _ _ _ => none).steps? 9
        Cfg.mainStart = some ([], t) ∧
      (Cfg.semantics (mainOnly "main" Cfg.halfReload) fun _ _ _ => none).final? t = some 7) ∧
    ∃ m s t, (mainOnly "main" Frame.halfReload).program.initMem = .ok m ∧
      (Frame.semantics (mainOnly "main" Frame.halfReload) .position fun _ _ _ => none).enterMain
        (mainOnly "main" Frame.halfReload).mainPointer? m [] = .ok s ∧
      (Frame.semantics (mainOnly "main" Frame.halfReload) .position fun _ _ _ => none).steps? 8 s =
        some ([], t) ∧
      (Frame.semantics (mainOnly "main" Frame.halfReload) .position fun _ _ _ => none).final? t =
        some 7 := by
  obtain ⟨m, s, started, entered, result, -⟩ :=
    spills_agree "main" sameSpills_halfReload (fun _ _ _ => none) .position rfl
      (Cfg.enter_mainOnly rfl)
  obtain ⟨⟨trace, t⟩, run⟩ := Option.isSome_iff_exists.mp
    (by decide +kernel : ((Cfg.semantics (mainOnly "main" Cfg.halfReload)
      fun _ _ _ => none).steps? 9 Cfg.mainStart).isSome)
  have final : ((Cfg.semantics (mainOnly "main" Cfg.halfReload)
      fun _ _ _ => none).steps? 9 Cfg.mainStart).all fun u => u.1 = [] ∧
        (Cfg.semantics (mainOnly "main" Cfg.halfReload) fun _ _ _ => none).final? u.2 = some 7 := by
    decide +kernel
  rw [run] at final
  obtain ⟨rfl, seven⟩ := of_decide_eq_true final
  obtain ⟨k, t', eight, run', seven'⟩ := result 9 [] t 7 run seven
  cases eight
  exact ⟨⟨t, run, seven⟩, m, s, t', started, entered, run', seven'⟩

end LateIR
