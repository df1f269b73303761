import LateIR.Proofs.Convention.Boundary
import LateIR.Proofs.Location.Slots
import LateIR.Proofs.Memory.Access
import LateIR.Proofs.Memory.Encoding
import LateIR.Proofs.Spilling.Code

/-!
How the states of the two machines correspond while they run the same spilling
code, and that every instruction keeps them so (`exec_agrees`). Frame-IR may know
more: bytes of a slot that was overwritten in part still have values in its
frame.
-/

namespace LateIR

open SpillInstr (SlotFits byteOfs)

/-! ### Slots of a frame -/

namespace SpillInstr.SlotFits

variable {size ofs ofs' : Int} {t t' : Typ}

theorem carriesWords (fits : SlotFits size ofs t) : (Chunk.ofTyp t).carriesWords := by
  rcases fits.typed with rfl | rfl | rfl | rfl <;> rfl

theorem accessible {mem : Mem} {b : BlockId} (fits : SlotFits size ofs t)
    (frame : mem.liveBounds? b = some (0, size)) :
    mem.accessible (.ofTyp t) b (byteOfs ofs) := by
  obtain ⟨nonneg, typed, aligned, inside⟩ := fits
  unfold byteOfs at inside ⊢
  refine Mem.accessible_of_liveBounds? frame (by omega) (by rwa [Chunk.size_ofTyp]) ?_
  rw [Chunk.size_ofTyp]
  rcases typed with rfl | rfl | rfl | rfl <;> simp only [Typ.size] at aligned ⊢ <;> omega

theorem lt_maxOffset (fits : SlotFits size ofs t) (small : size ≤ Mem.maxBlockSize) :
    ofs + t.words < Loc.maxOffset := by
  have words := t.four_mul_words
  obtain ⟨nonneg, -, -, inside⟩ := fits
  unfold byteOfs at inside
  unfold Mem.maxBlockSize at small
  unfold Loc.maxOffset
  omega

theorem inBlock (fits : SlotFits size ofs t) (small : size ≤ Mem.maxBlockSize) :
    0 ≤ byteOfs ofs ∧ byteOfs ofs ≤ Mem.maxBlockSize := by
  obtain ⟨nonneg, -, -, inside⟩ := fits
  unfold byteOfs at inside ⊢
  omega

/-- Slots without a common word have no common byte. -/
theorem apart (fits : SlotFits size ofs t) (fits' : SlotFits size ofs' t')
    (small : size ≤ Mem.maxBlockSize) (apart : ¬ Loc.slotsMeet ofs t ofs' t') :
    byteOfs ofs' + t'.size ≤ byteOfs ofs ∨ byteOfs ofs + t.size ≤ byteOfs ofs' := by
  have words := t.four_mul_words
  have words' := t'.four_mul_words
  have first := Int.le_of_lt (fits.lt_maxOffset small)
  have second := Int.le_of_lt (fits'.lt_maxOffset small)
  have noWord := (Loc.slotsMeet_eq_false_iff first second).mp (Bool.eq_false_iff.mpr apart)
  unfold byteOfs
  omega

end SpillInstr.SlotFits

/-! ### Corresponding states -/

/-- Whether registers and the frame in block 3 know at least as much as a
location state. The frame's header is that of a function which the outermost
caller, with its frame in block 2, has called. -/
structure Agrees (size : Int) (locs : LocState) (regs : RegFile) (mem : Mem) : Prop where
  regs : ∀ r, locs.regs.get r ≤ regs.get r
  slots : ∀ ofs t, SlotFits size ofs t →
    ∃ w, mem.load? (.ofTyp t) 3 (byteOfs ofs) = some w ∧ locs.getSlot .spill ofs t ≤ w
  frame : mem.liveBounds? 3 = some (0, size)
  code : mem.liveBounds? 1 = some (0, 1)
  link : mem.load? .int64 3 0 = some (.ptr 2 0)
  retAddr : mem.load? .int64 3 8 = some .null

/-- Whether all pointers in a location state point to the code. -/
structure CodePointers (locs : LocState) : Prop where
  regs : ∀ r, (locs.regs.get r).PointsInto (· = 1)
  slots : ∀ ofs t, (locs.getSlot .spill ofs t).PointsInto (· = 1)

theorem RegFile.get_clobber_set (file : RegFile) (rs : List Reg) (dst r : Reg) (v : Val) :
    ((file.clobber rs).set dst v).get r =
      if dst = r then v else if r ∈ rs then .undefined else file.get r := by
  rw [get_set, get_clobber]

theorem CodePointers.setReg {locs : LocState} (pointers : CodePointers locs) {v : Val}
    (points : v.PointsInto (· = 1)) (rs : List Reg) (dst : Reg) :
    CodePointers ((locs.clobber rs).setReg dst v) where
  regs r := by
    show (((locs.regs.clobber rs).set dst v).get r).PointsInto _
    rw [RegFile.get_clobber_set]
    split
    · exact points
    · split
      · trivial
      · exact pointers.regs r
  slots := pointers.slots

theorem CodePointers.setSlot {locs : LocState} (pointers : CodePointers locs) {v : Val}
    (points : v.PointsInto (· = 1)) {ofs : Int} (small : ofs < Loc.maxOffset) (t : Typ) :
    CodePointers (locs.setSlot .spill ofs t v) where
  regs r := by
    rw [LocState.regs_setSlot]
    exact pointers.regs r
  slots ofs' t' := by
    rw [locs.getSlot_setSlot v small]
    split
    · exact points.loadResult _
    · split
      · trivial
      · exact pointers.slots ofs' t'

namespace Agrees

variable {size : Int} {locs : LocState} {regs : RegFile} {mem : Mem}

theorem setReg (agrees : Agrees size locs regs mem) {v w : Val} (le : v ≤ w) (rs : List Reg)
    (dst : Reg) :
    Agrees size ((locs.clobber rs).setReg dst v) ((regs.clobber rs).set dst w) mem where
  regs r := by
    show ((locs.regs.clobber rs).set dst v).get r ≤ _
    rw [RegFile.get_clobber_set, RegFile.get_clobber_set]
    split
    · exact le
    · split
      · exact Val.le_refl _
      · exact agrees.regs r
  slots := agrees.slots
  frame := agrees.frame
  code := agrees.code
  link := agrees.link
  retAddr := agrees.retAddr

/-- Both machines put a register into a slot. -/
theorem spill (agrees : Agrees size locs regs mem) {ofs : Int} {t : Typ}
    (fits : SlotFits size ofs t) (small : size ≤ Mem.maxBlockSize) (src : Reg) :
    ∃ mem', mem.store? (.ofTyp t) 3 (byteOfs ofs) (regs.get src) = some mem' ∧
      Agrees size (locs.setSlot .spill ofs t (locs.regs.get src)) regs mem' := by
  obtain ⟨mem', stored⟩ := Mem.store?_isSome (regs.get src) (fits.accessible agrees.frame)
  have bounds : ∀ b, mem'.liveBounds? b = mem.liveBounds? b :=
    Mem.liveBounds?_storeBytes? (Mem.store?_eq_some_iff.mp stored).2
  have below : ofs < Loc.maxOffset := by
    have := fits.lt_maxOffset small
    omega
  -- The header is below every slot.
  have header : ∀ at_ : Int, at_ + 8 ≤ 16 → mem'.load? .int64 3 at_ = mem.load? .int64 3 at_ := by
    intro at_ before
    apply Mem.load?_store?_apart stored
    intro _
    have := fits.nonneg
    have below : at_ + 8 ≤ byteOfs ofs := by
      unfold byteOfs
      omega
    exact .inl below
  refine ⟨mem', stored, ?_, ?_, ?_, ?_, ?_, ?_⟩
  · intro r
    rw [LocState.regs_setSlot]
    exact agrees.regs r
  · intro ofs' t' fits'
    rw [LocState.getSlot_setSlot _ _ below]
    split
    · rename_i same
      obtain ⟨rfl, rfl⟩ := same
      refine ⟨_, Mem.load?_store?_same stored, ?_⟩
      rw [Chunk.decode_encode fits.carriesWords]
      exact Val.loadResult_mono _ (agrees.regs src)
    · split
      · have accessible := fits'.accessible ((bounds 3).trans agrees.frame)
        obtain ⟨w, loaded⟩ := Mem.load?_isSome accessible
        exact ⟨w, loaded, Val.undefined_le w⟩
      · rename_i apart
        have untouched : mem'.load? (.ofTyp t') 3 (byteOfs ofs') =
            mem.load? (.ofTyp t') 3 (byteOfs ofs') := by
          apply Mem.load?_store?_apart stored
          intro _
          simpa using fits.apart fits' small apart
        rw [untouched]
        exact agrees.slots ofs' t' fits'
  · exact (bounds 3).trans agrees.frame
  · exact (bounds 1).trans agrees.code
  · exact (header 0 (by omega)).trans agrees.link
  · exact (header 8 (by omega)).trans agrees.retAddr

/-- Frame-IR has a result for an operator where Location-IR does. -/
theorem op (agrees : Agrees size locs regs mem) (pointers : CodePointers locs) {symbols : Symbols}
    {lmem : Mem} (code : lmem.liveBounds? 1 = some (0, 1)) {o : Operation}
    (outside : o.addressesFrame = false) {sp : Val} (sp' : Val) {args : List Reg} {v : Val}
    (evaluated : o.eval? symbols sp lmem (locs.readRegs args) = some v) :
    ∃ w, o.eval? symbols sp' mem (regs.read args) = some w ∧ v ≤ w := by
  have valid : ∀ b, b = 1 → ∀ ofs, lmem.validPointer b ofs = mem.validPointer b ofs := by
    rintro b rfl ofs
    rw [Bool.eq_iff_iff, Mem.validPointer_iff, Mem.validPointer_iff, code, agrees.code]
  have operands : ∀ a ∈ locs.readRegs args, a.PointsInto (· = 1) := by
    intro a mem
    obtain ⟨r, -, rfl⟩ := List.mem_map.mp mem
    exact pointers.regs r
  rw [Operation.eval?_congr outside valid operands] at evaluated
  apply Operation.eval?_mono _ evaluated
  apply List.forall₂_map_left_iff.mpr
  apply List.forall₂_map_right_iff.mpr
  apply List.forall₂_same.mpr
  intro r _
  exact agrees.regs r

end Agrees

/-! ### Execution -/

/-- Both machines execute an instruction and still correspond. -/
theorem exec_agrees {env : Cfg.Env} {env' : Frame.Env} {calls : CallService}
    {choose : Frame.ReturnAddresses} (symbols : env'.symbols = env.symbols)
    (globals : ∀ name b, env.symbols name = some b → b = 1) {instr : SpillInstr} {size : Int}
    (fits : instr.Fits size) (small : size ≤ Mem.maxBlockSize) {f : Cfg.Function}
    {f' : Frame.Function} {act : Cfg.Activation} {act' : Frame.Activation}
    (sp : act'.sp = .ptr 3 0) {n index pc : Nat} {locs : LocState} {lmem mem : Mem}
    {regs : RegFile} (code : lmem.liveBounds? 1 = some (0, 1))
    (agrees : Agrees size locs regs mem) (pointers : CodePointers locs) {events : Trace}
    {s : Cfg.State}
    (ran : Cfg.exec env calls f act n index locs lmem instr.toCfg = some (events, s)) :
    ∃ locs' regs' mem', events = [] ∧ s = .running act (.inBlock n (index + 1)) locs' lmem ∧
      Frame.exec env' calls choose f' act' pc regs mem instr.toFrame =
        some ([], .running act' (pc + 1) regs' mem') ∧
      Agrees size locs' regs' mem' ∧ CodePointers locs' := by
  cases instr with
  | op o args dst =>
      obtain ⟨v, evaluated, ran⟩ := Option.bind_eq_some_iff.mp ran
      cases ran
      obtain ⟨w, evaluated', le⟩ := agrees.op pointers code fits act'.sp evaluated
      have points : v.PointsInto (· = 1) := by
        apply Operation.pointsInto_eval? fits globals _ evaluated
        intro a mem
        obtain ⟨r, -, rfl⟩ := List.mem_map.mp mem
        exact pointers.regs r
      refine ⟨_, _, mem, rfl, rfl, ?_, agrees.setReg le o.clobbers dst,
        pointers.setReg points o.clobbers dst⟩
      simp only [SpillInstr.toFrame, Frame.exec, symbols, evaluated', Option.bind_eq_bind,
        Option.bind_some, Frame.exec.next]
  | spill src ofs t =>
      obtain ⟨-, ran⟩ := Option.ite_none_right_eq_some.mp ran
      cases ran
      obtain ⟨mem', stored, agrees'⟩ := agrees.spill fits small src
      have inBlock := SlotFits.inBlock fits small
      have below := SlotFits.lt_maxOffset fits small
      refine ⟨_, regs, mem', rfl, rfl, ?_, agrees', ?_⟩
      · simp only [SpillInstr.toFrame, Frame.exec, sp, Mem.storeStack?_ptr,
          Mem.toInt_ofInt_of_le_maxBlockSize inBlock.1 inBlock.2, stored, Option.bind_eq_bind,
          Option.bind_some]
        rfl
      · exact pointers.setSlot (pointers.regs src) (by omega) t
  | reload ofs t dst =>
      obtain ⟨-, ran⟩ := Option.ite_none_right_eq_some.mp ran
      cases ran
      obtain ⟨w, loaded, le⟩ := agrees.slots ofs t fits
      have inBlock := SlotFits.inBlock fits small
      refine ⟨_, _, mem, rfl, rfl, ?_, agrees.setReg le [] dst,
        pointers.setReg (pointers.slots ofs t) [] dst⟩
      simp only [SpillInstr.toFrame, Frame.exec, sp, Mem.loadStack?_ptr,
        Mem.toInt_ofInt_of_le_maxBlockSize inBlock.1 inBlock.2, loaded, Option.bind_eq_bind,
        Option.bind_some]
      rfl

end LateIR
