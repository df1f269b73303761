import LateIR.Cfg.Step
import LateIR.Proofs.Frame.EntryFrame

/-!
Entry succeeds exactly when it should. Both interpreters enter a function if the memory fits
the program, the pointer designates a function, its signature accepts the arguments and the
outgoing area has room for them; Frame-IR also needs a block for the frame of the outermost
caller, and then nothing goes wrong in it (`entry_exact`).
-/

namespace LateIR

open Mem (WithinBlock KeepsBelow)

/-! ### What is checked -/

/-- Whether the function behind a code pointer may be entered with the arguments, by an
outermost caller with an unlimited supply of blocks. -/
structure GlobalEnv.Admits {F : Type} [FunctionBody F] (env : GlobalEnv F) (m : Mem)
    (pointer : Val) (args : List Val) (b : BlockId) (fd : FunDef F) : Prop where
  memory : env.checkMemory m = .ok ()
  pointer : pointer = .ptr b 0
  function : env.functionAt? b = some fd
  accepts : fd.sig.accepts args
  room : fd.sig.argWords ≤ maxOutgoingWords

/-- Whether an error is about the frame of the outermost caller, that something could not be
stored in it. -/
def Error.aboutEntryFrame : Error → Bool
  | .illFormedMemory (.cannotStoreArgument _) | .illFormedMemory .cannotWriteEntryHeader => true
  | _ => false

section

variable {F : Type} [FunctionBody F] {env : GlobalEnv F} {m : Mem} {pointer : Val}
  {args : List Val} {e : Error}

theorem GlobalEnv.admits_iff {b : BlockId} {fd : FunDef F} :
    env.Admits m pointer args b fd ↔
      env.checkEntry m pointer args = .ok (b, fd.sig) ∧ env.functionAt? b = some fd ∧
        fd.sig.argWords ≤ maxOutgoingWords := by
  rw [env.checkEntry_eq_ok_iff]
  simp only [env.function?_eq_some_iff, checkEntryArgs_eq_ok_iff]
  constructor
  · rintro ⟨memory, rfl, function, accepts, room⟩
    exact ⟨⟨memory, fd, ⟨rfl, function⟩, rfl, accepts⟩, function, room⟩
  · rintro ⟨⟨memory, -, ⟨rfl, -⟩, -, accepts⟩, function, room⟩
    exact ⟨memory, rfl, function, accepts, room⟩

theorem GlobalEnv.exists_of_checkEntry {b : BlockId} {sig : Signature}
    (checked : env.checkEntry m pointer args = .ok (b, sig)) :
    ∃ fd, env.functionAt? b = some fd ∧ fd.sig = sig ∧ sig.accepts args := by
  obtain ⟨-, fd, found, same, accepted⟩ := env.checkEntry_eq_ok_iff.mp checked
  exact ⟨fd, (env.function?_eq_some_iff.mp found).2, same, checkEntryArgs_eq_ok_iff.mp accepted⟩

theorem aboutEntryFrame_of_checkOutgoing {l : Loc} (failed : l.checkOutgoing = .error e) :
    e.aboutEntryFrame = false := by
  cases l with
  | reg r => cases failed
  | slot kind ofs t =>
      rw [Loc.checkOutgoing] at failed
      split at failed <;> cases failed
      rfl

theorem aboutEntryFrame_of_checkArgTypes {name : String} {index : Nat} {pairs : List (Val × Typ)}
    (failed : checkArgTypes name index pairs = .error e) : e.aboutEntryFrame = false := by
  induction pairs generalizing index with
  | nil => cases failed
  | cons p rest ih =>
      rw [checkArgTypes] at failed
      split at failed
      · exact ih failed
      · cases failed
        rfl

theorem aboutEntryFrame_of_checkEntry (failed : env.checkEntry m pointer args = .error e) :
    e.aboutEntryFrame = false := by
  rcases bind_eq_error_iff.mp failed with unsound | ⟨⟨⟩, -, failed⟩
  · unfold GlobalEnv.checkMemory at unsound
    split at unsound
    · cases unsound
      rfl
    · split at unsound
      · cases unsound
        rfl
      · split at unsound
        · cases unsound
        · cases unsound
          rfl
  · split at failed
    · rcases bind_eq_error_iff.mp failed with refused | ⟨⟨⟩, -, failed⟩
      · unfold checkEntryArgs at refused
        split at refused
        · exact aboutEntryFrame_of_checkArgTypes refused
        · cases refused
          rfl
      · cases failed
    · cases failed
      rfl

end

/-- The arguments that a signature accepts fit their locations if there is room. -/
theorem Signature.forall_zip_checkOutgoing_iff {s : Signature} {args : List Val}
    (accepts : s.accepts args) :
    (∀ p ∈ s.argLocs.zip args, p.1.checkOutgoing = .ok ()) ↔ s.argWords ≤ maxOutgoingWords := by
  have same := (accepts_iff.mp accepts).length_eq
  rw [forall_mem_zip_iff (P := fun l => l.checkOutgoing = .ok ())
    (s.length_argLocs.trans same.symm), s.forall_checkOutgoing_iff]

/-! ### Location-IR -/

theorem LocState.exists_placeArgs_iff {ls : LocState} {pairs : List (Loc × Val)} :
    (∃ ls', ls.placeArgs pairs = .ok ls') ↔ ∀ p ∈ pairs, p.1.checkOutgoing = .ok () := by
  induction pairs generalizing ls with
  | nil => simp [placeArgs]
  | cons p rest ih =>
      obtain ⟨l, v⟩ := p
      have later := @ih (ls.set l v)
      simp only [placeArgs, bind_eq_ok_iff, List.forall_mem_cons, ← later]
      constructor
      · rintro ⟨ls', ⟨⟩, inside, placed⟩
        exact ⟨inside, ls', placed⟩
      · rintro ⟨inside, ls', placed⟩
        exact ⟨ls', (), inside, placed⟩

theorem Cfg.exists_enter_iff {env : Cfg.Env} {m : Mem} {pointer : Val} {args : List Val} :
    (∃ s, Cfg.enter env m pointer args = .ok s) ↔ ∃ b fd, env.Admits m pointer args b fd := by
  constructor
  · rintro ⟨s, entered⟩
    obtain ⟨⟨b, sig⟩, checked, entered⟩ := bind_eq_ok_iff.mp entered
    obtain ⟨locs, placed, -⟩ := bind_eq_ok_iff.mp entered
    obtain ⟨fd, function, rfl, accepts⟩ := GlobalEnv.exists_of_checkEntry checked
    have inside := LocState.exists_placeArgs_iff.mp ⟨locs, placed⟩
    have room := (Signature.forall_zip_checkOutgoing_iff accepts).mp inside
    exact ⟨b, fd, GlobalEnv.admits_iff.mpr ⟨checked, function, room⟩⟩
  · rintro ⟨b, fd, admits⟩
    have checked := (GlobalEnv.admits_iff.mp admits).1
    have inside := (Signature.forall_zip_checkOutgoing_iff admits.accepts).mpr admits.room
    obtain ⟨locs, placed⟩ := LocState.exists_placeArgs_iff.mpr inside
    exact ⟨_, bind_eq_ok_iff.mpr ⟨_, checked, bind_eq_ok_iff.mpr ⟨locs, placed, rfl⟩⟩⟩

/-! ### Frame-IR -/

namespace Frame

variable {env : Env} {m m' : Mem} {pointer : Val} {args : List Val}

/-- Whether a memory has the frame of an outermost caller on top of an older one, with a
null link and a null return address after the arguments. -/
structure AddsEntryFrame (s : Signature) (m m' : Mem) : Prop where
  next : m'.nextBlock = m.nextBlock + 1
  bounds : m'.liveBounds? m.nextBlock = some (0, 4 * s.argWords + 16)
  link : m'.load? .int64 m.nextBlock (4 * s.argWords) = some (.long 0)
  returnAddress : m'.load? .int64 m.nextBlock (4 * s.argWords + 8) = some (.long 0)
  older : ∀ b < m.nextBlock, m'.block? b = m.block? b

/-- The frame of the outermost caller before anything is stored in it. -/
theorem bounds_of_alloc? {s : Signature} {b : BlockId} {fresh : Mem}
    (allocated : m.alloc? 0 (slotByteOffset s.argWords + entryHeaderSize) = some (b, fresh)) :
    fresh.liveBounds? b = some (0, 4 * s.argWords + 16) ∧
      4 * s.argWords + 16 ≤ Mem.maxBlockSize := by
  have nonneg := s.argWords_nonneg
  have bounds := Mem.liveBounds?_of_alloc? allocated
  have small := (Mem.alloc?_eq_some_iff.mp allocated).1.1
  unfold slotByteOffset entryHeaderSize at bounds small
  rw [Int.max_eq_left (by omega)] at bounds
  exact ⟨bounds, by omega⟩

theorem fitsFrame_of_mem_zip {s : Signature} {p : Loc × Val}
    (mem : p ∈ s.argLocs.zip args) : p.1.FitsFrame (4 * s.argWords + 16) :=
  (Signature.fitsFrame_argLocs (List.of_mem_zip mem).1).mono (by omega)

/-- Once the arguments are in place, the frame of the outermost caller is completed. -/
theorem addsEntryFrame_of_placeArgs {s : Signature} {b : BlockId} {fresh : Mem}
    {placed : RegFile × Mem}
    (allocated : m.alloc? 0 (slotByteOffset s.argWords + entryHeaderSize) = some (b, fresh))
    (done : placeArgs (.ptr b 0) (s.argLocs.zip args) .empty fresh = .ok placed) :
    ∃ m', writeEntryHeader (.ptr b 0) (slotByteOffset s.argWords) placed.2 = .ok m' ∧
      AddsEntryFrame s m m' := by
  obtain ⟨live, small⟩ := bounds_of_alloc? allocated
  obtain ⟨rfl, next⟩ := Mem.nextBlock_alloc? allocated
  have within := withinBlock_placeArgs done
  have live' := (within.bounds _).trans live
  have nonneg := s.argWords_nonneg
  have even := s.argWords_eq_countP
  have first : 0 ≤ slotByteOffset s.argWords := by
    unfold slotByteOffset
    omega
  have last : slotByteOffset s.argWords + entryHeaderSize ≤ 4 * s.argWords + 16 := Int.le_refl _
  have aligned : 8 ∣ slotByteOffset s.argWords := by
    unfold slotByteOffset
    omega
  have ⟨m', written⟩ := exists_writeEntryHeader live' small first last aligned
  have ⟨within', link, returnAddress⟩ :=
    load?_writeEntryHeader first (Int.le_trans last small) written
  refine ⟨m', written, ?_⟩
  have whole := within.trans within'
  exact
    { next := whole.next.trans next
      bounds := (whole.bounds _).trans live
      link
      returnAddress
      older := (KeepsBelow.of_alloc? allocated).trans whole.keepsBelow }

/-- Nothing goes wrong in the frame of the outermost caller. -/
theorem error_of_enter {e : Error} (failed : enter env m pointer args = .error e) :
    e.aboutEntryFrame = false := by
  rcases bind_eq_error_iff.mp failed with refused | ⟨⟨callee, sig⟩, -, failed⟩
  · exact aboutEntryFrame_of_checkEntry refused
  dsimp only at failed
  split at failed
  · rename_i b fresh allocated
    obtain ⟨live, small⟩ := bounds_of_alloc? allocated
    rcases bind_eq_error_iff.mp failed with refused | ⟨⟨regs, placed⟩, done, failed⟩
    · obtain ⟨p, -, outside⟩ := error_of_placeArgs live small (fun p => fitsFrame_of_mem_zip) refused
      exact aboutEntryFrame_of_checkOutgoing outside
    · obtain ⟨m', written, -⟩ := addsEntryFrame_of_placeArgs allocated done
      rw [written] at failed
      cases failed
  · cases failed
    rfl

theorem addsEntryFrame_of_enter {s : State} (entered : enter env m pointer args = .ok s) :
    ∃ b fd regs m', env.Admits m pointer args b fd ∧ m.nextBlock < Mem.blockLimit ∧
      AddsEntryFrame fd.sig m m' ∧ s = .calling ⟨[], ⟨.ptr m.nextBlock 0, .null⟩⟩ b regs m' := by
  obtain ⟨b, sig, _, fresh, regs, placed, m', checked, allocated, done, written, rfl⟩ :=
    enter_eq_ok_iff.mp entered
  obtain ⟨fd, function, rfl, accepts⟩ := GlobalEnv.exists_of_checkEntry checked
  have inside := checkOutgoing_of_placeArgs done
  have room := (Signature.forall_zip_checkOutgoing_iff accepts).mp inside
  obtain ⟨_, again, adds⟩ := addsEntryFrame_of_placeArgs allocated done
  cases written.symm.trans again
  obtain ⟨⟨-, more⟩, rfl, -⟩ := Mem.alloc?_eq_some_iff.mp allocated
  exact ⟨b, fd, regs, m', GlobalEnv.admits_iff.mpr ⟨checked, function, room⟩, more, adds, rfl⟩

theorem exists_enter_iff :
    (∃ s, enter env m pointer args = .ok s) ↔
      (∃ b fd, env.Admits m pointer args b fd) ∧ m.nextBlock < Mem.blockLimit := by
  constructor
  · rintro ⟨s, entered⟩
    obtain ⟨b, fd, _, _, admits, more, -⟩ := addsEntryFrame_of_enter entered
    exact ⟨⟨b, fd, admits⟩, more⟩
  · rintro ⟨⟨b, fd, admits⟩, more⟩
    obtain ⟨checked, -, room⟩ := GlobalEnv.admits_iff.mp admits
    have small : (slotByteOffset fd.sig.argWords + entryHeaderSize - 0).toNat ≤
        Mem.maxBlockSize := by
      unfold maxOutgoingWords at room
      unfold slotByteOffset entryHeaderSize Mem.maxBlockSize
      omega
    have allocated := Mem.alloc?_eq_some_iff.mpr ⟨⟨small, more⟩, rfl, rfl⟩
    obtain ⟨live, bounded⟩ := bounds_of_alloc? allocated
    cases done : placeArgs (.ptr m.nextBlock 0) (fd.sig.argLocs.zip args) .empty
        ⟨m.blocks.push _⟩ with
    | error e =>
        obtain ⟨p, mem, outside⟩ :=
          error_of_placeArgs live bounded (fun p => fitsFrame_of_mem_zip) done
        have inside := (Signature.forall_zip_checkOutgoing_iff admits.accepts).mpr room p mem
        cases inside.symm.trans outside
    | ok placed =>
        obtain ⟨m', written, -⟩ := addsEntryFrame_of_placeArgs allocated done
        exact ⟨_, enter_eq_ok_iff.mpr
          ⟨b, _, _, _, placed.1, placed.2, m', checked, allocated, done, written, rfl⟩⟩

end Frame

/-- When the interpreters enter a function, which errors do not occur, and the frame that
Frame-IR starts with. -/
theorem entry_exact :
    (∀ (env : Cfg.Env) (m : Mem) (pointer : Val) (args : List Val),
      (∃ s, Cfg.enter env m pointer args = .ok s) ↔ ∃ b fd, env.Admits m pointer args b fd) ∧
    ∀ (env : Frame.Env) (m : Mem) (pointer : Val) (args : List Val),
      ((∃ s, Frame.enter env m pointer args = .ok s) ↔
        (∃ b fd, env.Admits m pointer args b fd) ∧ m.nextBlock < Mem.blockLimit) ∧
      (∀ e, Frame.enter env m pointer args = .error e → e.aboutEntryFrame = false) ∧
      ∀ s, Frame.enter env m pointer args = .ok s → ∃ b fd regs m',
        env.Admits m pointer args b fd ∧ Frame.AddsEntryFrame fd.sig m m' ∧
          s = .calling ⟨[], ⟨.ptr m.nextBlock 0, .null⟩⟩ b regs m' := by
  refine ⟨?_, ?_⟩
  · intro env m pointer args
    exact Cfg.exists_enter_iff
  · intro env m pointer args
    refine ⟨Frame.exists_enter_iff, ?_, ?_⟩
    · intro e failed
      exact Frame.error_of_enter failed
    · intro s entered
      obtain ⟨b, fd, regs, m', admits, -, adds, same⟩ := Frame.addsEntryFrame_of_enter entered
      exact ⟨b, fd, regs, m', admits, adds, same⟩

/-! An argument of one word and one of two words on the stack. -/

def mixedSink : ExternalFunction :=
  .external "sink" ⟨.replicate 7 .int ++ [.long], none, .standard⟩

def mixedArgs : List Val := .replicate 7 (.int 5) ++ [.ptr 1 0]

def mixedProgram (F : Type) : Program F := ⟨[("sink", .function (.external mixedSink))], "sink"⟩

def Cfg.mixed : Cfg.Env := ⟨mixedProgram _, by decide⟩

def Frame.mixed : Frame.Env := ⟨mixedProgram _, by decide⟩

def mixedMem : Mem := ⟨#[.live 0 #[.undefined]]⟩

theorem entry_exact_mixed :
    (∃ s, Cfg.enter Cfg.mixed mixedMem (.ptr 1 0) mixedArgs = .ok s) ∧
    (∃ s regs m, Frame.enter Frame.mixed mixedMem (.ptr 1 0) mixedArgs = .ok s ∧
      Frame.AddsEntryFrame mixedSink.sig mixedMem m ∧
      s = .calling ⟨[], ⟨.ptr 2 0, .null⟩⟩ 1 regs m ∧ m.liveBounds? 2 = some (0, 32)) ∧
    ∃ e, Frame.enter Frame.mixed mixedMem (.ptr 1 0) [] = .error e ∧
      e.aboutEntryFrame = false := by
  obtain ⟨inLocations, inFrames⟩ := entry_exact
  have room : mixedSink.sig.argWords ≤ maxOutgoingWords := by decide
  refine ⟨?_, ?_, ?_⟩
  · exact (inLocations Cfg.mixed mixedMem (.ptr 1 0) mixedArgs).mpr
      ⟨1, .external mixedSink, by decide +kernel, rfl, rfl, by decide, room⟩
  · obtain ⟨enterable, -, builds⟩ := inFrames Frame.mixed mixedMem (.ptr 1 0) mixedArgs
    obtain ⟨s, entered⟩ :=
      enterable.mpr ⟨⟨1, .external mixedSink, by decide +kernel, rfl, rfl, by decide, room⟩, by decide⟩
    obtain ⟨b, fd, regs, m, admits, adds, rfl⟩ := builds s entered
    cases admits.pointer
    cases admits.function
    exact ⟨_, regs, m, entered, adds, rfl, adds.bounds⟩
  · obtain ⟨enterable, harmless, -⟩ := inFrames Frame.mixed mixedMem (.ptr 1 0) []
    cases entered : Frame.enter Frame.mixed mixedMem (.ptr 1 0) [] with
    | error e => exact ⟨e, rfl, harmless e entered⟩
    | ok s =>
        obtain ⟨⟨b, fd, admits⟩, -⟩ := enterable.mp ⟨s, entered⟩
        cases admits.pointer
        cases admits.function
        cases admits.accepts

end LateIR
