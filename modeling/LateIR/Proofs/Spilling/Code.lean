import LateIR.Cfg.WellFormed
import LateIR.Frame.WellFormed
import LateIR.Proofs.Operation

/-!
Spilling code in both forms: operators, and moves between registers and spill
slots. A program of one function runs it, and starts in a known state
(`Cfg.enter_mainOnly`, `Frame.enter_mainOnly`).
-/

namespace LateIR

/-- An instruction of spilling code. Slots are named by their word offset. -/
inductive SpillInstr where
  | op (o : Operation) (args : List Reg) (dst : Reg)
  | spill (src : Reg) (ofs : Int) (t : Typ)
  | reload (ofs : Int) (t : Typ) (dst : Reg)

namespace SpillInstr

/-- The byte offset of a slot in a frame that begins with its header. -/
def byteOfs (ofs : Int) : Int := 16 + 4 * ofs

/-- Whether a slot is one of a frame of the given size. -/
structure SlotFits (size ofs : Int) (t : Typ) : Prop where
  nonneg : 0 ≤ ofs
  typed : t = .int ∨ t = .long ∨ t = .float ∨ t = .single
  aligned : 4 * ofs % t.size = 0
  inside : byteOfs ofs + t.size ≤ size

/-- Whether the instruction stays away from frame addresses and, in a frame of
the given size, inside the slots. -/
def Fits (size : Int) : SpillInstr → Prop
  | op o _ _ => o.addressesFrame = false
  | spill _ ofs t | reload ofs t _ => SlotFits size ofs t

def toCfg : SpillInstr → Cfg.Instr
  | op o args dst => .op o args dst
  | spill src ofs t => .setStack src .spill ofs t
  | reload ofs t dst => .getStack .spill ofs t dst

def toFrame : SpillInstr → Frame.Instr
  | op o args dst => .op o args dst
  | spill src ofs t => .setStack src (.ofInt (byteOfs ofs)) t
  | reload ofs t dst => .getStack (.ofInt (byteOfs ofs)) t dst

end SpillInstr

/-- Whether two functions without parameters run the same spilling code and
return, one on slots and the other in a frame with its header in front. -/
structure SameSpills (ops : List SpillInstr) (f : Cfg.Function) (f' : Frame.Function) : Prop where
  noParams : f.sig.args = []
  noParams' : f'.sig.args = []
  block : f.block? f.entry = some (ops.map SpillInstr.toCfg ++ [Cfg.Instr.ret]).toArray
  code : f'.code = (ops.map SpillInstr.toFrame ++ [Frame.Instr.ret]).toArray
  linkOfs : f'.linkOfs = 0
  retAddrOfs : f'.retAddrOfs = 8
  header : 16 ≤ f'.stackSize
  allocatable : f'.stackSize ≤ Mem.maxBlockSize
  fits : ∀ instr ∈ ops, instr.Fits f'.stackSize

/-- The program of one function. -/
def mainOnly {F : Type} (name : String) (f : F) : GlobalEnv F where
  program := ⟨[(name, .function (.internal f))], name⟩
  distinct := by simp [Program.names]

/-- One byte of code. -/
def codeMem : Mem := ⟨#[.live 0 #[.undefined]]⟩

section

variable {F : Type} {name : String} {f : F}

theorem initMem_mainOnly : (mainOnly name f).program.initMem = .ok codeMem := rfl

theorem symbols_mainOnly (symbol : String) :
    (mainOnly name f).symbols symbol = if name = symbol then some 1 else none := by
  by_cases same : name = symbol <;>
    simp [mainOnly, GlobalEnv.symbols, Program.blockOf, Program.names, List.idxOf?,
      List.findIdx?_cons, same]

theorem mainPointer?_mainOnly : (mainOnly name f).mainPointer? = some (.ptr 1 0) := by
  have here : (mainOnly name f).symbols name = some 1 := by rw [symbols_mainOnly, if_pos rfl]
  exact congrArg (Option.map fun b => Val.ptr b 0) here

theorem checkEntry_mainOnly [FunctionBody F] (noParams : (FunctionBody.sig f).args = []) :
    (mainOnly name f).checkEntry codeMem (.ptr 1 0) [] = .ok (1, FunctionBody.sig f) := by
  have noDangling : codeMem.noDangling := by decide +kernel
  have remembered : (mainOnly name f).checkMemory codeMem = .ok () := by
    have live : (mainOnly name f).codeBlocks.find? (fun b => !codeMem.isLive b) = none := rfl
    have last : (mainOnly name f).lastBlock?.filter (codeMem.nextBlock ≤ ·) = none := rfl
    simp only [GlobalEnv.checkMemory, last, live, noDangling, if_true]
  have found : (mainOnly name f).function? (.ptr 1 0) = some (1, .internal f) := by rfl
  have fits : checkEntryArgs (((mainOnly name f).nameOf? 1).getD "") (FunctionBody.sig f) [] =
      .ok () := by
    simp [checkEntryArgs, noParams, checkArgTypes]
  simp only [GlobalEnv.checkEntry, remembered, found, FunDef.sig, fits, bind, Except.bind]

end

/-! ### Entry -/

/-- The outermost caller of Frame-IR has a frame that holds a null header. -/
def entryMem : Mem := ⟨#[.live 0 #[.undefined], .live 0 (.replicate 16 (.byte 0))]⟩

def Cfg.mainStart : Cfg.State := .calling [] 1 .empty codeMem

def Frame.mainStart : Frame.State := .calling ⟨[], ⟨.ptr 2 0, .null⟩⟩ 1 .empty entryMem

theorem Cfg.enter_mainOnly {name : String} {f : Cfg.Function} (noParams : f.sig.args = []) :
    Cfg.enter (mainOnly name f) codeMem (.ptr 1 0) [] = .ok Cfg.mainStart := by
  have checked : (mainOnly name f).checkEntry codeMem (.ptr 1 0) [] = .ok (1, f.sig) :=
    checkEntry_mainOnly noParams
  simp only [Cfg.enter, checked, LocState.ofArgs, List.zip_nil_right, LocState.placeArgs, bind,
    Except.bind]
  rfl

theorem Frame.enter_mainOnly {name : String} {f : Frame.Function} (noParams : f.sig.args = []) :
    Frame.enter (mainOnly name f) codeMem (.ptr 1 0) [] = .ok Frame.mainStart := by
  have checked : (mainOnly name f).checkEntry codeMem (.ptr 1 0) [] = .ok (1, f.sig) :=
    checkEntry_mainOnly noParams
  have words : f.sig.argWords = 0 := by rw [Signature.argWords, noParams]; rfl
  have allocated : codeMem.alloc? 0 (slotByteOffset 0 + entryHeaderSize) =
      some (2, ⟨codeMem.blocks.push (.live 0 (.replicate 16 .undefined))⟩) := rfl
  have written : writeEntryHeader (.ptr 2 0) (slotByteOffset 0)
      ⟨codeMem.blocks.push (.live 0 (.replicate 16 .undefined))⟩ = .ok entryMem := rfl
  simp only [Frame.enter, checked, words, allocated, List.zip_nil_right, placeArgs, written, bind,
    Except.bind]
  rfl

end LateIR
