import LateIR.Convention.Boundary
import LateIR.Convention.Clobber
import LateIR.Frame.State

/-!
Execution of Frame-IR. Entering a function allocates its frame and writes the
link and the return address into the frame's header; leaving it reads both back
and compares them with the caller's before the frame is freed.
-/

namespace LateIR.Frame

variable (env : Env) (calls : CallService) (choose : ReturnAddresses)

/-- Writes the header of a new frame. -/
def writeHeader? (f : Function) (stack : CallStack) (sp : Val) (mem : Mem) : Option Mem := do
  let mem ← mem.storeStack? sp .pointer f.linkOfs stack.callerSp
  mem.storeStack? sp .pointer f.retAddrOfs stack.callerRa

/-- Frees the frame of a function that is left, if its header is intact. -/
def release? (f : Function) (stack : CallStack) (sp : Val) (mem : Mem) : Option Mem := do
  let link ← mem.loadStack? sp .pointer f.linkOfs
  let ra ← mem.loadStack? sp .pointer f.retAddrOfs
  if link = stack.callerSp ∧ ra = stack.callerRa then mem.freeFrame? sp f.stackSize else none

/-- Reads a parameter in the frame of the caller, which the link must name. -/
def param? (f : Function) (stack : CallStack) (sp : Val) (mem : Mem) (t : Typ) (ofs : Int64) :
    Option Val := do
  let link ← mem.loadStack? sp .pointer f.linkOfs
  if link = stack.callerSp then mem.loadStack? stack.callerSp t ofs else none

/-- The block of the function that a call goes to. -/
def target? (regs : RegFile) (callee : Callee) : Option BlockId :=
  (env.resolve? regs.get callee).map (·.1)

/-- Executes the instruction at index `pc`. -/
def exec (f : Function) (act : Activation) (pc : Nat) (regs : RegFile) (mem : Mem) :
    Instr → Option (Trace × State)
  | .getStack ofs t dst => do
      let v ← mem.loadStack? act.sp t ofs
      next (regs.set dst v) mem
  | .setStack src ofs t => do
      let mem ← mem.storeStack? act.sp t ofs (regs.get src)
      next (regs.clobber (Clobber.setStack t)) mem
  | .getParam ofs t dst => do
      let v ← param? f act.stack act.sp mem t ofs
      next ((regs.clobber (Clobber.getStack .incoming)).set dst v) mem
  | .op o args dst => do
      let v ← o.eval? env.symbols act.sp mem (regs.read args)
      next ((regs.clobber o.clobbers).set dst v) mem
  | .load chunk addr args dst => do
      let a ← addr.eval? env.symbols act.sp (regs.read args)
      let v ← mem.loadAt? chunk a
      next ((regs.clobber (Clobber.load chunk addr)).set dst v) mem
  | .store chunk addr args src => do
      let a ← addr.eval? env.symbols act.sp (regs.read args)
      let mem ← mem.storeAt? chunk a (regs.get src)
      next (regs.clobber (Clobber.store chunk addr)) mem
  | .call _ callee => do
      let b ← target? env regs callee
      let ra ← choose act.func f (pc + 1)
      let caller := ⟨act.func, act.sp, .ptr act.func ra, pc + 1⟩
      some ([], .calling (act.stack.push caller) b regs mem)
  | .tailCall _ callee => do
      let b ← target? env regs callee
      let mem ← release? f act.stack act.sp mem
      some ([], .calling act.stack b regs mem)
  | .builtin ef args res => do
      let vs ← BuiltinArg.evalList? env.symbols regs.get act.sp mem args
      let out ← calls ef vs mem
      let regs := (regs.clobber (Clobber.builtin ef)).setAll (res.writes out.result)
      some (out.trace, .running act (pc + 1) regs out.mem)
  | .label _ => next regs mem
  | .goto l => do
      let target ← f.labelIndex? l
      jump target regs
  | .cond c args l => do
      let b ← c.eval? mem (regs.read args)
      let target ← if b then f.labelIndex? l else some (pc + 1)
      jump target (regs.clobber (Clobber.branch c))
  | .jumpTable r labels =>
      match regs.get r with
      | .int n => do
          let l ← labels[n.toUInt32.toNat]?
          let target ← f.labelIndex? l
          jump target (regs.clobber Clobber.jumpTable)
      | _ => none
  | .ret => do
      let mem ← release? f act.stack act.sp mem
      some ([], .returned act.stack regs mem)
where
  /-- Goes on with the next instruction. -/
  next (regs : RegFile) (mem : Mem) : Option (Trace × State) :=
    some ([], .running act (pc + 1) regs mem)
  /-- Goes on at another index. -/
  jump (target : Nat) (regs : RegFile) : Option (Trace × State) :=
    some ([], .running act target regs mem)

def step : State → Option (Trace × State)
  | .running act pc regs mem => do
      let f ← env.internalAt? act.func
      let instr ← f.code[pc]?
      exec env calls choose f act pc regs mem instr
  | .calling stack callee regs mem =>
      match env.functionAt? callee with
      | some (.internal f) => do
          let (b, mem) ← mem.alloc? 0 f.stackSize
          let mem ← writeHeader? f stack (.ptr b 0) mem
          let regs := regs.clobber Clobber.functionEntry
          some ([], .running ⟨stack, callee, .ptr b 0⟩ 0 regs mem)
      | some (.external ef) => do
          let args ← frameArgs? regs mem stack.callerSp ef.sig
          let out ← calls ef args mem
          some (out.trace, .returned stack (regs.afterExternal ef.sig out.result) out.mem)
      | none => none
  | .returned ⟨[], _⟩ _ _ => none
  | .returned ⟨caller :: callers, entry⟩ regs mem =>
      some ([], .running ⟨⟨callers, entry⟩, caller.func, caller.sp⟩ caller.resume regs mem)

/-! ### Entry, external calls and results -/

/-- Bytes after the stack arguments of the outermost caller, for its own link
and return address, which are null. -/
def entryHeaderSize : Int := 16

/-- Puts the arguments into registers and into the frame at `sp`. -/
def placeArgs (sp : Val) : List (Loc × Val) → RegFile → Mem → Except Error (RegFile × Mem)
  | [], regs, mem => .ok (regs, mem)
  | (.reg r, v) :: rest, regs, mem => placeArgs sp rest (regs.set r v) mem
  | (.slot kind ofs t, v) :: rest, regs, mem => do
      (Loc.slot kind ofs t).checkOutgoing
      match mem.storeStack? sp t (.ofInt (slotByteOffset ofs)) v with
      | some mem => placeArgs sp rest regs mem
      | none => .error (.illFormedMemory (.cannotStoreArgument ofs))

/-- Writes the null link and return address of the outermost caller. -/
def writeEntryHeader (sp : Val) (ofs : Int) (mem : Mem) : Except Error Mem :=
  let written := do
    let mem ← mem.storeStack? sp .pointer (.ofInt ofs) .null
    mem.storeStack? sp .pointer (.ofInt (ofs + 8)) .null
  match written with
  | some mem => .ok mem
  | none => .error (.illFormedMemory .cannotWriteEntryHeader)

/-- The state in which the outermost caller calls the function behind a code
pointer. The caller's frame is a new block with the stack arguments at their
offsets and the header after them. -/
def enter (mem : Mem) (pointer : Val) (args : List Val) : Except Error State := do
  let (callee, sig) ← env.checkEntry mem pointer args
  let header := slotByteOffset sig.argWords
  match mem.alloc? 0 (header + entryHeaderSize) with
  | some (b, mem) =>
      let sp := Val.ptr b 0
      let (regs, mem) ← placeArgs sp (sig.argLocs.zip args) .empty mem
      let mem ← writeEntryHeader sp header mem
      .ok (.calling ⟨[], ⟨sp, .null⟩⟩ callee regs mem)
  | none => .error (.illFormedMemory .cannotAllocateEntry)

/-- The external call that a state is about to make, if its arguments can be
read. -/
def atExternal? : State → Option (ExternalFunction × List Val)
  | .calling stack callee regs mem => do
      let ef ← env.externalAt? callee
      let args ← frameArgs? regs mem stack.callerSp ef.sig
      some (ef, args)
  | _ => none

/-- The state after an external call with the given result and memory. -/
def resume? (result : Option Val) (mem : Mem) : State → Option State
  | .calling stack callee regs _ => do
      let ef ← env.externalAt? callee
      let v ← result
      some (.returned stack (regs.afterExternal ef.sig v) mem)
  | _ => none

/-- The value that the outermost call returned. -/
def returned? : State → Option Val
  | .returned ⟨[], _⟩ regs _ => some (regs.get Signature.main.resultReg)
  | _ => none

end LateIR.Frame
