import LateIR.Cfg.State
import LateIR.Convention.Boundary
import LateIR.Convention.Clobber

/-!
Execution of Location-IR. `step` gives the one successor of a state and the
events on the way to it, and nothing when the state is stuck.
-/

namespace LateIR.Cfg

variable (env : Env) (calls : CallService)

/-- The block of the function that a call goes to, which must have the signature
that the call expects. -/
def target? (locs : LocState) (sig : Signature) (callee : Callee) : Option BlockId :=
  match env.resolve? locs.regs.get callee with
  | some (b, fd) => if fd.sig = sig then some b else none
  | none => none

/-- Executes the instruction at `index` of block `node`. -/
def exec (f : Function) (act : Activation) (node : Node) (index : Nat) (locs : LocState)
    (mem : Mem) : Instr → Option (Trace × State)
  | .op o args dst => do
      let v ← o.eval? env.symbols act.sp mem (locs.readRegs args)
      next ((locs.clobber o.clobbers).setReg dst v) mem
  | .load chunk addr args dst => do
      let a ← addr.eval? env.symbols act.sp (locs.readRegs args)
      let v ← mem.loadAt? chunk a
      next ((locs.clobber (Clobber.load chunk addr)).setReg dst v) mem
  | .getStack kind ofs t dst =>
      if (Loc.slot kind ofs t).inRange then
        let v := locs.getSlot kind ofs t
        next ((locs.clobber (Clobber.getStack kind)).setReg dst v) mem
      else none
  | .setStack src kind ofs t =>
      if (Loc.slot kind ofs t).inRange then
        let v := locs.regs.get src
        next ((locs.clobber (Clobber.setStack t)).setSlot kind ofs t v) mem
      else none
  | .store chunk addr args src => do
      let a ← addr.eval? env.symbols act.sp (locs.readRegs args)
      let mem ← mem.storeAt? chunk a (locs.regs.get src)
      next (locs.clobber (Clobber.store chunk addr)) mem
  | .call sig callee => do
      let b ← target? env locs sig callee
      some ([], .calling (⟨act.func, act.sp, locs, node, index + 1⟩ :: act.stack) b locs mem)
  | .tailCall sig callee => do
      let locs := act.stack.callerLocs.afterReturn locs
      let b ← target? env locs sig callee
      let mem ← mem.freeFrame? act.sp f.stackSize
      some ([], .calling act.stack b locs mem)
  | .builtin ef args res => do
      let vs ← BuiltinArg.evalList? env.symbols locs.get act.sp mem args
      let out ← calls ef vs mem
      let locs := (locs.clobber (Clobber.builtin ef)).setRegs (res.writes out.result)
      some (out.trace, .running act (.inBlock node (index + 1)) locs out.mem)
  | .branch n => jump n locs
  | .cond c args ifSo ifNot => do
      let b ← c.eval? mem (locs.readRegs args)
      jump (if b then ifSo else ifNot) (locs.clobber (Clobber.branch c))
  | .jumpTable r targets =>
      match locs.regs.get r with
      | .int n => do
          let target ← targets[n.toUInt32.toNat]?
          jump target (locs.clobber Clobber.jumpTable)
      | _ => none
  | .ret => do
      let mem ← mem.freeFrame? act.sp f.stackSize
      some ([], .returned act.stack (act.stack.callerLocs.afterReturn locs) mem)
where
  /-- Goes on with the next instruction. -/
  next (locs : LocState) (mem : Mem) : Option (Trace × State) :=
    some ([], .running act (.inBlock node (index + 1)) locs mem)
  /-- Goes on at the start of another block. -/
  jump (target : Node) (locs : LocState) : Option (Trace × State) :=
    some ([], .running act (.atNode target) locs mem)

def step : State → Option (Trace × State)
  | .running act (.atNode n) locs mem => do
      let f ← env.internalAt? act.func
      if (f.block? n).isSome then some ([], .running act (.inBlock n 0) locs mem) else none
  | .running act (.inBlock n index) locs mem => do
      let f ← env.internalAt? act.func
      let block ← f.block? n
      let instr ← block[index]?
      exec env calls f act n index locs mem instr
  | .calling stack callee locs mem =>
      match env.functionAt? callee with
      | some (.internal f) => do
          let (b, mem) ← mem.alloc? 0 f.stackSize
          let locs := locs.atCall.clobber Clobber.functionEntry
          some ([], .running ⟨stack, callee, .ptr b 0⟩ (.atNode f.entry) locs mem)
      | some (.external ef) => do
          let out ← calls ef (locs.args ef.sig) mem
          some (out.trace, .returned stack (locs.afterExternal ef.sig out.result) out.mem)
      | none => none
  | .returned [] _ _ => none
  | .returned (caller :: stack) locs mem =>
      some ([], .running ⟨stack, caller.func, caller.sp⟩ (.inBlock caller.node caller.index)
        locs mem)

/-! ### Entry, external calls and results -/

/-- The state in which the outermost caller calls the function behind a code
pointer. -/
def enter (mem : Mem) (pointer : Val) (args : List Val) : Except Error State := do
  let (callee, sig) ← env.checkEntry mem pointer args
  let locs ← LocState.ofArgs sig args
  .ok (.calling [] callee locs mem)

/-- The external call that a state is about to make. -/
def atExternal? : State → Option (ExternalFunction × List Val)
  | .calling _ callee locs _ => (env.externalAt? callee).map fun ef => (ef, locs.args ef.sig)
  | _ => none

/-- The state after an external call with the given result and memory. -/
def resume? (result : Option Val) (mem : Mem) : State → Option State
  | .calling stack callee locs _ => do
      let ef ← env.externalAt? callee
      let v ← result
      some (.returned stack (locs.afterExternal ef.sig v) mem)
  | _ => none

/-- The value that the outermost call returned. -/
def returned? : State → Option Val
  | .returned [] locs _ => some (locs.regs.get Signature.main.resultReg)
  | _ => none

end LateIR.Cfg
