import LateIR.Proofs.Cfg.Transition
import LateIR.Proofs.Program.Rewriting
import LateIR.Run

/-!
Inverted branches. Every condition has one that holds exactly when it does not and that is
undecided for the same operands. Testing that one instead, with the two targets exchanged, leads
from every state to the same successor, at any choice of branches in any functions
(`branches_invert`).
-/

namespace LateIR

/-! ### Comparisons -/

namespace Val

variable (c : Comparison) (a b : Val)

theorem compareInt?_negate : compareInt? c.negate a b = (compareInt? c a b).map not := by
  unfold compareInt?
  split
  · exact congrArg some (c.holds_negate _)
  · rfl

theorem compareIntUnsigned?_negate :
    compareIntUnsigned? c.negate a b = (compareIntUnsigned? c a b).map not := by
  unfold compareIntUnsigned?
  split
  · exact congrArg some (c.holds_negate _)
  · rfl

theorem compareLong?_negate : compareLong? c.negate a b = (compareLong? c a b).map not := by
  unfold compareLong?
  split
  · exact congrArg some (c.holds_negate _)
  · rfl

variable (valid : BlockId → Int → Bool)

theorem compareNull?_negate (block : BlockId) (ofs n : Int64) :
    compareNull? valid c.negate block ofs n = (compareNull? valid c block ofs n).map not := by
  unfold compareNull?
  split
  · cases c <;> rfl
  · rfl

theorem compareLongUnsigned?_negate :
    compareLongUnsigned? valid c.negate a b = (compareLongUnsigned? valid c a b).map not := by
  unfold compareLongUnsigned?
  split
  · exact congrArg some (c.holds_negate _)
  · split
    · split
      · exact congrArg some (c.holds_negate _)
      · cases c <;> rfl
    · rfl
  · exact compareNull?_negate ..
  · exact compareNull?_negate ..
  · rfl

end Val

/-- The condition that holds when this one does not. For floating-point numbers it is a form of
its own, since a comparison and its negation may both be false of unordered ones. -/
def Condition.inverse : Condition → Condition
  | int c => int c.negate
  | intImm c n => intImm c.negate n
  | intUnsigned c => intUnsigned c.negate
  | intUnsignedImm c n => intUnsignedImm c.negate n
  | long c => long c.negate
  | longImm c n => longImm c.negate n
  | longUnsigned c => longUnsigned c.negate
  | float c => notFloat c
  | notFloat c => float c

/-- Both are decided on the same operands, and differently. -/
theorem Condition.eval?_inverse (cond : Condition) (args : List Val) (m : Mem) :
    cond.inverse.eval? m args = (cond.eval? m args).map not := by
  match args with
  | [] => cases cond <;> rfl
  | [a] =>
      cases cond with
      | intImm c n => exact Val.compareInt?_negate c a (.int n)
      | intUnsignedImm c n => exact Val.compareIntUnsigned?_negate c a (.int n.toInt32)
      | longImm c n => exact Val.compareLong?_negate c a (.long n)
      | _ => rfl
  | [a, b] =>
      cases cond with
      | int c => exact Val.compareInt?_negate c a b
      | intUnsigned c => exact Val.compareIntUnsigned?_negate c a b
      | long c => exact Val.compareLong?_negate c a b
      | longUnsigned c => exact Val.compareLongUnsigned?_negate c a b m.validPointer
      | notFloat c =>
          show Val.compareFloat? c a b = ((Val.compareFloat? c a b).map not).map not
          cases Val.compareFloat? c a b <;> simp
      | _ => rfl
  | _ :: _ :: _ :: _ => cases cond <;> rfl

/-! A number and a word that is none are unordered, so neither is less and neither is greater. -/

example :
    (Condition.float .lt).eval? .empty [.float ⟨0⟩, .float ⟨0x7ff8000000000000⟩] = some false ∧
      (Condition.float (Comparison.negate .lt)).eval? .empty
        [.float ⟨0⟩, .float ⟨0x7ff8000000000000⟩] = some false := by
  decide

namespace Cfg

/-! ### Code -/

/-- A branch on the inverse condition, to the same targets. Other instructions have no inverse
and stand for themselves. -/
def Instr.inverse : Instr → Instr
  | cond c args ifSo ifNot => cond c.inverse args ifNot ifSo
  | instr => instr

/-- The block with the branches at the chosen indices inverted. -/
def invertBlock (chosen : Nat → Bool) (block : Array Instr) : Array Instr :=
  block.mapIdx fun i instr => if chosen i then instr.inverse else instr

/-- The function with the branches at the chosen places inverted. -/
def Function.invertBranches (chosen : Node → Nat → Bool) (f : Function) : Function :=
  { f with code := f.code.map fun block => (block.1, invertBlock (chosen block.1) block.2) }

/-- The environment with the branches at the chosen places of its functions inverted. -/
def invertBranches (chosen : BlockId → Node → Nat → Bool) (env : Env) : Env :=
  env.mapBodies fun b => Function.invertBranches (chosen b)

theorem Instr.isCall_inverse (instr : Instr) : instr.inverse.isCall = instr.isCall := by
  cases instr <;> rfl

theorem getElem?_invertBlock (chosen : Nat → Bool) (block : Array Instr) (i : Nat) :
    (invertBlock chosen block)[i]? =
      block[i]?.map fun instr => if chosen i then instr.inverse else instr :=
  Array.getElem?_mapIdx

theorem size_invertBlock (chosen : Nat → Bool) (block : Array Instr) :
    (invertBlock chosen block).size = block.size := Array.size_mapIdx

/-- Calls stay where they are. -/
theorem any_isCall_invertBlock (chosen : Nat → Bool) (block : Array Instr) (i : Nat) :
    (invertBlock chosen block)[i]?.any Instr.isCall = block[i]?.any Instr.isCall := by
  rw [getElem?_invertBlock]
  cases block[i]? with
  | none => rfl
  | some instr =>
      cases chosen i with
      | false => rfl
      | true => exact instr.isCall_inverse

theorem block?_invertBranches (chosen : Node → Nat → Bool) (f : Function) (n : Node) :
    (f.invertBranches chosen).block? n = (f.block? n).map (invertBlock (chosen n)) := by
  show (f.code.map fun block => (block.1, invertBlock (chosen block.1) block.2)).lookup n =
    (f.code.lookup n).map (invertBlock (chosen n))
  induction f.code with
  | nil => rfl
  | cons block rest ih =>
      rw [List.map_cons, List.lookup_cons, List.lookup_cons, ih]
      cases here : n == block.1 with
      | true =>
          cases eq_of_beq here
          rfl
      | false => rfl

theorem any_eq_true_iff_getElem? {α : Type} {p : α → Bool} {xs : Array α} :
    xs.any p ↔ ∃ i : Nat, xs[i]?.any p := by
  rw [Array.any_eq_true]
  constructor
  · rintro ⟨i, bound, holds⟩
    exact ⟨i, by rwa [Array.getElem?_eq_getElem bound]⟩
  · rintro ⟨i, holds⟩
    obtain ⟨x, here, holds⟩ := (Option.any_eq_true ..).mp holds
    obtain ⟨bound, rfl⟩ := Array.getElem?_eq_some_iff.mp here
    exact ⟨i, bound, holds⟩

theorem isLeaf_invertBranches (chosen : Node → Nat → Bool) (f : Function) :
    (f.invertBranches chosen).isLeaf = f.isLeaf := by
  have calls : ∀ chosen block, (invertBlock chosen block).any Instr.isCall =
      block.any Instr.isCall := by
    intro chosen block
    rw [Bool.eq_iff_iff, any_eq_true_iff_getElem?, any_eq_true_iff_getElem?]
    simp only [any_isCall_invertBlock]
  simp only [Function.isLeaf, Function.invertBranches, List.any_map, Function.comp_def, calls]

section

variable (chosen : BlockId → Node → Nat → Bool) (env : Env) (calls : CallService)

theorem target?_invertBranches (locs : LocState) (sig : Signature) (callee : Callee) :
    target? (invertBranches chosen env) locs sig callee = target? env locs sig callee := by
  unfold target?
  rw [invertBranches, GlobalEnv.resolve?_mapBodies]
  cases env.resolve? locs.regs.get callee with
  | none => rfl
  | some found =>
      simp only [Option.map_some]
      rw [FunDef.sig_mapBody]
      intro f
      rfl

@[simp] theorem internalAt?_invertBranches (b : BlockId) :
    (invertBranches chosen env).internalAt? b =
      (env.internalAt? b).map (Function.invertBranches (chosen b)) :=
  env.internalAt?_mapBodies _ b

@[simp] theorem functionAt?_invertBranches (b : BlockId) :
    (invertBranches chosen env).functionAt? b =
      (env.functionAt? b).map (FunDef.mapBody (Function.invertBranches (chosen b))) :=
  env.functionAt?_mapBodies _ b

/-- What stands at each place. -/
theorem instr?_invertBranches (b : BlockId) (n : Node) (index : Nat) :
    instr? (invertBranches chosen env) b n index =
      (instr? env b n index).map fun instr =>
        if chosen b n index then instr.inverse else instr := by
  simp only [instr?, internalAt?_invertBranches]
  cases env.internalAt? b with
  | none => rfl
  | some f =>
      simp only [Option.map_some, Option.bind_eq_bind, Option.bind_some, block?_invertBranches]
      cases f.block? n with
      | none => rfl
      | some block => exact getElem?_invertBlock (chosen b n) block index

/-! ### Steps -/

theorem exec_invertBranches (f : Function) (place : Node → Nat → Bool) (act : Activation)
    (n : Node) (index : Nat) (locs : LocState) (mem : Mem) (instr : Instr) :
    exec (invertBranches chosen env) calls (f.invertBranches place) act n index locs mem instr =
      exec env calls f act n index locs mem instr := by
  have symbols : (invertBranches chosen env).symbols = env.symbols := env.symbols_mapBodies _
  cases instr <;> simp only [exec, symbols, target?_invertBranches, Function.invertBranches]

/-- A branch goes to the same target as its inverse and is stuck with it. -/
theorem exec_inverse (f : Function) (act : Activation) (n : Node) (index : Nat) (locs : LocState)
    (mem : Mem) (instr : Instr) :
    exec env calls f act n index locs mem instr.inverse =
      exec env calls f act n index locs mem instr := by
  cases instr with
  | cond c args ifSo ifNot =>
      simp only [Instr.inverse, exec, Condition.eval?_inverse]
      cases c.eval? mem (locs.readRegs args) with
      | none => rfl
      | some holds => cases holds <;> rfl
  | _ => rfl

theorem step_invertBranches (s : State) :
    step (invertBranches chosen env) calls s = step env calls s := by
  cases s with
  | running act point locs mem =>
      cases point with
      | atNode n =>
          simp only [step, internalAt?_invertBranches]
          cases env.internalAt? act.func with
          | none => rfl
          | some f => simp [block?_invertBranches]
      | inBlock n index =>
          simp only [step, internalAt?_invertBranches]
          cases env.internalAt? act.func with
          | none => rfl
          | some f =>
              simp only [Option.map_some, Option.bind_eq_bind, Option.bind_some,
                block?_invertBranches]
              cases f.block? n with
              | none => rfl
              | some block =>
                  simp only [Option.map_some, Option.bind_some, getElem?_invertBlock]
                  cases block[index]? with
                  | none => rfl
                  | some instr =>
                      simp only [Option.map_some, Option.bind_some, exec_invertBranches]
                      split
                      · exact exec_inverse ..
                      · rfl
  | calling stack callee locs mem =>
      simp only [step, functionAt?_invertBranches]
      cases env.functionAt? callee with
      | none => rfl
      | some fd => cases fd <;> rfl
  | returned stack locs mem => cases stack <;> rfl

/-! ### Checks -/

theorem internal_invertBranches (b : BlockId) :
    (invertBranches chosen env).internal b =
      (env.internal b).map (Function.invertBranches (chosen b)) := by
  simp only [GlobalEnv.internal, internalAt?_invertBranches]
  cases env.internalAt? b <;> rfl

theorem checkSuspended_invertBranches (depth : Nat) (caller : Suspended) :
    checkSuspended (invertBranches chosen env) depth caller =
      checkSuspended env depth caller := by
  simp only [checkSuspended, internal_invertBranches]
  cases env.internal caller.func with
  | error violation => rfl
  | ok f =>
      simp only [Except.map, bind, Except.bind, isLeaf_invertBranches, block?_invertBranches]
      cases f.block? caller.node with
      | none => rfl
      | some block =>
          simp only [Option.map_some, Option.filter_some, size_invertBlock]
          by_cases inside : caller.index ≤ block.size
          · simp only [inside, decide_true, if_true, any_isCall_invertBlock]
          · simp only [inside, decide_false, Bool.false_eq_true, if_false]

theorem checkStack_invertBranches (stack : CallStack) :
    checkStack (invertBranches chosen env) stack = checkStack env stack := by
  induction stack with
  | nil => rfl
  | cons caller outer ih => simp only [checkStack, ih, checkSuspended_invertBranches]

theorem checkState_invertBranches (s : State) :
    checkState (invertBranches chosen env) s = checkState env s := by
  unfold checkState
  rw [checkStack_invertBranches]
  cases s with
  | running act point locs mem =>
      cases point with
      | atNode n =>
          simp only [internal_invertBranches]
          cases env.internal act.func <;> rfl
      | inBlock n index =>
          simp only [internal_invertBranches]
          cases env.internal act.func with
          | error violation => rfl
          | ok f =>
              simp only [Except.map, bind, Except.bind, block?_invertBranches]
              cases f.block? n with
              | none => rfl
              | some block => simp only [Option.map_some, Option.any_some, size_invertBlock]
  | calling stack callee locs mem =>
      exact congrArg _ (funext fun _ => env.checkCallee_mapBodies _ callee)
  | returned stack locs mem => rfl

/-- The interpreter does not notice that branches are inverted. -/
theorem semantics_invertBranches :
    semantics (invertBranches chosen env) calls = semantics env calls := by
  have entered : enter (invertBranches chosen env) = enter env := by
    funext m pointer args
    unfold enter
    have same := env.checkEntry_mapBodies (fun b f => rfl :
      ∀ b f, FunctionBody.sig (Function.invertBranches (chosen b) f) = FunctionBody.sig f)
    rw [invertBranches, same]
  have outside : atExternal? (invertBranches chosen env) = atExternal? env := by
    funext s
    cases s with
    | calling stack callee locs mem =>
        simp only [atExternal?, invertBranches, GlobalEnv.externalAt?_mapBodies]
    | _ => rfl
  have resumed : resume? (invertBranches chosen env) = resume? env := by
    funext result m s
    cases s with
    | calling stack callee locs mem =>
        simp only [resume?, invertBranches, GlobalEnv.externalAt?_mapBodies]
    | _ => rfl
  have stepped := funext (step_invertBranches chosen env calls)
  have checked := funext (checkState_invertBranches chosen env)
  simp only [semantics, entered, stepped, outside, resumed, checked]

end

end Cfg

/-- A condition and its inverse decide the same operands differently, floating-point numbers all
of them. A program with the branches at any chosen places inverted has the same successor in every
state, stuck ones included, and so the same runs. -/
theorem branches_invert :
    (∀ (cond : Condition) (args : List Val) (m : Mem),
      cond.inverse.eval? m args = (cond.eval? m args).map not) ∧
    (∀ (c : Comparison) (x y : Binary64) (m : Mem), ∃ holds,
      (Condition.float c).eval? m [.float x, .float y] = some holds ∧
      (Condition.notFloat c).eval? m [.float x, .float y] = some (!holds)) ∧
    ∀ (env : Cfg.Env) (chosen : BlockId → Cfg.Node → Nat → Bool),
      (∀ b n index, Cfg.instr? (Cfg.invertBranches chosen env) b n index =
        (Cfg.instr? env b n index).map fun instr =>
          if chosen b n index then instr.inverse else instr) ∧
      ∀ calls : CallService,
        (∀ s, Cfg.step (Cfg.invertBranches chosen env) calls s = Cfg.step env calls s) ∧
        ∀ options s, (Cfg.semantics (Cfg.invertBranches chosen env) calls).run options s =
          (Cfg.semantics env calls).run options s := by
  refine ⟨Condition.eval?_inverse, ?_, ?_⟩
  · intro c x y m
    exact ⟨c.holdsPartial (x.compare? y), rfl, rfl⟩
  · intro env chosen
    refine ⟨Cfg.instr?_invertBranches chosen env, ?_⟩
    intro calls
    refine ⟨Cfg.step_invertBranches chosen env calls, ?_⟩
    intro options s
    rw [Cfg.semantics_invertBranches]

end LateIR
