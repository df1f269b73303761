import LateIR.Proofs.Program.GlobalEnv

/-!
Programs with other function bodies in place of theirs. Names and blocks stay, so that symbols,
code pointers and callees mean what they meant, with the new bodies behind them. Where the new
bodies have the old signatures, entry checks the same.
-/

namespace LateIR

variable {F : Type}

/-- The function with `change` made to its body; an external function has none. -/
def FunDef.mapBody (change : F → F) : FunDef F → FunDef F
  | internal f => internal (change f)
  | external ef => external ef

/-- What keeps the signatures of bodies keeps the signature of a function. -/
theorem FunDef.sig_mapBody [FunctionBody F] {change : F → F}
    (keeps : ∀ f, FunctionBody.sig (change f) = FunctionBody.sig f) (fd : FunDef F) :
    (fd.mapBody change).sig = fd.sig := by
  cases fd with
  | internal f => exact keeps f
  | external ef => rfl

/-- The definition with `change` made to it if it is a function; a variable keeps its initialisers.
-/
def GlobalDef.mapBody (change : F → F) : GlobalDef F → GlobalDef F
  | function fd => function (fd.mapBody change)
  | «variable» init => «variable» init

/-- The program with `change b` made to the body of the function in block `b`. -/
def Program.mapBodies (change : BlockId → F → F) (p : Program F) : Program F :=
  { p with defs := p.defs.mapIdx fun i d => (d.1, d.2.mapBody (change (i + 1))) }

@[simp] theorem Program.names_mapBodies (change : BlockId → F → F) (p : Program F) :
    (p.mapBodies change).names = p.names := by
  apply List.ext_getElem?
  intro i
  rw [names, names, mapBodies, List.getElem?_map, List.getElem?_map, List.getElem?_mapIdx,
    Option.map_map]
  rfl

namespace GlobalEnv

/-- The environment of the program with its bodies changed. No name is added or dropped, so the
names stay distinct. -/
def mapBodies (change : BlockId → F → F) (env : GlobalEnv F) : GlobalEnv F :=
  ⟨env.program.mapBodies change, by simpa using env.distinct⟩

variable (change : BlockId → F → F) (env : GlobalEnv F)

/-- A symbol means the block it meant, since blocks are numbered by position. -/
@[simp] theorem symbols_mapBodies : (env.mapBodies change).symbols = env.symbols := by
  unfold symbols Program.blockOf
  rw [mapBodies, Program.names_mapBodies]

@[simp] theorem length_defs_mapBodies :
    (env.mapBodies change).program.defs.length = env.program.defs.length := List.length_mapIdx

/-- Block `b` holds the definition it held, with the change for `b` made to it. -/
theorem globalAt?_mapBodies (b : BlockId) :
    (env.mapBodies change).globalAt? b =
      (env.globalAt? b).map fun d => (d.1, d.2.mapBody (change b)) := by
  cases b with
  | zero => rfl
  | succ i => exact List.getElem?_mapIdx

@[simp] theorem nameOf?_mapBodies (b : BlockId) :
    (env.mapBodies change).nameOf? b = env.nameOf? b := by
  rw [nameOf?, globalAt?_mapBodies, Option.map_map]
  rfl

/-! ### Functions -/

@[simp] theorem functionAt?_mapBodies (b : BlockId) :
    (env.mapBodies change).functionAt? b =
      (env.functionAt? b).map (FunDef.mapBody (change b)) := by
  rw [functionAt?, functionAt?, globalAt?_mapBodies]
  match env.globalAt? b with
  | none => rfl
  | some (name, .function fd) => rfl
  | some (name, .variable init) => rfl

@[simp] theorem internalAt?_mapBodies (b : BlockId) :
    (env.mapBodies change).internalAt? b = (env.internalAt? b).map (change b) := by
  rw [internalAt?, internalAt?, functionAt?_mapBodies]
  match env.functionAt? b with
  | none => rfl
  | some (.internal f) => rfl
  | some (.external ef) => rfl

@[simp] theorem externalAt?_mapBodies (b : BlockId) :
    (env.mapBodies change).externalAt? b = env.externalAt? b := by
  rw [externalAt?, externalAt?, functionAt?_mapBodies]
  match env.functionAt? b with
  | none => rfl
  | some (.internal f) => rfl
  | some (.external ef) => rfl

/-- A code pointer leads to the function it led to, with its body changed: whether a value is a code
pointer is settled by its block and offset. -/
theorem function?_mapBodies (v : Val) :
    (env.mapBodies change).function? v =
      (env.function? v).map fun found => (found.1, found.2.mapBody (change found.1)) := by
  cases v with
  | ptr b ofs =>
      simp only [function?, functionAt?_mapBodies]
      split
      · rw [Option.map_map, Option.map_map]
        rfl
      · rfl
  | _ => rfl

/-- A call finds the block it found, through a register or a symbol. -/
theorem resolve?_mapBodies (get : Reg → Val) (callee : Callee) :
    (env.mapBodies change).resolve? get callee =
      (env.resolve? get callee).map fun found =>
        (found.1, found.2.mapBody (change found.1)) := by
  cases callee with
  | reg r => exact env.function?_mapBodies change (get r)
  | symbol name =>
      simp only [resolve?, symbols_mapBodies, functionAt?_mapBodies]
      cases env.symbols name with
      | none => rfl
      | some b =>
          cases found : env.functionAt? b <;> simp [found]

/-! ### Checks -/

theorem checkCallee_mapBodies (b : BlockId) :
    (env.mapBodies change).checkCallee b = env.checkCallee b := by
  rw [checkCallee, checkCallee, functionAt?_mapBodies, Option.isSome_map]

/-- The memory check is about the number of globals, which of them are code, and the pointers in
memory. Bodies play no part in it. -/
theorem checkMemory_mapBodies (m : Mem) :
    (env.mapBodies change).checkMemory m = env.checkMemory m := by
  -- The check reads the program through the number of definitions and which of them are code.
  have last : (env.mapBodies change).lastBlock? = env.lastBlock? := by
    simp [lastBlock?, ← List.length_eq_zero_iff]
  have code : (env.mapBodies change).codeBlocks = env.codeBlocks := by
    simp [codeBlocks]
  rw [checkMemory, checkMemory, last, code]

/-- Entry is allowed, or refused for the same reason, where signatures are kept: a refusal names the
function and what its signature asks for, never its body. -/
theorem checkEntry_mapBodies [FunctionBody F] {change : BlockId → F → F}
    (keeps : ∀ b f, FunctionBody.sig (change b f) = FunctionBody.sig f) (m : Mem)
    (pointer : Val) (args : List Val) :
    (env.mapBodies change).checkEntry m pointer args = env.checkEntry m pointer args := by
  simp only [checkEntry, checkMemory_mapBodies, function?_mapBodies, nameOf?_mapBodies]
  cases env.function? pointer with
  | none => rfl
  | some found => simp only [Option.map_some, FunDef.sig_mapBody (keeps found.1)]

end GlobalEnv

end LateIR
