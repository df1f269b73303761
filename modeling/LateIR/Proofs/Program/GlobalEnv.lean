import LateIR.Program.GlobalEnv
import Mathlib.Data.List.Forall2

/-!
What resolving a callee says about the program: a call goes to a block that
holds a function. Computations that may fail are read through their parts
(`bind_eq_ok_iff`, `mapM_eq_some_iff`).
-/

namespace LateIR

theorem bind_eq_ok_iff {ε α β : Type} {x : Except ε α} {f : α → Except ε β} {b : β} :
    (x >>= f) = .ok b ↔ ∃ a, x = .ok a ∧ f a = .ok b := by
  cases x <;> simp [bind, Except.bind]

theorem bind_eq_error_iff {ε α β : Type} {x : Except ε α} {f : α → Except ε β} {e : ε} :
    (x >>= f) = .error e ↔ x = .error e ∨ ∃ a, x = .ok a ∧ f a = .error e := by
  cases x <;> simp [bind, Except.bind]

theorem exists_of_isOk {ε α : Type} {x : Except ε α} (ok : x.isOk) : ∃ a, x = .ok a := by
  cases x with
  | ok a => exact ⟨a, rfl⟩
  | error e => cases ok

/-- A list of results is what the function gives for the members, one each. -/
theorem mapM_eq_some_iff {α β : Type} {f : α → Option β} {as : List α} {bs : List β} :
    as.mapM f = some bs ↔ List.Forall₂ (fun a b => f a = some b) as bs := by
  induction as generalizing bs with
  | nil =>
      rw [List.mapM_nil, List.forall₂_nil_left_iff]
      exact ⟨fun same => (Option.some.inj same).symm, fun same => congrArg some same.symm⟩
  | cons a as ih =>
      rw [List.mapM_cons, List.forall₂_cons_left_iff]
      constructor
      · intro done
        obtain ⟨b, here, done⟩ := Option.bind_eq_some_iff.mp done
        obtain ⟨bs', later, same⟩ := Option.bind_eq_some_iff.mp done
        cases same
        exact ⟨b, bs', here, ih.mp later, rfl⟩
      · rintro ⟨b, bs', here, later, rfl⟩
        simp [here, ih.mpr later]

/-- Every result is that of a member. -/
theorem exists_of_mem_mapM {α β : Type} {f : α → Option β} {as : List α} {bs : List β}
    (done : as.mapM f = some bs) {b : β} (mem : b ∈ bs) : ∃ a ∈ as, f a = some b := by
  rw [mapM_eq_some_iff] at done
  induction done with
  | nil => cases mem
  | @cons a b' as bs here later ih =>
      rcases List.mem_cons.mp mem with rfl | mem
      · exact ⟨a, List.mem_cons_self, here⟩
      · obtain ⟨a', mem', there⟩ := ih mem
        exact ⟨a', List.mem_cons_of_mem a mem', there⟩

/-- The names of the definitions have blocks. -/
theorem Program.isSome_blockOf_iff {F : Type} {p : Program F} {name : String} :
    (p.blockOf name).isSome ↔ name ∈ p.names := by
  rw [blockOf, Option.isSome_map, List.isSome_idxOf?]

namespace GlobalEnv

variable {F : Type} (env : GlobalEnv F)

theorem function?_eq_some_iff {v : Val} {b : BlockId} {fd : FunDef F} :
    env.function? v = some (b, fd) ↔ v = .ptr b 0 ∧ env.functionAt? b = some fd := by
  constructor
  · intro found
    cases v with
    | ptr b' ofs =>
        obtain ⟨rfl, found⟩ := Option.ite_none_right_eq_some.mp found
        obtain ⟨fd', here, same⟩ := Option.map_eq_some_iff.mp found
        cases same
        exact ⟨rfl, here⟩
    | _ => cases found
  · rintro ⟨rfl, here⟩
    simp [function?, here]

theorem known_of_resolve? {get : Reg → Val} {callee : Callee} {b : BlockId} {fd : FunDef F}
    (resolved : env.resolve? get callee = some (b, fd)) : (env.functionAt? b).isSome := by
  cases callee with
  | reg r =>
      obtain ⟨-, here⟩ := env.function?_eq_some_iff.mp resolved
      simp [here]
  | symbol name =>
      obtain ⟨b', -, resolved⟩ := Option.bind_eq_some_iff.mp resolved
      obtain ⟨fd', here, same⟩ := Option.bind_eq_some_iff.mp resolved
      cases same
      simp [here]

theorem internalAt?_eq_some_iff {b : BlockId} {f : F} :
    env.internalAt? b = some f ↔ env.functionAt? b = some (.internal f) := by
  unfold internalAt?
  cases env.functionAt? b with
  | none => simp
  | some fd => cases fd <;> simp

theorem externalAt?_eq_some_iff {b : BlockId} {ef : ExternalFunction} :
    env.externalAt? b = some ef ↔ env.functionAt? b = some (.external ef) := by
  unfold externalAt?
  cases env.functionAt? b with
  | none => simp
  | some fd => cases fd <;> simp

theorem internal_eq_ok_iff {b : BlockId} {f : F} :
    env.internal b = .ok f ↔ env.internalAt? b = some f := by
  unfold internal
  cases env.internalAt? b <;> simp

theorem checkCallee_eq_ok_iff {b : BlockId} :
    env.checkCallee b = .ok () ↔ (env.functionAt? b).isSome := by
  unfold checkCallee
  split
  · rename_i known
    simp [known]
  · rename_i unknown
    simp [unknown]

theorem nameOf?_succ (i : Nat) : env.nameOf? (i + 1) = env.program.names[i]? := by
  rw [nameOf?, Program.names, List.getElem?_map]
  rfl

theorem isSome_nameOf? (b : BlockId) : (env.nameOf? b).isSome = (env.globalAt? b).isSome :=
  Option.isSome_map

/-- The blocks of the symbols and the names of the blocks are inverse to each other. -/
theorem symbols_eq_some_iff {name : String} {b : BlockId} :
    env.symbols name = some b ↔ env.nameOf? b = some name := by
  rw [symbols, Program.blockOf, Option.map_eq_some_iff]
  cases b with
  | zero => simp [nameOf?, globalAt?]
  | succ i =>
      rw [nameOf?_succ]
      constructor
      · rintro ⟨j, found, same⟩
        cases same
        obtain ⟨bound, here, -⟩ := List.idxOf?_eq_some_iff.mp found
        rw [List.getElem?_eq_getElem bound, here]
      · intro here
        obtain ⟨bound, here⟩ := List.getElem?_eq_some_iff.mp here
        refine ⟨i, List.idxOf?_eq_some_iff.mpr ⟨bound, here, ?_⟩, rfl⟩
        intro j before same
        have twice := (List.getElem_inj env.distinct).mp (same.trans here.symm)
        exact Nat.ne_of_lt before twice

theorem isSome_globalAt?_iff {b : BlockId} :
    (env.globalAt? b).isSome ↔ 1 ≤ b ∧ b ≤ env.program.defs.length := by
  cases b with
  | zero => simp [globalAt?]
  | succ b =>
      have inside : (env.globalAt? (b + 1)).isSome ↔ b < env.program.defs.length := by
        simp [globalAt?]
      exact inside.trans ⟨fun bound => ⟨Nat.succ_pos b, bound⟩, And.right⟩

/-- A symbol stands for the block of a definition. -/
theorem known_of_symbols {name : String} {b : BlockId} (found : env.symbols name = some b) :
    (env.globalAt? b).isSome := by
  rw [← isSome_nameOf?, env.symbols_eq_some_iff.mp found]
  rfl

theorem functionAt?_eq_some_iff {b : BlockId} {fd : FunDef F} :
    env.functionAt? b = some fd ↔ ∃ name, env.globalAt? b = some (name, .function fd) := by
  unfold functionAt?
  split
  · rename_i name fd' here
    simp [here]
  · rename_i other
    simp only [reduceCtorEq, false_iff, not_exists]
    intro name here
    exact other name fd here

/-- A function is a definition. -/
theorem global_of_functionAt? {b : BlockId} (known : (env.functionAt? b).isSome) :
    (env.globalAt? b).isSome := by
  obtain ⟨fd, code⟩ := Option.isSome_iff_exists.mp known
  obtain ⟨name, here⟩ := env.functionAt?_eq_some_iff.mp code
  exact Option.isSome_of_eq_some here

theorem checkMemory_eq_ok_iff {m : Mem} :
    env.checkMemory m = .ok () ↔
      (∀ last, env.lastBlock? = some last → last < m.nextBlock) ∧
        (∀ b ∈ env.codeBlocks, m.isLive b) ∧ m.noDangling := by
  unfold checkMemory
  split
  · rename_i last missing
    obtain ⟨found, beyond⟩ := Option.filter_eq_some_iff.mp missing
    constructor
    · intro refused
      cases refused
    · rintro ⟨allocated, -⟩
      exact absurd (of_decide_eq_true beyond) (Nat.not_le.mpr (allocated last found))
  · rename_i allocated
    split
    · rename_i b dead
      have listed := List.mem_of_find?_eq_some dead
      have unlive := List.find?_some dead
      constructor
      · intro refused
        cases refused
      · rintro ⟨-, code, -⟩
        simp [code b listed] at unlive
    · rename_i code
      simp only [Option.filter_eq_none_iff, decide_eq_true_eq, Nat.not_le] at allocated
      simp only [List.find?_eq_none, Bool.not_eq_true, Bool.not_eq_false'] at code
      split
      · rename_i sound
        exact ⟨fun _ => ⟨allocated, by simpa using code, sound⟩, fun _ => rfl⟩
      · rename_i dangling
        constructor
        · intro refused
          cases refused
        · rintro ⟨-, -, sound⟩
          exact absurd sound dangling

/-- A memory that passes the check has allocated every definition's block, and no
pointer in it dangles. -/
theorem allocated_of_checkMemory {m : Mem} (checked : env.checkMemory m = .ok ()) :
    (∀ b, (env.globalAt? b).isSome → b < m.nextBlock) ∧ m.noDangling := by
  obtain ⟨allocated, -, sound⟩ := env.checkMemory_eq_ok_iff.mp checked
  refine ⟨?_, sound⟩
  intro b known
  obtain ⟨first, bound⟩ := env.isSome_globalAt?_iff.mp known
  have last : env.lastBlock? = some env.program.defs.length := by
    have present : env.program.defs ≠ [] :=
      List.ne_nil_of_length_pos (Nat.lt_of_lt_of_le first bound)
    simp [lastBlock?, present]
  exact Nat.lt_of_le_of_lt bound (allocated _ last)

/-- What entry checks: the memory, that the pointer designates a function, and the
arguments. -/
theorem checkEntry_eq_ok_iff [FunctionBody F] {m : Mem} {pointer : Val} {args : List Val}
    {b : BlockId} {sig : Signature} :
    env.checkEntry m pointer args = .ok (b, sig) ↔
      env.checkMemory m = .ok () ∧ ∃ fd, env.function? pointer = some (b, fd) ∧ fd.sig = sig ∧
        checkEntryArgs ((env.nameOf? b).getD "") sig args = .ok () := by
  constructor
  · intro checked
    obtain ⟨⟨⟩, sound, checked⟩ := bind_eq_ok_iff.mp checked
    split at checked
    · rename_i b' fd found
      obtain ⟨⟨⟩, accepted, same⟩ := bind_eq_ok_iff.mp checked
      cases same
      exact ⟨sound, fd, found, rfl, accepted⟩
    · cases checked
  · rintro ⟨sound, fd, found, rfl, accepted⟩
    rw [checkEntry, sound, found]
    exact bind_eq_ok_iff.mpr ⟨(), rfl, bind_eq_ok_iff.mpr ⟨(), accepted, rfl⟩⟩

/-- Entry calls a function of the program. -/
theorem known_of_checkEntry [FunctionBody F] {m : Mem} {pointer : Val} {args : List Val}
    {b : BlockId} {sig : Signature} (checked : env.checkEntry m pointer args = .ok (b, sig)) :
    (env.functionAt? b).isSome := by
  obtain ⟨-, fd, found, -, -⟩ := env.checkEntry_eq_ok_iff.mp checked
  exact Option.isSome_of_eq_some (env.function?_eq_some_iff.mp found).2

/-- Entry refuses memories that do not pass the check. -/
theorem allocated_of_checkEntry [FunctionBody F] {m : Mem} {pointer : Val} {args : List Val}
    {b : BlockId} {sig : Signature} (checked : env.checkEntry m pointer args = .ok (b, sig)) :
    (∀ b, (env.globalAt? b).isSome → b < m.nextBlock) ∧ m.noDangling :=
  env.allocated_of_checkMemory (env.checkEntry_eq_ok_iff.mp checked).1

end GlobalEnv

end LateIR
