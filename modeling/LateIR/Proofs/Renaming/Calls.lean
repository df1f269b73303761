import LateIR.Builtin
import LateIR.External.Host
import LateIR.Proofs.Renaming.Memory

/-!
Renaming through calls. A renaming that leaves the blocks of the globals alone changes neither
what a symbol stands for nor which function a code pointer designates, and argument
expressions evaluate to renamed values. The calls of a host whose functions pass through
renamings do so too (`Host.calls_rename`): they show renamed events, and give a renamed result
in a memory that corresponds.
-/

namespace LateIR

variable {ρ : BlockId → BlockId}

/-! ### Globals -/

/-- Arguments are checked for their number and their types, which the renaming keeps. -/
theorem checkEntryArgs_rename {name : String} {sig : Signature} {args : List Val}
    (accepted : checkEntryArgs name sig args = .ok ()) :
    checkEntryArgs name sig (args.map (Val.rename ρ)) = .ok () := by
  have typed : ∀ (pairs : List (Val × Typ)) (index : Nat), checkArgTypes name index pairs = .ok () →
      checkArgTypes name index (pairs.map (Prod.map (Val.rename ρ) id)) = .ok () := by
    intro pairs
    induction pairs with
    | nil => exact fun _ passed => passed
    | cons pair rest ih =>
        intro index passed
        obtain ⟨v, t⟩ := pair
        simp only [List.map_cons, Prod.map, id, checkArgTypes, Val.hasType_rename] at passed ⊢
        split at passed
        · rename_i fits
          rw [if_pos fits]
          exact ih (index + 1) passed
        · cases passed
  unfold checkEntryArgs at accepted ⊢
  rw [List.length_map]
  split at accepted
  · rename_i arity
    rw [if_pos arity, List.zip_map_left]
    exact typed _ 0 accepted
  · cases accepted

namespace GlobalEnv

variable {F : Type} (env : GlobalEnv F)

/-- Whether the renaming leaves every block that a definition owns alone. -/
def FixedBy (ρ : BlockId → BlockId) : Prop := ∀ b, (env.globalAt? b).isSome → ρ b = b

variable {env}

theorem FixedBy.symbols (fixed : env.FixedBy ρ) {name : String} {b : BlockId}
    (found : env.symbols name = some b) : ρ b = b :=
  fixed b (env.known_of_symbols found)

theorem FixedBy.functionAt? (fixed : env.FixedBy ρ) {b : BlockId}
    (known : (env.functionAt? b).isSome) : ρ b = b :=
  fixed b (env.global_of_functionAt? known)

/-- No other block gets the number of a function. -/
theorem functionAt?_rename (fixed : env.FixedBy ρ) (inj : Function.Injective ρ) (b : BlockId) :
    env.functionAt? (ρ b) = env.functionAt? b := by
  cases there : env.functionAt? (ρ b) with
  | some fd =>
      -- The function's block is its own image, and no other block has the same image.
      have same := inj (fixed.functionAt? (Option.isSome_of_eq_some there))
      rw [← there, same]
  | none =>
      cases here : env.functionAt? b with
      | none => rfl
      | some fd =>
          have same := fixed.functionAt? (Option.isSome_of_eq_some here)
          rw [same, here] at there
          cases there

/-- A renamed code pointer designates the same function, since its block is that of a global. -/
theorem function?_rename (fixed : env.FixedBy ρ) (inj : Function.Injective ρ) (v : Val) :
    env.function? (v.rename ρ) = env.function? v := by
  cases v with
  | ptr b ofs =>
      simp only [function?, Val.rename, functionAt?_rename fixed inj]
      cases here : env.functionAt? b with
      | none => rfl
      | some fd => rw [fixed.functionAt? (Option.isSome_of_eq_some here)]
  | _ => rfl

theorem resolve?_rename (fixed : env.FixedBy ρ) (inj : Function.Injective ρ)
    {get get' : Reg → Val} (renames : ∀ r, get' r = (get r).rename ρ) (callee : Callee) :
    env.resolve? get' callee = env.resolve? get callee := by
  cases callee with
  | reg r =>
      simp only [resolve?, renames]
      exact function?_rename fixed inj (get r)
  | symbol name => rfl

/-- A memory that corresponds to one that passes the check passes it too, if no pointer in it
dangles. -/
theorem checkMemory_rename (fixed : env.FixedBy ρ) {m m' : Mem} (renamed : m.Renamed ρ m')
    (sound : m'.noDangling) (checked : env.checkMemory m = .ok ()) :
    env.checkMemory m' = .ok () := by
  obtain ⟨allocated, code, -⟩ := env.checkMemory_eq_ok_iff.mp checked
  refine env.checkMemory_eq_ok_iff.mpr ⟨?_, ?_, sound⟩
  · intro last found
    exact Nat.lt_of_lt_of_le (allocated last found) renamed.more
  · intro b listed
    have live := code b listed
    have same := fixed.functionAt? (List.mem_filter.mp listed).2
    rw [Mem.isLive_eq_isSome_liveBounds?, ← renamed.liveBounds?, same] at live
    rwa [Mem.isLive_eq_isSome_liveBounds?]

theorem checkEntry_rename [FunctionBody F] (fixed : env.FixedBy ρ) {m m' : Mem}
    (renamed : m.Renamed ρ m') (sound : m'.noDangling) {pointer : Val} {args : List Val}
    {b : BlockId} {sig : Signature} (checked : env.checkEntry m pointer args = .ok (b, sig)) :
    env.checkEntry m' pointer (args.map (Val.rename ρ)) = .ok (b, sig) := by
  obtain ⟨checked, fd, found, same, accepted⟩ := env.checkEntry_eq_ok_iff.mp checked
  have checked' := checkMemory_rename fixed renamed sound checked
  exact env.checkEntry_eq_ok_iff.mpr
    ⟨checked', fd, found, same, checkEntryArgs_rename accepted⟩

end GlobalEnv

/-! ### Argument expressions -/

namespace BuiltinArg

variable {L : Type} {symbols : Symbols} {read read' : L → Val} {m m' : Mem}

/-- By induction on the expression: what it reads from locations and memory is renamed, and the
symbols it names keep their blocks. -/
theorem eval?_rename (renamed : m.Renamed ρ m') (fixed : ∀ name b, symbols name = some b → ρ b = b)
    (renames : ∀ l, read' l = (read l).rename ρ) (sp : Val) (arg : BuiltinArg L) :
    arg.eval? symbols read' (sp.rename ρ) m' =
      (arg.eval? symbols read sp m).map (Val.rename ρ) := by
  induction arg with
  | base l => exact congrArg some (renames l)
  | int | long | float | single => rfl
  | loadStack chunk ofs =>
      rw [eval?, Val.offsetPtr_rename]
      exact renamed.loadAt? chunk (sp.offsetPtr ofs)
  | addrStack ofs => exact congrArg some (sp.offsetPtr_rename ofs)
  | loadGlobal chunk name ofs =>
      rw [eval?, ← Symbols.address?_rename fixed, eval?]
      cases symbols.address? name ofs with
      | none => rfl
      | some a => exact renamed.loadAt? chunk a
  | addrGlobal name ofs => exact (Symbols.address?_rename fixed name ofs).symm
  | splitLong high low ihHigh ihLow =>
      simp only [eval?, ihHigh, ihLow, Option.bind_eq_bind]
      cases high.eval? symbols read sp m with
      | none => rfl
      | some h =>
          cases low.eval? symbols read sp m with
          | none => rfl
          | some l => exact congrArg some (h.longOfWords_rename l)
  | addPtr a b ihA ihB =>
      simp only [eval?, ihA, ihB, Option.bind_eq_bind]
      cases a.eval? symbols read sp m with
      | none => rfl
      | some v =>
          cases b.eval? symbols read sp m with
          | none => rfl
          | some w => exact congrArg some (v.addLong_rename w)

theorem evalList?_rename (renamed : m.Renamed ρ m')
    (fixed : ∀ name b, symbols name = some b → ρ b = b)
    (renames : ∀ l, read' l = (read l).rename ρ) (sp : Val) (args : List (BuiltinArg L)) :
    evalList? symbols read' (sp.rename ρ) m' args =
      (evalList? symbols read sp m args).map (List.map (Val.rename ρ)) :=
  mapM_rename (eval?_rename renamed fixed renames sp) args

end BuiltinArg

/-! ### Heap calls -/

namespace Heap

variable {m m' : Mem} (renamed : m.Renamed ρ m')
include renamed

/-- An allocation on the heap returns the renamed block, behind a header with the same size. -/
theorem malloc?_rename (room : m'.nextBlock < Mem.blockLimit) (args : List Val) :
    Option.Rel (fun out out' => out'.1 = out.1.rename ρ ∧ out.2.Renamed ρ out'.2)
      (malloc? m args) (malloc? m' (args.map (Val.rename ρ))) := by
  match args with
  | [] => exact .none
  | [v] =>
      cases v with
      | long n =>
          by_cases negative : n.toInt < 0
          · simp only [malloc?, List.map_cons, List.map_nil, Val.rename, negative, if_true]
            exact .none
          · simp only [malloc?, List.map_cons, List.map_nil, Val.rename, negative, if_false]
            refine rel_bind (renamed.alloc? room (-header) n.toInt) ?_
            rintro ⟨b, mid⟩ ⟨_, mid'⟩ - ⟨rfl, between⟩
            refine rel_bind (between.store? .int64 b (-header) (.long n)) ?_
            rintro n n' - after
            exact .some ⟨rfl, after⟩
      | _ => exact .none
  | a :: b :: rest => cases a <;> exact .none

theorem free?_rename (args : List Val) :
    Option.Rel (Mem.Renamed ρ) (free? m args) (free? m' (args.map (Val.rename ρ))) := by
  match args with
  | [] => exact .none
  | [v] =>
      cases v with
      | long n =>
          simp only [free?, List.map_cons, List.map_nil, Val.rename]
          split
          · exact .some renamed
          · exact .none
      | ptr b ofs =>
          by_cases inside : ofs = 0
          · subst inside
            refine rel_bind_map (renamed.load? .int64 b (-header)) ?_
            intro v _
            cases v with
            | long size =>
                simp only [Val.rename]
                split
                · exact renamed.free? b (-header) size.toInt
                · exact .none
            | _ => exact .none
          · simp [free?, Val.rename, inside]
      | _ => exact .none
  | a :: b :: rest => cases a <;> exact .none

/-- A copy within one block has to be told from one between two, so the renaming has to be
injective. -/
theorem memcpy?_rename (size align : Int) (args : List Val) :
    Option.Rel (Mem.Renamed ρ) (memcpy? size align m args)
      (memcpy? size align m' (args.map (Val.rename ρ))) := by
  match args with
  | [a, b] =>
      cases a with
      | ptr target t =>
          cases b with
          | ptr source s =>
              simp only [memcpy?, List.map_cons, List.map_nil, Val.rename, ne_eq,
                renamed.inj.eq_iff]
              split
              · refine rel_bind_map (renamed.loadBytes? source s.toInt size) ?_
                intro data _
                exact renamed.storeBytes? target t.toInt data
              · exact .none
          | _ => exact .none
      | _ => exact .none
  | [] => exact .none
  | [a] => cases a <;> exact .none
  | a :: b :: c :: rest => cases a <;> cases b <;> exact .none

end Heap

/-! ### Calls of the host -/

/-- The event with the pointers among its arguments and in its result renamed. -/
def Event.rename (ρ : BlockId → BlockId) : Event → Event
  | syscall name args result => syscall name (args.map (Val.rename ρ)) (result.rename ρ)
  | annot text args => annot text (args.map (Val.rename ρ))

/-- Outcomes the second of which shows renamed events and leaves a renamed result. -/
structure CallOutcome.Renamed (ρ : BlockId → BlockId) (out out' : CallOutcome) : Prop where
  trace : out'.trace = out.trace.map (Event.rename ρ)
  result : out'.result = out.result.rename ρ
  mem : out.mem.Renamed ρ out'.mem

namespace Host

/-- Whether no host function can tell blocks apart other than by their being the same: renamed
arguments give the renamed result. -/
def Equivariant (host : Host) : Prop :=
  ∀ ρ : BlockId → BlockId, Function.Injective ρ → ∀ name f args, host name = some f →
    f (args.map (Val.rename ρ)) = (f args).map (Val.rename ρ)

variable {host : Host}

theorem invoke?_rename (equivariant : host.Equivariant) (inj : Function.Injective ρ)
    (name : String) (sig : Signature) (args : List Val) :
    host.invoke? name sig (args.map (Val.rename ρ)) =
      (host.invoke? name sig args).map (Val.rename ρ) := by
  simp only [invoke?, sig.accepts_rename]
  split
  · cases found : host name with
    | none => rfl
    | some f =>
        simp only [Option.bind_eq_bind, Option.bind_some, equivariant ρ inj name f args found]
        cases f args with
        | none => rfl
        | some v =>
            cases sig.res with
            | none => rfl
            | some t =>
                simp only [Option.map_some, Option.bind_some, Val.hasType_rename]
                split <;> rfl
  · rfl

theorem calls_rename {m m' : Mem} (equivariant : host.Equivariant) (renamed : m.Renamed ρ m')
    (room : m'.nextBlock < Mem.blockLimit) (ef : ExternalFunction) (args : List Val) :
    Option.Rel (CallOutcome.Renamed ρ) (host.calls ef args m)
      (host.calls ef (args.map (Val.rename ρ)) m') := by
  cases ef with
  | external name sig =>
      simp only [calls, invoke?_rename equivariant renamed.inj]
      cases host.invoke? name sig args with
      | none => exact .none
      | some v => exact .some ⟨rfl, rfl, renamed⟩
  | builtin name sig =>
      simp only [calls, invoke?_rename equivariant renamed.inj]
      cases host.invoke? name sig args with
      | none => exact .none
      | some v => exact .some ⟨rfl, rfl, renamed⟩
  | malloc =>
      simp only [calls, Option.map_eq_bind]
      refine rel_bind (Heap.malloc?_rename renamed room args) ?_
      rintro ⟨v, n⟩ ⟨_, n'⟩ - ⟨rfl, after⟩
      exact .some ⟨rfl, rfl, after⟩
  | free =>
      simp only [calls, Option.map_eq_bind]
      refine rel_bind (Heap.free?_rename renamed args) ?_
      rintro n n' - after
      exact .some ⟨rfl, rfl, after⟩
  | memcpy size align =>
      simp only [calls, Option.map_eq_bind]
      refine rel_bind (Heap.memcpy?_rename renamed size align args) ?_
      rintro n n' - after
      exact .some ⟨rfl, rfl, after⟩
  | annot text types =>
      simp only [calls, List.length_map]
      split
      · exact .some ⟨rfl, rfl, renamed⟩
      · exact .none
  | debug => exact .some ⟨rfl, rfl, renamed⟩

end Host

end LateIR
