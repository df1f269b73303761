import LateIR.Proofs.Program.Initialisers

/-!
The initial memory of a program. A definition is allocated exactly if it fits
(`GlobalDef.exists_allocate_iff`), and it then has the next block, with its contents in it
(`GlobalDef.allocate_ok`). What is allocated later leaves that block alone, so every
definition of a program is found in the block of its position (`Program.allocate_ok`).
-/

namespace LateIR

open Mem (KeepsBelow)

/-! ### One definition -/

namespace GlobalDef

variable {F : Type} {blockOf : Symbols} {name : String} {b : BlockId} {m m' : Mem}
  {d : GlobalDef F}

/-- Whether a definition can be allocated while there are blocks left. -/
def Fits (blockOf : Symbols) : GlobalDef F → Prop
  | function _ => True
  | «variable» init =>
      InitData.totalSize init ≤ Mem.maxBlockSize ∧
        InitData.EachAt (fun ofs d => d.AlignedAt ofs ∧ (d.image? blockOf).isSome) 0 init

instance decidableFits : ∀ d : GlobalDef F, Decidable (d.Fits blockOf)
  | function _ => .isTrue trivial
  | «variable» _ => inferInstanceAs (Decidable (_ ∧ _))

/-- Whether the definition is found in the block: a byte of code, or every initialiser where
it starts. -/
def FoundIn (blockOf : Symbols) (m : Mem) (b : BlockId) : GlobalDef F → Prop
  | function _ => m.liveBounds? b = some (0, 1)
  | «variable» init =>
      m.liveBounds? b = some (0, InitData.totalSize init) ∧
        InitData.EachAt (InitData.Stored blockOf m b) 0 init

theorem FoundIn.bounds (found : d.FoundIn blockOf m b) : ∃ hi, m.liveBounds? b = some (0, hi) := by
  cases d with
  | function fd => exact ⟨1, found⟩
  | «variable» init => exact ⟨_, found.1⟩

theorem FoundIn.of_block? (found : d.FoundIn blockOf m b) (same : m'.block? b = m.block? b) :
    d.FoundIn blockOf m' b := by
  have bounds : m'.liveBounds? b = m.liveBounds? b := by rw [Mem.liveBounds?, Mem.liveBounds?, same]
  cases d with
  | function fd => exact bounds.trans found
  | «variable» init =>
      refine ⟨bounds.trans found.1, found.2.imp ?_⟩
      rintro ofs d ⟨aligned, data, image, read⟩
      exact ⟨aligned, data, image, (Mem.SameRange.of_block? same).bytes.trans read⟩

/-- A new block that is as large as the sum of the sizes. -/
theorem liveBounds?_of_alloc?_totalSize {init : List InitData}
    (allocated : m.alloc? 0 (InitData.totalSize init) = some (b, m')) :
    m'.liveBounds? b = some (0, InitData.totalSize init) := by
  have nonneg := InitData.totalSize_nonneg init
  rw [Mem.liveBounds?_of_alloc? allocated, Int.max_eq_left nonneg]

theorem allocate_function_eq_ok_iff {fd : FunDef F} :
    (function fd).allocate blockOf name m = .ok m' ↔ ∃ b, m.alloc? 0 1 = some (b, m') := by
  rw [allocate]
  split
  · rename_i b mid new
    simp [new]
  · rename_i full
    simp [full]

theorem allocate_variable_eq_ok_iff {init : List InitData} :
    («variable» (F := F) init).allocate blockOf name m = .ok m' ↔
      ∃ b mid, m.alloc? 0 (InitData.totalSize init) = some (b, mid) ∧
        InitData.storeAll blockOf name b 0 init mid = .ok m' := by
  rw [allocate]
  split
  · rename_i b mid new
    simp [new]
  · rename_i full
    simp [full]

/-- A definition takes the next block and leaves the earlier ones alone. -/
theorem allocate_ok (allocated : d.allocate blockOf name m = .ok m') :
    m'.nextBlock = m.nextBlock + 1 ∧ KeepsBelow m.nextBlock m m' ∧
      d.FoundIn blockOf m' m.nextBlock := by
  cases d with
  | function fd =>
      obtain ⟨b, new⟩ := allocate_function_eq_ok_iff.mp allocated
      obtain ⟨rfl, next⟩ := Mem.nextBlock_alloc? new
      exact ⟨next, .of_alloc? new, Mem.liveBounds?_of_alloc? new⟩
  | «variable» init =>
      obtain ⟨b, mid, new, stored⟩ := allocate_variable_eq_ok_iff.mp allocated
      obtain ⟨rfl, next⟩ := Mem.nextBlock_alloc? new
      have within := InitData.withinBlock_storeAll stored
      have bounds := (within.bounds _).trans (liveBounds?_of_alloc?_totalSize new)
      exact ⟨within.next.trans next, (KeepsBelow.of_alloc? new).trans within.keepsBelow, bounds,
        InitData.eachAt_stored stored⟩

theorem exists_allocate_iff (room : m.nextBlock < Mem.blockLimit) :
    (∃ m', d.allocate blockOf name m = .ok m') ↔ d.Fits blockOf := by
  cases d with
  | function fd =>
      have small : ((1 : Int) - 0).toNat ≤ Mem.maxBlockSize := by decide
      have new := Mem.alloc?_eq_some_iff.mpr ⟨⟨small, room⟩, rfl, rfl⟩
      exact iff_of_true ⟨_, allocate_function_eq_ok_iff.mpr ⟨_, new⟩⟩ trivial
  | «variable» init =>
      constructor
      · rintro ⟨m', allocated⟩
        obtain ⟨b, mid, new, stored⟩ := allocate_variable_eq_ok_iff.mp allocated
        obtain ⟨⟨small, -⟩, -⟩ := Mem.alloc?_eq_some_iff.mp new
        have small : InitData.totalSize init ≤ Mem.maxBlockSize := by omega
        have live := liveBounds?_of_alloc?_totalSize new
        have enough := InitData.sumSizes_le_totalSize small
        exact ⟨small,
          (InitData.exists_storeAll_iff live (Int.le_refl 0) (by omega)).mp ⟨m', stored⟩⟩
      · rintro ⟨small, each⟩
        have fits : (InitData.totalSize init - 0).toNat ≤ Mem.maxBlockSize := by omega
        have new := Mem.alloc?_eq_some_iff.mpr ⟨⟨fits, room⟩, rfl, rfl⟩
        have live := liveBounds?_of_alloc?_totalSize new
        have enough := InitData.sumSizes_le_totalSize small
        obtain ⟨m', stored⟩ :=
          (InitData.exists_storeAll_iff live (Int.le_refl 0) (by omega)).mpr each
        exact ⟨m', allocate_variable_eq_ok_iff.mpr ⟨_, _, new, stored⟩⟩

theorem pointsInto_allocate (points : m.PointsInto fun b => ∃ symbol, blockOf symbol = some b)
    (allocated : d.allocate blockOf name m = .ok m') :
    m'.PointsInto fun b => ∃ symbol, blockOf symbol = some b := by
  cases d with
  | function fd =>
      obtain ⟨b, new⟩ := allocate_function_eq_ok_iff.mp allocated
      exact points.alloc? new
  | «variable» init =>
      obtain ⟨b, mid, new, stored⟩ := allocate_variable_eq_ok_iff.mp allocated
      exact InitData.pointsInto_storeAll (points.alloc? new) stored

end GlobalDef

/-! ### Whole programs -/

namespace Program

variable {F : Type} {blockOf : Symbols} {m m' : Mem} {defs : List (String × GlobalDef F)}
  {p : Program F}

/-- Every definition has the block of its position, and the earlier blocks are left alone. -/
theorem allocate_ok (allocated : allocate blockOf defs m = .ok m') :
    m'.nextBlock = m.nextBlock + defs.length ∧ KeepsBelow m.nextBlock m m' ∧
      ∀ (i : Nat) name (d : GlobalDef F), defs[i]? = some (name, d) →
        d.FoundIn blockOf m' (m.nextBlock + i) := by
  induction defs generalizing m with
  | nil =>
      cases allocated
      refine ⟨rfl, .refl _, ?_⟩
      rintro i name d ⟨⟩
  | cons first rest ih =>
      obtain ⟨mid, here, allocated⟩ := bind_eq_ok_iff.mp allocated
      obtain ⟨next, kept, found⟩ := GlobalDef.allocate_ok here
      obtain ⟨last, kept', later⟩ := ih allocated
      rw [next] at last kept' later
      refine ⟨?_, kept.trans (kept'.mono (Nat.le_succ _)), ?_⟩
      · rw [last, List.length_cons, Nat.add_assoc, Nat.add_comm 1]
      · intro i name d listed
        cases i with
        | zero =>
            cases listed
            exact found.of_block? (kept' _ (Nat.lt_succ_self _))
        | succ i =>
            have here := later i name d listed
            rw [Nat.add_right_comm] at here
            exact here

theorem exists_allocate_iff (room : m.nextBlock + defs.length ≤ Mem.blockLimit) :
    (∃ m', allocate blockOf defs m = .ok m') ↔ ∀ d ∈ defs, d.2.Fits blockOf := by
  induction defs generalizing m with
  | nil => simp [allocate]
  | cons first rest ih =>
      have roomHere : m.nextBlock < Mem.blockLimit :=
        Nat.lt_of_lt_of_le (Nat.lt_add_of_pos_right (Nat.succ_pos _)) room
      have roomLater {mid : Mem} (here : first.2.allocate blockOf first.1 m = .ok mid) :
          mid.nextBlock + rest.length ≤ Mem.blockLimit := by
        rw [(GlobalDef.allocate_ok here).1, Nat.add_assoc, Nat.add_comm 1]
        exact room
      have fitsHere : (∃ mid, first.2.allocate blockOf first.1 m = .ok mid) ↔
          first.2.Fits blockOf := GlobalDef.exists_allocate_iff roomHere
      rw [List.forall_mem_cons, ← fitsHere]
      constructor
      · rintro ⟨m', allocated⟩
        obtain ⟨mid, here, allocated⟩ := bind_eq_ok_iff.mp allocated
        exact ⟨⟨mid, here⟩, (ih (roomLater here)).mp ⟨m', allocated⟩⟩
      · rintro ⟨⟨mid, here⟩, fits⟩
        obtain ⟨m', allocated⟩ := (ih (roomLater here)).mpr fits
        exact ⟨m', bind_eq_ok_iff.mpr ⟨mid, here, allocated⟩⟩

theorem pointsInto_allocate (points : m.PointsInto fun b => ∃ symbol, blockOf symbol = some b)
    (allocated : allocate blockOf defs m = .ok m') :
    m'.PointsInto fun b => ∃ symbol, blockOf symbol = some b := by
  induction defs generalizing m with
  | nil =>
      cases allocated
      exact points
  | cons first rest ih =>
      obtain ⟨mid, here, allocated⟩ := bind_eq_ok_iff.mp allocated
      exact ih (GlobalDef.pointsInto_allocate points here) allocated

theorem repeated?_eq_none_iff_nodup {names : List String} :
    repeated? [] names = none ↔ names.Nodup := by
  simp [repeated?_eq_none]

theorem checkNames_eq_ok_iff : p.checkNames = .ok () ↔ p.names.Nodup := by
  rw [← repeated?_eq_none_iff_nodup, checkNames]
  split
  · rename_i name twice
    simp [twice]
  · rename_i distinct
    simp [distinct]

theorem initMem_eq_ok_iff :
    p.initMem = .ok m ↔ p.names.Nodup ∧ allocate p.blockOf p.defs .empty = .ok m := by
  rw [initMem, bind_eq_ok_iff, ← checkNames_eq_ok_iff]
  constructor
  · rintro ⟨⟨⟩, distinct, allocated⟩
    exact ⟨distinct, allocated⟩
  · rintro ⟨distinct, allocated⟩
    exact ⟨(), distinct, allocated⟩

end Program

/-! ### The environment's view -/

namespace GlobalEnv

variable {F : Type} {env : GlobalEnv F} {m : Mem} {b : BlockId}

/-- Every definition is found in its block when the program starts. -/
theorem foundIn_of_initMem (started : env.program.initMem = .ok m) {name : String}
    {d : GlobalDef F} (here : env.globalAt? b = some (name, d)) : d.FoundIn env.symbols m b := by
  obtain ⟨-, allocated⟩ := Program.initMem_eq_ok_iff.mp started
  obtain ⟨-, -, found⟩ := Program.allocate_ok allocated
  cases b with
  | zero => cases here
  | succ b =>
      have there := found b name d here
      rw [Nat.add_comm] at there
      exact there

theorem nextBlock_of_initMem (started : env.program.initMem = .ok m) :
    m.nextBlock = env.program.defs.length + 1 := by
  obtain ⟨-, allocated⟩ := Program.initMem_eq_ok_iff.mp started
  rw [(Program.allocate_ok allocated).1, Nat.add_comm]
  rfl

/-- The blocks of a program's definitions are live when it starts. -/
theorem live_of_initMem (started : env.program.initMem = .ok m) (known : (env.globalAt? b).isSome) :
    b < m.nextBlock ∧ ∃ hi, m.liveBounds? b = some (0, hi) := by
  obtain ⟨⟨name, d⟩, here⟩ := Option.isSome_iff_exists.mp known
  obtain ⟨hi, live⟩ := (foundIn_of_initMem started here).bounds
  exact ⟨Mem.lt_nextBlock_of_liveBounds? live, hi, live⟩

/-- The environment accepts the memory in which its program starts. -/
theorem checkMemory_of_initMem (started : env.program.initMem = .ok m) :
    env.checkMemory m = .ok () := by
  have next := nextBlock_of_initMem started
  refine env.checkMemory_eq_ok_iff.mpr ⟨?_, ?_, ?_⟩
  · intro last present
    obtain ⟨-, same⟩ := Option.ite_none_left_eq_some.mp present
    cases same
    rw [next]
    exact Nat.lt_succ_self _
  · intro b code
    have known := env.global_of_functionAt? (List.mem_filter.mp code).2
    obtain ⟨-, hi, live⟩ := live_of_initMem started known
    exact Mem.isLive_of_liveBounds? live
  · obtain ⟨-, allocated⟩ := Program.initMem_eq_ok_iff.mp started
    have none : Mem.empty.PointsInto fun b => ∃ symbol, env.symbols symbol = some b := by
      intro b blk here
      cases b <;> cases here
    refine Mem.noDangling_iff.mpr ((Program.pointsInto_allocate none allocated).imp ?_)
    rintro b ⟨symbol, found⟩
    exact (live_of_initMem started (env.known_of_symbols found)).1

end GlobalEnv

end LateIR
