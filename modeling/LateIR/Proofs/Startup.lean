import LateIR.Proofs.Memory.Encoding
import LateIR.Proofs.Program.InitialMemory

/-!
How a program starts. The environment and the initial memory number the definitions
independently of each other, and agree on the numbers. A program has an initial memory exactly
if its names are distinct and its variables small, aligned and free of unknown symbols, and
every initialiser can then be read where it starts (`startup_exact`).
-/

namespace LateIR

/-! ### Initialisers that are read back -/

/-- A load of the bytes that a store would write. -/
theorem Mem.load?_of_encode {m : Mem} {b : BlockId} {ofs : Int} {c : Chunk} {v : Val}
    (read : m.loadBytes? b ofs (c.encode v).length = some (c.encode v))
    (aligned : (c.size : Int) ∣ ofs) : m.load? c b ofs = some (c.readBack v) := by
  rw [c.length_encode] at read
  rw [load?_of_loadBytes? read aligned, Chunk.decode_encode_eq_readBack]

namespace InitData

variable {blockOf : Symbols} {m : Mem} {b : BlockId} {ofs : Int} {d : InitData}

/-- Whether the initialiser is read at the offset: an integer cut to its width, with its sign or
without, a word bit for bit, zeros, or the address of a definition. -/
def ReadsBack (blockOf : Symbols) (m : Mem) (b : BlockId) (ofs : Int) : InitData → Prop
  | int8 n =>
      m.load? .int8Unsigned b ofs = some (.int n.toUInt32.toUInt8.toUInt32.toInt32) ∧
        m.load? .int8Signed b ofs = some (.int n.toInt8.toInt32)
  | int16 n =>
      m.load? .int16Unsigned b ofs = some (.int n.toUInt32.toUInt16.toUInt32.toInt32) ∧
        m.load? .int16Signed b ofs = some (.int n.toInt16.toInt32)
  | int32 n => m.load? .int32 b ofs = some (.int n)
  | int64 n => m.load? .int64 b ofs = some (.long n)
  | float32 x => m.load? .float32 b ofs = some (.single x)
  | float64 x => m.load? .float64 b ofs = some (.float x)
  | space n => m.loadBytes? b ofs (max n 0) = some (List.replicate n.toNat (.byte 0))
  | addrOf symbol delta =>
      ∃ target, blockOf symbol = some target ∧ m.load? .int64 b ofs = some (.ptr target delta)

theorem Stored.readsBack (stored : Stored blockOf m b ofs d) : d.ReadsBack blockOf m b ofs := by
  obtain ⟨aligned, data, image, read⟩ := stored
  cases d with
  | int8 n =>
      cases image
      have aligned := aligned rfl
      -- both accesses write the same bytes
      exact ⟨Mem.load?_of_encode (c := .int8Unsigned) read aligned,
        Mem.load?_of_encode (c := .int8Signed) (v := .int n) read aligned⟩
  | int16 n =>
      cases image
      have aligned := aligned rfl
      exact ⟨Mem.load?_of_encode (c := .int16Unsigned) read aligned,
        Mem.load?_of_encode (c := .int16Signed) (v := .int n) read aligned⟩
  | space n =>
      have length := length_image? image
      cases image
      rw [length] at read
      exact read
  | addrOf symbol delta =>
      obtain ⟨target, known, rfl⟩ := Option.map_eq_some_iff.mp image
      exact ⟨target, known, Mem.load?_of_encode read (aligned rfl)⟩
  | int32 n | int64 n | float32 x | float64 x =>
      cases image
      exact Mem.load?_of_encode read (aligned rfl)

end InitData

/-! ### Programs with an initial memory -/

/-- What a program needs for an initial memory. -/
structure Program.Initialisable {F : Type} (p : Program F) : Prop where
  distinct : p.names.Nodup
  sizes : ∀ name init, (name, .variable init) ∈ p.defs →
    InitData.totalSize init ≤ Mem.maxBlockSize
  addresses : ∀ name init symbol delta, (name, .variable init) ∈ p.defs →
    .addrOf symbol delta ∈ init → symbol ∈ p.names
  aligned : ∀ name init, (name, .variable init) ∈ p.defs →
    InitData.EachAt InitData.AlignedAt 0 init

/-- Whether an environment and a memory agree on the blocks of the definitions. -/
structure GlobalEnv.Agrees {F : Type} (env : GlobalEnv F) (m : Mem) : Prop where
  inverse : ∀ name b, env.symbols name = some b ↔ env.nameOf? b = some name
  known : ∀ name, (env.symbols name).isSome ↔ name ∈ env.program.names
  numbered : ∀ b, (env.nameOf? b).isSome ↔ 1 ≤ b ∧ b ≤ env.program.defs.length
  inOrder : ∀ i, env.nameOf? (i + 1) = env.program.names[i]?
  next : m.nextBlock = env.program.defs.length + 1
  accepted : env.checkMemory m = .ok ()
  code : ∀ b fd, env.functionAt? b = some fd → m.liveBounds? b = some (0, 1)
  contents : ∀ b name init, env.globalAt? b = some (name, .variable init) →
    InitData.EachAt (InitData.ReadsBack env.symbols m b) 0 init

namespace Program

variable {F : Type} {p : Program F}

theorem initialisable_iff :
    p.Initialisable ↔ p.names.Nodup ∧ ∀ d ∈ p.defs, d.2.Fits p.blockOf := by
  constructor
  · rintro ⟨distinct, sizes, addresses, aligned⟩
    refine ⟨distinct, ?_⟩
    rintro ⟨name, d⟩ mem
    cases d with
    | function fd => trivial
    | «variable» init =>
        refine ⟨sizes name init mem, InitData.eachAt_and.mpr ⟨aligned name init mem, ?_⟩⟩
        refine InitData.eachAt_const.mpr fun d listed => InitData.isSome_image?_iff.mpr ?_
        rintro symbol delta rfl
        exact isSome_blockOf_iff.mpr (addresses name init symbol delta mem listed)
  · rintro ⟨distinct, fits⟩
    refine ⟨distinct, fun name init mem => (fits _ mem).1, ?_, ?_⟩
    · intro name init symbol delta mem listed
      have known := (InitData.eachAt_and.mp (fits _ mem).2).2
      have here := InitData.eachAt_const.mp known _ listed
      exact isSome_blockOf_iff.mp (InitData.isSome_image?_iff.mp here symbol delta rfl)
    · exact fun name init mem => (InitData.eachAt_and.mp (fits _ mem).2).1

instance : Decidable p.Initialisable := decidable_of_iff _ initialisable_iff.symm

theorem exists_initMem_iff (few : p.defs.length < Mem.blockLimit) :
    (∃ m, p.initMem = .ok m) ↔ p.Initialisable := by
  have room : Mem.empty.nextBlock + p.defs.length ≤ Mem.blockLimit := by
    rw [Nat.add_comm]
    exact few
  simp only [initMem_eq_ok_iff, exists_and_left, initialisable_iff, exists_allocate_iff room]

end Program

namespace GlobalEnv

variable {F : Type} {env : GlobalEnv F} {p : Program F} {m : Mem}

theorem exists_ofProgram (distinct : p.names.Nodup) :
    ∃ env, ofProgram p = .ok env ∧ env.program = p := by
  refine ⟨⟨p, distinct⟩, ?_, rfl⟩
  unfold ofProgram
  split
  · rename_i name twice
    rw [Program.repeated?_eq_none_iff_nodup.mpr distinct] at twice
    cases twice
  · rfl

theorem agrees_of_initMem (started : env.program.initMem = .ok m) : env.Agrees m where
  inverse _ _ := env.symbols_eq_some_iff
  known _ := Program.isSome_blockOf_iff
  numbered b := by rw [env.isSome_nameOf?, env.isSome_globalAt?_iff]
  inOrder := env.nameOf?_succ
  next := nextBlock_of_initMem started
  accepted := checkMemory_of_initMem started
  code b fd listed := by
    obtain ⟨name, here⟩ := env.functionAt?_eq_some_iff.mp listed
    exact foundIn_of_initMem started here
  contents b name init here :=
    (foundIn_of_initMem started here).2.imp fun _ _ => InitData.Stored.readsBack

end GlobalEnv

/-- Which programs have an initial memory, and what it and the environment agree on. -/
theorem startup_exact {F : Type} (p : Program F) (few : p.defs.length < Mem.blockLimit) :
    ((∃ m, p.initMem = .ok m) ↔ p.Initialisable) ∧
    ∀ m, p.initMem = .ok m →
      ∃ env, GlobalEnv.ofProgram p = .ok env ∧ env.program = p ∧ env.Agrees m := by
  refine ⟨Program.exists_initMem_iff few, ?_⟩
  intro m started
  obtain ⟨distinct, -⟩ := Program.initMem_eq_ok_iff.mp started
  obtain ⟨env, built, rfl⟩ := GlobalEnv.exists_ofProgram distinct
  exact ⟨env, built, rfl, GlobalEnv.agrees_of_initMem started⟩

/-- A variable before what it points to, with space of no size and integers that are cut. -/
def forwardProgram : Program Unit where
  defs := [("main", .function (.internal ())),
    ("table", .variable [.int8 300, .space (-1), .space 7, .addrOf "limit" 4, .int16 (-1)]),
    ("limit", .variable [.int64 9, .float32 ⟨0x7fc00000⟩])]
  main := "main"

theorem startup_exact_forward :
    forwardProgram.defs.length < Mem.blockLimit ∧ ∃ m env, forwardProgram.initMem = .ok m ∧
      GlobalEnv.ofProgram forwardProgram = .ok env ∧ env.program = forwardProgram ∧
      env.Agrees m := by
  have few : forwardProgram.defs.length < Mem.blockLimit := by decide
  obtain ⟨starts, agrees⟩ := startup_exact forwardProgram few
  obtain ⟨m, started⟩ := starts.mpr (by decide)
  obtain ⟨env, built⟩ := agrees m started
  exact ⟨few, m, env, started, built⟩

end LateIR
