import LateIR.Proofs.Memory.StoredBlock

/-!
Blocks by number. They are sound if the numbers below the next one, and no others, are those of
blocks, and each of these is sound. Sound blocks stand for a memory (`toMem`), and every query
answers, without a fault, what it answers of that memory (`Sound.answersAs`).
-/

namespace LateIR

/-- A memory is what its blocks are. -/
theorem Mem.ext_block? {m m' : Mem} (same : ∀ b, m.block? b = m'.block? b) : m = m' :=
  congrArg Mem.mk (Array.ext_getElem? fun i => same (i + 1))

namespace BlockStore

/-- Whether the numbers below the next one, and no others, are those of blocks, and all blocks
are sound. -/
structure Sound (s : BlockStore) : Prop where
  started : 1 ≤ s.nextBlock
  present : ∀ b, (s.block? b).isSome ↔ 1 ≤ b ∧ b < s.nextBlock
  blocks : ∀ b (blk : StoredBlock), s.block? b = some blk → blk.Sound

/-- The memory that the blocks stand for. A number without a block, which sound blocks do not
have, stands for an empty one. -/
def toMem (s : BlockStore) : Mem :=
  ⟨.ofFn fun i : Fin (s.nextBlock - 1) =>
    ((s.block? (i.val + 1)).map StoredBlock.toBlock).getD (.freed 0 0)⟩

variable {s : BlockStore} {b : BlockId} {blk : StoredBlock}

theorem sound_new : new.Sound where
  started := Nat.le_refl 1
  present b := by
    have none : new.block? b = none := Std.TreeMap.getElem?_emptyc
    rw [none]
    exact iff_of_false Bool.false_ne_true fun below => absurd below.1 (Nat.not_le.mpr below.2)
  blocks b blk here := by
    have none : new.block? b = none := Std.TreeMap.getElem?_emptyc
    cases none.symm.trans here

theorem toMem_new : new.toMem = .empty := rfl

theorem Sound.nextBlock_toMem (sound : s.Sound) : s.toMem.nextBlock = s.nextBlock := by
  rw [toMem, Mem.nextBlock, Array.size_ofFn, Nat.sub_add_cancel sound.started]

theorem Sound.block?_eq_none (sound : s.Sound) (free : ¬ (1 ≤ b ∧ b < s.nextBlock)) :
    s.block? b = none :=
  Option.not_isSome_iff_eq_none.mp fun here => free ((sound.present b).mp here)

/-- The blocks of the memory are those that are stored, number by number. -/
theorem Sound.block?_toMem (sound : s.Sound) (b : BlockId) :
    s.toMem.block? b = (s.block? b).map StoredBlock.toBlock := by
  cases b with
  | zero =>
      rw [sound.block?_eq_none fun used => absurd used.1 (by decide)]
      rfl
  | succ i =>
      rw [toMem, Mem.block?, Array.getElem?_ofFn]
      split
      · rename_i below
        obtain ⟨blk, here⟩ := Option.isSome_iff_exists.mp
          ((sound.present (i + 1)).mpr ⟨Nat.le_add_left 1 i, Nat.add_lt_of_lt_sub below⟩)
        rw [here]
        rfl
      · rename_i above
        rw [sound.block?_eq_none fun used => above (Nat.lt_sub_of_add_lt used.2)]
        rfl

/-! ### Blocks that are put -/

theorem block?_put (s : BlockStore) (b : BlockId) (blk : StoredBlock) (b' : BlockId) :
    (s.put b blk).block? b' = if b' = b then some blk else s.block? b' := by
  rw [put, block?, Std.TreeMap.getElem?_insert]
  exact if_congr (Nat.compare_eq_eq.trans eq_comm) rfl rfl

/-- Puts a changed block in the place of one that is there. -/
theorem Sound.put {old : StoredBlock} (sound : s.Sound) (here : s.block? b = some old)
    (kept : blk.Sound) : (s.put b blk).Sound := by
  refine ⟨sound.started, ?_, ?_⟩
  · intro b'
    rw [block?_put]
    split
    · rename_i same
      cases same
      exact iff_of_true rfl ((sound.present b).mp (here ▸ rfl))
    · exact sound.present b'
  · intro b' blk' after
    rw [block?_put] at after
    split at after
    · cases after
      exact kept
    · exact sound.blocks b' blk' after

/-- A change to a block that is stored is one to the block that it stands for. -/
theorem Sound.toMem_put {old : StoredBlock} (sound : s.Sound)
    (here : s.block? b = some old) (kept : blk.Sound) {f : Block → Block}
    (same : blk.toBlock = f old.toBlock) : (s.put b blk).toMem = s.toMem.modify f b := by
  apply Mem.ext_block?
  intro b'
  rw [(sound.put here kept).block?_toMem, block?_put, Mem.block?_modify, sound.block?_toMem]
  split
  · rename_i at_b
    rw [at_b, here, Option.map_some, Option.map_some, Option.map_some, same]
  · rfl

/-- Puts a block under the next number. -/
def add (s : BlockStore) (blk : StoredBlock) (next : UInt32) : BlockStore :=
  { s.put s.nextBlock blk with next }

section

variable {next : UInt32}

theorem block?_add (s : BlockStore) (blk : StoredBlock) (b : BlockId) :
    (s.add blk next).block? b =
      if b = s.nextBlock then some blk else s.block? b :=
  block?_put s s.nextBlock blk b

/-- The next number becomes that of a block, and the one after it is the next. -/
theorem Sound.add (sound : s.Sound) (kept : blk.Sound)
    (succ : next.toNat = s.nextBlock + 1) : (s.add blk next).Sound := by
  have succ : (s.add blk next).nextBlock = s.nextBlock + 1 := succ
  refine ⟨succ ▸ Nat.le_add_left 1 _, ?_, ?_⟩
  · intro b
    rw [block?_add, succ, Nat.lt_succ_iff_lt_or_eq]
    split
    · rename_i new
      exact iff_of_true rfl ⟨new ▸ sound.started, .inr new⟩
    · rename_i other
      rw [sound.present, or_iff_left other]
  · intro b blk' after
    rw [block?_add] at after
    split at after
    · cases after
      exact kept
    · exact sound.blocks b blk' after

theorem Sound.toMem_add (sound : s.Sound) (kept : blk.Sound)
    (succ : next.toNat = s.nextBlock + 1) :
    (s.add blk next).toMem = ⟨s.toMem.blocks.push blk.toBlock⟩ := by
  apply Mem.ext_block?
  intro b
  rw [(sound.add kept succ).block?_toMem, block?_add, Mem.block?_push, sound.block?_toMem,
    sound.nextBlock_toMem]
  split <;> rfl

end

/-! ### Queries -/

/-- The accesses that are let through are those to the memory that the blocks stand for. -/
theorem Sound.covers_toMem (sound : s.Sound) (b : BlockId) (ofs len : Int64) :
    s.toMem.covers b ofs.toInt len.toInt = (s.block? b).any (·.covers ofs len) := by
  rw [Mem.covers, sound.block?_toMem]
  cases here : s.block? b with
  | none => rfl
  | some blk => exact (sound.blocks b blk here).covers_toBlock ofs len

theorem Sound.accessible_toMem (sound : s.Sound) (c : Chunk) (b : BlockId) (ofs : Int64) :
    s.toMem.accessible c b ofs.toInt = (s.accessible? c b ofs).isSome := by
  rw [Mem.accessible, ← c.toInt_size, sound.covers_toMem, accessible?]
  cases s.block? b with
  | none => rfl
  | some blk => simp [Option.filter, apply_ite]

theorem block?_of_accessible? {c : Chunk} {ofs : Int64}
    (accessible : s.accessible? c b ofs = some blk) :
    s.block? b = some blk ∧ blk.covers ofs (.ofNat c.size) := by
  obtain ⟨here, allowed⟩ := Option.filter_eq_some_iff.mp accessible
  exact ⟨here, ((Bool.and_eq_true ..).mp allowed).1⟩

/-- Whether every query answers, without a fault, what it answers of the memory. -/
structure AnswersAs (s : BlockStore) (m : Mem) : Prop where
  nextBlock : s.nextBlock = m.nextBlock
  isLive : ∀ b, s.isLive b = m.isLive b
  validPointer : ∀ b ofs, s.validPointer b ofs = m.validPointer b ofs.toInt
  load : ∀ c b ofs, s.load c b ofs = .ok (m.load? c b ofs.toInt)
  loadAt : ∀ c addr, s.loadAt c addr = .ok (m.loadAt? c addr)
  loadBytes : ∀ b ofs len, s.loadBytes b ofs len = .ok (m.loadBytes? b ofs.toInt len.toInt)
  noDangling : s.noDangling = m.noDangling

theorem Sound.isLive_toMem (sound : s.Sound) (b : BlockId) : s.isLive b = s.toMem.isLive b := by
  rw [isLive, Mem.isLive, sound.block?_toMem]
  cases s.block? b with
  | none => rfl
  | some blk => exact blk.isLive_toBlock.symm

theorem Sound.validPointer_toMem (sound : s.Sound) (b : BlockId) (ofs : Int64) :
    s.validPointer b ofs = s.toMem.validPointer b ofs.toInt := by
  rw [validPointer, Mem.validPointer, sound.block?_toMem]
  cases here : s.block? b with
  | none => rfl
  | some blk =>
      simp only [Option.map_some, Option.any_some, blk.isLive_toBlock, blk.lo_toBlock,
        (sound.blocks b blk here).hi_toBlock, Int64.le_iff_toInt_le]

/-- A load that is let through finds all of its bytes. -/
theorem Sound.load_toMem (sound : s.Sound) (c : Chunk) (b : BlockId) (ofs : Int64) :
    s.load c b ofs = .ok (s.toMem.load? c b ofs.toInt) := by
  rw [load, Mem.load?, sound.accessible_toMem]
  cases accessible : s.accessible? c b ofs with
  | none => rfl
  | some blk =>
      obtain ⟨here, covered⟩ := block?_of_accessible? accessible
      have covered' : s.toMem.covers b ofs.toInt c.size := by
        rw [← c.toInt_size, sound.covers_toMem, here]
        exact covered
      rw [Option.isSome_some, if_pos rfl, Mem.loadBytes?, if_pos covered', sound.block?_toMem, here,
        ← c.toInt_size]
      show Functor.map some (Functor.map c.decode (blk.slice ofs (.ofNat c.size))) = _
      rw [(sound.blocks b blk here).slice_eq covered]
      rfl

theorem Sound.loadBytes_toMem (sound : s.Sound) (b : BlockId) (ofs len : Int64) :
    s.loadBytes b ofs len = .ok (s.toMem.loadBytes? b ofs.toInt len.toInt) := by
  rw [loadBytes, Mem.loadBytes?, sound.covers_toMem, sound.block?_toMem]
  cases here : s.block? b with
  | none => rfl
  | some blk =>
      simp only [Option.filter_some, Option.any_some]
      split
      · rename_i covered
        show Functor.map some (blk.slice ofs len) = _
        rw [(sound.blocks b blk here).slice_eq covered]
        rfl
      · rfl

theorem forall_mem_toList_iff {p : StoredBlock → Prop} :
    (∀ entry ∈ s.blocks.toList, p entry.2) ↔ ∀ b blk, s.block? b = some blk → p blk := by
  constructor
  · intro all b blk here
    exact all (b, blk) (Std.TreeMap.mem_toList_iff_getElem?_eq_some.mpr here)
  · rintro all ⟨b, blk⟩ mem
    exact all b blk (Std.TreeMap.mem_toList_iff_getElem?_eq_some.mp mem)

theorem Sound.mem_blocks_toMem (sound : s.Sound) {abstract : Block} :
    abstract ∈ s.toMem.blocks ↔ ∃ b blk, s.block? b = some blk ∧ blk.toBlock = abstract := by
  have numbered : abstract ∈ s.toMem.blocks ↔ ∃ b, s.toMem.block? b = some abstract := by
    rw [Array.mem_iff_getElem?]
    constructor
    · rintro ⟨i, here⟩
      exact ⟨i + 1, here⟩
    · rintro ⟨b, here⟩
      cases b with
      | zero => cases here
      | succ i => exact ⟨i, here⟩
  rw [numbered]
  simp only [sound.block?_toMem, Option.map_eq_some_iff]

/-- The test passes over freed blocks, which have no contents left. -/
theorem Sound.noDangling_toMem (sound : s.Sound) : s.noDangling = s.toMem.noDangling := by
  rw [Bool.eq_iff_iff, noDangling, List.all_eq_true, Mem.noDangling,
    Array.all_eq_true_iff_forall_mem, sound.nextBlock_toMem]
  refine (forall_mem_toList_iff (p := fun blk => (!blk.live || blk.contents.all fun byte =>
    byte.target?.all (· < s.nextBlock)) = true)).trans ?_
  constructor
  · intro all abstract mem
    obtain ⟨b, blk, here, rfl⟩ := sound.mem_blocks_toMem.mp mem
    have kept := sound.blocks b blk here
    have tested := all b blk here
    rw [kept.contents_toBlock]
    cases live : blk.live with
    | true => rwa [live] at tested
    | false => rw [kept.emptied live, Array.all_empty]
  · intro all b blk here
    have tested := all blk.toBlock (sound.mem_blocks_toMem.mpr ⟨b, blk, here, rfl⟩)
    rw [(sound.blocks b blk here).contents_toBlock] at tested
    rw [tested, Bool.or_true]

/-- Reads of sound blocks stay inside the contents as well. -/
theorem Sound.answersAs (sound : s.Sound) : s.AnswersAs s.toMem where
  nextBlock := sound.nextBlock_toMem.symm
  isLive := sound.isLive_toMem
  validPointer := sound.validPointer_toMem
  load := sound.load_toMem
  loadAt c addr := by
    cases addr with
    | ptr b ofs => exact sound.load_toMem c b ofs
    | _ => rfl
  loadBytes := sound.loadBytes_toMem
  noDangling := sound.noDangling_toMem

end BlockStore

end LateIR
