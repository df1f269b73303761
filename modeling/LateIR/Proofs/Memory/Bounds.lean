import LateIR.Convention.Placement

/-!
Bounds of live blocks, as the memory operations change them. A store changes
none, an allocation adds a block with a fresh number, and a free needs the exact
bounds of its block and takes them away.
-/

namespace LateIR

namespace Block

/-- The bounds of a block that has not been freed. -/
def liveBounds? (blk : Block) : Option (Int × Int) :=
  if blk.isLive then some (blk.lo, blk.hi) else none

/-- Bytes past the end are dropped, so overwriting never grows a block. -/
theorem size_overwrite (contents : Array MemByte) (start : Nat) (data : List MemByte) :
    (overwrite contents start data).size = contents.size := by
  induction data generalizing contents start with
  | nil => rfl
  | cons b rest ih => simp [overwrite, ih]

/-- A block keeps its bounds under any write, also one that misses it. -/
@[simp] theorem liveBounds?_write (ofs : Int) (data : List MemByte) (blk : Block) :
    (blk.write ofs data).liveBounds? = blk.liveBounds? := by
  cases blk with
  | live lo bytes =>
      simp only [liveBounds?, write, isLive, hi, size, size_overwrite, if_true]
      rfl
  | freed lo size => rfl

theorem isLive_free (blk : Block) : blk.free.isLive = false := by
  cases blk <;> rfl

@[simp] theorem liveBounds?_free (blk : Block) : blk.free.liveBounds? = none := by
  cases blk <;> rfl

end Block

namespace Mem

/-- The bounds of the live block with the given number. -/
def liveBounds? (m : Mem) (b : BlockId) : Option (Int × Int) :=
  (m.block? b).bind Block.liveBounds?

/-! ### Blocks after a change -/

/-- Modifying a block leaves the others alone, and does nothing to a block that does not exist. -/
theorem block?_modify (m : Mem) (f : Block → Block) (b b' : BlockId) :
    (m.modify f b).block? b' = if b' = b then (m.block? b').map f else m.block? b' := by
  cases b with
  | zero => cases b' <;> simp [block?, modify]
  | succ b =>
      cases b' with
      | zero => simp [block?]
      | succ b' =>
          simp only [modify, block?, Array.getElem?_modify]
          by_cases same : b' = b
          · simp [same]
          · simp [same, Ne.symm same]

@[simp] theorem nextBlock_modify (m : Mem) (f : Block → Block) (b : BlockId) :
    (m.modify f b).nextBlock = m.nextBlock := by
  cases b <;> simp [modify, nextBlock]

/-- No block has a number that has not been given out. -/
theorem block?_eq_none_of_nextBlock_le {m : Mem} {b : BlockId} (new : m.nextBlock ≤ b) :
    m.block? b = none := by
  cases b with
  | zero => rfl
  | succ b => exact Array.getElem?_eq_none (by simpa [nextBlock] using new)

/-- A live block has been allocated. -/
theorem lt_nextBlock_of_liveBounds? {m : Mem} {b : BlockId} {bounds : Int × Int}
    (live : m.liveBounds? b = some bounds) : b < m.nextBlock := by
  apply Nat.lt_of_not_le
  intro new
  simp [liveBounds?, block?_eq_none_of_nextBlock_le new] at live

/-! ### Stores -/

/-- A store of bytes succeeds exactly when the block is live and has every byte of the range in its
bounds, and then it changes that block alone. -/
theorem storeBytes?_eq_some_iff {m m' : Mem} {b : BlockId} {ofs : Int} {data : List MemByte} :
    m.storeBytes? b ofs data = some m' ↔
      m.covers b ofs data.length ∧ m.modify (Block.write ofs data) b = m' := by
  simp [storeBytes?]

/-- A store frees no block and moves no bounds. -/
theorem liveBounds?_storeBytes? {m m' : Mem} {b : BlockId} {ofs : Int} {data : List MemByte}
    (stored : m.storeBytes? b ofs data = some m') (b' : BlockId) :
    m'.liveBounds? b' = m.liveBounds? b' := by
  obtain ⟨-, rfl⟩ := storeBytes?_eq_some_iff.mp stored
  rw [liveBounds?, liveBounds?, block?_modify]
  by_cases same : b' = b
  · cases found : m.block? b' <;> simp [same]
  · simp [same]

theorem nextBlock_storeBytes? {m m' : Mem} {b : BlockId} {ofs : Int} {data : List MemByte}
    (stored : m.storeBytes? b ofs data = some m') : m'.nextBlock = m.nextBlock := by
  obtain ⟨-, rfl⟩ := storeBytes?_eq_some_iff.mp stored
  exact nextBlock_modify ..

/-- A typed store is a store of the encoded bytes that also asks for alignment. -/
theorem store?_eq_some_iff {m m' : Mem} {c : Chunk} {b : BlockId} {ofs : Int} {v : Val} :
    m.store? c b ofs v = some m' ↔
      m.accessible c b ofs ∧ m.storeBytes? b ofs (c.encode v) = some m' := by
  simp [store?]

theorem storeAt?_eq_some_iff {m m' : Mem} {c : Chunk} {addr v : Val} :
    m.storeAt? c addr v = some m' ↔
      ∃ b ofs, addr = .ptr b ofs ∧ m.store? c b ofs.toInt v = some m' := by
  constructor
  · intro stored
    cases addr with
    | ptr b ofs => exact ⟨b, ofs, rfl, stored⟩
    | _ => cases stored
  · rintro ⟨b, ofs, rfl, stored⟩
    exact stored

theorem liveBounds?_storeAt? {m m' : Mem} {c : Chunk} {addr v : Val}
    (stored : m.storeAt? c addr v = some m') (b : BlockId) :
    m'.liveBounds? b = m.liveBounds? b := by
  obtain ⟨target, ofs, -, stored⟩ := storeAt?_eq_some_iff.mp stored
  exact liveBounds?_storeBytes? (store?_eq_some_iff.mp stored).2 b

theorem nextBlock_storeAt? {m m' : Mem} {c : Chunk} {addr v : Val}
    (stored : m.storeAt? c addr v = some m') : m'.nextBlock = m.nextBlock := by
  obtain ⟨target, ofs, -, stored⟩ := storeAt?_eq_some_iff.mp stored
  exact nextBlock_storeBytes? (store?_eq_some_iff.mp stored).2

/-! ### Allocation -/

/-- An allocation succeeds exactly when the block is not too large and a block number is left. The
new block takes the next number and starts out undefined. -/
theorem alloc?_eq_some_iff {m m' : Mem} {lo hi : Int} {b : BlockId} :
    m.alloc? lo hi = some (b, m') ↔
      ((hi - lo).toNat ≤ maxBlockSize ∧ m.nextBlock < blockLimit) ∧ b = m.nextBlock ∧
        m' = ⟨m.blocks.push (.live lo (.replicate (hi - lo).toNat .undefined))⟩ := by
  constructor
  · intro allocated
    obtain ⟨fits, result⟩ := Option.ite_none_right_eq_some.mp allocated
    cases result
    exact ⟨fits, rfl, rfl⟩
  · rintro ⟨fits, rfl, rfl⟩
    exact if_pos fits

theorem block?_push (m : Mem) (blk : Block) (b : BlockId) :
    (Mem.mk (m.blocks.push blk)).block? b = if b = m.nextBlock then some blk else m.block? b := by
  cases b with
  | zero => simp [block?, nextBlock]
  | succ b => simp [block?, nextBlock, Array.getElem?_push]

theorem nextBlock_alloc? {m m' : Mem} {lo hi : Int} {b : BlockId}
    (allocated : m.alloc? lo hi = some (b, m')) : b = m.nextBlock ∧ m'.nextBlock = b + 1 := by
  obtain ⟨-, rfl, rfl⟩ := alloc?_eq_some_iff.mp allocated
  simp [nextBlock]

/-- The new block spans the requested range, which is empty if its bounds are reversed; the older
blocks keep theirs. -/
theorem liveBounds?_alloc? {m m' : Mem} {lo hi : Int} {b : BlockId}
    (allocated : m.alloc? lo hi = some (b, m')) (b' : BlockId) :
    m'.liveBounds? b' = if b' = b then some (lo, max hi lo) else m.liveBounds? b' := by
  obtain ⟨-, rfl, rfl⟩ := alloc?_eq_some_iff.mp allocated
  rw [liveBounds?, block?_push]
  split
  · simp only [Option.bind_some, Block.liveBounds?, Block.isLive, Block.lo, Block.hi, Block.size,
      Array.size_replicate, if_true, Option.some.injEq, Prod.mk.injEq, true_and]
    omega
  · rfl

theorem liveBounds?_of_alloc? {m m' : Mem} {lo hi : Int} {b : BlockId}
    (allocated : m.alloc? lo hi = some (b, m')) : m'.liveBounds? b = some (lo, max hi lo) := by
  rw [liveBounds?_alloc? allocated, if_pos rfl]

/-! ### Release -/

/-- A free succeeds exactly when it names the bounds of a live block. -/
theorem free?_eq_some_iff {m m' : Mem} {b : BlockId} {lo hi : Int} :
    m.free? b lo hi = some m' ↔
      m.liveBounds? b = some (lo, max hi lo) ∧ m.modify Block.free b = m' := by
  unfold free? liveBounds?
  cases m.block? b with
  | none => simp
  | some blk => cases live : blk.isLive <;> simp [Block.liveBounds?, live, and_assoc]

/-- A freed block has no live bounds, which is why it cannot be freed again. -/
theorem liveBounds?_free? {m m' : Mem} {b : BlockId} {lo hi : Int}
    (freed : m.free? b lo hi = some m') (b' : BlockId) :
    m'.liveBounds? b' = if b' = b then none else m.liveBounds? b' := by
  obtain ⟨-, rfl⟩ := free?_eq_some_iff.mp freed
  rw [liveBounds?, liveBounds?, block?_modify]
  by_cases same : b' = b
  · rw [if_pos same, if_pos same]
    cases m.block? b' <;> simp
  · simp [same]

theorem nextBlock_free? {m m' : Mem} {b : BlockId} {lo hi : Int}
    (freed : m.free? b lo hi = some m') : m'.nextBlock = m.nextBlock := by
  obtain ⟨-, rfl⟩ := free?_eq_some_iff.mp freed
  exact nextBlock_modify ..

/-- A frame is freed through a pointer to its start. -/
theorem freeFrame?_eq_some_iff {m m' : Mem} {sp : Val} {size : Int} :
    m.freeFrame? sp size = some m' ↔ ∃ b, sp = .ptr b 0 ∧ m.free? b 0 size = some m' := by
  constructor
  · intro freed
    cases sp with
    | ptr b ofs =>
        obtain ⟨rfl, freed⟩ := Option.ite_none_right_eq_some.mp freed
        exact ⟨b, rfl, freed⟩
    | _ => cases freed
  · rintro ⟨b, rfl, freed⟩
    exact freed

theorem nextBlock_freeFrame? {m m' : Mem} {sp : Val} {size : Int}
    (freed : m.freeFrame? sp size = some m') : m'.nextBlock = m.nextBlock := by
  obtain ⟨b, -, freed⟩ := freeFrame?_eq_some_iff.mp freed
  exact nextBlock_free? freed

end Mem

end LateIR
