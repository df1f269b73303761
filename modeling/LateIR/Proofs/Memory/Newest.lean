import LateIR.Proofs.Memory.Access

/-!
The newest block of a memory. An allocation puts a block on top (`alloc?_eq_some_push`), and
what happens to that block depends on it alone: a store into it succeeds or fails whatever
lies below (`store?_push`), and freeing it leaves a dead block on top (`freeFrame?_push`).
-/

namespace LateIR

namespace Block

/-- A new block, with nothing written to it. -/
def fresh (lo hi : Int) : Block := .live lo (.replicate (hi - lo).toNat .undefined)

/-- The block after a store into it, if the access is in bounds and aligned. -/
def store? (c : Chunk) (ofs : Int) (v : Val) (blk : Block) : Option Block :=
  if blk.covers ofs c.size && ofs % c.align = 0 then some (blk.write ofs (c.encode v)) else none

theorem liveBounds?_fresh (lo hi : Int) :
    (fresh lo hi).liveBounds? = some (lo, max hi lo) := by
  simp only [fresh, liveBounds?, isLive, Block.hi, Block.lo, Block.size, Array.size_replicate,
    if_true, Option.some.injEq, Prod.mk.injEq, true_and]
  omega

end Block

namespace Mem

/-- The memory with another block on top. -/
def push (m : Mem) (blk : Block) : Mem := ⟨m.blocks.push blk⟩

variable (m : Mem) (blk : Block)

@[simp] theorem nextBlock_push : (m.push blk).nextBlock = m.nextBlock + 1 := by
  simp [push, nextBlock]

theorem block?_push_newest : (m.push blk).block? m.nextBlock = some blk :=
  (m.block?_push blk m.nextBlock).trans (if_pos rfl)

theorem modify_push (f : Block → Block) :
    (m.push blk).modify f m.nextBlock = m.push (f blk) := by
  apply congrArg Mem.mk
  apply Array.ext_getElem?
  intro i
  rw [Array.getElem?_modify, push, Array.getElem?_push, Array.getElem?_push]
  by_cases newest : i = m.blocks.size
  · rw [if_pos newest.symm, if_pos newest, if_pos newest, Option.map_some]
  · rw [if_neg (Ne.symm newest), if_neg newest, if_neg newest]

theorem alloc?_eq_some_push {m m' : Mem} {lo hi : Int} {b : BlockId}
    (allocated : m.alloc? lo hi = some (b, m')) :
    b = m.nextBlock ∧ m' = m.push (.fresh lo hi) :=
  (alloc?_eq_some_iff.mp allocated).2

theorem store?_push (c : Chunk) (ofs : Int) (v : Val) :
    (m.push blk).store? c m.nextBlock ofs v = (blk.store? c ofs v).map m.push := by
  have here : (m.push blk).covers m.nextBlock ofs c.size = blk.covers ofs c.size := by
    rw [covers, block?_push_newest, Option.any_some]
  rw [store?, accessible, storeBytes?, c.length_encode, here, modify_push, Block.store?]
  cases blk.covers ofs c.size <;> simp [Option.map_if]

theorem liveBounds?_push_newest : (m.push blk).liveBounds? m.nextBlock = blk.liveBounds? := by
  rw [liveBounds?, block?_push_newest, Option.bind_some]

theorem freeFrame?_push {size : Int} (bounds : blk.liveBounds? = some (0, max size 0)) :
    (m.push blk).freeFrame? (.ptr m.nextBlock 0) size = some (m.push blk.free) := by
  have live := (m.liveBounds?_push_newest blk).trans bounds
  exact freeFrame?_eq_some_iff.mpr
    ⟨m.nextBlock, rfl, free?_eq_some_iff.mpr ⟨live, m.modify_push blk Block.free⟩⟩

/-- When two blocks can be allocated one after the other, the second one can be allocated
alone, and on top of anything in place of the first. -/
theorem alloc?_second {m m' : Mem} {lo lo' hi hi' : Int} {b : BlockId}
    (first : m.alloc? lo hi = some (b, m')) (second : (m'.alloc? lo' hi').isSome) :
    m.alloc? lo' hi' = some (b, m.push (.fresh lo' hi')) ∧
      ∀ below, (m.push below).alloc? lo' hi' =
        some (b + 1, (m.push below).push (.fresh lo' hi')) := by
  obtain ⟨rfl, rfl⟩ := m.alloc?_eq_some_push first
  obtain ⟨⟨b, m'⟩, allocated⟩ := Option.isSome_iff_exists.mp second
  obtain ⟨⟨fits, more⟩, -⟩ := alloc?_eq_some_iff.mp allocated
  rw [nextBlock_push] at more
  refine ⟨alloc?_eq_some_iff.mpr ⟨⟨fits, Nat.lt_of_succ_lt more⟩, rfl, rfl⟩, ?_⟩
  intro below
  exact alloc?_eq_some_iff.mpr
    ⟨⟨fits, by rwa [nextBlock_push]⟩, (m.nextBlock_push below).symm, rfl⟩

end Mem

end LateIR
