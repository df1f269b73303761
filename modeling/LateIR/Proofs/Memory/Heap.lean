import LateIR.Proofs.Memory.Change
import LateIR.Proofs.Memory.Effect
import LateIR.Proofs.Memory.Encoding

/-!
Heap blocks in memory. A heap block is live and has its size in its header; allocation adds one
with a fresh number (`grants_malloc?`), and release needs the pointer to the start of a block
whose bounds are what its header says (`free?_ptr_eq_some_iff`).
-/

namespace LateIR.Heap

variable {m m' : Mem} {b : BlockId} {n : Int64}

/-- Whether the block is live and its header says where it ends. -/
structure IsHeapBlock (m : Mem) (b : BlockId) (n : Int64) : Prop where
  nonneg : 0 ≤ n.toInt
  live : m.liveBounds? b = some (-header, n.toInt)
  sized : m.load? .int64 b (-header) = some (.long n)

/-- Memories that agree on the bounds and on the header have the same heap block. -/
theorem IsHeapBlock.of_sameRange (heap : IsHeapBlock m b n)
    (same : Mem.SameRange b (-header) (Chunk.size .int64) m m') : IsHeapBlock m' b n :=
  ⟨heap.nonneg, same.bounds.trans heap.live, same.load?.trans heap.sized⟩

/-- The bounds of a heap block are in order. -/
theorem max_header (nonneg : 0 ≤ n.toInt) : max n.toInt (-header) = n.toInt := by
  unfold header
  omega

/-! ### Allocation -/

/-- Whether a heap block with `n` bytes behind its header is all that has been added. -/
structure Grants (b : BlockId) (n : Int64) (m m' : Mem) : Prop where
  number : b = m.nextBlock
  next : m'.nextBlock = b + 1
  heap : IsHeapBlock m' b n
  others : ∀ b', b' ≠ b → m'.block? b' = m.block? b'

theorem Grants.fresh (granted : Grants b n m m') : m.block? b = none :=
  Mem.block?_eq_none_of_nextBlock_le (Nat.le_of_eq granted.number.symm)

/-- The block behind the header is there to be used. -/
theorem IsHeapBlock.covers (heap : IsHeapBlock m b n) : m.covers b 0 n.toInt :=
  Mem.covers_iff.mpr ⟨_, _, heap.live, heap.nonneg, by decide, Int.le_of_eq (Int.zero_add _)⟩

theorem liveBounds?_of_alloc? {mid : Mem} (nonneg : 0 ≤ n.toInt)
    (allocated : m.alloc? (-header) n.toInt = some (b, mid)) :
    mid.liveBounds? b = some (-header, n.toInt) := by
  rw [Mem.liveBounds?_of_alloc? allocated, max_header nonneg]

theorem accessible_header (nonneg : 0 ≤ n.toInt)
    (live : m.liveBounds? b = some (-header, n.toInt)) : m.accessible .int64 b (-header) :=
  Mem.accessible_of_liveBounds? live (Int.le_refl _) nonneg (by decide)

theorem grants_malloc? {args : List Val} {v : Val} (done : malloc? m args = some (v, m')) :
    ∃ b n, args = [.long n] ∧ v = .ptr b 0 ∧ Grants b n m m' := by
  obtain ⟨n, b, mid, rfl, nonneg, allocated, written, rfl⟩ := malloc?_eq_some done
  obtain ⟨number, next⟩ := Mem.nextBlock_alloc? allocated
  have stored := (Mem.store?_eq_some_iff.mp written).2
  refine ⟨b, n, rfl, rfl, number, (Mem.nextBlock_storeBytes? stored).trans next, ?_, ?_⟩
  · refine ⟨nonneg, ?_, ?_⟩
    · rw [Mem.liveBounds?_storeBytes? stored, liveBounds?_of_alloc? nonneg allocated]
    · rw [Mem.load?_store?_same written, Chunk.decode_encode rfl]
      rfl
  · intro b' other
    obtain ⟨-, rfl⟩ := Mem.storeBytes?_eq_some_iff.mp stored
    obtain ⟨-, rfl, rfl⟩ := Mem.alloc?_eq_some_iff.mp allocated
    rw [Mem.block?_modify, if_neg other, Mem.block?_push, if_neg other]

/-- The sizes that are granted, as long as there are numbers for blocks. -/
theorem isSome_malloc?_iff :
    (malloc? m [.long n]).isSome ↔
      0 ≤ n.toInt ∧ n.toInt ≤ Mem.maxBlockSize - header ∧ m.nextBlock < Mem.blockLimit := by
  have fits_iff : 0 ≤ n.toInt →
      ((n.toInt - -header).toNat ≤ Mem.maxBlockSize ↔ n.toInt ≤ Mem.maxBlockSize - header) := by
    intro nonneg
    unfold header
    omega
  constructor
  · intro done
    obtain ⟨⟨v, m'⟩, done⟩ := Option.isSome_iff_exists.mp done
    obtain ⟨n', b, mid, same, nonneg, allocated, -, -⟩ := malloc?_eq_some done
    cases same
    obtain ⟨⟨fits, room⟩, -⟩ := Mem.alloc?_eq_some_iff.mp allocated
    exact ⟨nonneg, (fits_iff nonneg).mp fits, room⟩
  · rintro ⟨nonneg, fits, room⟩
    obtain ⟨b, mid, allocated⟩ : ∃ b mid, m.alloc? (-header) n.toInt = some (b, mid) :=
      ⟨_, _, Mem.alloc?_eq_some_iff.mpr ⟨⟨(fits_iff nonneg).mpr fits, room⟩, rfl, rfl⟩⟩
    have live := liveBounds?_of_alloc? nonneg allocated
    obtain ⟨m', written⟩ := Mem.store?_isSome (.long n) (accessible_header nonneg live)
    simp [malloc?, Int.not_lt.mpr nonneg, allocated, written]

/-! ### Release -/

/-- Whether the death of a live block is all that has happened. -/
structure Releases (b : BlockId) (m m' : Mem) : Prop where
  live : m.isLive b
  dead : m'.block? b = (m.block? b).map Block.free
  others : ∀ b', b' ≠ b → m'.block? b' = m.block? b'
  next : m'.nextBlock = m.nextBlock

theorem releases_free? {lo hi : Int} (freed : m.free? b lo hi = some m') : Releases b m m' := by
  obtain ⟨live, rfl⟩ := Mem.free?_eq_some_iff.mp freed
  refine ⟨Mem.isLive_of_liveBounds? live, ?_, ?_, Mem.nextBlock_modify ..⟩
  · rw [Mem.block?_modify, if_pos rfl]
  · intro b' other
    rw [Mem.block?_modify, if_neg other]

theorem Releases.isLive (released : Releases b m m') : m'.isLive b = false := by
  rw [Mem.isLive, released.dead]
  cases m.block? b with
  | none => rfl
  | some blk => exact blk.isLive_free

/-- What the header says has to be the end of the block. -/
theorem free?_ptr_eq_some_iff {ofs : Int64} :
    free? m [.ptr b ofs] = some m' ↔
      ofs = 0 ∧ ∃ n, IsHeapBlock m b n ∧ m.free? b (-header) n.toInt = some m' := by
  constructor
  · intro done
    rcases free?_eq_some done with ⟨null, -⟩ | ⟨b', n, same, sized, nonneg, freed⟩
    · cases null
    · cases same
      have live := (Mem.free?_eq_some_iff.mp freed).1
      rw [max_header nonneg] at live
      exact ⟨rfl, n, ⟨nonneg, live, sized⟩, freed⟩
  · rintro ⟨rfl, n, heap, freed⟩
    simp [free?, heap.sized, heap.nonneg, freed]

theorem isSome_free?_ptr_iff {ofs : Int64} :
    (free? m [.ptr b ofs]).isSome ↔ ofs = 0 ∧ ∃ n, IsHeapBlock m b n := by
  constructor
  · intro done
    obtain ⟨m', done⟩ := Option.isSome_iff_exists.mp done
    obtain ⟨start, n, heap, -⟩ := free?_ptr_eq_some_iff.mp done
    exact ⟨start, n, heap⟩
  · rintro ⟨start, n, heap⟩
    have bounds : m.liveBounds? b = some (-header, max n.toInt (-header)) := by
      rw [max_header heap.nonneg, heap.live]
    have freed := Mem.free?_eq_some_iff.mpr ⟨bounds, rfl⟩
    exact Option.isSome_iff_exists.mpr ⟨_, free?_ptr_eq_some_iff.mpr ⟨start, n, heap, freed⟩⟩

/-- Only pointers to the start of a block, and null, may be given back. -/
theorem free?_eq_none {args : List Val} (notNull : args ≠ [.null])
    (notPtr : ∀ b ofs, args ≠ [.ptr b ofs]) : free? m args = none := by
  apply Option.eq_none_iff_forall_ne_some.mpr
  intro m' done
  rcases free?_eq_some done with ⟨null, -⟩ | ⟨b, n, ptr, -⟩
  · exact notNull null
  · exact notPtr b 0 ptr

end LateIR.Heap
