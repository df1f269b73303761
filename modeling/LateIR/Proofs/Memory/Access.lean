import LateIR.Proofs.Memory.Bounds

/-!
What a load sees of a store: the bytes that were written when it reads the same
range, and what was there before when the ranges are apart. Whether an access is
possible depends on the bounds of its block alone (`Mem.covers_iff`).
-/

namespace LateIR

@[simp] theorem Chunk.size_ofTyp (t : Typ) : (Chunk.ofTyp t).size = t.size := by cases t <;> rfl

/-- Whether the `len` bytes from `ofs` on and the `len'` bytes from `ofs'` on have none in
common. A range without bytes is apart from every other one. -/
def RangesApart (ofs len ofs' len' : Int) : Prop :=
  ∀ i, ofs ≤ i → i < ofs + len → ¬ (ofs' ≤ i ∧ i < ofs' + len')

theorem RangesApart.of_le {ofs len ofs' len' : Int}
    (apart : ofs + len ≤ ofs' ∨ ofs' + len' ≤ ofs) : RangesApart ofs len ofs' len' := by
  intro i first last
  omega

namespace Block

/-- Bytes beyond the end are dropped; all others are those written or those from before. -/
theorem getElem?_overwrite (contents : Array MemByte) (start : Nat) (data : List MemByte)
    (i : Nat) :
    (overwrite contents start data)[i]? =
      if start ≤ i ∧ i < start + data.length ∧ i < contents.size then data[i - start]?
      else contents[i]? := by
  induction data generalizing contents start with
  | nil =>
      rw [if_neg (by simp; omega)]
      rfl
  | cons b rest ih =>
      rw [overwrite, ih, Array.getElem?_setIfInBounds, Array.size_setIfInBounds, List.length_cons]
      by_cases first : start = i
      · subst first
        rw [if_neg (by omega), if_pos rfl]
        by_cases inside : start < contents.size
        · rw [if_pos inside, if_pos (by omega), Nat.sub_self, List.getElem?_cons_zero]
        · rw [if_neg inside, if_neg (by omega), Array.getElem?_eq_none (by omega)]
      · rw [if_neg first]
        by_cases later : start + 1 ≤ i ∧ i < start + 1 + rest.length ∧ i < contents.size
        · have shift : i - start = i - (start + 1) + 1 := by omega
          rw [if_pos later, if_pos (by omega), shift, List.getElem?_cons_succ]
        · rw [if_neg later, if_neg (by omega)]

theorem getElem?_slice (blk : Block) (ofs len : Int) (i : Nat) :
    (blk.slice ofs len)[i]? =
      if i < len.toNat then blk.contents[(ofs - blk.lo).toNat + i]? else none := by
  unfold slice
  rw [Array.getElem?_toList, Array.getElem?_extract]
  by_cases inside : (ofs - blk.lo).toNat + i < blk.contents.size
  · have same : i < min ((ofs - blk.lo).toNat + len.toNat) blk.contents.size -
        (ofs - blk.lo).toNat ↔ i < len.toNat := by omega
    simp only [same]
  · rw [Array.getElem?_eq_none (by omega), ite_self, ite_self]

/-- What was written is read back. -/
theorem slice_write_same {lo ofs : Int} {bytes : Array MemByte} {data : List MemByte}
    (first : lo ≤ ofs) (last : ofs + data.length ≤ lo + bytes.size) :
    ((live lo bytes).write ofs data).slice ofs data.length = data := by
  apply List.ext_getElem?
  intro i
  rw [getElem?_slice]
  simp only [write, contents, Block.lo, getElem?_overwrite, Int.toNat_natCast]
  split
  · rw [if_pos (by omega)]
    congr 1
    omega
  · exact (List.getElem?_eq_none (by omega)).symm

/-- A range apart from what was written is as before. -/
theorem slice_write_apart {lo ofs ofs' len : Int} {bytes : Array MemByte} {data : List MemByte}
    (first : lo ≤ ofs) (first' : lo ≤ ofs') (apart : RangesApart ofs' len ofs data.length) :
    ((live lo bytes).write ofs data).slice ofs' len = (live lo bytes).slice ofs' len := by
  apply List.ext_getElem?
  intro i
  rw [getElem?_slice, getElem?_slice]
  simp only [write, contents, Block.lo, getElem?_overwrite]
  split
  · have unwritten := apart (ofs' + i)
    rw [if_neg (by omega)]
  · rfl

end Block

namespace Mem

variable {m m' : Mem} {b : BlockId}

/-! ### Access by bounds -/

/-- A block has live bounds while it has its bytes, and they end where the bytes do. -/
theorem liveBounds?_eq_some_iff {lo hi : Int} :
    m.liveBounds? b = some (lo, hi) ↔
      ∃ bytes, m.block? b = some (.live lo bytes) ∧ hi = lo + bytes.size := by
  constructor
  · intro live
    obtain ⟨blk, here, live⟩ := Option.bind_eq_some_iff.mp live
    cases blk with
    | live lo' bytes =>
        cases live
        exact ⟨bytes, here, rfl⟩
    | freed lo' size => cases live
  · rintro ⟨bytes, here, rfl⟩
    rw [liveBounds?, here]
    rfl

theorem isLive_of_liveBounds? {lo hi : Int} (live : m.liveBounds? b = some (lo, hi)) :
    m.isLive b := by
  obtain ⟨bytes, here, -⟩ := liveBounds?_eq_some_iff.mp live
  rw [isLive, here]
  rfl

theorem isLive_eq_isSome_liveBounds? : m.isLive b = (m.liveBounds? b).isSome := by
  rw [isLive, liveBounds?]
  cases m.block? b with
  | none => rfl
  | some blk => cases live : blk.isLive <;> simp [Block.liveBounds?, live]

/-- Ranges without bytes are covered too, if they start in the bounds of a live block or right at
its end. -/
theorem covers_iff {ofs len : Int} :
    m.covers b ofs len ↔
      ∃ lo hi, m.liveBounds? b = some (lo, hi) ∧ 0 ≤ len ∧ lo ≤ ofs ∧ ofs + len ≤ hi := by
  constructor
  · intro covered
    obtain ⟨blk, here, covered⟩ := (Option.any_eq_true ..).mp covered
    simp only [Block.covers, Bool.and_eq_true, decide_eq_true_eq] at covered
    obtain ⟨⟨⟨live, nonneg⟩, first⟩, last⟩ := covered
    refine ⟨blk.lo, blk.hi, ?_, nonneg, first, last⟩
    rw [liveBounds?, here, Option.bind_some, Block.liveBounds?, if_pos live]
  · rintro ⟨lo, hi, live, nonneg, first, last⟩
    obtain ⟨bytes, here, rfl⟩ := liveBounds?_eq_some_iff.mp live
    simp [covers, here, Block.covers, Block.isLive, Block.lo, Block.hi, Block.size, nonneg, first,
      last]

/-- A pointer right behind the last byte is valid. -/
theorem validPointer_iff {ofs : Int} :
    m.validPointer b ofs ↔ ∃ lo hi, m.liveBounds? b = some (lo, hi) ∧ lo ≤ ofs ∧ ofs ≤ hi := by
  constructor
  · intro valid
    obtain ⟨blk, here, valid⟩ := (Option.any_eq_true ..).mp valid
    simp only [Bool.and_eq_true, decide_eq_true_eq] at valid
    obtain ⟨⟨live, first⟩, last⟩ := valid
    refine ⟨blk.lo, blk.hi, ?_, first, last⟩
    rw [liveBounds?, here, Option.bind_some, Block.liveBounds?, if_pos live]
  · rintro ⟨lo, hi, live, first, last⟩
    obtain ⟨bytes, here, rfl⟩ := liveBounds?_eq_some_iff.mp live
    simp [validPointer, here, Block.isLive, Block.lo, Block.hi, Block.size, first, last]

/-- An access needs its range, from a multiple of its width on. -/
theorem accessible_iff_covers {c : Chunk} {ofs : Int} :
    m.accessible c b ofs ↔ m.covers b ofs c.size ∧ (c.size : Int) ∣ ofs := by
  rw [accessible, Bool.and_eq_true, decide_eq_true_eq, Int.dvd_iff_emod_eq_zero, Chunk.align]

theorem accessible_of_liveBounds? {c : Chunk} {lo hi ofs : Int}
    (live : m.liveBounds? b = some (lo, hi)) (first : lo ≤ ofs) (last : ofs + c.size ≤ hi)
    (aligned : (c.size : Int) ∣ ofs) : m.accessible c b ofs := by
  have covered := covers_iff.mpr ⟨lo, hi, live, Int.natCast_nonneg c.size, first, last⟩
  exact accessible_iff_covers.mpr ⟨covered, aligned⟩

theorem covers_of_accessible {c : Chunk} {ofs : Int} (accessible : m.accessible c b ofs) :
    m.covers b ofs c.size :=
  (accessible_iff_covers.mp accessible).1

theorem covers_storeBytes? {target : BlockId} {start : Int} {data : List MemByte}
    (stored : m.storeBytes? target start data = some m') (ofs len : Int) :
    m'.covers b ofs len = m.covers b ofs len := by
  rw [Bool.eq_iff_iff, covers_iff, covers_iff, liveBounds?_storeBytes? stored]

theorem accessible_storeBytes? {c : Chunk} {target : BlockId} {start ofs : Int}
    {data : List MemByte} (stored : m.storeBytes? target start data = some m') :
    m'.accessible c b ofs = m.accessible c b ofs := by
  simp only [accessible, covers_storeBytes? stored]

/-! ### Loads after stores -/

theorem store?_isSome {c : Chunk} {ofs : Int} (v : Val) (accessible : m.accessible c b ofs) :
    ∃ m', m.store? c b ofs v = some m' := by
  have covered : m.covers b ofs (c.encode v).length := by
    rw [c.length_encode]
    exact covers_of_accessible accessible
  exact ⟨_, store?_eq_some_iff.mpr ⟨accessible, storeBytes?_eq_some_iff.mpr ⟨covered, rfl⟩⟩⟩

theorem load?_isSome {c : Chunk} {ofs : Int} (accessible : m.accessible c b ofs) :
    ∃ v, m.load? c b ofs = some v := by
  have covered := covers_of_accessible accessible
  obtain ⟨lo, hi, live, -⟩ := covers_iff.mp covered
  obtain ⟨bytes, here, -⟩ := liveBounds?_eq_some_iff.mp live
  simp [load?, accessible, loadBytes?, covered, here]

theorem loadBytes?_storeBytes?_same {ofs : Int} {data : List MemByte}
    (stored : m.storeBytes? b ofs data = some m') :
    m'.loadBytes? b ofs data.length = some data := by
  rw [loadBytes?, covers_storeBytes? stored]
  obtain ⟨covered, rfl⟩ := storeBytes?_eq_some_iff.mp stored
  obtain ⟨lo, hi, live, -, first, last⟩ := covers_iff.mp covered
  obtain ⟨bytes, here, rfl⟩ := liveBounds?_eq_some_iff.mp live
  rw [if_pos covered, block?_modify, if_pos rfl, here, Option.map_some, Option.map_some,
    Block.slice_write_same first last]

theorem loadBytes?_storeBytes?_apart {b' : BlockId} {ofs ofs' len : Int} {data : List MemByte}
    (stored : m.storeBytes? b ofs data = some m')
    (apart : b' = b → RangesApart ofs' len ofs data.length) :
    m'.loadBytes? b' ofs' len = m.loadBytes? b' ofs' len := by
  rw [loadBytes?, loadBytes?, covers_storeBytes? stored]
  obtain ⟨covered, rfl⟩ := storeBytes?_eq_some_iff.mp stored
  split
  · rename_i covered'
    rw [block?_modify]
    by_cases same : b' = b
    · subst same
      obtain ⟨lo, hi, live, -, first, -⟩ := covers_iff.mp covered
      obtain ⟨bytes, here, rfl⟩ := liveBounds?_eq_some_iff.mp live
      obtain ⟨lo', hi', live', -, first', -⟩ := covers_iff.mp covered'
      cases live.symm.trans live'
      rw [if_pos rfl, here, Option.map_some, Option.map_some, Option.map_some,
        Block.slice_write_apart first first' (apart rfl)]
    · rw [if_neg same]
  · rfl

theorem load?_storeBytes?_apart {c : Chunk} {b' : BlockId} {ofs ofs' : Int} {data : List MemByte}
    (stored : m.storeBytes? b ofs data = some m')
    (apart : b' = b → RangesApart ofs' c.size ofs data.length) :
    m'.load? c b' ofs' = m.load? c b' ofs' := by
  rw [load?, load?, accessible_storeBytes? stored, loadBytes?_storeBytes?_apart stored apart]

/-- The bytes that a store leaves. -/
theorem loadBytes?_store?_same {c : Chunk} {ofs : Int} {v : Val}
    (stored : m.store? c b ofs v = some m') :
    m'.loadBytes? b ofs c.size = some (c.encode v) := by
  obtain ⟨-, stored⟩ := store?_eq_some_iff.mp stored
  have read := loadBytes?_storeBytes?_same stored
  rwa [c.length_encode] at read

/-- A load of what was stored decodes the bytes of the store. -/
theorem load?_store?_same {c : Chunk} {ofs : Int} {v : Val}
    (stored : m.store? c b ofs v = some m') :
    m'.load? c b ofs = some (c.decode (c.encode v)) := by
  have read := loadBytes?_store?_same stored
  obtain ⟨accessible, stored⟩ := store?_eq_some_iff.mp stored
  rw [load?, accessible_storeBytes? stored, if_pos accessible, read, Option.map_some]

/-- A load apart from a store reads what was there before. -/
theorem load?_store?_apart {c c' : Chunk} {b' : BlockId} {ofs ofs' : Int} {v : Val}
    (stored : m.store? c b ofs v = some m')
    (apart : b' = b → ofs' + c'.size ≤ ofs ∨ ofs + c.size ≤ ofs') :
    m'.load? c' b' ofs' = m.load? c' b' ofs' := by
  obtain ⟨-, stored⟩ := store?_eq_some_iff.mp stored
  apply load?_storeBytes?_apart stored
  intro same
  rw [c.length_encode]
  exact .of_le (apart same)

/-! ### Stack frames -/

theorem loadStack?_ptr {t : Typ} {ofs : Int64} :
    m.loadStack? (.ptr b 0) t ofs = m.load? (.ofTyp t) b ofs.toInt := by
  show m.load? (.ofTyp t) b (0 + ofs).toInt = _
  rw [Int64.zero_add]

theorem storeStack?_ptr {t : Typ} {ofs : Int64} {v : Val} :
    m.storeStack? (.ptr b 0) t ofs v = m.store? (.ofTyp t) b ofs.toInt v := by
  show m.store? (.ofTyp t) b (0 + ofs).toInt v = _
  rw [Int64.zero_add]

/-- An offset in a block is the same as a number of bytes. -/
theorem toInt_ofInt_of_le_maxBlockSize {ofs : Int} (nonneg : 0 ≤ ofs) (small : ofs ≤ maxBlockSize) :
    (Int64.ofInt ofs).toInt = ofs := by
  unfold maxBlockSize at small
  exact Int64.toInt_ofInt_of_le (by omega) (by omega)

end Mem

end LateIR
