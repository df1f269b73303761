import LateIR.Proofs.Memory.Access

/-!
Memory byte by byte. A range reads as the bytes at its offsets
(`Mem.loadBytes?_eq_some_iff`), and a write shows at the offsets that it covers and nowhere
else (`Mem.byte?_storeBytes?`). Ranges that contain each other or differ in a few bytes are
compared through this view.
-/

namespace LateIR

namespace Block

/-- The byte at the offset, if the block is live and reaches there. -/
def byte? (blk : Block) (i : Int) : Option MemByte :=
  if blk.lo ≤ i then blk.contents[(i - blk.lo).toNat]? else none

theorem byte?_live (lo : Int) (bytes : Array MemByte) (i : Int) :
    (live lo bytes).byte? i = if lo ≤ i then bytes[(i - lo).toNat]? else none := rfl

theorem getElem?_slice_eq_byte? {blk : Block} {ofs : Int} {len i : Nat} (first : blk.lo ≤ ofs)
    (inside : i < len) : (blk.slice ofs len)[i]? = blk.byte? (ofs + i) := by
  have index : (ofs - blk.lo).toNat + i = (ofs + i - blk.lo).toNat := by omega
  rw [getElem?_slice, if_pos (by omega), byte?, if_pos (by omega), index]

theorem length_slice {lo ofs : Int} {bytes : Array MemByte} {len : Nat} (first : lo ≤ ofs)
    (last : ofs + len ≤ lo + bytes.size) : ((live lo bytes).slice ofs len).length = len := by
  simp only [slice, Block.lo, contents, Array.length_toList, Array.size_extract]
  omega

/-- A byte of a block that has been written is the new one where there is one. -/
theorem byte?_write {lo ofs : Int} {bytes : Array MemByte} {data : List MemByte}
    (first : lo ≤ ofs) (last : ofs + data.length ≤ lo + bytes.size) (i : Int) :
    ((live lo bytes).write ofs data).byte? i =
      if ofs ≤ i ∧ i < ofs + data.length then data[(i - ofs).toNat]?
      else (live lo bytes).byte? i := by
  rw [write, byte?_live, byte?_live, getElem?_overwrite]
  by_cases written : ofs ≤ i ∧ i < ofs + data.length
  · have index : (i - lo).toNat - (ofs - lo).toNat = (i - ofs).toNat := by omega
    rw [if_pos (by omega), if_pos (by omega), if_pos written, index]
  · rw [if_neg written]
    by_cases inside : lo ≤ i
    · rw [if_pos inside, if_pos inside, if_neg (by omega)]
    · rw [if_neg inside, if_neg inside]

end Block

namespace Mem

variable {m m' : Mem} {b : BlockId}

/-- The byte of a live block at the offset. -/
def byte? (m : Mem) (b : BlockId) (i : Int) : Option MemByte :=
  (m.block? b).bind (·.byte? i)

/-- A range reads as its bytes, one after the other. -/
theorem loadBytes?_eq_some_iff {ofs : Int} {len : Nat} {data : List MemByte} :
    m.loadBytes? b ofs len = some data ↔
      m.covers b ofs len ∧ data.length = len ∧ ∀ i < len, data[i]? = m.byte? b (ofs + i) := by
  rw [loadBytes?, Option.ite_none_right_eq_some]
  refine and_congr_right fun covered => ?_
  obtain ⟨lo, hi, live, -, first, last⟩ := covers_iff.mp covered
  obtain ⟨bytes, here, rfl⟩ := liveBounds?_eq_some_iff.mp live
  simp only [byte?, here, Option.map_some, Option.some_inj, Option.bind_some]
  have read : ∀ i < len, ((Block.live lo bytes).slice ofs len)[i]? =
      (Block.live lo bytes).byte? (ofs + i) := fun i => Block.getElem?_slice_eq_byte? first
  have length := Block.length_slice first last
  constructor
  · rintro rfl
    exact ⟨length, read⟩
  · rintro ⟨same, bytesOf⟩
    apply List.ext_getElem?
    intro i
    by_cases inside : i < len
    · rw [read i inside, bytesOf i inside]
    · rw [List.getElem?_eq_none (by omega), List.getElem?_eq_none (by omega)]

/-- A write shows at the offsets that it covers. -/
theorem byte?_storeBytes? {ofs : Int} {data : List MemByte}
    (stored : m.storeBytes? b ofs data = some m') (b' : BlockId) (i : Int) :
    m'.byte? b' i =
      if b' = b ∧ ofs ≤ i ∧ i < ofs + data.length then data[(i - ofs).toNat]?
      else m.byte? b' i := by
  obtain ⟨covered, rfl⟩ := storeBytes?_eq_some_iff.mp stored
  rw [byte?, byte?, block?_modify]
  by_cases same : b' = b
  · subst same
    obtain ⟨lo, hi, live, -, first, last⟩ := covers_iff.mp covered
    obtain ⟨bytes, here, rfl⟩ := liveBounds?_eq_some_iff.mp live
    simp only [here, Option.map_some, Option.bind_some, if_true, true_and,
      Block.byte?_write first last]
  · rw [if_neg same, if_neg fun written => same written.1]

/-- What is read from a part of a range is that part of its bytes. -/
theorem loadBytes?_part {ofs : Int} {len : Nat} {data : List MemByte}
    (loaded : m.loadBytes? b ofs len = some data) {k part : Nat} (inside : k + part ≤ len) :
    m.loadBytes? b (ofs + k) part = some ((data.drop k).take part) := by
  obtain ⟨covered, length, bytes⟩ := loadBytes?_eq_some_iff.mp loaded
  obtain ⟨lo, hi, live, -, first, last⟩ := covers_iff.mp covered
  refine loadBytes?_eq_some_iff.mpr ⟨?_, ?_, ?_⟩
  · exact covers_iff.mpr ⟨lo, hi, live, Int.natCast_nonneg part, by omega, by omega⟩
  · rw [List.length_take, List.length_drop]
    omega
  · intro i small
    rw [List.getElem?_take_of_lt small, List.getElem?_drop, bytes (k + i) (by omega),
      Int.natCast_add, Int.add_assoc]

/-- Any aligned range that can be read can be read as a value. -/
theorem load?_of_loadBytes? {c : Chunk} {ofs : Int} {data : List MemByte}
    (loaded : m.loadBytes? b ofs c.size = some data) (aligned : (c.size : Int) ∣ ofs) :
    m.load? c b ofs = some (c.decode data) := by
  have covered := (loadBytes?_eq_some_iff.mp loaded).1
  rw [load?, if_pos (accessible_iff_covers.mpr ⟨covered, aligned⟩), loaded, Option.map_some]

/-- Overwriting one byte of a range replaces it in what is read. -/
theorem loadBytes?_overwritten {ofs : Int} {len : Nat} {data : List MemByte}
    (loaded : m.loadBytes? b ofs len = some data) {k : Nat} (inside : k < len) {byte : MemByte}
    (stored : m.storeBytes? b (ofs + k) [byte] = some m') :
    m'.loadBytes? b ofs len = some (data.set k byte) := by
  obtain ⟨covered, length, bytes⟩ := loadBytes?_eq_some_iff.mp loaded
  refine loadBytes?_eq_some_iff.mpr ⟨?_, ?_, ?_⟩
  · rwa [covers_storeBytes? stored]
  · rw [List.length_set, length]
  · intro i small
    rw [byte?_storeBytes? stored, List.getElem?_set, bytes i small, List.length_singleton]
    by_cases here : k = i
    · subst here
      rw [if_pos rfl, if_pos (by omega), if_pos ⟨rfl, by omega, by omega⟩, Int.sub_self]
      rfl
    · rw [if_neg here, if_neg (by omega)]

end Mem

end LateIR
