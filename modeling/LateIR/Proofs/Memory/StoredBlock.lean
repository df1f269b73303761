import LateIR.Memory.BlockStore
import LateIR.Proofs.Memory.History
import LateIR.Proofs.Program.GlobalEnv

/-!
Blocks as they are stored. A block is sound if its parts are in step, and an access that a sound
block lets through then neither overflows nor leaves its contents (`Sound.range_eq`): it reads and
writes what it would in the block that is meant (`Sound.slice_eq`, `Sound.write_eq`).
-/

namespace LateIR

namespace Word

/-- A word stands for one integer, and every integer in range has one. -/
theorem ofInt?_eq_some_iff {n : Int} {w : Int64} : ofInt? n = some w ↔ w.toInt = n := by
  unfold ofInt?
  constructor
  · intro result
    obtain ⟨⟨low, high⟩, result⟩ := Option.ite_none_right_eq_some.mp result
    cases result
    have low : -2 ^ 63 ≤ n := low
    have high : n ≤ 2 ^ 63 - 1 := high
    exact Int64.toInt_ofInt_of_le low (by omega)
  · rintro rfl
    rw [if_pos ⟨w.minValue_le_toInt, w.toInt_le⟩, Int64.ofInt_toInt]

/-- Whatever lies between two words is one. -/
theorem exists_toInt_eq {x y : Int64} {n : Int} (low : x.toInt ≤ n) (high : n ≤ y.toInt) :
    ∃ w : Int64, w.toInt = n := by
  have least := x.le_toInt
  have most := y.toInt_lt
  exact ⟨.ofInt n, Int64.toInt_ofInt_of_le (by omega) (by omega)⟩

theorem sub_eq_ok_of_toInt {x y z : Int64} (exact : z.toInt = x.toInt - y.toInt) :
    sub x y = .ok z := by
  rw [sub, ofInt?_eq_some_iff.mpr exact]

/-- Words that are not negative are positions unchanged. -/
theorem toIndex_of_nonneg {n : Int64} (nonneg : 0 ≤ n.toInt) : toIndex n = n.toInt.toNat := by
  have bits : n.toInt =
      if 2 * toIndex n < 2 ^ 64 then (toIndex n : Int) else toIndex n - (2 ^ 64 : Nat) :=
    BitVec.toInt_eq_toNat_cond n.toBitVec
  have bound : toIndex n < 2 ^ 64 := n.toUInt64.toNat_lt
  split at bits <;> omega

theorem toInt_max (x y : Int64) : (max x y).toInt = max x.toInt y.toInt := by
  show (if x ≤ y then y else x).toInt = _
  split <;> rename_i order <;> rw [Int64.le_iff_toInt_le] at order <;> omega

theorem toNat_succ {n : UInt32} (room : n.toNat < Mem.blockLimit) :
    (n + 1).toNat = n.toNat + 1 := by
  have room : n.toNat < 4294967295 := room
  rw [UInt32.toNat_add]
  exact Nat.mod_eq_of_lt (Nat.add_lt_of_lt_sub room)

/-- The numbers run out one short of the largest word. -/
theorem succ?_eq (n : UInt32) :
    succ? n = if n.toNat < Mem.blockLimit then some (n + 1) else none := by
  unfold succ?
  by_cases room : n.toNat < Mem.blockLimit
  · rw [if_pos room, if_neg]
    intro wraps
    have zero := congrArg UInt32.toNat wraps
    rw [toNat_succ room] at zero
    cases zero
  · have last : n.toNat = 4294967295 :=
      Nat.le_antisymm (Nat.le_of_lt_succ n.toNat_lt) (Nat.le_of_not_lt room)
    rw [if_neg room, if_pos]
    rw [← UInt32.toNat_inj, UInt32.toNat_add, last]
    rfl

end Word

theorem Chunk.toInt_size (c : Chunk) : (Int64.ofNat c.size).toInt = c.size := by
  cases c <;> rfl

namespace StoredBlock

/-- Whether the parts of a block are in step. -/
structure Sound (blk : StoredBlock) : Prop where
  ordered : blk.lo ≤ blk.hi
  small : blk.hi.toInt - blk.lo.toInt ≤ Mem.maxBlockSize
  filled : blk.live → (blk.contents.size : Int) = blk.hi.toInt - blk.lo.toInt
  emptied : blk.live = false → blk.contents = #[]

variable {blk : StoredBlock} {ofs size : Int64} {data : List MemByte}

/-- The test compares integers: the sum of offset and size is let through only if a word holds
it, and any sum up to the end of the block is. -/
theorem covers_iff :
    blk.covers ofs size ↔
      blk.live ∧ 0 ≤ size.toInt ∧ blk.lo.toInt ≤ ofs.toInt ∧
        ofs.toInt + size.toInt ≤ blk.hi.toInt := by
  simp only [covers, Bool.and_eq_true, decide_eq_true_eq, Option.any_eq_true,
    Word.ofInt?_eq_some_iff, Int64.le_iff_toInt_le]
  constructor
  · rintro ⟨⟨⟨live, nonneg⟩, first⟩, stop, sum, last⟩
    exact ⟨live, nonneg, first, sum ▸ last⟩
  · rintro ⟨live, nonneg, first, last⟩
    have nonneg : 0 ≤ size.toInt := nonneg
    obtain ⟨stop, sum⟩ := Word.exists_toInt_eq (x := blk.lo) (n := ofs.toInt + size.toInt)
      (by omega) last
    exact ⟨⟨⟨live, nonneg⟩, first⟩, stop, sum, sum ▸ last⟩

/-- Where a range that is let through starts in the contents. -/
def start (blk : StoredBlock) (ofs : Int64) : Nat := (ofs.toInt - blk.lo.toInt).toNat

/-- Accesses that are let through neither overflow nor leave the contents. -/
theorem Sound.range_eq (sound : blk.Sound) (covered : blk.covers ofs size) {len : Nat}
    (counted : size.toInt = len) :
    blk.range ofs len = .ok (blk.start ofs, blk.start ofs + len) ∧
      blk.start ofs + len ≤ blk.contents.size := by
  obtain ⟨live, -, first, last⟩ := covers_iff.mp covered
  have filled := sound.filled live
  have small : blk.hi.toInt - blk.lo.toInt ≤ 16777216 := sound.small
  -- the difference lies between zero and the size of the block, which is small
  obtain ⟨d, difference⟩ : ∃ d : Int64, d.toInt = ofs.toInt - blk.lo.toInt :=
    ⟨.ofInt _, Int64.toInt_ofInt_of_le (by omega) (by omega)⟩
  have index : Word.toIndex d = blk.start ofs := by
    rw [Word.toIndex_of_nonneg (by omega), difference, start]
  have inside : blk.start ofs + len ≤ blk.contents.size := by
    unfold start
    omega
  have stop : Word.addIndex (blk.start ofs) len = .ok (blk.start ofs + len) :=
    if_pos (by show _ < 18446744073709551616; omega)
  refine ⟨bind_eq_ok_iff.mpr ⟨d, Word.sub_eq_ok_of_toInt difference, ?_⟩, inside⟩
  rw [index]
  exact bind_eq_ok_iff.mpr ⟨_, stop, if_pos inside⟩

/-! ### What a stored block stands for -/

/-- The block with these parts, as far as they are in step. -/
def toBlock (blk : StoredBlock) : Block :=
  if blk.live then .live blk.lo.toInt blk.contents
  else .freed blk.lo.toInt (blk.hi.toInt - blk.lo.toInt).toNat

theorem toBlock_of_live (live : blk.live) : blk.toBlock = .live blk.lo.toInt blk.contents :=
  if_pos live

theorem toBlock_of_dead (dead : blk.live = false) :
    blk.toBlock = .freed blk.lo.toInt (blk.hi.toInt - blk.lo.toInt).toNat :=
  if_neg (Bool.eq_false_iff.mp dead)

theorem lo_toBlock (blk : StoredBlock) : blk.toBlock.lo = blk.lo.toInt := by
  unfold toBlock
  split <;> rfl

theorem isLive_toBlock (blk : StoredBlock) : blk.toBlock.isLive = blk.live := by
  cases live : blk.live with
  | true => rw [toBlock_of_live live, Block.isLive]
  | false => rw [toBlock_of_dead live, Block.isLive]

namespace Sound

/-- A live block ends where its contents do. -/
theorem hi_toBlock (sound : blk.Sound) : blk.toBlock.hi = blk.hi.toInt := by
  have ordered := Int64.le_iff_toInt_le.mp sound.ordered
  cases live : blk.live with
  | true =>
      have filled := sound.filled live
      rw [toBlock_of_live live, Block.hi, Block.lo, Block.size]
      omega
  | false =>
      rw [toBlock_of_dead live, Block.hi, Block.lo, Block.size]
      omega

theorem contents_toBlock (sound : blk.Sound) : blk.toBlock.contents = blk.contents := by
  cases live : blk.live with
  | true => rw [toBlock_of_live live, Block.contents]
  | false => rw [toBlock_of_dead live, Block.contents, sound.emptied live]

theorem covers_toBlock (sound : blk.Sound) (ofs size : Int64) :
    blk.toBlock.covers ofs.toInt size.toInt = blk.covers ofs size := by
  rw [Bool.eq_iff_iff, covers_iff]
  simp only [Block.covers, isLive_toBlock, lo_toBlock, sound.hi_toBlock, Bool.and_eq_true,
    decide_eq_true_eq, and_assoc]

/-- A read that is let through has all of its positions in the contents. -/
theorem slice_eq (sound : blk.Sound) (covered : blk.covers ofs size) :
    blk.slice ofs size = .ok (blk.toBlock.slice ofs.toInt size.toInt) := by
  obtain ⟨-, nonneg, -⟩ := covers_iff.mp covered
  have count := Word.toIndex_of_nonneg nonneg
  have counted : size.toInt = Word.toIndex size := by omega
  obtain ⟨range, -⟩ := sound.range_eq covered counted
  refine bind_eq_ok_iff.mpr ⟨_, range, ?_⟩
  rw [Block.slice, lo_toBlock, sound.contents_toBlock, ← count]
  rfl

end Sound

/-- Blocks whose parts are not in step break off in the midst of accesses that they let through. -/
example :
    (⟨0, 8, #[], true⟩ : StoredBlock).covers 0 8 ∧
      (⟨0, 8, #[], true⟩ : StoredBlock).slice 0 8 = .error .outOfRange ∧
    (⟨Int64.minValue, Int64.maxValue, #[], true⟩ : StoredBlock).covers Int64.maxValue 0 ∧
      (⟨Int64.minValue, Int64.maxValue, #[], true⟩ : StoredBlock).slice Int64.maxValue 0 =
        .error .overflow := by
  decide

/-- Data between what stands before it and behind it overwrites what stood in its place. -/
theorem splice_eq_overwrite {contents : Array MemByte} {start : Nat} {data : List MemByte}
    (inside : start + data.length ≤ contents.size) :
    contents.extract 0 start ++ data.toArray ++ contents.extract (start + data.length) =
      Block.overwrite contents start data := by
  have before : (contents.extract 0 start).size = start := by
    rw [Array.size_extract]
    omega
  have written : (contents.extract 0 start ++ data.toArray).size = start + data.length := by
    rw [Array.size_append, before, List.size_toArray]
  apply Array.ext_getElem?
  intro i
  rw [Block.getElem?_overwrite]
  by_cases early : i < start
  · rw [if_neg (by omega), Array.getElem?_append_left (by omega),
      Array.getElem?_append_left (by omega), Array.getElem?_extract, if_pos (by omega),
      Nat.zero_add]
  · by_cases late : start + data.length ≤ i
    · rw [if_neg (by omega), Array.getElem?_append_right (by omega), written,
        Array.getElem?_extract, Nat.add_sub_cancel' late]
      split
      · rfl
      · exact (Array.getElem?_eq_none (by omega)).symm
    · rw [if_pos (by omega), Array.getElem?_append_left (by omega),
        Array.getElem?_append_right (by omega), before, List.getElem?_toArray]

/-- A write that is let through keeps the length of the contents. -/
theorem Sound.write_eq (sound : blk.Sound) (covered : blk.covers ofs size)
    (counted : size.toInt = data.length) :
    ∃ blk', blk.write ofs data = .ok blk' ∧ blk'.Sound ∧
      blk'.toBlock = blk.toBlock.write ofs.toInt data := by
  obtain ⟨live, -⟩ := covers_iff.mp covered
  obtain ⟨range, inside⟩ := sound.range_eq covered counted
  refine ⟨{ blk with contents := Block.overwrite blk.contents (blk.start ofs) data }, ?_, ?_, ?_⟩
  · refine bind_eq_ok_iff.mpr ⟨_, range, ?_⟩
    rw [← splice_eq_overwrite inside]
    rfl
  · refine ⟨sound.ordered, sound.small, ?_, ?_⟩
    · intro live
      rw [Block.size_overwrite]
      exact sound.filled live
    · intro dead
      cases dead.symm.trans live
  · rw [toBlock_of_live live]
    exact toBlock_of_live live

/-- A block as an allocation stores it. -/
theorem sound_fresh {lo hi len : Int64} (counted : len.toInt = (max hi lo).toInt - lo.toInt)
    (fits : len ≤ .ofNat Mem.maxBlockSize) :
    (⟨lo, max hi lo, .replicate (Word.toIndex len) .undefined, true⟩ : StoredBlock).Sound := by
  rw [Word.toInt_max] at counted
  refine ⟨?_, ?_, ?_, nofun⟩
  · rw [Int64.le_iff_toInt_le, Word.toInt_max]
    exact Int.le_max_right _ _
  · rw [Word.toInt_max, ← counted]
    exact Int64.le_iff_toInt_le.mp fits
  · intro _
    rw [Array.size_replicate, Word.toIndex_of_nonneg (by omega), Word.toInt_max, ← counted]
    exact Int.toNat_of_nonneg (by omega)

/-- What is left of a block once it has been freed. -/
theorem Sound.free (sound : blk.Sound) (live : blk.live) :
    ({ blk with contents := #[], live := false } : StoredBlock).Sound ∧
      ({ blk with contents := #[], live := false } : StoredBlock).toBlock = blk.toBlock.free := by
  refine ⟨⟨sound.ordered, sound.small, nofun, fun _ => rfl⟩, ?_⟩
  rw [toBlock_of_live live, toBlock_of_dead rfl, Block.free, ← sound.filled live]
  rfl

end StoredBlock

end LateIR
