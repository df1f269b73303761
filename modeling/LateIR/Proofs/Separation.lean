import LateIR.Proofs.Memory.InPlace

/-!
Writes to memory are separate from each other. A store is possible where a load is, on
an aligned range in the bounds of a live block, and shows in no load from another range;
the same is true of raw bytes, on ranges that need no alignment. Operations that fail
show nowhere (`writes_separate`).
-/

namespace LateIR

namespace Mem

variable {m m' : Mem} {b : BlockId} {ofs len : Int}

/-! ### Where memory is accessible -/

/-- Whether the range lies in the bounds of a live block. -/
def InBounds (m : Mem) (b : BlockId) (ofs len : Int) : Prop :=
  ∃ lo hi, m.liveBounds? b = some (lo, hi) ∧ lo ≤ ofs ∧ ofs + len ≤ hi

theorem covers_iff_inBounds {len : Nat} : m.covers b ofs len ↔ m.InBounds b ofs len := by
  simp only [covers_iff, InBounds, Int.natCast_nonneg, true_and]

/-- An access has to be in bounds and aligned to its width. -/
theorem accessible_iff {c : Chunk} :
    m.accessible c b ofs ↔ m.InBounds b ofs c.size ∧ (c.size : Int) ∣ ofs := by
  rw [accessible_iff_covers, covers_iff_inBounds]

/-- Whether a store succeeds does not depend on the value. -/
theorem isSome_store?_iff {c : Chunk} {v : Val} :
    (m.store? c b ofs v).isSome ↔ m.accessible c b ofs := by
  constructor
  · intro stored
    obtain ⟨m', stored⟩ := Option.isSome_iff_exists.mp stored
    exact (store?_eq_some_iff.mp stored).1
  · intro accessible
    exact Option.isSome_iff_exists.mpr (store?_isSome v accessible)

theorem isSome_load?_iff {c : Chunk} : (m.load? c b ofs).isSome ↔ m.accessible c b ofs := by
  constructor
  · intro loaded
    obtain ⟨v, loaded⟩ := Option.isSome_iff_exists.mp loaded
    exact (Option.ite_none_right_eq_some.mp loaded).1
  · intro accessible
    exact Option.isSome_iff_exists.mpr (load?_isSome accessible)

theorem isSome_storeBytes?_iff {data : List MemByte} :
    (m.storeBytes? b ofs data).isSome ↔ m.covers b ofs data.length := by
  rw [storeBytes?, Option.isSome_ite]

/-- Raw bytes need no alignment, and any bytes in bounds can be read, defined or not. -/
theorem isSome_loadBytes?_iff : (m.loadBytes? b ofs len).isSome ↔ m.covers b ofs len := by
  constructor
  · intro loaded
    obtain ⟨bytes, loaded⟩ := Option.isSome_iff_exists.mp loaded
    exact (Option.ite_none_right_eq_some.mp loaded).1
  · intro covered
    obtain ⟨lo, hi, live, -⟩ := covers_iff.mp covered
    obtain ⟨bytes, here, -⟩ := liveBounds?_eq_some_iff.mp live
    rw [loadBytes?, if_pos covered, here]
    rfl

/-! ### What a write leaves alone -/

/-- Whether the change from `m` to `m'` shows only in loads that share a byte with the
range. -/
structure WritesOnly (b : BlockId) (ofs len : Int) (m m' : Mem) : Prop where
  load? : ∀ c b' ofs', (b' = b → RangesApart ofs' (Chunk.size c) ofs len) →
    m'.load? c b' ofs' = m.load? c b' ofs'
  loadBytes? : ∀ b' ofs' len', (b' = b → RangesApart ofs' len' ofs len) →
    m'.loadBytes? b' ofs' len' = m.loadBytes? b' ofs' len'
  nextBlock : m'.nextBlock = m.nextBlock
  isLive : ∀ b', m'.isLive b' = m.isLive b'
  validPointer : ∀ b' ofs', m'.validPointer b' ofs' = m.validPointer b' ofs'

/-- A store of bytes shows only in loads that reach into its range. -/
theorem writesOnly_of_storeBytes? {data : List MemByte}
    (stored : m.storeBytes? b ofs data = some m') : WritesOnly b ofs data.length m m' := by
  have bounds := liveBounds?_storeBytes? stored
  refine ⟨?_, ?_, nextBlock_storeBytes? stored, ?_, ?_⟩
  · intro c b' ofs' apart
    exact load?_storeBytes?_apart stored apart
  · intro b' ofs' len' apart
    exact loadBytes?_storeBytes?_apart stored apart
  · intro b'
    rw [isLive_eq_isSome_liveBounds?, isLive_eq_isSome_liveBounds?, bounds]
  · intro b' ofs'
    rw [Bool.eq_iff_iff, validPointer_iff, validPointer_iff, bounds]

theorem writesOnly_of_store? {c : Chunk} {v : Val} (stored : m.store? c b ofs v = some m') :
    WritesOnly b ofs c.size m m' := by
  have written := writesOnly_of_storeBytes? (store?_eq_some_iff.mp stored).2
  rwa [c.length_encode] at written

end Mem

/-- Where stores are possible and what they leave alone, for values and for raw bytes, and
that memory operations, carried out in place, change nothing when they fail. -/
theorem writes_separate :
    (∀ (m : Mem) (c : Chunk) (b : BlockId) (ofs : Int) (v : Val),
      ((m.store? c b ofs v).isSome ↔ (m.load? c b ofs).isSome) ∧
      ((m.store? c b ofs v).isSome ↔ m.InBounds b ofs c.size ∧ (c.size : Int) ∣ ofs) ∧
      ∀ m', m.store? c b ofs v = some m' → Mem.WritesOnly b ofs c.size m m') ∧
    (∀ (m : Mem) (b : BlockId) (ofs : Int) (data : List MemByte),
      ((m.storeBytes? b ofs data).isSome ↔ (m.loadBytes? b ofs data.length).isSome) ∧
      ((m.storeBytes? b ofs data).isSome ↔ m.InBounds b ofs data.length) ∧
      ∀ m', m.storeBytes? b ofs data = some m' →
        Mem.WritesOnly b ofs data.length m m' ∧
          m'.loadBytes? b ofs data.length = some data) ∧
    ∀ (m m' : Mem) (change : Mem.Change),
      (change.inPlace.runOn m = (some (), m') ↔ change.run? m = some m') ∧
      (change.inPlace.runOn m = (none, m') ↔ change.run? m = none ∧ m' = m) := by
  refine ⟨?_, ?_, ?_⟩
  · intro m c b ofs v
    refine ⟨?_, ?_, ?_⟩
    · rw [Mem.isSome_store?_iff, Mem.isSome_load?_iff]
    · rw [Mem.isSome_store?_iff, Mem.accessible_iff]
    · intro m' stored
      exact Mem.writesOnly_of_store? stored
  · intro m b ofs data
    refine ⟨?_, ?_, ?_⟩
    · rw [Mem.isSome_storeBytes?_iff, Mem.isSome_loadBytes?_iff]
    · rw [Mem.isSome_storeBytes?_iff, Mem.covers_iff_inBounds]
    · intro m' stored
      exact ⟨Mem.writesOnly_of_storeBytes? stored, Mem.loadBytes?_storeBytes?_same stored⟩
  · intro m m' change
    exact ⟨Mem.Change.runOn_inPlace_eq_some_iff, Mem.Change.runOn_inPlace_eq_none_iff⟩

/-! A block on both sides of offset zero, written next to what is read. -/

def straddling : Mem := ⟨#[.live (-8) (.replicate 16 .undefined)]⟩

theorem writes_separate_straddling :
    (∃ m, straddling.store? .int32 1 (-4) (.int 7) = some m ∧
      m.load? .int32 1 0 = straddling.load? .int32 1 0 ∧
      m.loadBytes? 1 (-8) 4 = straddling.loadBytes? 1 (-8) 4 ∧
      m.validPointer 1 8 = straddling.validPointer 1 8) ∧
    (∃ m, straddling.storeBytes? 1 5 [.byte 1, .undefined, .byte 2] = some m ∧
      m.load? .int32 1 0 = straddling.load? .int32 1 0 ∧
      m.loadBytes? 1 5 3 = some [.byte 1, .undefined, .byte 2]) ∧
    (straddling.free? 1 0 8 = none ∧
      (Mem.Command.free 1 0 8).runOn straddling = (none, straddling)) := by
  obtain ⟨values, bytes, inPlace⟩ := writes_separate
  refine ⟨?_, ?_, ?_⟩
  · obtain ⟨-, -, separate⟩ := values straddling .int32 1 (-4) (.int 7)
    have written := separate _ rfl
    refine ⟨_, rfl, written.load? .int32 1 0 ?_, written.loadBytes? 1 (-8) 4 ?_, ?_⟩
    · exact fun _ => .of_le (.inr (by decide))
    · exact fun _ => .of_le (.inl (by decide))
    · exact written.validPointer 1 8
  · obtain ⟨-, -, separate⟩ := bytes straddling 1 5 [.byte 1, .undefined, .byte 2]
    obtain ⟨written, read⟩ := separate _ rfl
    refine ⟨_, rfl, written.load? .int32 1 0 ?_, read⟩
    exact fun _ => .of_le (.inl (by decide))
  · have refused : straddling.free? 1 0 8 = none := by decide
    obtain ⟨-, unchanged⟩ := inPlace straddling straddling (.free 1 0 8)
    exact ⟨refused, unchanged.mpr ⟨refused, rfl⟩⟩

end LateIR
