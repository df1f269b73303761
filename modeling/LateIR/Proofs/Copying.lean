import LateIR.Proofs.Memory.Bytes
import LateIR.Proofs.Memory.Effect
import LateIR.Proofs.Memory.History
import LateIR.Proofs.Separation

/-!
Copies between ranges of memory. A copy is made exactly if its size and both places are
multiples of a supported alignment, both ranges lie in live blocks, and the ranges are one or
have no byte in common. The target then reads as the source did before, as bytes and as values
of any width, and nothing else has changed (`copies_exactly`).
-/

namespace LateIR

/-- Ranges of one length are apart if one of them ends before the other begins. -/
theorem rangesApart_iff {ofs ofs' len : Int} :
    RangesApart ofs len ofs' len ↔ ofs + len ≤ ofs' ∨ ofs' + len ≤ ofs := by
  refine ⟨?_, .of_le⟩
  intro apart
  apply Decidable.byContradiction
  intro meet
  -- the later of the two starts lies in both ranges
  exact apart (max ofs ofs') (by omega) (by omega) (by omega)

namespace Heap

/-- Whether a copy of `size` bytes between the two places is in order, whatever the memory
holds there. -/
structure CopyInOrder (size align : Int) (target : BlockId) (t : Int) (source : BlockId)
    (s : Int) : Prop where
  nonneg : 0 ≤ size
  supported : align = 1 ∨ align = 2 ∨ align = 4 ∨ align = 8
  whole : align ∣ size
  targetAligned : align ∣ t
  sourceAligned : align ∣ s
  separate : target ≠ source ∨ t = s ∨ RangesApart t size s size

/-- What a copy leaves behind. -/
structure Copied (size : Int) (target : BlockId) (t : Int) (source : BlockId) (s : Int)
    (m m' : Mem) : Prop where
  bytes : m'.loadBytes? target t size = m.loadBytes? source s size
  values : ∀ (c : Chunk) (k : Nat), k + c.size ≤ size →
    (c.size : Int) ∣ t + k → (c.size : Int) ∣ s + k →
    ∃ v, m.load? c source (s + k) = some v ∧ m'.load? c target (t + k) = some v
  outside : Mem.WritesOnly target t size m m'
  bounds : ∀ b, m'.bounds? b = m.bounds? b

variable {m m' : Mem} {size align : Int} {target source : BlockId}

theorem copyInOrder_iff {t s : Int} :
    CopyInOrder size align target t source s ↔
      copyable size align && t % align = 0 && s % align = 0 &&
        (target ≠ source || t = s || t + size ≤ s || s + size ≤ t) := by
  simp only [copyable, Bool.and_eq_true, Bool.or_eq_true, decide_eq_true_eq,
    ← Int.dvd_iff_emod_eq_zero]
  constructor
  · rintro ⟨nonneg, supported, whole, targetAligned, sourceAligned, separate⟩
    rw [rangesApart_iff] at separate
    exact ⟨⟨⟨⟨⟨nonneg, by simpa [or_assoc] using supported⟩, whole⟩, targetAligned⟩, sourceAligned⟩,
      by simpa [or_assoc] using separate⟩
  · rintro ⟨⟨⟨⟨⟨nonneg, supported⟩, whole⟩, targetAligned⟩, sourceAligned⟩, separate⟩
    refine ⟨nonneg, by simpa [or_assoc] using supported, whole, targetAligned, sourceAligned, ?_⟩
    rw [rangesApart_iff]
    simpa [or_assoc] using separate

variable {t s : Int64}

theorem memcpy?_ptr_eq_some_iff :
    memcpy? size align m [.ptr target t, .ptr source s] = some m' ↔
      CopyInOrder size align target t.toInt source s.toInt ∧
        ∃ data, m.loadBytes? source s.toInt size = some data ∧
          m.storeBytes? target t.toInt data = some m' := by
  rw [copyInOrder_iff, memcpy?, Option.ite_none_right_eq_some, Option.bind_eq_some_iff]

/-- The sizes and places between which a memory lets bytes be copied. -/
theorem isSome_memcpy?_ptr_iff :
    (memcpy? size align m [.ptr target t, .ptr source s]).isSome ↔
      CopyInOrder size align target t.toInt source s.toInt ∧
        m.InBounds source s.toInt size ∧ m.InBounds target t.toInt size := by
  rw [Option.isSome_iff_exists]
  simp only [memcpy?_ptr_eq_some_iff, exists_and_left]
  refine and_congr_right fun order => ?_
  obtain ⟨len, rfl⟩ := Int.eq_ofNat_of_zero_le order.nonneg
  rw [← Mem.covers_iff_inBounds, ← Mem.covers_iff_inBounds]
  constructor
  · rintro ⟨m', data, loaded, stored⟩
    obtain ⟨readable, length, -⟩ := Mem.loadBytes?_eq_some_iff.mp loaded
    exact ⟨readable, length ▸ (Mem.storeBytes?_eq_some_iff.mp stored).1⟩
  · rintro ⟨readable, writable⟩
    obtain ⟨data, loaded⟩ := Option.isSome_iff_exists.mp (Mem.isSome_loadBytes?_iff.mpr readable)
    have length := (Mem.loadBytes?_eq_some_iff.mp loaded).2.1
    exact ⟨_, data, loaded, Mem.storeBytes?_eq_some_iff.mpr ⟨length ▸ writable, rfl⟩⟩

/-- Nothing but pointers to two places can be copied between. -/
theorem exists_ptrs_of_memcpy? {args : List Val} (done : memcpy? size align m args = some m') :
    ∃ target t source s, args = [.ptr target t, .ptr source s] := by
  obtain ⟨target, t, source, s, -, same, -⟩ := memcpy?_eq_some done
  exact ⟨target, t, source, s, same⟩

theorem bounds?_storeBytes? {b : BlockId} {ofs : Int} {data : List MemByte}
    (stored : m.storeBytes? b ofs data = some m') (b' : BlockId) : m'.bounds? b' = m.bounds? b' := by
  obtain ⟨-, rfl⟩ := Mem.storeBytes?_eq_some_iff.mp stored
  cases here : m.block? b' with
  | none => simp [Mem.bounds?, Mem.block?_modify, here]
  | some blk =>
      obtain ⟨blk', after, becomes⟩ := Mem.becomes_modify (Block.becomes_write ofs data) b here
      simp [Mem.bounds?, here, after, Block.hi, becomes.lo, becomes.size]

theorem copied_of_memcpy? (done : memcpy? size align m [.ptr target t, .ptr source s] = some m') :
    Copied size target t.toInt source s.toInt m m' := by
  obtain ⟨order, data, loaded, stored⟩ := memcpy?_ptr_eq_some_iff.mp done
  obtain ⟨len, rfl⟩ := Int.eq_ofNat_of_zero_le order.nonneg
  have length := (Mem.loadBytes?_eq_some_iff.mp loaded).2.1
  have read := Mem.loadBytes?_storeBytes?_same stored
  have outside := Mem.writesOnly_of_storeBytes? stored
  rw [length] at read outside
  refine ⟨read.trans loaded.symm, ?_, outside, bounds?_storeBytes? stored⟩
  intro c k inside targetAligned sourceAligned
  have inside : k + c.size ≤ len := by exact_mod_cast inside
  exact ⟨_, Mem.load?_of_loadBytes? (Mem.loadBytes?_part loaded inside) sourceAligned,
    Mem.load?_of_loadBytes? (Mem.loadBytes?_part read inside) targetAligned⟩

end Heap

/-- When a copy is made, and what it does. -/
theorem copies_exactly (host : Host) (size align : Int) (m : Mem) :
    (∀ args, (host.calls (.memcpy size align) args m).isSome ↔
      ∃ target t source s, args = [.ptr target t, .ptr source s] ∧
        Heap.CopyInOrder size align target t.toInt source s.toInt ∧
        m.InBounds source s.toInt size ∧ m.InBounds target t.toInt size) ∧
    ∀ target t source s out,
      host.calls (.memcpy size align) [.ptr target t, .ptr source s] m = some out →
        out.trace = [] ∧ out.result = .undefined ∧
          Heap.Copied size target t.toInt source s.toInt m out.mem := by
  constructor
  · intro args
    rw [Host.calls, Option.isSome_map]
    constructor
    · intro done
      obtain ⟨m', done⟩ := Option.isSome_iff_exists.mp done
      obtain ⟨target, t, source, s, rfl⟩ := Heap.exists_ptrs_of_memcpy? done
      exact ⟨target, t, source, s, rfl,
        Heap.isSome_memcpy?_ptr_iff.mp (Option.isSome_of_eq_some done)⟩
    · rintro ⟨target, t, source, s, rfl, allowed⟩
      exact Heap.isSome_memcpy?_ptr_iff.mpr allowed
  · intro target t source s out called
    obtain ⟨m', done, rfl⟩ := Option.map_eq_some_iff.mp called
    exact ⟨rfl, rfl, Heap.copied_of_memcpy? done⟩

/-! A pointer and room for it behind. The second range begins where the first ends. -/

def touching : Mem :=
  ⟨#[.live 0 (MemByte.fragments (.ptr 1 4) 8 ++ List.replicate 8 MemByte.undefined).toArray]⟩

theorem copies_exactly_touching :
    (∃ out, Host.calls (fun _ => none) (.memcpy 8 8) [.ptr 1 8, .ptr 1 0] touching = some out ∧
      Heap.Copied 8 1 8 1 0 touching out.mem ∧ out.mem.load? .int64 1 8 = some (.ptr 1 4)) ∧
    Host.calls (fun _ => none) (.memcpy 8 4) [.ptr 1 4, .ptr 1 0] touching = none := by
  constructor
  · obtain ⟨possible, effect⟩ := copies_exactly (fun _ => none) 8 8 touching
    have order : Heap.CopyInOrder 8 8 1 8 1 0 := Heap.copyInOrder_iff.mpr (by decide)
    have bounds : touching.liveBounds? 1 = some (0, 16) := by decide
    obtain ⟨out, done⟩ := Option.isSome_iff_exists.mp <| (possible [.ptr 1 8, .ptr 1 0]).mpr
      ⟨1, 8, 1, 0, rfl, order, ⟨0, 16, bounds, by decide, by decide⟩,
        ⟨0, 16, bounds, by decide, by decide⟩⟩
    obtain ⟨-, -, copied⟩ := effect 1 8 1 0 out done
    obtain ⟨v, before, after⟩ := copied.values .int64 0 (by decide) (by decide) (by decide)
    have whole : touching.load? .int64 1 0 = some (.ptr 1 4) := by decide
    exact ⟨out, done, copied, after.trans (before.symm.trans whole)⟩
  · obtain ⟨possible, -⟩ := copies_exactly (fun _ => none) 8 4 touching
    apply Option.not_isSome_iff_eq_none.mp
    intro done
    obtain ⟨target, t, source, s, same, order, -⟩ := (possible _).mp done
    cases same
    exact absurd (Heap.copyInOrder_iff.mp order) (by decide)

end LateIR
