import LateIR.Proofs.Location.Slots
import LateIR.Proofs.Memory.Access
import LateIR.Proofs.Memory.Encoding

/-!
What is read back after a store. A load of the same kind from the same place gives
what the access leaves of the value, bit for bit, except that accesses which store
values whole lose floating-point words that are not numbers (`stored_read_back`). A
slot of a location state loses nothing of a value that fits its type.
-/

namespace LateIR

namespace Mem

variable {m m' : Mem}

theorem load?_of_store? {c : Chunk} {b : BlockId} {ofs : Int} {v : Val}
    (stored : m.store? c b ofs v = some m') : m'.load? c b ofs = some (c.readBack v) := by
  rw [load?_store?_same stored, c.decode_encode_eq_readBack]

theorem loadStack?_of_storeStack? {sp : Val} {t : Typ} {ofs : Int64} {v : Val}
    (stored : m.storeStack? sp t ofs v = some m') :
    m'.loadStack? sp t ofs = some ((Chunk.ofTyp t).readBack v) := by
  obtain ⟨b, start, addr, stored⟩ := storeAt?_eq_some_iff.mp stored
  rw [loadStack?, addr]
  exact load?_of_store? stored

end Mem

/-- What a load finds where the same access, a spill of the same type or a slot of the
same type was written before. The slot at the largest offset of all keeps what it holds
when nothing defined is written to it. -/
theorem stored_read_back (m : Mem) (v : Val) :
    (∀ (m' : Mem) (c : Chunk) (b : BlockId) (ofs : Int), m.store? c b ofs v = some m' →
      m'.load? c b ofs = some
        (if c.storesWhole ∧ (v.loadResult c).isNaN then .undefined else v.loadResult c)) ∧
    ∀ t, v.hasType t →
      (∀ (m' : Mem) (sp : Val) (ofs : Int64), m.storeStack? sp t ofs v = some m' →
        m'.loadStack? sp t ofs = some
          (if (Chunk.ofTyp t).storesWhole ∧ v.isNaN then .undefined else v)) ∧
      ∀ (ls : LocState) (kind : SlotKind) (ofs : Int), (ofs < Loc.maxOffset ∨ v.isDefined) →
        (ls.setSlot kind ofs t v).getSlot kind ofs t = v := by
  constructor
  · intro m' c b ofs stored
    exact Mem.load?_of_store? stored
  · intro t typed
    have kept := Val.loadResult_of_hasType typed
    constructor
    · intro m' sp ofs stored
      rw [Mem.loadStack?_of_storeStack? stored, Chunk.readBack, kept]
    · intro ls kind ofs inside
      rcases inside with small | defined
      · rw [ls.getSlot_setSlot v small, if_pos ⟨rfl, rfl⟩, kept]
      · rw [ls.getSlot_setSlot_defined (kept.symm ▸ defined), kept]

/-! Sixteen bytes that a word that is not a number is stored in. -/

def sixteenBytes : Mem := ⟨#[.live 0 (.replicate 16 .undefined)]⟩

/-- A quiet double-precision word that is not a number. -/
def quietNaN : Val := .float ⟨0x7ff8000000000000⟩

theorem stored_read_back_sixteenBytes :
    (∃ m, sixteenBytes.store? .float64 1 8 quietNaN = some m ∧
      m.load? .float64 1 8 = some quietNaN) ∧
    (∃ m, sixteenBytes.storeStack? (.ptr 1 0) .any64 8 quietNaN = some m ∧
      m.loadStack? (.ptr 1 0) .any64 8 = some .undefined) ∧
    (LocState.empty.setSlot .spill 2 .any64 quietNaN).getSlot .spill 2 .any64 = quietNaN := by
  obtain ⟨stores, spills⟩ := stored_read_back sixteenBytes quietNaN
  obtain ⟨spills, slots⟩ := spills .any64 rfl
  refine ⟨?_, ?_, ?_⟩
  · exact ⟨_, rfl, stores _ .float64 1 8 rfl⟩
  · exact ⟨_, rfl, spills _ (.ptr 1 0) 8 rfl⟩
  · exact slots .empty .spill 2 (.inl (by decide))

/-- A load does not always find what the access makes of the value that it stored. -/
theorem not_always_read_back :
    ¬ ∀ (m m' : Mem) (c : Chunk) (b : BlockId) (ofs : Int) (v : Val),
      m.store? c b ofs v = some m' → m'.load? c b ofs = some (v.loadResult c) := by
  intro always
  have read := always sixteenBytes _ .any64 1 8 quietNaN rfl
  have lost : ¬ (sixteenBytes.store? .any64 1 8 quietNaN).bind (·.load? .any64 1 8) =
      some (quietNaN.loadResult .any64) := by decide
  exact lost read

end LateIR
