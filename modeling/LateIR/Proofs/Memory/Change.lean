import LateIR.Proofs.Memory.Access

/-!
Sequences of memory operations. A change that writes no byte of a range and does
not free its block leaves the bounds of the block and what is read from the range
as they were (`Change.Spares.sameRange`), and so does a sequence of such changes
(`Change.sameRange_of_runAll?`).
-/

namespace LateIR.Mem

variable {m m' m'' : Mem} {b : BlockId} {ofs len : Int}

/-! ### Ranges that stay the same -/

/-- Whether two memories agree on the bounds of a block and on a range in it. -/
structure SameRange (b : BlockId) (ofs len : Int) (m m' : Mem) : Prop where
  bounds : m'.liveBounds? b = m.liveBounds? b
  bytes : m'.loadBytes? b ofs len = m.loadBytes? b ofs len

namespace SameRange

theorem refl (m : Mem) : SameRange b ofs len m m := ⟨rfl, rfl⟩

theorem trans (first : SameRange b ofs len m m') (second : SameRange b ofs len m' m'') :
    SameRange b ofs len m m'' :=
  ⟨second.bounds.trans first.bounds, second.bytes.trans first.bytes⟩

/-- A whole block that stays the same. -/
theorem of_block? (same : m'.block? b = m.block? b) : SameRange b ofs len m m' := by
  constructor
  · rw [liveBounds?, liveBounds?, same]
  · rw [loadBytes?, loadBytes?, covers, covers, same]

/-- An allocation keeps what has been allocated before. -/
theorem of_alloc? {lo hi : Int} {new : BlockId} (allocated : m.alloc? lo hi = some (new, m'))
    (old : b < m.nextBlock) : SameRange b ofs len m m' := by
  obtain ⟨-, rfl, rfl⟩ := alloc?_eq_some_iff.mp allocated
  apply of_block?
  rw [block?_push, if_neg (Nat.ne_of_lt old)]

theorem load? {c : Chunk} (same : SameRange b ofs c.size m m') :
    m'.load? c b ofs = m.load? c b ofs := by
  have covered : m'.covers b ofs c.size = m.covers b ofs c.size := by
    rw [Bool.eq_iff_iff, covers_iff, covers_iff, same.bounds]
  rw [Mem.load?, Mem.load?, accessible, accessible, covered, same.bytes]

end SameRange

/-! ### Single blocks -/

/-- Whether nothing but the contents of one block has changed. -/
structure WithinBlock (b : BlockId) (m m' : Mem) : Prop where
  next : m'.nextBlock = m.nextBlock
  bounds : ∀ b', m'.liveBounds? b' = m.liveBounds? b'
  others : ∀ b', b' ≠ b → m'.block? b' = m.block? b'

namespace WithinBlock

theorem refl (m : Mem) : WithinBlock b m m := ⟨rfl, fun _ => rfl, fun _ _ => rfl⟩

theorem trans (first : WithinBlock b m m') (second : WithinBlock b m' m'') :
    WithinBlock b m m'' where
  next := second.next.trans first.next
  bounds b' := (second.bounds b').trans (first.bounds b')
  others b' other := (second.others b' other).trans (first.others b' other)

theorem of_storeBytes? {data : List MemByte} (stored : m.storeBytes? b ofs data = some m') :
    WithinBlock b m m' := by
  refine ⟨nextBlock_storeBytes? stored, liveBounds?_storeBytes? stored, ?_⟩
  obtain ⟨-, rfl⟩ := storeBytes?_eq_some_iff.mp stored
  intro b' other
  rw [block?_modify, if_neg other]

theorem of_store? {c : Chunk} {v : Val} (stored : m.store? c b ofs v = some m') :
    WithinBlock b m m' :=
  of_storeBytes? (store?_eq_some_iff.mp stored).2

end WithinBlock

/-- Whether the blocks with smaller numbers are the same before and after. -/
def KeepsBelow (limit : BlockId) (m m' : Mem) : Prop :=
  ∀ b < limit, m'.block? b = m.block? b

theorem WithinBlock.keepsBelow (within : WithinBlock b m m') : KeepsBelow b m m' :=
  fun b' older => within.others b' (Nat.ne_of_lt older)

namespace KeepsBelow

variable {limit : BlockId}

theorem refl (m : Mem) : KeepsBelow limit m m := fun _ _ => rfl

theorem trans (first : KeepsBelow limit m m') (second : KeepsBelow limit m' m'') :
    KeepsBelow limit m m'' :=
  fun b older => (second b older).trans (first b older)

theorem mono {limit' : BlockId} (keeps : KeepsBelow limit m m') (le : limit' ≤ limit) :
    KeepsBelow limit' m m' :=
  fun b older => keeps b (Nat.lt_of_lt_of_le older le)

theorem of_alloc? {lo hi : Int} (allocated : m.alloc? lo hi = some (b, m')) :
    KeepsBelow m.nextBlock m m' := by
  obtain ⟨-, rfl, rfl⟩ := alloc?_eq_some_iff.mp allocated
  intro b older
  rw [block?_push, if_neg (Nat.ne_of_lt older)]

end KeepsBelow

/-! ### Changes -/

/-- An operation that changes memory. -/
inductive Change where
  | store (c : Chunk) (b : BlockId) (ofs : Int) (v : Val)
  | storeBytes (b : BlockId) (ofs : Int) (data : List MemByte)
  | alloc (lo hi : Int)
  | free (b : BlockId) (lo hi : Int)

namespace Change

def run? (m : Mem) : Change → Option Mem
  | store c b ofs v => m.store? c b ofs v
  | storeBytes b ofs data => m.storeBytes? b ofs data
  | alloc lo hi => (m.alloc? lo hi).map (·.2)
  | free b lo hi => m.free? b lo hi

/-- The memory after the changes, one after the other, if all of them succeed. -/
def runAll? (changes : List Change) (m : Mem) : Option Mem := changes.foldlM run? m

/-- Whether the change writes the byte at the offset, also with what it holds
already. -/
def Writes (b : BlockId) (i : Int) : Change → Prop
  | store c target ofs _ => target = b ∧ ofs ≤ i ∧ i < ofs + c.size
  | storeBytes target ofs data => target = b ∧ ofs ≤ i ∧ i < ofs + data.length
  | alloc .. | free .. => False

def Frees (b : BlockId) : Change → Prop
  | free target .. => target = b
  | _ => False

/-- Whether the change writes no byte of the range and leaves its block live. -/
structure Spares (b : BlockId) (ofs len : Int) (change : Change) : Prop where
  unwritten : ∀ i, ofs ≤ i → i < ofs + len → ¬ change.Writes b i
  live : ¬ change.Frees b

theorem sameRange_of_storeBytes? {target : BlockId} {start : Int} {data : List MemByte}
    (unwritten : ∀ i, ofs ≤ i → i < ofs + len →
      ¬ (target = b ∧ start ≤ i ∧ i < start + data.length))
    (stored : m.storeBytes? target start data = some m') : SameRange b ofs len m m' := by
  refine ⟨liveBounds?_storeBytes? stored b, loadBytes?_storeBytes?_apart stored ?_⟩
  rintro rfl i first last written
  exact unwritten i first last ⟨rfl, written⟩

/-- A change that spares a range of a live block keeps it. -/
theorem Spares.sameRange {change : Change} (spares : change.Spares b ofs len)
    {bounds : Int × Int} (live : m.liveBounds? b = some bounds) (ran : change.run? m = some m') :
    SameRange b ofs len m m' := by
  obtain ⟨unwritten, kept⟩ := spares
  cases change with
  | store c target start v =>
      have stored := (store?_eq_some_iff.mp ran).2
      apply sameRange_of_storeBytes? _ stored
      rwa [c.length_encode]
  | storeBytes target start data => exact sameRange_of_storeBytes? unwritten ran
  | alloc lo hi =>
      obtain ⟨⟨new, fresh⟩, allocated, rfl⟩ := Option.map_eq_some_iff.mp ran
      exact .of_alloc? allocated (lt_nextBlock_of_liveBounds? live)
  | free target lo hi =>
      obtain ⟨-, rfl⟩ := free?_eq_some_iff.mp ran
      apply SameRange.of_block?
      rw [block?_modify, if_neg (Ne.symm kept)]

theorem sameRange_of_runAll? {changes : List Change}
    (spares : ∀ change ∈ changes, change.Spares b ofs len) {bounds : Int × Int}
    (live : m.liveBounds? b = some bounds) (ran : runAll? changes m = some m') :
    SameRange b ofs len m m' := by
  induction changes generalizing m with
  | nil =>
      cases ran
      exact .refl _
  | cons change rest ih =>
      obtain ⟨first, later⟩ := List.forall_mem_cons.mp spares
      rw [runAll?, List.foldlM_cons] at ran
      obtain ⟨mid, here, ran⟩ := Option.bind_eq_some_iff.mp ran
      have same := first.sameRange live here
      exact same.trans (ih later (same.bounds.trans live) ran)

end Change

end LateIR.Mem
