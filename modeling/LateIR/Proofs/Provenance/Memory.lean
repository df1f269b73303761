import LateIR.Proofs.Memory.Access
import LateIR.Proofs.Operation

/-!
Where the pointers in memory point. When all of them point into given blocks, so
does whatever a load makes of their bytes, in whatever order and mixture it finds
them (`Chunk.pointsInto_decode`), and a store of such a value keeps this. That no
pointer dangles says it of the blocks allocated so far (`Mem.noDangling_iff`).
-/

namespace LateIR

variable {blocks blocks' : BlockId → Prop}

/-! ### Bytes -/

namespace MemByte

/-- Whether the byte, if it is one of a pointer, is one of a pointer into one of
the blocks. -/
def PointsInto (blocks : BlockId → Prop) (byte : MemByte) : Prop :=
  ∀ b, byte.target? = some b → blocks b

theorem pointsInto_fragment {v : Val} {size index : Nat} :
    (fragment v size index).PointsInto blocks ↔ v.PointsInto blocks := by
  cases v <;> simp [PointsInto, target?, Val.PointsInto]

/-- A value stored whole is that of its first fragment. -/
theorem pointsInto_whole? {bytes : List MemByte} {v : Val} (whole : whole? bytes = some v)
    (points : ∀ byte ∈ bytes, byte.PointsInto blocks) : v.PointsInto blocks := by
  cases bytes with
  | nil => cases whole
  | cons first rest =>
      cases first with
      | fragment w size index =>
          obtain ⟨-, same⟩ := Option.ite_none_right_eq_some.mp whole
          cases same
          exact pointsInto_fragment.mp (points _ List.mem_cons_self)
      | undefined | byte => cases whole

end MemByte

namespace Chunk

/-- Plain bytes never make a pointer. -/
theorem pointsInto_ofWord (c : Chunk) (n : Nat) : (c.ofWord n).PointsInto blocks := by
  cases c <;> trivial

theorem pointsInto_ofWhole (c : Chunk) {bytes : List MemByte}
    (points : ∀ byte ∈ bytes, byte.PointsInto blocks) : (c.ofWhole bytes).PointsInto blocks := by
  unfold ofWhole
  split
  · rename_i whole
    exact MemByte.pointsInto_whole? whole points
  · rename_i v whole
    exact (MemByte.pointsInto_whole? whole points).loadResult .any32
  · rename_i v whole
    exact MemByte.pointsInto_whole? whole points
  · trivial

/-- Whatever bytes a load finds, a pointer it gives is one that fragments among them were cut from.
-/
theorem pointsInto_decode (c : Chunk) {bytes : List MemByte}
    (points : ∀ byte ∈ bytes, byte.PointsInto blocks) : (c.decode bytes).PointsInto blocks := by
  unfold decode
  split
  · exact c.pointsInto_ofWord _
  · exact c.pointsInto_ofWhole points

theorem pointsInto_bytes (c : Chunk) (n : Nat) : ∀ byte ∈ c.bytes n, byte.PointsInto blocks := by
  intro byte mem
  obtain ⟨b, -, rfl⟩ := List.mem_map.mp mem
  intro target pointer
  cases pointer

/-- The bytes of a stored value name no block that the value does not. -/
theorem pointsInto_encode (c : Chunk) {v : Val} (points : v.PointsInto blocks) :
    ∀ byte ∈ c.encode v, byte.PointsInto blocks := by
  have whole : ∀ byte ∈ MemByte.fragments v c.size, byte.PointsInto blocks := by
    intro byte mem
    obtain ⟨index, -, rfl⟩ := List.mem_map.mp mem
    exact MemByte.pointsInto_fragment.mpr points
  have lost : ∀ byte ∈ List.replicate c.size MemByte.undefined, byte.PointsInto blocks := by
    intro byte mem
    obtain rfl := List.eq_of_mem_replicate mem
    intro target pointer
    cases pointer
  unfold encode
  split <;> first | exact whole | exact lost | exact pointsInto_bytes _ _

end Chunk

/-! ### Blocks -/

namespace Block

/-- Every byte of an overwritten block was there before or has been written. -/
theorem mem_of_mem_overwrite {contents : Array MemByte} {start : Nat} {data : List MemByte}
    {byte : MemByte} (mem : byte ∈ overwrite contents start data) :
    byte ∈ contents ∨ byte ∈ data := by
  induction data generalizing contents start with
  | nil => exact .inl mem
  | cons first rest ih =>
      rcases ih mem with mem | mem
      · rcases Array.mem_or_eq_of_mem_setIfInBounds mem with mem | rfl
        · exact .inl mem
        · exact .inr List.mem_cons_self
      · exact .inr (List.mem_cons_of_mem _ mem)

theorem mem_of_mem_write {blk : Block} {ofs : Int} {data : List MemByte} {byte : MemByte}
    (mem : byte ∈ (blk.write ofs data).contents) : byte ∈ blk.contents ∨ byte ∈ data := by
  cases blk with
  | live lo bytes => exact mem_of_mem_overwrite mem
  | freed lo size => exact .inl mem

theorem mem_of_mem_slice {blk : Block} {ofs len : Int} {byte : MemByte}
    (mem : byte ∈ blk.slice ofs len) : byte ∈ blk.contents := by
  rw [slice, Array.toList_extract, List.extract_eq_take_drop] at mem
  exact Array.mem_toList_iff.mp (List.mem_of_mem_drop (List.mem_of_mem_take mem))

theorem contents_free (blk : Block) : blk.free.contents = #[] := by
  cases blk <;> rfl

end Block

/-! ### Memories -/

namespace Mem

/-- Whether every pointer in a live block points into one of the blocks. -/
def PointsInto (blocks : BlockId → Prop) (m : Mem) : Prop :=
  ∀ b blk, m.block? b = some blk → ∀ byte ∈ blk.contents, byte.PointsInto blocks

/-- Whether the block has been allocated. It may have been freed since. -/
def Allocated (m : Mem) (b : BlockId) : Prop := b < m.nextBlock

theorem Allocated.mono {m n : Mem} (grows : m.nextBlock ≤ n.nextBlock) :
    ∀ b, m.Allocated b → n.Allocated b :=
  fun _ old => Nat.lt_of_lt_of_le old grows

/-- Where the pointers of a memory point can be tested byte by byte. -/
theorem pointsInto_iff_all [DecidablePred blocks] {m : Mem} :
    m.PointsInto blocks ↔
      m.blocks.all fun blk => blk.contents.all fun byte => byte.target?.all (blocks ·) := by
  simp only [Array.all_eq_true', Option.all_eq_true, decide_eq_true_eq]
  constructor
  · intro points blk listed byte mem target pointer
    obtain ⟨b, here⟩ := Array.getElem?_of_mem listed
    exact points (b + 1) blk here byte mem target pointer
  · intro all b blk here byte mem target pointer
    cases b with
    | zero => cases here
    | succ b => exact all blk (Array.mem_of_getElem? here) byte mem target pointer

instance [DecidablePred blocks] (m : Mem) : Decidable (m.PointsInto blocks) :=
  decidable_of_iff _ pointsInto_iff_all.symm

instance (m : Mem) : DecidablePred m.Allocated := fun b => Nat.decLt b m.nextBlock

/-- No pointer dangles when all point to blocks allocated so far. -/
theorem noDangling_iff {m : Mem} : m.noDangling ↔ m.PointsInto m.Allocated :=
  pointsInto_iff_all.symm

namespace PointsInto

variable {m n : Mem} {b : BlockId} {v : Val}

theorem imp (more : ∀ b, blocks b → blocks' b) (points : m.PointsInto blocks) :
    m.PointsInto blocks' :=
  fun b blk here byte mem target pointer => more target (points b blk here byte mem target pointer)

theorem loadBytes? (points : m.PointsInto blocks) {ofs len : Int} {data : List MemByte}
    (loaded : m.loadBytes? b ofs len = some data) : ∀ byte ∈ data, byte.PointsInto blocks := by
  obtain ⟨-, loaded⟩ := Option.ite_none_right_eq_some.mp loaded
  obtain ⟨blk, here, rfl⟩ := Option.map_eq_some_iff.mp loaded
  intro byte mem
  exact points b blk here byte (Block.mem_of_mem_slice mem)

theorem load? (points : m.PointsInto blocks) {c : Chunk} {ofs : Int}
    (loaded : m.load? c b ofs = some v) : v.PointsInto blocks := by
  obtain ⟨-, loaded⟩ := Option.ite_none_right_eq_some.mp loaded
  obtain ⟨data, read, rfl⟩ := Option.map_eq_some_iff.mp loaded
  exact c.pointsInto_decode (points.loadBytes? read)

theorem loadAt? (points : m.PointsInto blocks) {c : Chunk} {addr : Val}
    (loaded : m.loadAt? c addr = some v) : v.PointsInto blocks := by
  cases addr with
  | ptr b ofs => exact points.load? loaded
  | _ => cases loaded

/-- Raw bytes may hold fragments of any pointer, so they are asked to point into the blocks too. -/
theorem storeBytes? (points : m.PointsInto blocks) {ofs : Int} {data : List MemByte}
    (given : ∀ byte ∈ data, byte.PointsInto blocks) (stored : m.storeBytes? b ofs data = some n) :
    n.PointsInto blocks := by
  obtain ⟨-, rfl⟩ := storeBytes?_eq_some_iff.mp stored
  intro b' blk here byte mem
  rw [block?_modify] at here
  split at here
  · obtain ⟨before, old, rfl⟩ := Option.map_eq_some_iff.mp here
    rcases Block.mem_of_mem_write mem with mem | mem
    · exact points b' before old byte mem
    · exact given byte mem
  · exact points b' blk here byte mem

theorem store? (points : m.PointsInto blocks) {c : Chunk} {ofs : Int} (given : v.PointsInto blocks)
    (stored : m.store? c b ofs v = some n) : n.PointsInto blocks :=
  points.storeBytes? (c.pointsInto_encode given) (store?_eq_some_iff.mp stored).2

theorem storeAt? (points : m.PointsInto blocks) {c : Chunk} {addr : Val}
    (given : v.PointsInto blocks) (stored : m.storeAt? c addr v = some n) : n.PointsInto blocks := by
  obtain ⟨b, ofs, rfl, stored⟩ := storeAt?_eq_some_iff.mp stored
  exact points.store? given stored

/-- A new block holds no pointers. -/
theorem alloc? (points : m.PointsInto blocks) {lo hi : Int}
    (allocated : m.alloc? lo hi = some (b, n)) : n.PointsInto blocks := by
  obtain ⟨-, rfl, rfl⟩ := alloc?_eq_some_iff.mp allocated
  intro b' blk here byte mem
  rw [block?_push] at here
  split at here
  · cases here
    obtain rfl := Array.eq_of_mem_replicate mem
    intro target pointer
    cases pointer
  · exact points b' blk here byte mem

/-- A freed block has lost its bytes, and its pointers with them. -/
theorem free? (points : m.PointsInto blocks) {lo hi : Int} (freed : m.free? b lo hi = some n) :
    n.PointsInto blocks := by
  obtain ⟨-, rfl⟩ := free?_eq_some_iff.mp freed
  intro b' blk here byte mem
  rw [block?_modify] at here
  split at here
  · obtain ⟨before, -, rfl⟩ := Option.map_eq_some_iff.mp here
    simp [Block.contents_free] at mem
  · exact points b' blk here byte mem

theorem freeFrame? (points : m.PointsInto blocks) {sp : Val} {size : Int}
    (freed : m.freeFrame? sp size = some n) : n.PointsInto blocks := by
  obtain ⟨b, rfl, freed⟩ := freeFrame?_eq_some_iff.mp freed
  exact points.free? freed

end PointsInto

end Mem

end LateIR
