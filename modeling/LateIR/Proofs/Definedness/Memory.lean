import LateIR.Proofs.Memory.Access
import LateIR.Proofs.Operation

/-!
Memories ordered by definedness. One memory is below another when the blocks are
the same and every byte of the lower one is undefined or the same as in the
upper one. Whatever succeeds in the lower memory then succeeds in the upper one,
and leads to values and memories that are again in this order
(`Mem.Below.load?`, `Mem.Below.store?`, `Mem.Below.alloc?`, `Mem.Below.free?`).
-/

namespace LateIR

/-! ### Lists in a flat order -/

/-- When only `bottom` is below anything else, a list is either the same as one
above it or contains `bottom`. -/
theorem eq_or_mem_of_forall₂ {α : Type} (bottom : α) {as bs : List α}
    (le : List.Forall₂ (fun a b => a = bottom ∨ a = b) as bs) : as = bs ∨ bottom ∈ as := by
  induction le with
  | nil => exact .inl rfl
  | cons first rest ih =>
      rcases first with rfl | rfl
      · exact .inr List.mem_cons_self
      · rcases ih with rfl | mem
        · exact .inl rfl
        · exact .inr (List.mem_cons_of_mem _ mem)

theorem forall₂_set {α β : Type} {r : α → β → Prop} {as : List α} {bs : List β} {a : α} {b : β}
    (related : List.Forall₂ r as bs) (here : r a b) (i : Nat) :
    List.Forall₂ r (as.set i a) (bs.set i b) := by
  induction related generalizing i with
  | nil => exact .nil
  | cons first rest ih =>
      cases i with
      | zero => exact .cons here rest
      | succ i => exact .cons first (ih i)

/-! ### Bytes -/

namespace MemByte

instance : LE MemByte := ⟨fun a b => a = .undefined ∨ a = b⟩

theorem le_refl (a : MemByte) : a ≤ a := .inr rfl

/-- Undefined bytes are below any others. -/
theorem forall₂_replicate_undefined (bytes : List MemByte) :
    List.Forall₂ (· ≤ ·) (List.replicate bytes.length .undefined) bytes := by
  induction bytes with
  | nil => exact .nil
  | cons a rest ih => exact .cons (.inl rfl) ih

/-- One undefined byte is enough for a range not to be plain bytes. -/
theorem concrete?_of_mem_undefined {bytes : List MemByte} (mem : .undefined ∈ bytes) :
    concrete? bytes = none := by
  induction bytes with
  | nil => cases mem
  | cons a rest ih =>
      cases a with
      | byte b =>
          have later : .undefined ∈ rest := by simpa using mem
          rw [concrete?, ih later, Option.map_none]
      | undefined | fragment => rfl

/-- Nor do the fragments of a value go on across an undefined byte. -/
theorem not_continues_of_mem_undefined {v : Val} {size index : Nat} {bytes : List MemByte}
    (mem : .undefined ∈ bytes) : continues v size index bytes = false := by
  induction bytes generalizing index with
  | nil => cases mem
  | cons a rest ih =>
      cases a with
      | fragment v' size' index' =>
          have later : .undefined ∈ rest := by simpa using mem
          rw [continues, ih later, Bool.and_false]
      | undefined | byte => rfl

theorem whole?_of_mem_undefined {bytes : List MemByte} (mem : .undefined ∈ bytes) :
    whole? bytes = none := by
  cases bytes with
  | nil => rfl
  | cons a rest =>
      cases a with
      | fragment v size index => simp [whole?, not_continues_of_mem_undefined mem]
      | undefined | byte => rfl

end MemByte

namespace Chunk

/-- A load that finds an undefined byte gives an undefined value. This makes the order of bytes
carry over to values. -/
theorem decode_of_mem_undefined (c : Chunk) {bytes : List MemByte} (mem : .undefined ∈ bytes) :
    c.decode bytes = .undefined := by
  have mixed := MemByte.concrete?_of_mem_undefined mem
  have parted := MemByte.whole?_of_mem_undefined mem
  cases c <;> simp only [decode, mixed, ofWhole, parted]

/-- More defined bytes make a more defined value. -/
theorem decode_mono (c : Chunk) {bytes bytes' : List MemByte}
    (le : List.Forall₂ (· ≤ ·) bytes bytes') : c.decode bytes ≤ c.decode bytes' := by
  rcases eq_or_mem_of_forall₂ MemByte.undefined le with rfl | mem
  · exact Val.le_refl _
  · exact .inl (c.decode_of_mem_undefined mem)

/-- A more defined value is stored as more defined bytes. -/
theorem encode_mono (c : Chunk) {v w : Val} (le : v ≤ w) :
    List.Forall₂ (· ≤ ·) (c.encode v) (c.encode w) := by
  rcases le with rfl | rfl
  · have lost : c.encode .undefined = List.replicate (c.encode w).length MemByte.undefined := by
      rw [c.length_encode]
      cases c <;> rfl
    rw [lost]
    exact MemByte.forall₂_replicate_undefined _
  · exact List.forall₂_same.mpr fun a _ => MemByte.le_refl a

end Chunk

/-! ### Blocks -/

namespace Block

/-- Blocks with the same bounds, one of which may have more defined bytes. -/
inductive Below : Block → Block → Prop
  | live {lo : Int} {bytes bytes' : Array MemByte}
      (contents : List.Forall₂ (· ≤ ·) bytes.toList bytes'.toList) :
      Below (.live lo bytes) (.live lo bytes')
  | freed {lo : Int} {size : Nat} : Below (.freed lo size) (.freed lo size)

/-- Writes of ordered bytes at one place keep the order, wherever they are cut off at the end of the
block. -/
theorem forall₂_overwrite {contents contents' : Array MemByte} {data data' : List MemByte}
    (before : List.Forall₂ (· ≤ ·) contents.toList contents'.toList)
    (written : List.Forall₂ (· ≤ ·) data data') (start : Nat) :
    List.Forall₂ (· ≤ ·) (overwrite contents start data).toList
      (overwrite contents' start data').toList := by
  induction written generalizing contents contents' start with
  | nil => exact before
  | cons first rest ih =>
      apply ih
      rw [Array.toList_setIfInBounds, Array.toList_setIfInBounds]
      exact forall₂_set before first start

namespace Below

variable {blk blk' : Block}

theorem refl (blk : Block) : Below blk blk := by
  cases blk with
  | live lo bytes => exact .live (List.forall₂_same.mpr fun a _ => MemByte.le_refl a)
  | freed lo size => exact .freed

theorem liveBounds? (below : Below blk blk') : blk.liveBounds? = blk'.liveBounds? := by
  cases below with
  | live contents =>
      have size := contents.length_eq
      simp only [Array.length_toList] at size
      simp only [Block.liveBounds?, isLive, hi, Block.lo, Block.size, size]
  | freed => rfl

/-- The bytes of one range are in order. -/
theorem slice (below : Below blk blk') (ofs len : Int) :
    List.Forall₂ (· ≤ ·) (blk.slice ofs len) (blk'.slice ofs len) := by
  cases below with
  | live contents =>
      simp only [Block.slice, Block.contents, Block.lo, Array.toList_extract,
        List.extract_eq_take_drop]
      exact List.forall₂_take _ (List.forall₂_drop _ contents)
  | freed => exact List.forall₂_same.mpr fun a _ => MemByte.le_refl a

theorem write (below : Below blk blk') (ofs : Int) {data data' : List MemByte}
    (le : List.Forall₂ (· ≤ ·) data data') : Below (blk.write ofs data) (blk'.write ofs data') := by
  cases below with
  | live contents => exact .live (forall₂_overwrite contents le _)
  | freed => exact .freed

/-- A freed block keeps no bytes, so there is nothing left to compare. -/
theorem free (below : Below blk blk') : Below blk.free blk'.free := by
  cases below with
  | live contents =>
      have size := contents.length_eq
      simp only [Array.length_toList] at size
      simp only [Block.free, size]
      exact .freed
  | freed => exact .freed

end Below

end Block

/-! ### Memories -/

namespace Mem

/-- Memories with the same blocks, one of which may have more defined bytes. -/
structure Below (m m' : Mem) : Prop where
  next : m.nextBlock = m'.nextBlock
  blocks : ∀ b, Option.Rel Block.Below (m.block? b) (m'.block? b)

namespace Below

variable {m m' n : Mem} {b : BlockId}

theorem liveBounds? (below : m.Below m') (b : BlockId) : m.liveBounds? b = m'.liveBounds? b := by
  unfold Mem.liveBounds?
  have related := below.blocks b
  generalize m.block? b = here, m'.block? b = there at related ⊢
  cases related with
  | none => rfl
  | some related => exact related.liveBounds?

/-- An access is possible in both memories or in neither. -/
theorem covers (below : m.Below m') (b : BlockId) (ofs len : Int) :
    m.covers b ofs len = m'.covers b ofs len := by
  rw [Bool.eq_iff_iff, covers_iff, covers_iff, below.liveBounds?]

theorem accessible (below : m.Below m') (c : Chunk) (b : BlockId) (ofs : Int) :
    m.accessible c b ofs = m'.accessible c b ofs := by
  simp only [Mem.accessible, below.covers]

theorem validPointer (below : m.Below m') : m.validPointer = m'.validPointer := by
  funext b ofs
  rw [Bool.eq_iff_iff, validPointer_iff, validPointer_iff, below.liveBounds?]

/-- What keeps the order of blocks keeps that of memories. -/
theorem modify (below : m.Below m') {f f' : Block → Block}
    (keeps : ∀ blk blk', Block.Below blk blk' → Block.Below (f blk) (f' blk')) (b : BlockId) :
    (m.modify f b).Below (m'.modify f' b) where
  next := by rw [nextBlock_modify, nextBlock_modify, below.next]
  blocks b' := by
    rw [block?_modify, block?_modify]
    have related := below.blocks b'
    split
    · generalize m.block? b' = here, m'.block? b' = there at related ⊢
      cases related with
      | none => exact .none
      | some related => exact .some (keeps _ _ related)
    · exact related

/-! #### Loads -/

theorem loadBytes? (below : m.Below m') {ofs len : Int} {data : List MemByte}
    (loaded : m.loadBytes? b ofs len = some data) :
    ∃ data', m'.loadBytes? b ofs len = some data' ∧ List.Forall₂ (· ≤ ·) data data' := by
  obtain ⟨covered, loaded⟩ := Option.ite_none_right_eq_some.mp loaded
  obtain ⟨blk, here, rfl⟩ := Option.map_eq_some_iff.mp loaded
  rw [Mem.loadBytes?, ← below.covers, if_pos covered]
  have related := below.blocks b
  rw [here] at related
  generalize m'.block? b = there at related ⊢
  cases related with
  | some related => exact ⟨_, rfl, related.slice ofs len⟩

/-- A load that succeeds in the lower memory succeeds in the upper one, with a value that is at
least as defined. -/
theorem load? (below : m.Below m') {c : Chunk} {ofs : Int} {v : Val}
    (loaded : m.load? c b ofs = some v) : ∃ w, m'.load? c b ofs = some w ∧ v ≤ w := by
  obtain ⟨accessible, loaded⟩ := Option.ite_none_right_eq_some.mp loaded
  obtain ⟨data, read, rfl⟩ := Option.map_eq_some_iff.mp loaded
  obtain ⟨data', read', le⟩ := below.loadBytes? read
  refine ⟨c.decode data', ?_, c.decode_mono le⟩
  rw [Mem.load?, ← below.accessible, if_pos accessible, read', Option.map_some]

/-- A load through an undefined address fails, so the address is the same. -/
theorem loadAt? (below : m.Below m') {c : Chunk} {addr addr' v : Val} (le : addr ≤ addr')
    (loaded : m.loadAt? c addr = some v) : ∃ w, m'.loadAt? c addr' = some w ∧ v ≤ w := by
  rcases le with rfl | rfl
  · cases loaded
  · cases addr with
    | ptr b ofs => exact below.load? loaded
    | _ => cases loaded

theorem loadStack? (below : m.Below m') {sp v : Val} {t : Typ} {ofs : Int64}
    (loaded : m.loadStack? sp t ofs = some v) : ∃ w, m'.loadStack? sp t ofs = some w ∧ v ≤ w :=
  below.loadAt? (Val.le_refl _) loaded

/-- A defined value that is loaded from the lower memory is the one loaded from
the upper one. -/
theorem loadStack?_eq (below : m.Below m') {sp v : Val} {t : Typ} {ofs : Int64}
    (defined : v ≠ .undefined) (loaded : m.loadStack? sp t ofs = some v) :
    m'.loadStack? sp t ofs = some v := by
  obtain ⟨w, loaded', le⟩ := below.loadStack? loaded
  rw [loaded', le.resolve_left defined]

/-! #### Stores -/

theorem storeBytes? (below : m.Below m') {ofs : Int} {data data' : List MemByte}
    (le : List.Forall₂ (· ≤ ·) data data') (stored : m.storeBytes? b ofs data = some n) :
    ∃ n', m'.storeBytes? b ofs data' = some n' ∧ n.Below n' := by
  obtain ⟨covered, rfl⟩ := storeBytes?_eq_some_iff.mp stored
  rw [below.covers, le.length_eq] at covered
  refine ⟨_, storeBytes?_eq_some_iff.mpr ⟨covered, rfl⟩, below.modify ?_ b⟩
  intro blk blk' related
  exact related.write ofs le

/-- A store of a more defined value succeeds where that of the less defined one does, and the
memories they leave are again in order. -/
theorem store? (below : m.Below m') {c : Chunk} {ofs : Int} {v w : Val} (le : v ≤ w)
    (stored : m.store? c b ofs v = some n) :
    ∃ n', m'.store? c b ofs w = some n' ∧ n.Below n' := by
  obtain ⟨accessible, stored⟩ := store?_eq_some_iff.mp stored
  obtain ⟨n', stored', below'⟩ := below.storeBytes? (c.encode_mono le) stored
  rw [below.accessible] at accessible
  exact ⟨n', store?_eq_some_iff.mpr ⟨accessible, stored'⟩, below'⟩

theorem storeAt? (below : m.Below m') {c : Chunk} {addr addr' v w : Val} (same : addr ≤ addr')
    (le : v ≤ w) (stored : m.storeAt? c addr v = some n) :
    ∃ n', m'.storeAt? c addr' w = some n' ∧ n.Below n' := by
  obtain ⟨b, ofs, rfl, stored⟩ := storeAt?_eq_some_iff.mp stored
  obtain ⟨n', stored', below'⟩ := below.store? le stored
  have same := same.resolve_left (by simp)
  exact ⟨n', storeAt?_eq_some_iff.mpr ⟨b, ofs, same.symm, stored'⟩, below'⟩

theorem storeStack? (below : m.Below m') {sp v w : Val} {t : Typ} {ofs : Int64} (le : v ≤ w)
    (stored : m.storeStack? sp t ofs v = some n) :
    ∃ n', m'.storeStack? sp t ofs w = some n' ∧ n.Below n' :=
  below.storeAt? (Val.le_refl _) le stored

/-! #### Allocation and release -/

/-- A new block has the same number and the same undefined bytes in both. -/
theorem alloc? (below : m.Below m') {lo hi : Int} (allocated : m.alloc? lo hi = some (b, n)) :
    ∃ n', m'.alloc? lo hi = some (b, n') ∧ n.Below n' := by
  obtain ⟨fits, rfl, rfl⟩ := alloc?_eq_some_iff.mp allocated
  rw [below.next] at fits
  refine ⟨_, alloc?_eq_some_iff.mpr ⟨fits, below.next, rfl⟩, ?_, ?_⟩
  · have next := below.next
    simp only [nextBlock, Array.size_push] at next ⊢
    rw [next]
  · intro b
    rw [block?_push, block?_push, below.next]
    split
    · exact .some (.refl _)
    · exact below.blocks b

theorem free? (below : m.Below m') {lo hi : Int} (freed : m.free? b lo hi = some n) :
    ∃ n', m'.free? b lo hi = some n' ∧ n.Below n' := by
  obtain ⟨bounds, rfl⟩ := free?_eq_some_iff.mp freed
  rw [below.liveBounds?] at bounds
  exact ⟨_, free?_eq_some_iff.mpr ⟨bounds, rfl⟩, below.modify (fun _ _ related => related.free) b⟩

theorem freeFrame? (below : m.Below m') {sp : Val} {size : Int}
    (freed : m.freeFrame? sp size = some n) :
    ∃ n', m'.freeFrame? sp size = some n' ∧ n.Below n' := by
  obtain ⟨b, rfl, freed⟩ := freeFrame?_eq_some_iff.mp freed
  obtain ⟨n', freed', below'⟩ := below.free? freed
  exact ⟨n', freeFrame?_eq_some_iff.mpr ⟨b, rfl, freed'⟩, below'⟩

end Below

end Mem

end LateIR
