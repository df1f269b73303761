import LateIR.Proofs.Memory.Newest
import LateIR.Proofs.Provenance.Memory
import LateIR.Proofs.Renaming.Values

/-!
Renaming the blocks of a memory. Two memories correspond under an injective renaming when
every block of the first is found in the second under its new number, with the pointers in it
renamed; the second may have other blocks besides (`Mem.Renamed`). What an operation gives in
the two then corresponds too, and one fails where the other does. An allocation takes the next
number in both, so it needs a number that is still free.
-/

namespace LateIR

variable {ρ : BlockId → BlockId}

/-! ### Related results -/

section

variable {α β γ δ : Type} {R : α → β → Prop} {Q : γ → δ → Prop}

theorem eq_none_of_rel {y : Option β} (related : Option.Rel R none y) : y = none := by
  cases related
  rfl

/-- What succeeds on the left succeeds on the right, with a related result. -/
theorem exists_of_rel {x : Option α} {y : Option β} {a : α} (related : Option.Rel R x y)
    (found : x = some a) : ∃ b, y = some b ∧ R a b := by
  cases related with
  | none => cases found
  | some here =>
      cases found
      exact ⟨_, rfl, here⟩

/-- Two computations that go on in related ways from related results. -/
theorem rel_bind {x : Option α} {y : Option β} {f : α → Option γ} {g : β → Option δ}
    (related : Option.Rel R x y) (next : ∀ a b, x = some a → R a b → Option.Rel Q (f a) (g b)) :
    Option.Rel Q (x.bind f) (y.bind g) := by
  cases related with
  | none => exact .none
  | some here => exact next _ _ rfl here

/-- Two computations the second of which goes on from a transformed result. -/
theorem rel_bind_map {x : Option α} {y : Option β} {t : α → β} {f : α → Option γ}
    {g : β → Option δ} (same : y = x.map t)
    (next : ∀ a, x = some a → Option.Rel Q (f a) (g (t a))) :
    Option.Rel Q (x.bind f) (y.bind g) := by
  subst same
  cases x with
  | none => exact .none
  | some a => exact next a rfl

/-- Two computations that start with the same one. -/
theorem rel_bind_same {x : Option α} {f : α → Option γ} {g : α → Option δ}
    (next : ∀ a, x = some a → Option.Rel Q (f a) (g a)) : Option.Rel Q (x.bind f) (x.bind g) :=
  rel_bind_map (t := id) Option.map_id'.symm next

/-- Reading a list of operands, each of which is renamed, gives the renamed list, and fails at the
same operand. -/
theorem mapM_rename {f g : α → Option Val}
    (renames : ∀ a, g a = (f a).map (Val.rename ρ)) (as : List α) :
    as.mapM g = (as.mapM f).map (List.map (Val.rename ρ)) := by
  induction as with
  | nil => rfl
  | cons a rest ih =>
      simp only [List.mapM_cons, renames, ih, Option.bind_eq_bind]
      cases f a with
      | none => rfl
      | some v => cases rest.mapM f <;> rfl

end

/-! ### Bytes -/

namespace MemByte

/-- The byte with the block of a pointer renamed. -/
def rename (ρ : BlockId → BlockId) : MemByte → MemByte
  | fragment v size index => fragment (v.rename ρ) size index
  | concrete => concrete

theorem rename_eq_self {byte : MemByte} (points : byte.PointsInto fun b => ρ b = b) :
    byte.rename ρ = byte := by
  cases byte with
  | fragment v size index =>
      exact congrArg (fragment · size index) (Val.rename_eq_self (pointsInto_fragment.mp points))
  | _ => rfl

/-- Whether bytes are all plain has nothing to do with pointers. -/
theorem concrete?_rename (bytes : List MemByte) :
    concrete? (bytes.map (rename ρ)) = concrete? bytes := by
  induction bytes with
  | nil => rfl
  | cons first rest ih =>
      cases first with
      | byte b => exact congrArg (Option.map (b :: ·)) ih
      | _ => rfl

theorem fragments_rename (v : Val) (size : Nat) :
    fragments (v.rename ρ) size = (fragments v size).map (rename ρ) := by
  simp [fragments, rename]

/-- Fragments belong together when they are of one value. An injective renaming makes no two values
equal that were different. -/
theorem continues_rename (inj : Function.Injective ρ) (v : Val) (size index : Nat)
    (bytes : List MemByte) :
    continues (v.rename ρ) size index (bytes.map (rename ρ)) = continues v size index bytes := by
  induction bytes generalizing index with
  | nil => rfl
  | cons first rest ih =>
      cases first with
      | fragment w size' index' =>
          have same : numEq (w.rename ρ) (v.rename ρ) = numEq w v := Val.numEq_rename inj w v
          simp only [List.map_cons, rename, continues, same, ih]
      | _ => rfl

/-- A value is put together from its renamed fragments, or from none. -/
theorem whole?_rename (inj : Function.Injective ρ) (bytes : List MemByte) :
    whole? (bytes.map (rename ρ)) = (whole? bytes).map (Val.rename ρ) := by
  cases bytes with
  | nil => rfl
  | cons first rest =>
      cases first with
      | fragment v size index =>
          have same := continues_rename inj v (rest.length + 1) 0 (fragment v size index :: rest)
          simp only [List.map_cons, rename] at same
          simp only [List.map_cons, rename, whole?, List.length_map, same]
          split <;> rfl
      | _ => rfl

end MemByte

namespace Chunk

variable (c : Chunk)

theorem ofWord_rename (n : Nat) : (c.ofWord n).rename ρ = c.ofWord n := by
  cases c <;> rfl

theorem ofWhole_rename (inj : Function.Injective ρ) (bytes : List MemByte) :
    c.ofWhole (bytes.map (MemByte.rename ρ)) = (c.ofWhole bytes).rename ρ := by
  unfold ofWhole
  rw [MemByte.whole?_rename inj]
  cases MemByte.whole? bytes with
  | none => cases c <;> rfl
  | some v => cases c <;> cases v <;> rfl

/-- The value of renamed bytes is the renamed value. -/
theorem decode_rename (inj : Function.Injective ρ) (bytes : List MemByte) :
    c.decode (bytes.map (MemByte.rename ρ)) = (c.decode bytes).rename ρ := by
  unfold decode
  rw [MemByte.concrete?_rename]
  cases MemByte.concrete? bytes with
  | some bs => exact (c.ofWord_rename _).symm
  | none => exact c.ofWhole_rename inj bytes

theorem encode_rename (v : Val) :
    c.encode (v.rename ρ) = (c.encode v).map (MemByte.rename ρ) := by
  have bytes : ∀ n, (c.bytes n).map (MemByte.rename ρ) = c.bytes n := by
    intro n
    simp [Chunk.bytes, MemByte.rename]
  have lost : List.replicate c.size MemByte.undefined =
      (List.replicate c.size MemByte.undefined).map (MemByte.rename ρ) := by
    simp [MemByte.rename]
  cases c <;> cases v <;>
    first
    | exact lost
    | exact (bytes _).symm
    | exact MemByte.fragments_rename _ _

end Chunk

/-! ### Blocks -/

namespace Block

/-- The block with the pointers in it renamed. -/
def rename (ρ : BlockId → BlockId) : Block → Block
  | live lo bytes => live lo (bytes.map (MemByte.rename ρ))
  | freed lo size => freed lo size

theorem rename_eq_self {blk : Block}
    (points : ∀ byte ∈ blk.contents, byte.PointsInto fun b => ρ b = b) : blk.rename ρ = blk := by
  cases blk with
  | live lo bytes =>
      have same : bytes.map (MemByte.rename ρ) = bytes.map id :=
        Array.map_congr_left fun byte mem => MemByte.rename_eq_self (points byte mem)
      rw [rename, same, Array.map_id]
  | freed lo size => rfl

theorem rename_fresh (lo hi : Int) : (fresh lo hi).rename ρ = fresh lo hi := by
  simp [fresh, rename, MemByte.rename]

/-- Bounds are numbers of bytes, so they stay. -/
theorem liveBounds?_rename (blk : Block) : (blk.rename ρ).liveBounds? = blk.liveBounds? := by
  cases blk with
  | live start bytes =>
      simp only [rename, liveBounds?, isLive, hi, size, Array.size_map]
      rfl
  | freed start size => rfl

theorem slice_rename (blk : Block) (ofs len : Int) :
    (blk.rename ρ).slice ofs len = (blk.slice ofs len).map (MemByte.rename ρ) := by
  cases blk with
  | live lo bytes => simp [rename, slice, contents, Block.lo]
  | freed lo size => simp [rename, slice, contents]

/-- Bytes are renamed one by one, so it does not matter whether this comes before or after they are
put in place. -/
theorem overwrite_rename (contents : Array MemByte) (start : Nat) (data : List MemByte) :
    overwrite (contents.map (MemByte.rename ρ)) start (data.map (MemByte.rename ρ)) =
      (overwrite contents start data).map (MemByte.rename ρ) := by
  induction data generalizing contents start with
  | nil => rfl
  | cons first rest ih =>
      rw [List.map_cons, overwrite, overwrite, ← ih, Array.map_setIfInBounds]

theorem write_rename (ofs : Int) (data : List MemByte) (blk : Block) :
    (blk.rename ρ).write ofs (data.map (MemByte.rename ρ)) = (blk.write ofs data).rename ρ := by
  cases blk with
  | live lo bytes => exact congrArg (live lo) (overwrite_rename ..)
  | freed lo size => rfl

theorem free_rename (blk : Block) : (blk.rename ρ).free = blk.free.rename ρ := by
  cases blk with
  | live lo bytes => simp [rename, free]
  | freed lo size => rfl

end Block

/-! ### Memories -/

namespace Mem

/-- Memories the second of which has the blocks of the first under new numbers. Numbers that
have not been used yet stay in order. -/
structure Renamed (ρ : BlockId → BlockId) (m m' : Mem) : Prop where
  inj : Function.Injective ρ
  blocks : ∀ b, m'.block? (ρ b) = (m.block? b).map (Block.rename ρ)
  next : m'.nextBlock = ρ m.nextBlock
  later : ∀ b, m.nextBlock ≤ b → ρ (b + 1) = ρ b + 1
  more : m.nextBlock ≤ m'.nextBlock

namespace Renamed

variable {m m' : Mem} (renamed : m.Renamed ρ m')
include renamed

theorem liveBounds? (b : BlockId) : m'.liveBounds? (ρ b) = m.liveBounds? b := by
  rw [Mem.liveBounds?, Mem.liveBounds?, renamed.blocks]
  cases m.block? b with
  | none => rfl
  | some blk => exact blk.liveBounds?_rename

/-- A range is in the bounds of a block exactly when it is in those of the renamed one. -/
theorem covers (b : BlockId) (ofs len : Int) : m'.covers (ρ b) ofs len = m.covers b ofs len := by
  rw [Bool.eq_iff_iff, covers_iff, covers_iff, renamed.liveBounds?]

theorem accessible (c : Chunk) (b : BlockId) (ofs : Int) :
    m'.accessible c (ρ b) ofs = m.accessible c b ofs := by
  simp only [Mem.accessible, renamed.covers]

theorem validPointer (b : BlockId) (ofs : Int) :
    m'.validPointer (ρ b) ofs = m.validPointer b ofs := by
  rw [Bool.eq_iff_iff, validPointer_iff, validPointer_iff, renamed.liveBounds?]

/-! #### Loads -/

theorem loadBytes? (b : BlockId) (ofs len : Int) :
    m'.loadBytes? (ρ b) ofs len =
      (m.loadBytes? b ofs len).map (List.map (MemByte.rename ρ)) := by
  rw [Mem.loadBytes?, Mem.loadBytes?, renamed.covers, renamed.blocks]
  split
  · cases m.block? b with
    | none => rfl
    | some blk => exact congrArg some (blk.slice_rename ofs len)
  · rfl

/-- A load gives the renamed value, or fails in both memories. -/
theorem load? (c : Chunk) (b : BlockId) (ofs : Int) :
    m'.load? c (ρ b) ofs = (m.load? c b ofs).map (Val.rename ρ) := by
  rw [Mem.load?, Mem.load?, renamed.accessible, renamed.loadBytes?]
  split
  · cases m.loadBytes? b ofs c.size with
    | none => rfl
    | some data => exact congrArg some (c.decode_rename renamed.inj data)
  · rfl

theorem loadAt? (c : Chunk) (addr : Val) :
    m'.loadAt? c (addr.rename ρ) = (m.loadAt? c addr).map (Val.rename ρ) := by
  cases addr with
  | ptr b ofs => exact renamed.load? c b ofs.toInt
  | _ => rfl

theorem loadStack? (sp : Val) (t : Typ) (ofs : Int64) :
    m'.loadStack? (sp.rename ρ) t ofs = (m.loadStack? sp t ofs).map (Val.rename ρ) := by
  rw [Mem.loadStack?, Val.offsetPtr_rename]
  exact renamed.loadAt? (.ofTyp t) (sp.offsetPtr ofs)

/-! #### Changes -/

/-- Whatever commutes with renaming a block keeps the correspondence when it is done to a block in
both memories. Stores and frees are of this kind. -/
theorem modify {f f' : Block → Block} (commutes : ∀ blk, f' (blk.rename ρ) = (f blk).rename ρ)
    (b : BlockId) : (m.modify f b).Renamed ρ (m'.modify f' (ρ b)) where
  inj := renamed.inj
  blocks b' := by
    simp only [block?_modify, renamed.blocks, renamed.inj.eq_iff]
    split
    · simp only [Option.map_map, Function.comp_def, commutes]
    · rfl
  next := by rw [nextBlock_modify, nextBlock_modify, renamed.next]
  later := by
    rw [nextBlock_modify]
    exact renamed.later
  more := by
    rw [nextBlock_modify, nextBlock_modify]
    exact renamed.more

theorem storeBytes? (b : BlockId) (ofs : Int) (data : List MemByte) :
    Option.Rel (Renamed ρ) (m.storeBytes? b ofs data)
      (m'.storeBytes? (ρ b) ofs (data.map (MemByte.rename ρ))) := by
  rw [Mem.storeBytes?, Mem.storeBytes?, List.length_map, renamed.covers]
  split
  · exact .some (renamed.modify (Block.write_rename ofs data) b)
  · exact .none

/-- A store succeeds in both memories or in neither. -/
theorem store? (c : Chunk) (b : BlockId) (ofs : Int) (v : Val) :
    Option.Rel (Renamed ρ) (m.store? c b ofs v) (m'.store? c (ρ b) ofs (v.rename ρ)) := by
  rw [Mem.store?, Mem.store?, renamed.accessible, c.encode_rename]
  split
  · exact renamed.storeBytes? b ofs (c.encode v)
  · exact .none

theorem storeAt? (c : Chunk) (addr v : Val) :
    Option.Rel (Renamed ρ) (m.storeAt? c addr v)
      (m'.storeAt? c (addr.rename ρ) (v.rename ρ)) := by
  cases addr with
  | ptr b ofs => exact renamed.store? c b ofs.toInt v
  | _ => exact .none

theorem storeStack? (sp : Val) (t : Typ) (ofs : Int64) (v : Val) :
    Option.Rel (Renamed ρ) (m.storeStack? sp t ofs v)
      (m'.storeStack? (sp.rename ρ) t ofs (v.rename ρ)) := by
  rw [Mem.storeStack?, Mem.storeStack?, Val.offsetPtr_rename]
  exact renamed.storeAt? (.ofTyp t) (sp.offsetPtr ofs) v

/-- New blocks that correspond get the next numbers, which correspond as numbers that have not been
used stay in order. -/
theorem push (blk : Block) : (m.push blk).Renamed ρ (m'.push (blk.rename ρ)) where
  inj := renamed.inj
  blocks b := by
    simp only [Mem.push, block?_push, renamed.next, renamed.blocks, renamed.inj.eq_iff]
    split <;> rfl
  next := by
    rw [nextBlock_push, nextBlock_push, renamed.next, renamed.later _ (Nat.le_refl _)]
  later b old := by
    rw [nextBlock_push] at old
    exact renamed.later b (Nat.le_of_succ_le old)
  more := by
    rw [nextBlock_push, nextBlock_push]
    exact Nat.succ_le_succ renamed.more

/-- While numbers are left, an allocation succeeds in both memories or in neither, and gives
the new block the same number up to renaming. -/
theorem alloc? (room : m'.nextBlock < blockLimit) (lo hi : Int) :
    Option.Rel (fun new new' => new'.1 = ρ new.1 ∧ new.2.Renamed ρ new'.2) (m.alloc? lo hi)
      (m'.alloc? lo hi) := by
  have room' := Nat.lt_of_le_of_lt renamed.more room
  simp only [Mem.alloc?, room, room', and_true]
  split
  · refine .some ⟨renamed.next, ?_⟩
    have pushed := renamed.push (.fresh lo hi)
    rwa [Block.rename_fresh] at pushed
  · exact .none

/-- The bounds that a free has to name are the same, so it succeeds in both memories or in neither.
-/
theorem free? (b : BlockId) (lo hi : Int) :
    Option.Rel (Renamed ρ) (m.free? b lo hi) (m'.free? (ρ b) lo hi) := by
  cases freed : m.free? b lo hi with
  | none =>
      cases freed' : m'.free? (ρ b) lo hi with
      | none => exact .none
      | some n' =>
          -- What is freed on the right has the same bounds on the left, and could be freed there.
          have live := (free?_eq_some_iff.mp freed').1
          rw [renamed.liveBounds?] at live
          rw [free?_eq_some_iff.mpr ⟨live, rfl⟩] at freed
          cases freed
  | some n =>
      obtain ⟨live, rfl⟩ := free?_eq_some_iff.mp freed
      rw [← renamed.liveBounds?] at live
      rw [free?_eq_some_iff.mpr ⟨live, rfl⟩]
      exact .some (renamed.modify Block.free_rename b)

theorem freeFrame? (sp : Val) (size : Int) :
    Option.Rel (Renamed ρ) (m.freeFrame? sp size) (m'.freeFrame? (sp.rename ρ) size) := by
  cases sp with
  | ptr b ofs =>
      simp only [Mem.freeFrame?, Val.rename]
      split
      · exact renamed.free? b 0 size
      · exact .none
  | _ => exact .none

end Renamed

end Mem

end LateIR
