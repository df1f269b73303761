import LateIR.Proofs.Memory.Change

/-!
Memory operations in place. A command works on the memory at hand and may give up at
any point, which leaves the memory as the command has made it so far. The operations,
carried out this way, either succeed with the memory of the operation of the same name
or give up before they have changed anything (`Change.runOn_inPlace`).
-/

namespace LateIR.Mem

/-- A command on the memory at hand. -/
abbrev Command := OptionT (StateM Mem)

namespace Command

/-- Goes on only with a value. -/
def ofOption {α : Type} (value : Option α) : Command α := OptionT.mk (pure value)

/-- What a command answers, if it does not give up, and the memory that it leaves. -/
def runOn {α : Type} (command : Command α) (m : Mem) : Option α × Mem := (command.run.run m).run

/-- Overwrites bytes of a block, if there is one of that number. -/
def write (b : BlockId) (ofs : Int) (data : List MemByte) : Command Unit := do
  let m ← get
  let _ ← ofOption (m.block? b)
  set (m.modify (Block.write ofs data) b)

def storeBytes (b : BlockId) (ofs : Int) (data : List MemByte) : Command Unit := do
  let m ← get
  guard (m.covers b ofs data.length)
  write b ofs data

def store (c : Chunk) (b : BlockId) (ofs : Int) (v : Val) : Command Unit := do
  let m ← get
  guard (m.accessible c b ofs)
  write b ofs (c.encode v)

def alloc (lo hi : Int) : Command BlockId := do
  let m ← get
  let size := (hi - lo).toNat
  guard (size ≤ maxBlockSize)
  guard (m.nextBlock < blockLimit)
  set (Mem.mk (m.blocks.push (.live lo (.replicate size .undefined))))
  return m.nextBlock

def free (b : BlockId) (lo hi : Int) : Command Unit := do
  let m ← get
  let blk ← ofOption (m.block? b)
  guard (blk.isLive ∧ blk.lo = lo ∧ blk.hi = max hi lo)
  set (m.modify Block.free b)

/-! ### Running a command -/

section

variable {α β : Type} {m : Mem}

theorem runOn_get_bind (rest : Mem → Command α) : (get >>= rest).runOn m = (rest m).runOn m := rfl

theorem runOn_ofOption_bind (value : Option α) (rest : α → Command β) :
    (ofOption value >>= rest).runOn m =
      match value with
      | some a => (rest a).runOn m
      | none => (none, m) := by
  cases value <;> rfl

theorem runOn_guard_bind (p : Prop) [Decidable p] (rest : Unit → Command α) :
    (guard p >>= rest).runOn m = if p then (rest ()).runOn m else (none, m) := by
  show ((if p then pure () else failure : Command Unit) >>= rest).runOn m = _
  by_cases holds : p
  · rw [if_pos holds, if_pos holds]
    rfl
  · rw [if_neg holds, if_neg holds]
    rfl

theorem runOn_map (f : α → β) (command : Command α) :
    (f <$> command).runOn m = ((command.runOn m).1.map f, (command.runOn m).2) := by
  simp [runOn]

/-! ### Operations that give up unchanged -/

/-- The answer of an operation and the memory that it leaves, which is the one it found when
the operation fails. -/
def orUnchanged (m : Mem) : Option (α × Mem) → Option α × Mem
  | some (a, m') => (some a, m')
  | none => (none, m)

theorem runOn_write {b : BlockId} {ofs : Int} {data : List MemByte} {bounds : Int × Int}
    (live : m.liveBounds? b = some bounds) :
    (write b ofs data).runOn m = (some (), m.modify (Block.write ofs data) b) := by
  obtain ⟨bytes, here, -⟩ := liveBounds?_eq_some_iff.mp live
  rw [write, runOn_get_bind, runOn_ofOption_bind, here]
  rfl

theorem runOn_storeBytes (b : BlockId) (ofs : Int) (data : List MemByte) :
    (storeBytes b ofs data).runOn m = orUnchanged m ((m.storeBytes? b ofs data).map ((), ·)) := by
  rw [storeBytes, runOn_get_bind, runOn_guard_bind, storeBytes?]
  split
  · rename_i covered
    obtain ⟨lo, hi, live, -⟩ := covers_iff.mp covered
    exact runOn_write live
  · rfl

theorem runOn_store (c : Chunk) (b : BlockId) (ofs : Int) (v : Val) :
    (store c b ofs v).runOn m = orUnchanged m ((m.store? c b ofs v).map ((), ·)) := by
  rw [store, runOn_get_bind, runOn_guard_bind, store?]
  split
  · rename_i accessible
    have covered := covers_of_accessible accessible
    obtain ⟨lo, hi, live, -⟩ := covers_iff.mp covered
    rw [runOn_write live, storeBytes?, c.length_encode, if_pos covered]
    rfl
  · rfl

theorem runOn_alloc (lo hi : Int) :
    (alloc lo hi).runOn m = orUnchanged m (m.alloc? lo hi) := by
  rw [alloc, runOn_get_bind, runOn_guard_bind, alloc?]
  by_cases fits : (hi - lo).toNat ≤ maxBlockSize
  · rw [if_pos fits, runOn_guard_bind]
    by_cases room : m.nextBlock < blockLimit
    · rw [if_pos room, if_pos ⟨fits, room⟩]
      rfl
    · rw [if_neg room, if_neg fun both => room both.2]
      rfl
  · rw [if_neg fits, if_neg fun both => fits both.1]
    rfl

theorem runOn_free (b : BlockId) (lo hi : Int) :
    (free b lo hi).runOn m = orUnchanged m ((m.free? b lo hi).map ((), ·)) := by
  rw [free, runOn_get_bind, runOn_ofOption_bind, free?]
  cases m.block? b with
  | none => rfl
  | some blk =>
      refine (runOn_guard_bind _ _).trans ?_
      dsimp only
      split <;> rfl

end

end Command

namespace Change

/-- The change in place. -/
def inPlace : Change → Command Unit
  | store c b ofs v => .store c b ofs v
  | storeBytes b ofs data => .storeBytes b ofs data
  | alloc lo hi => (fun _ => ()) <$> Command.alloc lo hi
  | free b lo hi => .free b lo hi

theorem runOn_inPlace (change : Change) (m : Mem) :
    change.inPlace.runOn m = Command.orUnchanged m ((change.run? m).map ((), ·)) := by
  cases change with
  | store c b ofs v => exact Command.runOn_store c b ofs v
  | storeBytes b ofs data => exact Command.runOn_storeBytes b ofs data
  | alloc lo hi =>
      rw [inPlace, Command.runOn_map, Command.runOn_alloc, run?]
      cases m.alloc? lo hi <;> rfl
  | free b lo hi => exact Command.runOn_free b lo hi

theorem runOn_inPlace_eq_some_iff {change : Change} {m m' : Mem} :
    change.inPlace.runOn m = (some (), m') ↔ change.run? m = some m' := by
  rw [runOn_inPlace]
  cases change.run? m <;> simp [Command.orUnchanged]

/-- A change that fails is none. -/
theorem runOn_inPlace_eq_none_iff {change : Change} {m m' : Mem} :
    change.inPlace.runOn m = (none, m') ↔ change.run? m = none ∧ m' = m := by
  rw [runOn_inPlace]
  cases change.run? m <;> simp [Command.orUnchanged, eq_comm]

end Change

end LateIR.Mem
