import LateIR.Memory
import Mathlib.Data.List.Basic

/-!
Memory as it is laid out: a map from numbers to blocks, each stored with its bounds, its contents
and a flag, and a counter for the next number. Offsets are machine words. The types keep none of
these in step with the others, and contents are accessed at computed positions: a difference of
offsets that no word holds is a fault, and so is a position outside the contents. Which memory
(`Mem`) the blocks stand for, and that no operation on it ever comes to a fault, is shown in
`Proofs/Memory/BlockStore` and `Proofs/Memory/Refinement`.
-/

namespace LateIR

/-- What makes an operation break off. -/
inductive Fault where
  /-- A difference of offsets or a sum of positions that no word holds. -/
  | overflow
  /-- A range of positions that the contents do not have. -/
  | outOfRange
  deriving DecidableEq

/-! ### Words -/

namespace Word

/-- The word that stands for an integer, if there is one. -/
def ofInt? (n : Int) : Option Int64 :=
  if Int64.minValue.toInt ≤ n ∧ n ≤ Int64.maxValue.toInt then some (.ofInt n) else none

/-- The difference of two words, which no word may hold. -/
def sub (x y : Int64) : Except Fault Int64 :=
  match ofInt? (x.toInt - y.toInt) with
  | some z => .ok z
  | none => .error .overflow

/-- A word as a position, a negative one as the position far out that has its bits. -/
def toIndex (n : Int64) : Nat := n.toUInt64.toNat

def addIndex (start len : Nat) : Except Fault Nat :=
  if start + len < UInt64.size then .ok (start + len) else .error .overflow

/-- The number after the given one, unless it is the last. -/
def succ? (n : UInt32) : Option UInt32 := if n + 1 = 0 then none else some (n + 1)

end Word

/-! ### Blocks -/

/-- A block as it is stored. -/
structure StoredBlock where
  lo : Int64
  /-- One past the last offset. -/
  hi : Int64
  /-- None once the block has been freed. -/
  contents : Array MemByte
  live : Bool
  deriving DecidableEq

namespace StoredBlock

/-- Whether the `size` bytes from `ofs` on are there to be accessed. -/
def covers (blk : StoredBlock) (ofs size : Int64) : Bool :=
  blk.live && 0 ≤ size && blk.lo ≤ ofs && (Word.ofInt? (ofs.toInt + size.toInt)).any (· ≤ blk.hi)

/-- The positions of the `len` bytes from `ofs` on. -/
def range (blk : StoredBlock) (ofs : Int64) (len : Nat) : Except Fault (Nat × Nat) := do
  let start := Word.toIndex (← Word.sub ofs blk.lo)
  let stop ← Word.addIndex start len
  if stop ≤ blk.contents.size then return (start, stop) else throw .outOfRange

/-- The `size` bytes from `ofs` on, which no test has let through here. -/
def slice (blk : StoredBlock) (ofs size : Int64) : Except Fault (List MemByte) := do
  let (start, stop) ← blk.range ofs (Word.toIndex size)
  return (blk.contents.extract start stop).toList

/-- Overwrites the bytes from `ofs` on, which no test has let through here. -/
def write (blk : StoredBlock) (ofs : Int64) (data : List MemByte) : Except Fault StoredBlock := do
  let (start, stop) ← blk.range ofs data.length
  return { blk with
    contents := blk.contents.extract 0 start ++ data.toArray ++ blk.contents.extract stop }

end StoredBlock

/-! ### Blocks by number -/

/-- The blocks allocated so far, live or freed, and the number of the next one. -/
structure BlockStore where
  blocks : Std.TreeMap BlockId StoredBlock
  next : UInt32

namespace BlockStore

/-- No block allocated yet. -/
def new : BlockStore := ⟨∅, 1⟩

/-- Stores a block under a number, in place of one that is there. -/
def put (s : BlockStore) (b : BlockId) (blk : StoredBlock) : BlockStore :=
  { s with blocks := s.blocks.insert b blk }

def nextBlock (s : BlockStore) : BlockId := s.next.toNat

/-- The block with the given number, live or freed. -/
def block? (s : BlockStore) (b : BlockId) : Option StoredBlock := s.blocks[b]?

def isLive (s : BlockStore) (b : BlockId) : Bool := (s.block? b).any (·.live)

/-- Whether the offset is in a live block or one past its end. -/
def validPointer (s : BlockStore) (b : BlockId) (ofs : Int64) : Bool :=
  (s.block? b).any fun blk => blk.live && blk.lo ≤ ofs && ofs ≤ blk.hi

/-- The block of an access that is in bounds and aligned. -/
def accessible? (s : BlockStore) (c : Chunk) (b : BlockId) (ofs : Int64) :
    Option StoredBlock :=
  (s.block? b).filter fun blk =>
    blk.covers ofs (.ofNat c.size) && ofs.toInt % c.align = 0

def load (s : BlockStore) (c : Chunk) (b : BlockId) (ofs : Int64) :
    Except Fault (Option Val) :=
  (s.accessible? c b ofs).mapM fun blk => c.decode <$> blk.slice ofs (.ofNat c.size)

/-- A load through a pointer. -/
def loadAt (s : BlockStore) (c : Chunk) : Val → Except Fault (Option Val)
  | .ptr b ofs => s.load c b ofs
  | _ => .ok none

/-- The bytes of a range, without any alignment. -/
def loadBytes (s : BlockStore) (b : BlockId) (ofs len : Int64) :
    Except Fault (Option (List MemByte)) :=
  ((s.block? b).filter (·.covers ofs len)).mapM fun blk => blk.slice ofs len

/-- Whether every pointer in a live block refers to a block allocated before. -/
def noDangling (s : BlockStore) : Bool :=
  s.blocks.toList.all fun (_, blk) =>
    !blk.live || blk.contents.all fun byte => byte.target?.all (· < s.nextBlock)

/-! ### Operations in place -/

/-- An operation on the blocks at hand, which may fail and may break off with a fault. What a
failing operation has changed until then stays. -/
abbrev Action := OptionT (StateT BlockStore (Except Fault))

/-- Goes on only with a value. -/
def Action.ofOption {α : Type} (value : Option α) : Action α := OptionT.mk (pure value)

/-- The answer of an operation, if it does not fail, and the blocks that it leaves. -/
def Action.runOn {α : Type} (action : Action α) (s : BlockStore) :
    Except Fault (Option α × BlockStore) :=
  action.run.run s

/-- Allocates a block with bounds `lo` and `hi` and undefined contents. Bounds in the wrong order
give an empty block. -/
def alloc (lo hi : Int64) : Action BlockId := do
  let hi := max hi lo
  let len ← .ofOption (Word.ofInt? (hi.toInt - lo.toInt))
  guard (len ≤ .ofNat Mem.maxBlockSize)
  let s ← get
  let next ← .ofOption (Word.succ? s.next)
  let contents := .replicate (Word.toIndex len) .undefined
  set { s.put s.nextBlock ⟨lo, hi, contents, true⟩ with next }
  return s.nextBlock

/-- Frees a live block whose bounds are exactly these. -/
def free (b : BlockId) (lo hi : Int64) : Action Unit := do
  let s ← get
  let blk ← .ofOption (s.block? b)
  guard (blk.live ∧ blk.lo = lo ∧ blk.hi = max hi lo)
  set (s.put b { blk with contents := #[], live := false })

/-- Overwrites bytes of a block. What is to be overwritten has been let through by the operations
that end in this one. -/
def write (b : BlockId) (ofs : Int64) (data : List MemByte) : Action Unit := do
  let s ← get
  let blk ← .ofOption (s.block? b)
  let blk ← blk.write ofs data
  set (s.put b blk)

def store (c : Chunk) (b : BlockId) (ofs : Int64) (v : Val) : Action Unit := do
  let _ ← .ofOption ((← get).accessible? c b ofs)
  write b ofs (c.encode v)

/-- A store through a pointer. -/
def storeAt (c : Chunk) (addr v : Val) : Action Unit :=
  match addr with
  | .ptr b ofs => store c b ofs v
  | _ => failure

/-- Overwrites a range, without any alignment. -/
def storeBytes (b : BlockId) (ofs : Int64) (data : List MemByte) : Action Unit := do
  let blk ← .ofOption ((← get).block? b)
  guard (blk.covers ofs (.ofNat data.length))
  write b ofs data

/-! ### Requests -/

/-- An operation on the blocks with its arguments. No data is longer than words can count. -/
inductive Request where
  | alloc (lo hi : Int64)
  | free (b : BlockId) (lo hi : Int64)
  | store (c : Chunk) (b : BlockId) (ofs : Int64) (v : Val)
  | storeAt (c : Chunk) (addr v : Val)
  | storeBytes (b : BlockId) (ofs : Int64) (data : List MemByte)
      (countable : data.length ≤ Int64.maxValue.toInt)

/-- An allocation answers the number of its block. -/
def Request.perform : Request → Action (Option BlockId)
  | alloc lo hi => some <$> BlockStore.alloc lo hi
  | free b lo hi => (fun _ => none) <$> BlockStore.free b lo hi
  | store c b ofs v => (fun _ => none) <$> BlockStore.store c b ofs v
  | storeAt c addr v => (fun _ => none) <$> BlockStore.storeAt c addr v
  | storeBytes b ofs data _ => (fun _ => none) <$> BlockStore.storeBytes b ofs data

/-- Carries out the requests one after the other, and goes on after those that fail. Gives the
numbers that allocations answer. -/
def serve : List Request → BlockStore → Except Fault (List BlockId × BlockStore)
  | [], s => .ok ([], s)
  | request :: rest, s => do
      let (answer, s) ← request.perform.runOn s
      let (ids, s) ← serve rest s
      return (answer.join.toList ++ ids, s)

end BlockStore

end LateIR
