import LateIR.Memory.Byte

/-!
Memory as a collection of independent blocks, each with its own bounds. Block
numbers start at one and are never used again: a freed block stays behind with
its bounds, so that stale pointers into it are recognised.
-/

namespace LateIR

/-- A block of memory: its contents from offset `lo` on, or what is left of its
bounds once it has been freed. -/
inductive Block where
  | live (lo : Int) (bytes : Array MemByte)
  | freed (lo : Int) (size : Nat)
  deriving DecidableEq

namespace Block

def lo : Block → Int
  | live lo _ | freed lo _ => lo

def size : Block → Nat
  | live _ bytes => bytes.size
  | freed _ size => size

/-- One past the last offset. -/
def hi (b : Block) : Int := b.lo + b.size

def isLive : Block → Bool
  | live .. => true
  | freed .. => false

/-- The contents, none once freed. -/
def contents : Block → Array MemByte
  | live _ bytes => bytes
  | freed .. => #[]

/-- Whether the `len` bytes from `ofs` on are there to be accessed. -/
def covers (b : Block) (ofs len : Int) : Bool :=
  b.isLive && 0 ≤ len && b.lo ≤ ofs && ofs + len ≤ b.hi

/-- The `len` bytes from `ofs` on. -/
def slice (b : Block) (ofs len : Int) : List MemByte :=
  let start := (ofs - b.lo).toNat
  (b.contents.extract start (start + len.toNat)).toList

/-- Overwrites the entries from `start` on. -/
def overwrite (contents : Array MemByte) (start : Nat) : List MemByte → Array MemByte
  | [] => contents
  | b :: rest => overwrite (contents.setIfInBounds start b) (start + 1) rest

def write (ofs : Int) (data : List MemByte) : Block → Block
  | live lo bytes => live lo (overwrite bytes (ofs - lo).toNat data)
  | freed lo size => freed lo size

def free : Block → Block
  | live lo bytes => freed lo bytes.size
  | freed lo size => freed lo size

protected def numEq : Block → Block → Bool
  | live lo bytes, live lo' bytes' => lo = lo' && LateIR.numEq bytes bytes'
  | freed lo size, freed lo' size' => lo = lo' && size = size'
  | _, _ => false

instance : NumEq Block := ⟨Block.numEq⟩

end Block

/-- A memory: the blocks allocated so far, in order. -/
structure Mem where
  blocks : Array Block
  deriving DecidableEq

namespace Mem

/-- Largest size of a block, `2 ^ 24` bytes. -/
def maxBlockSize : Nat := 16777216

/-- Block numbers stay below this one, `2 ^ 32 - 1`. -/
def blockLimit : Nat := 4294967295

/-- No block allocated yet. -/
def empty : Mem := ⟨#[]⟩

/-- The number of the next block to be allocated. -/
def nextBlock (m : Mem) : BlockId := m.blocks.size + 1

/-- The block with the given number, live or freed. -/
def block? (m : Mem) : BlockId → Option Block
  | 0 => none
  | b + 1 => m.blocks[b]?

/-- Changes the block with the given number, if there is one. -/
def modify (m : Mem) (f : Block → Block) : BlockId → Mem
  | 0 => m
  | b + 1 => ⟨m.blocks.modify b f⟩

/-- Allocates a block with bounds `lo` and `hi` and undefined contents. Bounds
in the wrong order give an empty block. Fails when the block would be too large
or the numbers are used up. -/
def alloc? (m : Mem) (lo hi : Int) : Option (BlockId × Mem) :=
  let size := (hi - lo).toNat
  if size ≤ maxBlockSize ∧ m.nextBlock < blockLimit then
    some (m.nextBlock, ⟨m.blocks.push (.live lo (.replicate size .undefined))⟩)
  else none

/-- Frees a live block whose bounds are exactly these. -/
def free? (m : Mem) (b : BlockId) (lo hi : Int) : Option Mem :=
  match m.block? b with
  | some blk =>
      if blk.isLive ∧ blk.lo = lo ∧ blk.hi = max hi lo then some (m.modify Block.free b) else none
  | none => none

def isLive (m : Mem) (b : BlockId) : Bool := (m.block? b).any Block.isLive

/-- Whether the offset is in a live block or one past its end. -/
def validPointer (m : Mem) (b : BlockId) (ofs : Int) : Bool :=
  (m.block? b).any fun blk => blk.isLive && blk.lo ≤ ofs && ofs ≤ blk.hi

/-- Whether the `len` bytes of block `b` from `ofs` on can be accessed. -/
def covers (m : Mem) (b : BlockId) (ofs len : Int) : Bool :=
  (m.block? b).any (·.covers ofs len)

/-- Whether the access is in bounds and aligned. -/
def accessible (m : Mem) (c : Chunk) (b : BlockId) (ofs : Int) : Bool :=
  m.covers b ofs c.size && ofs % c.align = 0

/-- The bytes of a range, without any alignment. -/
def loadBytes? (m : Mem) (b : BlockId) (ofs len : Int) : Option (List MemByte) :=
  if m.covers b ofs len then (m.block? b).map (·.slice ofs len) else none

/-- Overwrites a range, without any alignment. -/
def storeBytes? (m : Mem) (b : BlockId) (ofs : Int) (data : List MemByte) : Option Mem :=
  if m.covers b ofs data.length then some (m.modify (Block.write ofs data) b) else none

def load? (m : Mem) (c : Chunk) (b : BlockId) (ofs : Int) : Option Val :=
  if m.accessible c b ofs then (m.loadBytes? b ofs c.size).map c.decode else none

def store? (m : Mem) (c : Chunk) (b : BlockId) (ofs : Int) (v : Val) : Option Mem :=
  if m.accessible c b ofs then m.storeBytes? b ofs (c.encode v) else none

/-- A load through a pointer. -/
def loadAt? (m : Mem) (c : Chunk) : Val → Option Val
  | .ptr b ofs => m.load? c b ofs.toInt
  | _ => none

/-- A store through a pointer. -/
def storeAt? (m : Mem) (c : Chunk) (addr v : Val) : Option Mem :=
  match addr with
  | .ptr b ofs => m.store? c b ofs.toInt v
  | _ => none

/-- Whether every pointer in a live block refers to a block allocated before. -/
def noDangling (m : Mem) : Bool :=
  m.blocks.all fun blk => blk.contents.all fun byte => byte.target?.all (· < m.nextBlock)

instance : NumEq Mem := ⟨fun a b => numEq a.blocks b.blocks⟩

end Mem

end LateIR
