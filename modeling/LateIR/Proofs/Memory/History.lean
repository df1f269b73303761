import LateIR.Proofs.Memory.InPlace

/-!
Histories of a memory. A request is an operation with any arguments, carried out in place, and
a history is any sequence of requests, whether they succeed or not. What a request can do is
said once, by `Advance`; by induction over a history it follows that its allocations get
consecutive numbers (`History.ids`), and that no block changes its bounds or comes back to life
(`History.becomes`).
-/

namespace LateIR

/-! ### Blocks over time -/

namespace Block

/-- What may become of a block: it keeps its bounds and is not revived. -/
structure Becomes (blk blk' : Block) : Prop where
  lo : blk'.lo = blk.lo
  size : blk'.size = blk.size
  live : blk'.isLive → blk.isLive

theorem Becomes.refl (blk : Block) : blk.Becomes blk := ⟨rfl, rfl, id⟩

theorem Becomes.trans {blk blk' blk'' : Block} (first : blk.Becomes blk')
    (second : blk'.Becomes blk'') : blk.Becomes blk'' :=
  ⟨second.lo.trans first.lo, second.size.trans first.size,
    fun live => first.live (second.live live)⟩

theorem becomes_write (ofs : Int) (data : List MemByte) (blk : Block) :
    blk.Becomes (blk.write ofs data) := by
  cases blk with
  | live lo bytes => exact ⟨rfl, size_overwrite bytes _ data, id⟩
  | freed lo size => exact .refl _

theorem becomes_free (blk : Block) : blk.Becomes blk.free := by
  cases blk with
  | live lo bytes => exact ⟨rfl, rfl, fun live => nomatch live⟩
  | freed lo size => exact .refl _

end Block

namespace Mem

/-! ### Requests -/

/-- An operation on memory with its arguments. -/
inductive Request where
  | alloc (lo hi : Int)
  | free (b : BlockId) (lo hi : Int)
  | store (c : Chunk) (b : BlockId) (ofs : Int) (v : Val)
  /-- A store through a pointer. -/
  | storeAt (c : Chunk) (addr v : Val)
  | storeBytes (b : BlockId) (ofs : Int) (data : List MemByte)

/-- The request in place. An allocation answers the number of its block. -/
def Request.inPlace : Request → Command (Option BlockId)
  | alloc lo hi => some <$> Command.alloc lo hi
  | free b lo hi => (fun _ => none) <$> Command.free b lo hi
  | store c b ofs v => (fun _ => none) <$> Command.store c b ofs v
  | storeAt c (.ptr b ofs) v => (fun _ => none) <$> Command.store c b ofs.toInt v
  | storeAt .. => failure
  | storeBytes b ofs data => (fun _ => none) <$> Command.storeBytes b ofs data

/-- Carries out the requests one after the other, and goes on after those that fail. Gives the
numbers that allocations answer. -/
def serve : List Request → Mem → List BlockId × Mem
  | [], m => ([], m)
  | request :: rest, m =>
      let (answer, m) := request.inPlace.runOn m
      let (ids, m) := serve rest m
      (answer.join.toList ++ ids, m)

/-- What one request can do to a memory: the block that it adds, if any, and the memory after
it. -/
inductive Advance : Option BlockId → Mem → Mem → Prop where
  | refused {m : Mem} : Advance none m m
  | alloc {m m' : Mem} {lo hi : Int} {b : BlockId} (allocated : m.alloc? lo hi = some (b, m')) :
      Advance (some b) m m'
  | free {m m' : Mem} {b : BlockId} {lo hi : Int} (freed : m.free? b lo hi = some m') :
      Advance none m m'
  | store {m m' : Mem} {b : BlockId} {ofs : Int} {data : List MemByte}
      (stored : m.storeBytes? b ofs data = some m') : Advance none m m'

/-- An operation without an answer advances the memory if its successes do. -/
theorem Advance.of_runOn {m : Mem} {command : Command Unit} {result : Option Mem}
    (runs : command.runOn m = Command.orUnchanged m (result.map ((), ·)))
    (success : ∀ m', result = some m' → Advance none m m') :
    let (answer, m') := ((fun _ => none) <$> command : Command (Option BlockId)).runOn m
    Advance answer.join m m' := by
  rw [Command.runOn_map, runs]
  cases result with
  | none => exact .refused
  | some m' => exact success m' rfl

theorem Request.advance (request : Request) (m : Mem) :
    let (answer, m') := request.inPlace.runOn m
    Advance answer.join m m' := by
  have advance_store : ∀ c b ofs v m', m.store? c b ofs v = some m' → Advance none m m' := by
    intro c b ofs v m' stored
    exact .store (store?_eq_some_iff.mp stored).2
  cases request with
  | alloc lo hi =>
      rw [inPlace, Command.runOn_map, Command.runOn_alloc]
      cases allocated : m.alloc? lo hi with
      | none => exact .refused
      | some result => exact .alloc allocated
  | free b lo hi => exact .of_runOn (Command.runOn_free b lo hi) fun _ => .free
  | store c b ofs v => exact .of_runOn (Command.runOn_store c b ofs v) (advance_store c b ofs v)
  | storeAt c addr v =>
      cases addr with
      | ptr b ofs =>
          exact .of_runOn (Command.runOn_store c b ofs.toInt v) (advance_store c b ofs.toInt v)
      | _ => exact .refused
  | storeBytes b ofs data => exact .of_runOn (Command.runOn_storeBytes b ofs data) fun _ => .store

/-- A sequence of requests: the blocks that it adds, in order, and the memories before and
after it. -/
inductive History : List BlockId → Mem → Mem → Prop where
  | start (m : Mem) : History [] m m
  | advance {answer : Option BlockId} {ids : List BlockId} {m mid m' : Mem}
      (first : Advance answer m mid) (later : History ids mid m') :
      History (answer.toList ++ ids) m m'

theorem history_serve (requests : List Request) (m : Mem) :
    History (serve requests m).1 m (serve requests m).2 := by
  induction requests generalizing m with
  | nil => exact .start m
  | cons request rest ih => exact .advance (request.advance m) (ih _)

/-! ### Numbers -/

theorem Advance.ids {answer : Option BlockId} {m m' : Mem} (advance : Advance answer m m') :
    m'.nextBlock = m.nextBlock + answer.toList.length ∧
      answer.toList = List.range' m.nextBlock answer.toList.length := by
  cases advance with
  | refused => exact ⟨rfl, rfl⟩
  | alloc allocated =>
      obtain ⟨rfl, next⟩ := nextBlock_alloc? allocated
      exact ⟨next, rfl⟩
  | free freed => exact ⟨nextBlock_free? freed, rfl⟩
  | store stored => exact ⟨nextBlock_storeBytes? stored, rfl⟩

/-- Blocks are numbered in the order of their allocation, without gaps. -/
theorem History.ids {ids : List BlockId} {m m' : Mem} (history : History ids m m') :
    m'.nextBlock = m.nextBlock + ids.length ∧ ids = List.range' m.nextBlock ids.length := by
  induction history with
  | start m => exact ⟨rfl, rfl⟩
  | advance first later ih =>
      obtain ⟨next, numbers⟩ := first.ids
      obtain ⟨next', numbers'⟩ := ih
      rw [next] at next' numbers'
      rw [List.length_append]
      refine ⟨next'.trans (Nat.add_assoc ..), ?_⟩
      rw [← List.range'_append_1, ← numbers, ← numbers']

/-! ### Bounds and death -/

theorem becomes_modify {m : Mem} {f : Block → Block} (change : ∀ blk : Block, blk.Becomes (f blk))
    {b : BlockId} (target : BlockId) {blk : Block} (here : m.block? b = some blk) :
    ∃ blk', (m.modify f target).block? b = some blk' ∧ blk.Becomes blk' := by
  rw [block?_modify, here]
  split
  · exact ⟨f blk, rfl, change blk⟩
  · exact ⟨blk, rfl, .refl blk⟩

theorem Advance.becomes {answer : Option BlockId} {m m' : Mem} (advance : Advance answer m m')
    {b : BlockId} {blk : Block} (here : m.block? b = some blk) :
    ∃ blk', m'.block? b = some blk' ∧ blk.Becomes blk' := by
  cases advance with
  | refused => exact ⟨blk, here, .refl blk⟩
  | alloc allocated =>
      obtain ⟨-, rfl, rfl⟩ := alloc?_eq_some_iff.mp allocated
      refine ⟨blk, ?_, .refl blk⟩
      rw [block?_push, if_neg, here]
      rintro rfl
      cases (block?_eq_none_of_nextBlock_le (Nat.le_refl _)).symm.trans here
  | @free _ _ target lo hi freed =>
      obtain ⟨-, rfl⟩ := free?_eq_some_iff.mp freed
      exact becomes_modify Block.becomes_free target here
  | @store _ _ target ofs data stored =>
      obtain ⟨-, rfl⟩ := storeBytes?_eq_some_iff.mp stored
      exact becomes_modify (Block.becomes_write ofs data) target here

/-- Blocks keep their bounds, and dead ones stay dead. -/
theorem History.becomes {ids : List BlockId} {m m' : Mem} (history : History ids m m')
    {b : BlockId} {blk : Block} (here : m.block? b = some blk) :
    ∃ blk', m'.block? b = some blk' ∧ blk.Becomes blk' := by
  induction history generalizing blk with
  | start m => exact ⟨blk, here, .refl blk⟩
  | advance first later ih =>
      obtain ⟨mid, there, early⟩ := first.becomes here
      obtain ⟨blk', after, late⟩ := ih there
      exact ⟨blk', after, early.trans late⟩

/-- The bounds of a block, live or freed. -/
def bounds? (m : Mem) (b : BlockId) : Option (Int × Int) :=
  (m.block? b).map fun blk => (blk.lo, blk.hi)

section

variable {m m' : Mem} {ids : List BlockId} {b : BlockId}

theorem History.bounds?_eq (history : History ids m m') {bounds : Int × Int}
    (before : m.bounds? b = some bounds) : m'.bounds? b = some bounds := by
  obtain ⟨blk, here, rfl⟩ := Option.map_eq_some_iff.mp before
  obtain ⟨blk', after, becomes⟩ := history.becomes here
  have hi : blk'.hi = blk.hi := by rw [Block.hi, Block.hi, becomes.lo, becomes.size]
  rw [bounds?, after, Option.map_some, becomes.lo, hi]

/-- What has been freed stays dead, and its number is not given again. -/
theorem History.dead_of_free? {lo hi : Int} {freed : Mem}
    (done : m.free? b lo hi = some freed) (history : History ids freed m') :
    m'.isLive b = false ∧ b ∉ ids := by
  obtain ⟨live, rfl⟩ := free?_eq_some_iff.mp done
  constructor
  · obtain ⟨blk, here, -⟩ := Option.bind_eq_some_iff.mp live
    have killed : (m.modify Block.free b).block? b = some blk.free := by
      rw [block?_modify, if_pos rfl, here, Option.map_some]
    obtain ⟨blk', after, becomes⟩ := history.becomes killed
    have still : blk'.isLive = false :=
      Bool.eq_false_iff.mpr fun live => Bool.eq_false_iff.mp blk.isLive_free (becomes.live live)
    rw [isLive, after, Option.any_some, still]
  · intro mem
    rw [history.ids.2, List.mem_range'_1, nextBlock_modify] at mem
    exact absurd mem.1 (Nat.not_le.mpr (lt_nextBlock_of_liveBounds? live))

end

end Mem

end LateIR
