import LateIR.Proofs.Memory.Refinement

/-!
The life of memory blocks. No sequence of requests, whether they succeed or not, makes an
operation index outside the contents of a block or overflow. After any of them the blocks are
sound and numbered 1, 2, 3 and so on in the order of their allocation. They keep their bounds, and
cannot be used any more once they have been freed (`block_lifecycle`).
-/

namespace LateIR.BlockStore

/-- The bounds of a block, live or freed. -/
def bounds? (s : BlockStore) (b : BlockId) : Option (Int64 × Int64) :=
  (s.block? b).map fun blk => (blk.lo, blk.hi)

/-- Whether nothing can be done with the block any more. -/
structure Refuses (s : BlockStore) (b : BlockId) : Prop where
  load : ∀ c ofs, s.load c b ofs = .ok none
  store : ∀ c ofs v, (store c b ofs v).runOn s = .ok (none, s)
  loadBytes : ∀ ofs len, s.loadBytes b ofs len = .ok none
  storeBytes : ∀ ofs data, (storeBytes b ofs data).runOn s = .ok (none, s)
  free : ∀ lo hi, (free b lo hi).runOn s = .ok (none, s)
  dead : s.isLive b = false
  invalid : ∀ ofs, s.validPointer b ofs = false

variable {s s' : BlockStore} {b : BlockId}

/-- Every operation asks first whether the block is live. -/
theorem refuses_of_dead (dead : s.isLive b = false) : s.Refuses b := by
  have live : ∀ blk, s.block? b = some blk → blk.live = false := by
    intro blk here
    rwa [isLive, here, Option.any_some] at dead
  have inaccessible : ∀ c ofs, s.accessible? c b ofs = none := by
    intro c ofs
    rw [accessible?, Option.filter_eq_none_iff]
    intro blk here
    simp [StoredBlock.covers, live blk here]
  constructor
  · intro c ofs
    rw [load, inaccessible]
    rfl
  · intro c ofs v
    rw [store, Action.runOn_get_bind, Action.runOn_ofOption_bind, inaccessible]
  · intro ofs len
    have uncovered : (s.block? b).filter (·.covers ofs len) = none := by
      rw [Option.filter_eq_none_iff]
      intro blk here
      simp [StoredBlock.covers, live blk here]
    rw [loadBytes, uncovered]
    rfl
  · intro ofs data
    rw [storeBytes, Action.runOn_get_bind, Action.runOn_ofOption_bind]
    cases here : s.block? b with
    | none => rfl
    | some blk =>
        dsimp only
        rw [Action.runOn_guard_bind, if_neg]
        simp [StoredBlock.covers, live blk here]
  · intro lo hi
    rw [free, Action.runOn_get_bind, Action.runOn_ofOption_bind]
    cases here : s.block? b with
    | none => rfl
    | some blk =>
        dsimp only
        rw [Action.runOn_guard_bind, if_neg]
        simp [live blk here]
  · exact dead
  · intro ofs
    rw [validPointer]
    cases here : s.block? b with
    | none => rfl
    | some blk => simp [live blk here]

theorem Sound.bounds?_toMem (sound : s.Sound) (b : BlockId) :
    s.toMem.bounds? b = (s.bounds? b).map fun (lo, hi) => (lo.toInt, hi.toInt) := by
  rw [Mem.bounds?, bounds?, sound.block?_toMem]
  cases here : s.block? b with
  | none => rfl
  | some blk =>
      rw [Option.map_some, Option.map_some, Option.map_some, Option.map_some, blk.lo_toBlock,
        (sound.blocks b blk here).hi_toBlock]

/-- What becomes of sound blocks when requests are carried out. -/
theorem history_of_serve {requests : List Request} {ids : List BlockId} (sound : s.Sound)
    (served : serve requests s = .ok (ids, s')) :
    s'.Sound ∧ Mem.History ids s.toMem s'.toMem := by
  obtain ⟨ids', s'', served', sound', same⟩ := serve_refines requests s sound
  cases served.symm.trans served'
  have history := Mem.history_serve (requests.map Request.toMem) s.toMem
  rw [same] at history
  exact ⟨sound', history⟩

/-- No request changes bounds. -/
theorem bounds?_of_serve {requests : List Request} {ids : List BlockId} (sound : s.Sound)
    (served : serve requests s = .ok (ids, s')) {bounds : Int64 × Int64}
    (before : s.bounds? b = some bounds) : s'.bounds? b = some bounds := by
  obtain ⟨sound', history⟩ := history_of_serve sound served
  have meant : s.toMem.bounds? b = some (bounds.1.toInt, bounds.2.toInt) := by
    rw [sound.bounds?_toMem, before, Option.map_some]
  have after := history.bounds?_eq meant
  rw [sound'.bounds?_toMem] at after
  obtain ⟨bounds', here, same⟩ := Option.map_eq_some_iff.mp after
  obtain ⟨lo, hi⟩ := Prod.mk.inj same
  rw [here, Prod.ext (Int64.toInt_inj.mp lo) (Int64.toInt_inj.mp hi)]

/-- What has been freed refuses everything from then on, and its number is not given again. -/
theorem refuses_of_serve {lo hi : Int64} {freed : BlockStore} (sound : s.Sound)
    (done : (free b lo hi).runOn s = .ok (some (), freed)) {requests : List Request}
    {ids : List BlockId} (served : serve requests freed = .ok (ids, s')) :
    s'.Refuses b ∧ b ∉ ids := by
  obtain ⟨answer, freed', ran, kept, same⟩ := free_refines b lo hi s sound
  cases done.symm.trans ran
  have released : (Mem.Change.free b lo.toInt hi.toInt).run? s.toMem = some freed.toMem :=
    Mem.Change.runOn_inPlace_eq_some_iff.mp same
  obtain ⟨sound', history⟩ := history_of_serve kept served
  obtain ⟨dead, unused⟩ := history.dead_of_free? released
  exact ⟨refuses_of_dead (by rw [sound'.isLive_toMem, dead]), unused⟩

/-- After any sequence of requests, which never break off, the allocations have got the numbers
from one on, and the blocks are sound and answer as the memory they stand for. Whatever is
requested later, blocks keep their bounds, and a block that has been freed refuses everything and
gives its number to no other block. -/
theorem block_lifecycle (requests : List Request) :
    ∃ ids s, serve requests new = .ok (ids, s) ∧ s.Sound ∧
      ids = List.range' 1 ids.length ∧ s.nextBlock = 1 + ids.length ∧
      (∀ later, ∃ ids' s', serve later s = .ok (ids', s') ∧
        ∀ b bounds, s.bounds? b = some bounds → s'.bounds? b = some bounds) ∧
      (∀ b lo hi freed, (free b lo hi).runOn s = .ok (some (), freed) →
        ∀ later, ∃ ids' s', serve later freed = .ok (ids', s') ∧ s'.Refuses b ∧ b ∉ ids') ∧
      Mem.serve (requests.map Request.toMem) .empty = (ids, s.toMem) ∧ s.AnswersAs s.toMem := by
  obtain ⟨ids, s, served, sound, same⟩ := serve_refines requests new sound_new
  obtain ⟨-, history⟩ := history_of_serve sound_new served
  obtain ⟨next, numbers⟩ := history.ids
  rw [toMem_new] at same
  rw [sound.nextBlock_toMem] at next
  refine ⟨ids, s, served, sound, numbers, next, ?_, ?_, same, sound.answersAs⟩
  · intro later
    obtain ⟨ids', s', served', -⟩ := serve_refines later s sound
    exact ⟨ids', s', served', fun b bounds => bounds?_of_serve sound served'⟩
  · intro b lo hi freed done later
    obtain ⟨answer, freed', ran, kept, -⟩ := free_refines b lo hi s sound
    cases done.symm.trans ran
    obtain ⟨ids', s', served', -⟩ := serve_refines later freed kept
    exact ⟨ids', s', served', refuses_of_serve sound done served'⟩

/-! Two blocks, with requests that fail in between. -/

/-- The first block has its bounds in the wrong order, and no block is as large as all words. -/
def eventful : List Request :=
  [.alloc 8 0, .store .int32 1 8 (.int 1), .alloc (-8) 8, .alloc Int64.minValue Int64.maxValue,
    .free 2 0 8, .storeBytes 2 Int64.maxValue [.byte 0, .byte 0] (by decide),
    .storeAt .int64 (.ptr 2 (-8)) (.ptr 2 0)]

theorem block_lifecycle_eventful :
    ∃ s freed, serve eventful new = .ok ([1, 2], s) ∧ s.Sound ∧
      (free 2 (-8) 8).runOn s = .ok (some (), freed) ∧
      ∃ ids s', serve (eventful ++ eventful) freed = .ok (ids, s') ∧ s'.Refuses 2 ∧ 2 ∉ ids := by
  obtain ⟨s, freed, served, done⟩ : ∃ s freed, serve eventful new = .ok ([1, 2], s) ∧
      (free 2 (-8) 8).runOn s = .ok (some (), freed) := ⟨_, _, rfl, rfl⟩
  obtain ⟨ids, s', served', sound, -, -, -, final, -⟩ := block_lifecycle eventful
  cases served.symm.trans served'
  exact ⟨s, freed, served, sound, done, final 2 (-8) 8 freed done (eventful ++ eventful)⟩

end LateIR.BlockStore
